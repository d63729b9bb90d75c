import FirDemo.Threads
import Mathlib.Algebra.Order.Group.Multiset
import Mathlib.Algebra.BigOperators.Group.List.Basic

/-!
# What a program holds

An `Account` says which resources an operation gives back, which it needs to be there, and which
it takes with an answer. A program `Settles` a postcondition if, whatever the operations answer,
it frees only what it holds, uses nothing that is gone, and returns in the postcondition : no
double free, no use after free, and no leak where the postcondition holds no more than the
result.

Programs are checked function by function, with what a function touches : the rest is framed
(`Settles.frame`), functions compose (`settles_bind_iff`), and a list of releases settles with
the sum of its parts (`settles_forEach`). A program over operations that are programs themselves
settles if it settles by what they are accounted for (`Settles.interpret`).
-/

namespace Ledger

open Threads

/-- What an operation gives back, needs, and takes with an answer. -/
structure Account {Op : Type} (Ans : Op → Type) (ρ : Type) where
  frees : Op → Multiset ρ
  uses : Op → Multiset ρ
  takes : (o : Op) → Ans o → Multiset ρ

namespace Account

variable {Op : Type} {Ans : Op → Type} {ρ β γ : Type} (A : Account Ans ρ)

/-- Whatever the answers, the program frees and uses only what it holds, and returns with `Q`. -/
def Settles (Q : β → Multiset ρ → Prop) : Prog Ans β → Multiset ρ → Prop
  | .ret b, m => Q b m
  | .call o k, m => ∃ rest, m = A.frees o + rest ∧ A.uses o ≤ rest ∧
      ∀ x, Settles Q (k x) (A.takes o x + rest)

variable {A} {Q : β → Multiset ρ → Prop} {m : Multiset ρ}

/-- An operation settles if what it frees and uses is held. -/
theorem settles_call {o : Op} {k : Ans o → Prog Ans β} {rest : Multiset ρ}
    (hm : m = A.frees o + rest) (huses : A.uses o ≤ rest)
    (hk : ∀ x, A.Settles Q (k x) (A.takes o x + rest)) : A.Settles Q (.call o k) m :=
  ⟨rest, hm, huses, hk⟩

/-- A call that frees nothing. -/
theorem settles_take {o : Op} {k : Ans o → Prog Ans β} (hfrees : A.frees o = 0)
    (huses : A.uses o ≤ m) (hk : ∀ x, A.Settles Q (k x) (A.takes o x + m)) :
    A.Settles Q (.call o k) m :=
  settles_call (by rw [hfrees, zero_add]) huses hk

/-- A call that takes nothing. -/
theorem settles_free {o : Op} {k : Ans o → Prog Ans β} (rest : Multiset ρ)
    (hm : m = A.frees o + rest) (huses : A.uses o ≤ rest) (htakes : ∀ x, A.takes o x = 0)
    (hk : ∀ x, A.Settles Q (k x) rest) : A.Settles Q (.call o k) m :=
  settles_call hm huses fun x => by
    rw [htakes x, zero_add]
    exact hk x

/-- A call that only needs what it uses. -/
theorem settles_use {o : Op} {k : Ans o → Prog Ans β} (huses : A.uses o ≤ m)
    (hfrees : A.frees o = 0) (htakes : ∀ x, A.takes o x = 0)
    (hk : ∀ x, A.Settles Q (k x) m) : A.Settles Q (.call o k) m :=
  settles_free m (by rw [hfrees, zero_add]) huses htakes hk

/-- What a call that takes nothing leaves. -/
theorem Settles.of_free {o : Op} {k : Ans o → Prog Ans β} (h : A.Settles Q (.call o k) m)
    (htakes : ∀ x, A.takes o x = 0) :
    ∃ rest, m = A.frees o + rest ∧ ∀ x, A.Settles Q (k x) rest := by
  obtain ⟨rest, hm, -, hk⟩ := h
  refine ⟨rest, hm, fun x => ?_⟩
  have hx := hk x
  rwa [htakes x, zero_add] at hx

/-- What a call that only uses needs. -/
theorem Settles.of_use {o : Op} {k : Ans o → Prog Ans β} (h : A.Settles Q (.call o k) m)
    (hfrees : A.frees o = 0) (htakes : ∀ x, A.takes o x = 0) :
    A.uses o ≤ m ∧ ∀ x, A.Settles Q (k x) m := by
  obtain ⟨rest, hm, huses, hk⟩ := h
  rw [hfrees, zero_add] at hm
  refine ⟨hm ▸ huses, fun x => ?_⟩
  have hx := hk x
  rwa [htakes x, zero_add, ← hm] at hx

/-- What is left after an operation is determined. -/
theorem Settles.call {o : Op} {k : Ans o → Prog Ans β} (h : A.Settles Q (.call o k) m)
    {rest : Multiset ρ} (hm : m = A.frees o + rest) (x : Ans o) :
    A.Settles Q (k x) (A.takes o x + rest) := by
  obtain ⟨rest', heq, -, hk⟩ := h
  rw [add_left_cancel (hm.symm.trans heq)]
  exact hk x

/-- Programs compose. -/
theorem settles_bind_iff {R : γ → Multiset ρ → Prop} {f : β → Prog Ans γ} {p : Prog Ans β} :
    A.Settles R (p >>= f) m ↔ A.Settles (fun b n => A.Settles R (f b) n) p m := by
  induction p generalizing m with
  | ret b => exact Iff.rfl
  | call o k ih =>
    constructor
    · rintro ⟨rest, hm, huses, hk⟩
      exact ⟨rest, hm, huses, fun x => (ih x).mp (hk x)⟩
    · rintro ⟨rest, hm, huses, hk⟩
      exact ⟨rest, hm, huses, fun x => (ih x).mpr (hk x)⟩

/-- The postcondition may be weakened. -/
theorem Settles.mono {Q' : β → Multiset ρ → Prop} (hQ : ∀ b n, Q b n → Q' b n)
    {p : Prog Ans β} (h : A.Settles Q p m) : A.Settles Q' p m := by
  induction p generalizing m with
  | ret b => exact hQ b m h
  | call o k ih =>
    obtain ⟨rest, hm, huses, hk⟩ := h
    exact ⟨rest, hm, huses, fun x => ih x (hk x)⟩

/-- What comes second starts from what comes first. -/
theorem Settles.bind {R : γ → Multiset ρ → Prop} {g : β → Prog Ans γ} {p : Prog Ans β}
    (h : A.Settles Q p m) (hg : ∀ b n, Q b n → A.Settles R (g b) n) :
    A.Settles R (p >>= g) m :=
  settles_bind_iff.mpr (h.mono hg)

/-- What the first program leaves is known from its result. -/
theorem Settles.bind_eq {R : γ → Multiset ρ → Prop} {g : β → Prog Ans γ} {f : β → Multiset ρ}
    {p : Prog Ans β} (h : A.Settles (fun b n => n = f b) p m)
    (hg : ∀ b, A.Settles R (g b) (f b)) : A.Settles R (p >>= g) m :=
  h.bind fun b n hn => by rw [hn]; exact hg b

/-- A program leaves alone what else is held. -/
theorem Settles.frame (f : Multiset ρ) {p : Prog Ans β} (h : A.Settles Q p m) :
    A.Settles (fun b n => ∃ n', n = n' + f ∧ Q b n') p (m + f) := by
  induction p generalizing m with
  | ret b => exact ⟨m, rfl, h⟩
  | call o k ih =>
    obtain ⟨rest, rfl, huses, hk⟩ := h
    refine ⟨rest + f, add_assoc .., huses.trans (Multiset.le_add_right ..), fun x => ?_⟩
    rw [← add_assoc]
    exact ih x (hk x)

/-- A function in a program that holds `f` besides. -/
theorem Settles.bind_frame {R : γ → Multiset ρ → Prop} {g : β → Prog Ans γ} {p : Prog Ans β}
    (f : Multiset ρ) (h : A.Settles Q p m) (hg : ∀ b n, Q b n → A.Settles R (g b) (n + f)) :
    A.Settles R (p >>= g) (m + f) := by
  refine settles_bind_iff.mpr ((h.frame f).mono ?_)
  rintro b _ ⟨n, rfl, hn⟩
  exact hg b n hn

/-- The same program for each element. -/
def forEach {α : Type} (p : α → Prog Ans Unit) : List α → Prog Ans Unit
  | [] => return ()
  | a :: l => do
    p a
    forEach p l

/-- Each element gives back its part. -/
theorem settles_forEach {α : Type} {p : α → Prog Ans Unit} {r : α → Multiset ρ}
    (hp : ∀ a, A.Settles (fun _ n => n = m) (p a) (r a + m)) (l : List α) :
    A.Settles (fun _ n => n = m) (forEach p l) ((l.map r).sum + m) := by
  induction l with
  | nil => exact zero_add m
  | cons a l ih =>
    rw [List.map_cons, List.sum_cons, add_right_comm]
    refine (hp a).bind_frame (l.map r).sum fun _ n hn => ?_
    rw [hn, add_comm]
    exact ih

/-- Each element leaves what is held. -/
theorem forEach_keeps {α : Type} {p : α → Prog Ans Unit} {l : List α}
    (hp : ∀ a ∈ l, A.Settles (fun _ n => n = m) (p a) m) :
    A.Settles (fun _ n => n = m) (forEach p l) m := by
  induction l with
  | nil => exact rfl
  | cons a l ih =>
    obtain ⟨ha, hl⟩ := List.forall_mem_cons.mp hp
    exact ha.bind fun _ n hn => hn ▸ ih hl

/-- Where each operation is a program that settles as it is accounted for, so is the whole. -/
theorem Settles.interpret {Op' : Type} {Ans' : Op' → Type} {A' : Account Ans' ρ}
    {f : (o : Op') → Prog Ans (Ans' o)}
    (hf : ∀ o rest, A'.uses o ≤ rest →
      A.Settles (fun x n => n = A'.takes o x + rest) (f o) (A'.frees o + rest))
    {p : Prog Ans' β} (h : A'.Settles Q p m) : A.Settles Q (p.interpret f) m := by
  induction p generalizing m with
  | ret b => exact h
  | call o k ih =>
    obtain ⟨rest, rfl, huses, hk⟩ := h
    refine (hf o rest huses).bind_eq fun x => ?_
    exact ih x (hk x)

end Account

end Ledger
