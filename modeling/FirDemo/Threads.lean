import Mathlib.Logic.Function.Basic
import Mathlib.Logic.Relation
import Mathlib.Tactic.Common

/-!
# Threads that share a state

A program calls operations and goes on with their answers (`Prog`). A `System` says what an
operation of a thread does to the shared state and may answer, what its environment does,
and when either of them faults. Threads run requests, and their operations and the steps of
the environment interleave in any order (`Step`).

A `Contract` is an invariant, what each thread guarantees of its own steps, and what it
leaves when it returns. A program `Meets` it if every operation, from any state that the
other threads and the environment can have made, does not fault, keeps the invariant and the
guarantee, and goes on with a program that meets it. Programs are checked by triples of stable
assertions (`triple_ret`, `triple_perform`, `Triple.bind`). If all requests meet the contract
(`Contract.Valid`), no interleaving faults (`Contract.Valid.not_faulty`).

The other way round, a program `May` get to a point if some answers and some steps of the
environment lead it there without a fault, whatever the other threads have left to do
(`Reachable.of_serves`).
-/

namespace Threads

/-! ## Programs -/

/-- A program that calls operations and returns a value. -/
inductive Prog {Op : Type} (Ans : Op → Type) (α : Type) : Type
  | ret (a : α)
  | call (o : Op) (k : Ans o → Prog Ans α)

namespace Prog

variable {Op : Type} {Ans : Op → Type} {α β γ : Type}

/-- Goes on with the result. -/
def bind : Prog Ans α → (α → Prog Ans β) → Prog Ans β
  | ret a, f => f a
  | call o k, f => call o fun x => (k x).bind f

instance : Monad (Prog Ans) where
  pure := ret
  bind := bind

/-- One operation. -/
def perform (o : Op) : Prog Ans (Ans o) :=
  call o ret

/-- A program that does nothing. -/
@[simp] theorem pure_eq (a : α) : (pure a : Prog Ans α) = ret a :=
  rfl

/-- A program that is over goes on with the next. -/
@[simp] theorem ret_bind (a : α) (f : α → Prog Ans β) : ret a >>= f = f a :=
  rfl

/-- A program goes on after its first operation. -/
@[simp] theorem call_bind (o : Op) (k : Ans o → Prog Ans α) (f : α → Prog Ans β) :
    call o k >>= f = call o fun x => k x >>= f :=
  rfl

/-- One operation, and then the next program. -/
@[simp] theorem perform_bind (o : Op) (f : Ans o → Prog Ans β) : perform o >>= f = call o f :=
  rfl

/-- A program over other operations, where each operation is a program itself. -/
def interpret {Op' : Type} {Ans' : Op' → Type} (f : (o : Op) → Prog Ans' (Ans o)) :
    Prog Ans α → Prog Ans' α
  | ret a => ret a
  | call o k => f o >>= fun x => (k x).interpret f

end Prog

/-! ## Interleavings -/

/-- What requests, operations and the environment do to the shared state. -/
structure System (ι σ Req : Type) {Op : Type} (Ans : Op → Type) (α : Type) where
  code : Req → Prog Ans α
  start : ι → Req → σ → σ → Prop
  exec : ι → (o : Op) → σ → Ans o → σ → Prop
  finish : ι → α → σ → σ → Prop
  env : σ → σ → Prop
  faults : ι → Op → σ → Prop
  envFaults : σ → Prop

/-- The shared state, and what is left of the program of each thread that runs one. -/
structure Config (ι σ : Type) {Op : Type} (Ans : Op → Type) (α : Type) where
  state : σ
  thread : ι → Option (Prog Ans α)

section steps

variable {ι σ Req Op : Type} [DecidableEq ι] {Ans : Op → Type} {α : Type}
  (S : System ι σ Req Ans α) (allowed : ι → Req → σ → Prop)

/-- One step of a thread or of the environment. Requests start when they are allowed. -/
inductive Step : Config ι σ Ans α → Config ι σ Ans α → Prop
  | start {c : Config ι σ Ans α} {t : ι} {r : Req} {s : σ} (hidle : c.thread t = none)
      (hallowed : allowed t r c.state) (h : S.start t r c.state s) :
      Step c ⟨s, Function.update c.thread t (some (S.code r))⟩
  | exec {c : Config ι σ Ans α} {t : ι} {o : Op} {k : Ans o → Prog Ans α} {x : Ans o} {s : σ}
      (hrun : c.thread t = some (.call o k)) (h : S.exec t o c.state x s) :
      Step c ⟨s, Function.update c.thread t (some (k x))⟩
  | finish {c : Config ι σ Ans α} {t : ι} {a : α} {s : σ}
      (hrun : c.thread t = some (.ret a)) (h : S.finish t a c.state s) :
      Step c ⟨s, Function.update c.thread t none⟩
  | env {c : Config ι σ Ans α} {s : σ} (h : S.env c.state s) : Step c ⟨s, c.thread⟩

/-- The configurations that interleavings lead to from a state without running threads. -/
def Reachable (s₀ : σ) (c : Config ι σ Ans α) : Prop :=
  Relation.ReflTransGen (Step S allowed) ⟨s₀, fun _ => none⟩ c

/-- The configuration where `t` has a program left, in another state. -/
def Config.runs (c : Config ι σ Ans α) (t : ι) (p : Prog Ans α) (s : σ) : Config ι σ Ans α :=
  ⟨s, Function.update c.thread t (some p)⟩

section runs

variable {S allowed} {s₀ : σ} {c : Config ι σ Ans α} {t : ι}

/-- An idle thread may start an allowed request. -/
theorem Reachable.start (h : Reachable S allowed s₀ c) (hidle : c.thread t = none) {r : Req}
    (hallowed : allowed t r c.state) {s : σ} (hstart : S.start t r c.state s) :
    Reachable S allowed s₀ (c.runs t (S.code r) s) :=
  h.tail (.start hidle hallowed hstart)

/-- A thread may perform its operation. -/
theorem Reachable.exec {o : Op} {k : Ans o → Prog Ans α} {s s' : σ} {x : Ans o}
    (h : Reachable S allowed s₀ (c.runs t (.call o k) s)) (hexec : S.exec t o s x s') :
    Reachable S allowed s₀ (c.runs t (k x) s') := by
  have hstep : Step S allowed (c.runs t (.call o k) s) _ :=
    .exec (Function.update_self t _ _) hexec
  simp only [Config.runs, Function.update_idem] at hstep
  exact h.tail hstep

/-- The environment may step. -/
theorem Reachable.env {p : Prog Ans α} {s s' : σ} (h : Reachable S allowed s₀ (c.runs t p s))
    (henv : S.env s s') : Reachable S allowed s₀ (c.runs t p s') :=
  h.tail (.env henv)

end runs

/-- A next step faults. -/
def Faulty (c : Config ι σ Ans α) : Prop :=
  S.envFaults c.state ∨
    ∃ t o k, c.thread t = some (.call o k) ∧ S.faults t o c.state

end steps

/-! ## Runs of one thread -/

section solo

variable {ι σ Req Op : Type} {Ans : Op → Type} {α β γ : Type} (S : System ι σ Req Ans α)

/-- A step of a program of `t` that does not fault, or of the environment. -/
inductive SoloStep (t : ι) : Prog Ans β × σ → Prog Ans β × σ → Prop
  | exec {o : Op} {k : Ans o → Prog Ans β} {x : Ans o} {s s' : σ} (hsafe : ¬S.faults t o s)
      (h : S.exec t o s x s') : SoloStep t (.call o k, s) (k x, s')
  | env {p : Prog Ans β} {s s' : σ} (h : S.env s s') : SoloStep t (p, s) (p, s')

/-- Where `t` and the environment alone bring a program and the state. -/
def Solo (t : ι) : Prog Ans β × σ → Prog Ans β × σ → Prop :=
  Relation.ReflTransGen (SoloStep S t)

/-- `t` and the environment alone may bring the program to a point with `P`. -/
def May (t : ι) (P : Prog Ans β → σ → Prop) (p : Prog Ans β) (s : σ) : Prop :=
  ∃ q s', Solo S t (p, s) (q, s') ∧ P q s'

/-- The program has returned, with `Q`. -/
def Returned (Q : β → σ → Prop) : Prog Ans β → σ → Prop
  | .ret b, s => Q b s
  | .call _ _, _ => False

/-- The program calls an operation next, with `F`. -/
def Calling (F : Op → σ → Prop) : Prog Ans β → σ → Prop
  | .ret _, _ => False
  | .call o _, s => F o s

/-- From a configuration, `t` starts the request and gets to a program and a state by its own steps
and those of the environment, without a fault. -/
def Config.Serves (allowed : ι → Req → σ → Prop) (c : Config ι σ Ans α) (t : ι) (r : Req)
    (q : Prog Ans α) (s' : σ) : Prop :=
  c.thread t = none ∧ allowed t r c.state ∧
    ∃ s, S.start t r c.state s ∧ Solo S t (S.code r, s) (q, s')

variable {S} {t : ι} {P P' : Prog Ans β → σ → Prop} {Q : β → σ → Prop} {s s' : σ}

/-- A run of a program is one of a program that goes on with its result. -/
theorem Solo.bind {p q : Prog Ans β} (h : Solo S t (p, s) (q, s')) (f : β → Prog Ans γ) :
    Solo S t (p >>= f, s) (q >>= f, s') :=
  Relation.ReflTransGen.lift (fun c : Prog Ans β × σ => (c.1 >>= f, c.2))
    (fun _ _ hstep => by
      cases hstep with
      | exec hsafe hexec => exact .exec hsafe hexec
      | env henv => exact .env henv) _ _ h

/-- The property holds already. -/
theorem may_here {p : Prog Ans β} (h : P p s) : May S t P p s :=
  ⟨p, s, .refl, h⟩

/-- A program that is over returned. -/
theorem may_ret {b : β} (h : Q b s) : May S t (Returned Q) (.ret b) s :=
  may_here h

/-- What holds after steps alone may hold. -/
theorem May.of_solo {p q : Prog Ans β} (hsolo : Solo S t (p, s) (q, s')) (h : May S t P q s') :
    May S t P p s := by
  obtain ⟨q', s'', hrest, hP⟩ := h
  exact ⟨q', s'', hsolo.trans hrest, hP⟩

/-- An operation that does not fault may be performed. -/
theorem may_call {o : Op} {k : Ans o → Prog Ans β} (x : Ans o) (hsafe : ¬S.faults t o s)
    (hexec : S.exec t o s x s') (h : May S t P (k x) s') : May S t P (.call o k) s :=
  .of_solo (.single (.exec hsafe hexec)) h

/-- The environment may step first. -/
theorem May.of_env {p : Prog Ans β} (henv : S.env s s') (h : May S t P p s') : May S t P p s :=
  .of_solo (.single (.env henv)) h

/-- The property may be weakened. -/
theorem May.mono (hP : ∀ q s', P q s' → P' q s') {p : Prog Ans β} (h : May S t P p s) :
    May S t P' p s := by
  obtain ⟨q, s', hsolo, hq⟩ := h
  exact ⟨q, s', hsolo, hP q s' hq⟩

/-- The program may return, and what follows may go on. -/
theorem May.bind {R : Prog Ans γ → σ → Prop} {f : β → Prog Ans γ} {p : Prog Ans β}
    (h : May S t (Returned Q) p s) (hf : ∀ b s', Q b s' → May S t R (f b) s') :
    May S t R (p >>= f) s := by
  obtain ⟨q, s', hsolo, hq⟩ := h
  cases q with
  | ret b => exact .of_solo (hsolo.bind f) (hf b s' hq)
  | call o k => exact hq.elim

/-- What the program may call, it may call before what follows. -/
theorem May.bind_calling {F : Op → σ → Prop} {f : β → Prog Ans γ} {p : Prog Ans β}
    (h : May S t (Calling F) p s) : May S t (Calling F) (p >>= f) s := by
  obtain ⟨q, s', hsolo, hq⟩ := h
  cases q with
  | ret b => exact hq.elim
  | call o k => exact ⟨_, s', hsolo.bind f, hq⟩

/-- The program may get to a state with `A` and return from there, and what follows may go on. -/
theorem May.bind_through {A : σ → Prop} {R : γ → σ → Prop} {f : β → Prog Ans γ} {p : Prog Ans β}
    (h : May S t (fun q s₁ => A s₁ ∧ May S t (Returned Q) q s₁) p s)
    (hf : ∀ b s', Q b s' → May S t (Returned R) (f b) s') :
    May S t (fun q s₁ => A s₁ ∧ May S t (Returned R) q s₁) (p >>= f) s := by
  obtain ⟨q, s₁, hsolo, hA, hret⟩ := h
  exact ⟨_, s₁, hsolo.bind f, hA, hret.bind hf⟩

section reachable

variable [DecidableEq ι] {allowed : ι → Req → σ → Prop} {s₀ : σ} {c : Config ι σ Ans α}

/-- Runs of one thread are runs of the system. -/
theorem Reachable.of_solo {p q : Prog Ans α} (h : Reachable S allowed s₀ (c.runs t p s))
    (hsolo : Solo S t (p, s) (q, s')) : Reachable S allowed s₀ (c.runs t q s') := by
  have hsteps : ∀ a : Prog Ans α × σ, Solo S t (p, s) a →
      Reachable S allowed s₀ (c.runs t a.1 a.2) := by
    intro a ha
    induction ha with
    | refl => exact h
    | tail _ hstep ih =>
      cases hstep with
      | exec _ hexec => exact ih.exec hexec
      | env henv => exact ih.env henv
  exact hsteps _ hsolo

/-- A thread that runs alone from a reachable configuration stays in one. -/
theorem Reachable.of_serves (h : Reachable S allowed s₀ c) {r : Req} {q : Prog Ans α}
    (hserves : c.Serves S allowed t r q s') : Reachable S allowed s₀ (c.runs t q s') := by
  obtain ⟨hidle, hallowed, s, hstart, hsolo⟩ := hserves
  exact (h.start hidle hallowed hstart).of_solo hsolo

end reachable

end solo

/-! ## Contracts -/

/-- An invariant, a guarantee for each thread, and what a thread leaves when it returns. -/
structure Contract (ι σ α : Type) where
  inv : σ → Prop
  guar : ι → σ → σ → Prop
  post : ι → α → σ → Prop

namespace Contract

variable {ι σ Req Op : Type} {Ans : Op → Type} {α β : Type}
  (C : Contract ι σ α) (S : System ι σ Req Ans α)

/-- A step that another thread or the environment may make while `t` runs. -/
def Interferes (t : ι) (s s' : σ) : Prop :=
  C.inv s ∧ C.inv s' ∧ (S.env s s' ∨ ∃ u, u ≠ t ∧ C.guar u s s')

/-- Any number of them. -/
def Rely (t : ι) : σ → σ → Prop :=
  Relation.ReflTransGen (C.Interferes S t)

/-- What the other threads and the environment do not destroy. -/
def Stable (t : ι) (P : σ → Prop) : Prop :=
  ∀ s s', C.Interferes S t s s' → P s → P s'

/-- The rest of a program of `t` keeps the contract, and returns in states with `Q`. -/
def Meets (t : ι) (Q : β → σ → Prop) : Prog Ans β → σ → Prop
  | .ret b, s => ∀ s', C.Rely S t s s' → C.inv s' → Q b s'
  | .call o k, s => ∀ s', C.Rely S t s s' → C.inv s' →
      ¬S.faults t o s' ∧ ∀ x s'', S.exec t o s' x s'' →
        C.inv s'' ∧ C.guar t s' s'' ∧ Meets t Q (k x) s''

variable {C S} {t : ι} {P : σ → Prop} {Q : β → σ → Prop}

/-- The second fact may rely on the first. -/
theorem Stable.and {P' : σ → Prop} (hP : C.Stable S t P)
    (hP' : ∀ s s', C.Interferes S t s s' → P s → P' s → P' s') :
    C.Stable S t fun s => P s ∧ P' s :=
  fun s s' h hs => ⟨hP s s' h hs.1, hP' s s' h hs.1 hs.2⟩

/-- A stable fact outlasts any interference. -/
theorem Stable.rely (hP : C.Stable S t P) {s s' : σ} (h : C.Rely S t s s') (hs : P s) : P s' := by
  induction h with
  | refl => exact hs
  | tail _ hstep ih => exact hP _ _ hstep ih

/-- So does what a program meets. -/
theorem Meets.rely {p : Prog Ans β} {s s' : σ} (hp : C.Meets S t Q p s)
    (h : C.Rely S t s s') : C.Meets S t Q p s' := by
  cases p with
  | ret b => exact fun s'' h' => hp s'' (h.trans h')
  | call o k => exact fun s'' h' => hp s'' (h.trans h')

/-- Programs compose : the second starts where the first returns. -/
theorem meets_bind {γ : Type} {R : γ → σ → Prop} {f : β → Prog Ans γ} {p : Prog Ans β} {s : σ}
    (hinv : C.inv s) (hp : C.Meets S t (fun b s' => C.Meets S t R (f b) s') p s) :
    C.Meets S t R (p >>= f) s := by
  induction p generalizing s with
  | ret b => exact hp s .refl hinv
  | call o k ih =>
    intro s' h hinv'
    obtain ⟨hsafe, hstep⟩ := hp s' h hinv'
    refine ⟨hsafe, fun x s'' hexec => ?_⟩
    obtain ⟨hinv'', hguar, hk⟩ := hstep x s'' hexec
    exact ⟨hinv'', hguar, ih x hinv'' hk⟩

/-- The postcondition may be weakened. -/
theorem Meets.mono {Q' : β → σ → Prop} (hQ : ∀ b s, C.inv s → Q b s → Q' b s) {p : Prog Ans β}
    {s : σ} (hp : C.Meets S t Q p s) : C.Meets S t Q' p s := by
  induction p generalizing s with
  | ret b => exact fun s' h hinv => hQ b s' hinv (hp s' h hinv)
  | call o k ih =>
    intro s' h hinv
    obtain ⟨hsafe, hstep⟩ := hp s' h hinv
    refine ⟨hsafe, fun x s'' hexec => ?_⟩
    obtain ⟨hinv', hguar, hk⟩ := hstep x s'' hexec
    exact ⟨hinv', hguar, ih x hk⟩

/-- A value that is computed from the result. -/
theorem Meets.map {γ : Type} {R : γ → σ → Prop} (f : β → γ) {p : Prog Ans β} {s : σ}
    (hp : C.Meets S t (fun b => R (f b)) p s) : C.Meets S t R (p >>= fun b => .ret (f b)) s := by
  induction p generalizing s with
  | ret b => exact hp
  | call o k ih =>
    intro s' h hinv
    obtain ⟨hsafe, hstep⟩ := hp s' h hinv
    refine ⟨hsafe, fun x s'' hexec => ?_⟩
    obtain ⟨hinv', hguar, hk⟩ := hstep x s'' hexec
    exact ⟨hinv', hguar, ih x hk⟩

variable (C S) in
/-- From a state with `P`, the program meets the contract and returns with `Q`. -/
def Triple (t : ι) (P : σ → Prop) (p : Prog Ans β) (Q : β → σ → Prop) : Prop :=
  ∀ s, C.inv s → P s → C.Meets S t Q p s

variable (C S) in
/-- From a state with `P`, the operation is safe and leads to states with `Q`. -/
def Performs (t : ι) (P : σ → Prop) (o : Op) (Q : Ans o → σ → Prop) : Prop :=
  ∀ s, C.inv s → P s → ¬S.faults t o s ∧
    ∀ x s', S.exec t o s x s' → C.inv s' ∧ C.guar t s s' ∧ Q x s'

/-- A program that is over. -/
theorem triple_ret {b : β} (hP : C.Stable S t P) (hQ : ∀ s, C.inv s → P s → Q b s) :
    C.Triple S t P (.ret b) Q :=
  fun _ _ hs _ h hinv => hQ _ hinv (hP.rely h hs)

/-- One operation. -/
theorem triple_perform {o : Op} {Q : Ans o → σ → Prop} (hP : C.Stable S t P)
    (hQ : ∀ x, C.Stable S t (Q x)) (ho : C.Performs S t P o Q) :
    C.Triple S t P (Prog.perform o) Q := by
  intro s _ hs s' h hinv
  obtain ⟨hsafe, hstep⟩ := ho s' hinv (hP.rely h hs)
  refine ⟨hsafe, fun x s'' hexec => ?_⟩
  obtain ⟨hinv', hguar, hx⟩ := hstep x s'' hexec
  exact ⟨hinv', hguar, fun s₃ h' _ => (hQ x).rely h' hx⟩

/-- One program after the other. -/
theorem Triple.bind {γ : Type} {R : γ → σ → Prop} {f : β → Prog Ans γ} {p : Prog Ans β}
    (hp : C.Triple S t P p Q) (hf : ∀ b, C.Triple S t (Q b) (f b) R) :
    C.Triple S t P (p >>= f) R :=
  fun s hinv hs => meets_bind hinv ((hp s hinv hs).mono fun b s' hinv' hb => hf b s' hinv' hb)

/-- A value that is computed from the result. -/
theorem Triple.map {γ : Type} {R : γ → σ → Prop} (f : β → γ) {p : Prog Ans β}
    (hp : C.Triple S t P p fun b => R (f b)) : C.Triple S t P (p >>= fun b => .ret (f b)) R :=
  fun s hinv hs => (hp s hinv hs).map f

/-- A fact that does not depend on the state. -/
theorem triple_of_fact {a : Prop} {p : Prog Ans β} (h : a → C.Triple S t P p Q) :
    C.Triple S t (fun s => a ∧ P s) p Q :=
  fun s hinv hs => h hs.1 s hinv hs.2

/-- The rule of consequence. -/
theorem Triple.conseq {P' : σ → Prop} {Q' : β → σ → Prop} {p : Prog Ans β}
    (hp : C.Triple S t P p Q) (hP : ∀ s, C.inv s → P' s → P s)
    (hQ : ∀ b s, C.inv s → Q b s → Q' b s) : C.Triple S t P' p Q' :=
  fun s hinv hs => (hp s hinv (hP s hinv hs)).mono hQ

/-- Every request that is allowed meets the contract, and the environment keeps to it. -/
structure Valid (C : Contract ι σ α) (S : System ι σ Req Ans α)
    (allowed : ι → Req → σ → Prop) : Prop where
  start : ∀ t r s s', C.inv s → allowed t r s → S.start t r s s' →
    C.inv s' ∧ C.guar t s s' ∧ C.Meets S t (C.post t) (S.code r) s'
  finish : ∀ t a s s', C.inv s → C.post t a s → S.finish t a s s' → C.inv s' ∧ C.guar t s s'
  env : ∀ s s', C.inv s → S.env s s' → C.inv s'
  envSafe : ∀ s, C.inv s → ¬S.envFaults s

namespace Valid

variable [DecidableEq ι] {D : Contract ι σ α} {allowed : ι → Req → σ → Prop}
  (hD : D.Valid S allowed)
include hD

/-- A step keeps the invariant and what each thread has left to meet. -/
theorem step {c c' : Config ι σ Ans α} (h : Step S allowed c c') (hinv : D.inv c.state)
    (hmeets : ∀ t p, c.thread t = some p → D.Meets S t (D.post t) p c.state) :
    D.inv c'.state ∧
      ∀ t p, c'.thread t = some p → D.Meets S t (D.post t) p c'.state := by
  have hothers : ∀ {t : ι} {q : Option (Prog Ans α)} {s : σ}, D.inv s → D.guar t c.state s →
      (∀ p, q = some p → D.Meets S t (D.post t) p s) →
      ∀ u p, Function.update c.thread t q u = some p → D.Meets S u (D.post u) p s := by
    intro t q s hinv' hguar hself u p hp
    by_cases hu : u = t
    · subst hu
      rw [Function.update_self] at hp
      exact hself p hp
    · rw [Function.update_of_ne hu] at hp
      exact (hmeets u p hp).rely (.single ⟨hinv, hinv', Or.inr ⟨t, Ne.symm hu, hguar⟩⟩)
  cases h with
  | start hidle hallowed hstart =>
    obtain ⟨hinv', hguar, hcode⟩ := hD.start _ _ _ _ hinv hallowed hstart
    exact ⟨hinv', hothers hinv' hguar fun p hp => Option.some.inj hp ▸ hcode⟩
  | exec hrun hexec =>
    obtain ⟨-, hstep⟩ := hmeets _ _ hrun _ .refl hinv
    obtain ⟨hinv', hguar, hk⟩ := hstep _ _ hexec
    exact ⟨hinv', hothers hinv' hguar fun p hp => Option.some.inj hp ▸ hk⟩
  | finish hrun hfinish =>
    have hpost := hmeets _ _ hrun _ .refl hinv
    obtain ⟨hinv', hguar⟩ := hD.finish _ _ _ _ hinv hpost hfinish
    exact ⟨hinv', hothers hinv' hguar fun p hp => nomatch hp⟩
  | env henv =>
    have hinv' := hD.env _ _ hinv henv
    exact ⟨hinv', fun t p hp => (hmeets t p hp).rely (.single ⟨hinv, hinv', Or.inl henv⟩)⟩

/-- The invariant holds in every reachable configuration, and every thread meets its postcondition.
-/
theorem reachable {s₀ : σ} (h₀ : D.inv s₀) {c : Config ι σ Ans α} (h : Reachable S allowed s₀ c) :
    D.inv c.state ∧
      ∀ t p, c.thread t = some p → D.Meets S t (D.post t) p c.state := by
  induction h with
  | refl => exact ⟨h₀, fun t p hp => nomatch hp⟩
  | tail _ hstep ih => exact hD.step hstep ih.1 ih.2

/-- No interleaving faults. -/
theorem not_faulty {s₀ : σ} (h₀ : D.inv s₀) {c : Config ι σ Ans α}
    (h : Reachable S allowed s₀ c) : ¬Faulty S c := by
  obtain ⟨hinv, hmeets⟩ := hD.reachable h₀ h
  rintro (henv | ⟨t, o, k, hrun, hfault⟩)
  · exact hD.envSafe _ hinv henv
  · exact (hmeets t _ hrun _ .refl hinv).1 hfault

/-- A thread that returns has its postcondition. -/
theorem post_of_returned {s₀ : σ} (h₀ : D.inv s₀) {c : Config ι σ Ans α}
    (h : Reachable S allowed s₀ c) {t : ι} {a : α} (hret : c.thread t = some (.ret a)) :
    D.post t a c.state := by
  obtain ⟨hinv, hmeets⟩ := hD.reachable h₀ h
  exact hmeets t _ hret _ .refl hinv

end Valid

end Contract

end Threads
