import Mathlib.Data.Nat.Count
import Mathlib.Tactic.Common

/-!
# Single-clock systems, their runs and what their handshakes carry

A `Machine` is a next-state function : one step per rising edge. A `Run` is a start
state with the inputs of every cycle, and `Run.state` the state each cycle starts in.

`tally` counts the cycles in which a signal is high, `count_le` and `count_eq_of_low` hold
of any counter that does, and `existsUnique_response` is the rule for a slave that answers
one request at a time. A register with an enable holds what it took last (`reg_eq_lastHigh`).
`collect` lists what an event carries, cycle by cycle.
`collect_conservation` is the rule for a queue : if in every cycle the old contents followed
by what enters are what leaves followed by the new contents, the same holds of the whole run.
-/

namespace Synchronous

/-- A system with one clock : its next state, from its state and its inputs. -/
structure Machine (σ ι : Type*) where
  next : σ → ι → σ

namespace Machine

variable {σ ι : Type*}

/-- A start state and the inputs of every cycle. -/
structure Run (M : Machine σ ι) where
  start : σ
  input : ℕ → ι

namespace Run

variable {M : Machine σ ι} (ρ : M.Run)

/-- The state in which cycle `t` starts. -/
def state : ℕ → σ
  | 0 => ρ.start
  | t + 1 => M.next (state t) (ρ.input t)

@[simp] theorem state_zero : ρ.state 0 = ρ.start :=
  rfl

@[simp] theorem state_succ (t : ℕ) : ρ.state (t + 1) = M.next (ρ.state t) (ρ.input t) :=
  rfl

/-- What holds at the start and is kept by the first `n` steps holds up to cycle `n`. -/
theorem holds_of_step {I : ℕ → σ → Prop} {n : ℕ} (h0 : I 0 ρ.start)
    (hstep : ∀ t < n, I t (ρ.state t) → I (t + 1) (M.next (ρ.state t) (ρ.input t))) :
    ∀ t ≤ n, I t (ρ.state t) := by
  intro t
  induction t with
  | zero => exact fun _ => h0
  | succ t ih => exact fun ht => hstep t (by omega) (ih (by omega))

/-- Two runs with the same inputs from related states stay related, if every step with the
same inputs keeps the relation. -/
theorem rel_of_step {R : σ → σ → Prop} (hstep : ∀ s s' i, R s s' → R (M.next s i) (M.next s' i))
    {s s' : σ} (input : ℕ → ι) (h : R s s') (t : ℕ) :
    R ((⟨s, input⟩ : M.Run).state t) ((⟨s', input⟩ : M.Run).state t) := by
  induction t with
  | zero => exact h
  | succ t ih => exact hstep _ _ _ ih

/-- A run goes on from each of its states as a run of its own. -/
theorem state_add (t u : ℕ) :
    ρ.state (t + u) = (⟨ρ.state t, fun v => ρ.input (t + v)⟩ : M.Run).state u := by
  induction u with
  | zero => rfl
  | succ u ih => rw [← Nat.add_assoc, state_succ, state_succ, ih]

end Run

end Machine

/-! ## Counters of a signal -/

section counter

variable {p : ℕ → Bool} {c : ℕ → ℕ}
  (hsucc : ∀ t, c (t + 1) = if p t then c t + 1 else c t)
include hsucc

/-- A counter that counts below a bound only does not exceed it. -/
theorem count_le {n : ℕ} (hzero : c 0 ≤ n) (hlt : ∀ t, p t = true → c t < n) (t : ℕ) :
    c t ≤ n := by
  induction t with
  | zero => exact hzero
  | succ t ih =>
    rw [hsucc]
    split_ifs with h
    · exact hlt t h
    · exact ih

/-- It stays while the signal is low. -/
theorem count_eq_of_low {s u : ℕ} (hsu : s ≤ u) (hlow : ∀ v, s ≤ v → v < u → p v = false) :
    c u = c s := by
  induction u, hsu using Nat.le_induction with
  | base => rfl
  | succ u hsu ih =>
    rw [hsucc, hlow u hsu (Nat.lt_succ_self u), if_neg Bool.false_ne_true]
    exact ih fun v hsv hvu => hlow v hsv (Nat.lt_succ_of_lt hvu)

end counter

/-! ## Registers with an enable -/

/-- The last of the cycles from `s` on and before `t` in which `p` is high. -/
def lastHigh (p : ℕ → Bool) (s : ℕ) : ℕ → Option ℕ
  | 0 => none
  | t + 1 => if s ≤ t ∧ p t = true then some t else lastHigh p s t

theorem lastHigh_bounds {p : ℕ → Bool} {s t u : ℕ} (h : lastHigh p s t = some u) :
    s ≤ u ∧ u < t ∧ p u = true := by
  induction t with
  | zero => exact nomatch h
  | succ t ih =>
    rw [lastHigh] at h
    split at h
    · next hhigh =>
      obtain rfl := Option.some.inj h
      exact ⟨hhigh.1, Nat.lt_succ_self t, hhigh.2⟩
    · have := ih h
      exact ⟨this.1, by omega, this.2.2⟩

/-- A register that takes a value in the cycles in which `p` is high holds the last of them. -/
theorem reg_eq_lastHigh {α : Type*} {p : ℕ → Bool} {f : ℕ → α} (reg : ℕ → α) {s t : ℕ}
    (hst : s ≤ t) (h : ∀ u, s ≤ u → u < t → reg (u + 1) = if p u then f u else reg u) :
    reg t = (lastHigh p s t).elim (reg s) f := by
  induction t, hst using Nat.le_induction with
  | base =>
    cases hlast : lastHigh p s s with
    | none => rfl
    | some u =>
      have := lastHigh_bounds hlast
      omega
  | succ t hst ih =>
    rw [h t hst (Nat.lt_succ_self t), lastHigh]
    cases hp : p t with
    | true => rw [if_pos rfl, if_pos ⟨hst, rfl⟩, Option.elim_some]
    | false =>
      rw [if_neg Bool.false_ne_true, if_neg fun hhigh => Bool.false_ne_true hhigh.2]
      exact ih fun u hsu hut => h u hsu (Nat.lt_succ_of_lt hut)

/-! ## Counting cycles -/

/-- How many of the first `n` cycles have `p` high. -/
def tally (p : ℕ → Bool) (n : ℕ) : ℕ :=
  Nat.count (fun t => p t = true) n

@[simp] theorem tally_zero (p : ℕ → Bool) : tally p 0 = 0 :=
  Nat.count_zero _

@[simp] theorem tally_succ (p : ℕ → Bool) (n : ℕ) : tally p (n + 1) = tally p n + (p n).toNat := by
  rw [tally, Nat.count_succ, ← tally]
  cases p n <;> simp

theorem tally_eq_zero_iff {p : ℕ → Bool} {n : ℕ} : tally p n = 0 ↔ ∀ t < n, p t = false := by
  simp [tally, Nat.count_iff_forall_not]

theorem tally_eq_of_low {p : ℕ → Bool} {s u : ℕ} (hsu : s ≤ u)
    (hlow : ∀ v, s ≤ v → v < u → p v = false) : tally p u = tally p s := by
  refine count_eq_of_low (c := tally p) (fun t => ?_) hsu hlow
  rw [tally_succ]
  cases p t <;> rfl

/-- A signal that is high once more at `u` than at `s` was high in one cycle between them. -/
theorem existsUnique_of_tally {p : ℕ → Bool} {s u : ℕ} (hsu : s ≤ u)
    (h : tally p u = tally p s + 1) : ∃! v, (s ≤ v ∧ v < u) ∧ p v = true := by
  obtain ⟨d, rfl⟩ := Nat.exists_eq_add_of_le hsu
  rw [tally, tally, Nat.count_add, Nat.add_left_cancel_iff, Nat.count_eq_card_filter_range,
    Finset.card_eq_one] at h
  obtain ⟨k, hk⟩ := h
  have hmem : ∀ j, (j < d ∧ p (s + j) = true) ↔ j = k := fun j => by
    simpa using Finset.ext_iff.1 hk j
  obtain ⟨hkd, hpk⟩ := (hmem k).2 rfl
  refine ⟨s + k, ⟨⟨by omega, by omega⟩, hpk⟩, ?_⟩
  rintro v ⟨⟨hsv, hvu⟩, hpv⟩
  have hv : v - s = k := (hmem (v - s)).1 ⟨by omega, by rwa [Nat.add_sub_cancel' hsv]⟩
  omega

/-! ## Requests and responses -/

section pending

variable {req rsp : ℕ → Bool} (pending : ℕ → ℕ) {n : ℕ}
  (h : ∀ t < n, pending (t + 1) + (rsp t).toNat = pending t + (req t).toNat)
include h

/-- Between two cycles, requests are responses but for those pending. -/
theorem tally_balance {t u : ℕ} (htu : t ≤ u) (hu : u ≤ n) :
    tally req u + tally rsp t + pending t = tally rsp u + tally req t + pending u := by
  induction u, htu using Nat.le_induction with
  | base => omega
  | succ u htu ih =>
    have ih := ih (by omega)
    have hu := h u (by omega)
    simp only [tally_succ]
    omega

/-- A request that is pending alone has one response by the next cycle in which none is
pending, if no request comes between. -/
theorem existsUnique_response {t u : ℕ} (htu : t < u) (hu : u ≤ n) (hone : pending (t + 1) = 1)
    (hzero : pending u = 0) (hnone : ∀ v, t < v → v < u → req v = false) :
    ∃! v, (t < v ∧ v < u) ∧ rsp v = true := by
  have hreq : tally req u = tally req (t + 1) :=
    tally_eq_of_low htu fun v htv hvu => hnone v htv hvu
  have hbalance := tally_balance pending h (t := t + 1) (u := u) (by omega) hu
  exact existsUnique_of_tally (s := t + 1) (by omega) (by omega)

end pending

/-! ## Collecting what events carry -/

/-- What the event carries in the first `n` cycles, in order. -/
def collect {α : Type*} (ev : ℕ → Option α) : ℕ → List α
  | 0 => []
  | n + 1 => collect ev n ++ (ev n).toList

section collect

variable {α : Type*}

@[simp] theorem collect_zero (ev : ℕ → Option α) : collect ev 0 = [] :=
  rfl

@[simp] theorem collect_succ (ev : ℕ → Option α) (n : ℕ) :
    collect ev (n + 1) = collect ev n ++ (ev n).toList :=
  rfl

theorem length_collect (ev : ℕ → Option α) (n : ℕ) :
    (collect ev n).length = tally (fun t => (ev t).isSome) n := by
  induction n with
  | zero => rfl
  | succ n ih =>
    rw [collect_succ, List.length_append, ih, tally_succ]
    cases ev n <;> rfl

/-- What a valid bit and its payload present. -/
def valid (v : Bool) (a : α) : Option α :=
  if v then some a else none

@[simp] theorem valid_true (a : α) : valid true a = some a :=
  rfl

@[simp] theorem valid_false (a : α) : valid false a = none :=
  rfl

/-- The event of a signal `p` that carries `a`. -/
def whenHigh (p : ℕ → Bool) (a : ℕ → α) (t : ℕ) : Option α :=
  valid (p t) (a t)

theorem length_collect_whenHigh (p : ℕ → Bool) (a : ℕ → α) (n : ℕ) :
    (collect (whenHigh p a) n).length = tally p n := by
  rw [length_collect]
  congr 1
  funext t
  cases h : p t <;> simp [whenHigh, h]

theorem map_collect_whenHigh {β : Type*} (f : α → β) (p : ℕ → Bool) (a : ℕ → α) (n : ℕ) :
    (collect (whenHigh p a) n).map f = collect (whenHigh p fun t => f (a t)) n := by
  induction n with
  | zero => rfl
  | succ n ih =>
    rw [collect_succ, collect_succ, List.map_append, ih]
    cases h : p n <;> simp [whenHigh, h]

/-- A counter of a signal collects the numbers in order. -/
theorem collect_eq_range {p : ℕ → Bool} {c : ℕ → ℕ}
    (hsucc : ∀ t, c (t + 1) = if p t then c t + 1 else c t) (hzero : c 0 = 0) (n : ℕ) :
    collect (whenHigh p c) n = List.range (c n) := by
  induction n with
  | zero => rw [hzero]; rfl
  | succ n ih =>
    rw [collect_succ, ih, hsucc]
    cases h : p n <;> simp [whenHigh, h, List.range_succ]

/-- Conservation. If in each of the first `n` cycles the contents and what enters are
what leaves and the next contents, so they are over the `n` cycles together. -/
theorem collect_conservation (content : ℕ → List α) {enter leave : ℕ → Option α} {n : ℕ}
    (h : ∀ t < n, content t ++ (enter t).toList = (leave t).toList ++ content (t + 1)) :
    content 0 ++ collect enter n = collect leave n ++ content n := by
  induction n with
  | zero => simp
  | succ n ih =>
    have hn := h n (by omega)
    have ih := ih fun t ht => h t (by omega)
    calc content 0 ++ collect enter (n + 1)
        = (content 0 ++ collect enter n) ++ (enter n).toList := by simp
      _ = collect leave n ++ (content n ++ (enter n).toList) := by rw [ih]; simp
      _ = collect leave (n + 1) ++ content (n + 1) := by rw [hn]; simp

/-- The contents of a pipeline of two stages, the older one first. -/
def slots (out mid : Option α) : List α :=
  out.toList ++ mid.toList

@[simp] theorem slots_none : slots (none : Option α) none = [] :=
  rfl

/-- A pipeline that moves on lets its older stage leave. -/
theorem slots_shift (out mid enter : Option α) :
    slots out mid ++ enter.toList = out.toList ++ slots mid enter := by
  simp [slots]

end collect

end Synchronous
