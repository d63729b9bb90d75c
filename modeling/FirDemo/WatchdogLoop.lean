import Mathlib.Data.Nat.Find
import Mathlib.Logic.Function.Iterate
import Mathlib.Tactic.Common

/-!
# Loops with a cycle limit

`while (running) { body; if (++cycles > limit) fail; }`. The body counts its own cycles,
so the loop ends, and what it returns is an iterate of the body : the first one that is
not running (`run_of_stop`), or the one that exceeds the limit (`run_of_limit`), and always
one of the two (`run_cases`). What holds of the iterates is proved by `iterate_of_step`.
-/

/-- A loop whose body counts cycles, and the limit it may not exceed. -/
structure WatchdogLoop (σ : Type*) where
  running : σ → Bool
  body : σ → σ
  cycles : σ → ℕ
  limit : ℕ
  cycles_body : ∀ s, cycles (body s) = cycles s + 1

namespace WatchdogLoop

variable {σ : Type*} (L : WatchdogLoop σ)

/-- Run the loop : whether it ended within the limit, and the state it ended in. -/
def run (s : σ) : Bool × σ :=
  if L.running s then
    if L.limit < L.cycles (L.body s) then (false, L.body s) else run (L.body s)
  else (true, s)
termination_by L.limit + 1 - L.cycles s
decreasing_by
  have := L.cycles_body s
  omega

/-- What holds at the start and is kept by an iteration holds after any number of them. -/
theorem iterate_of_step {f : σ → σ} {I : ℕ → σ → Prop} {s : σ} (h0 : I 0 s)
    (hstep : ∀ n s, I n s → I (n + 1) (f s)) (n : ℕ) : I n (f^[n] s) := by
  induction n with
  | zero => exact h0
  | succ n ih => rw [Function.iterate_succ_apply']; exact hstep n _ ih

/-- A loop that is running and below the limit makes an iteration. -/
theorem run_of_running {s : σ} (hrun : L.running s = true) (hlimit : L.cycles s < L.limit) :
    L.run s = L.run (L.body s) := by
  have hcycles := L.cycles_body s
  rw [run, if_pos hrun, if_neg (by omega)]

/-- The loop ends well in the first iterate that is not running, if the limit allows. -/
theorem run_of_stop {n : ℕ} : ∀ {s : σ}, (∀ j < n, L.running (L.body^[j] s) = true) →
    L.cycles s + n ≤ L.limit → L.running (L.body^[n] s) = false →
    L.run s = (true, L.body^[n] s) := by
  induction n with
  | zero =>
    intro s _ _ hstop
    have hstop : L.running s = false := hstop
    rw [run, hstop]
    rfl
  | succ n ih =>
    intro s hrun hlimit hstop
    have h0 : L.running s = true := hrun 0 (by omega)
    have hcycles := L.cycles_body s
    rw [L.run_of_running h0 (by omega), Function.iterate_succ_apply]
    exact ih (fun j hj => hrun (j + 1) (by omega)) (by omega) hstop

/-- The loop fails in the iterate that exceeds the limit, if it is running until then. -/
theorem run_of_limit {n : ℕ} : ∀ {s : σ}, (∀ j ≤ n, L.running (L.body^[j] s) = true) →
    L.cycles s + n = L.limit → L.run s = (false, L.body^[n + 1] s) := by
  induction n with
  | zero =>
    intro s hrun hlimit
    have h0 : L.running s = true := hrun 0 (Nat.le_refl 0)
    have hcycles := L.cycles_body s
    rw [run, if_pos h0, if_pos (by omega)]
    rfl
  | succ n ih =>
    intro s hrun hlimit
    have h0 : L.running s = true := hrun 0 (by omega)
    have hcycles := L.cycles_body s
    rw [L.run_of_running h0 (by omega), Function.iterate_succ_apply]
    exact ih (fun j hj => hrun (j + 1) (by omega)) (by omega)

/-- One of the two, for every loop that starts within the limit. -/
theorem run_cases {s : σ} (hs : L.cycles s ≤ L.limit) :
    ∃ n, L.cycles s + n ≤ L.limit + 1 ∧
      (L.run s = (true, L.body^[n] s) ∧ L.running (L.body^[n] s) = false ∨
        L.run s = (false, L.body^[n] s) ∧ L.cycles s + n = L.limit + 1) := by
  classical
  by_cases h : ∃ n, L.running (L.body^[n] s) = false ∧ L.cycles s + n ≤ L.limit
  · obtain ⟨hstop, hlimit⟩ := Nat.find_spec h
    refine ⟨Nat.find h, by omega, Or.inl ⟨L.run_of_stop (fun j hj => ?_) hlimit hstop, hstop⟩⟩
    have hmin := Nat.find_min h hj
    exact eq_true_of_ne_false fun hno => hmin ⟨hno, by omega⟩
  · refine ⟨L.limit - L.cycles s + 1, by omega, Or.inr ⟨L.run_of_limit (fun j hj => ?_) (by omega),
      by omega⟩⟩
    exact eq_true_of_ne_false fun hno => h ⟨j, hno, by omega⟩

end WatchdogLoop
