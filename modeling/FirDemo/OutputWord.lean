import FirDemo.SteadySink

/-!
# The word at the output

In any run, whatever the sink stalls, the source leaves out and the writes change, the output
register holds what the filter gave in the last cycle in which the register took a word. That is
a sum over the cycles before it, one tap a cycle : the delay line goes on while the streams stall,
each tap with the coefficient of its own cycle and with the sample accepted last before it
(`output_word`). Which cycles these are can be read off the inputs and the enable bit
(`loads_succ`).
-/

open Finset Synchronous

namespace FirDemo

variable {P : Params} (ρ : (myFir P).Run)

/-- The output register takes a word in cycle `t`, unless reset. -/
def loads (t : ℕ) : Bool :=
  (ρ.state t).mAxis.txEn (ρ.input t).mAxisTready

/-- What the sample register holds in cycle `t`. -/
def sampleAt (t : ℕ) : BitVec 16 :=
  (lastHigh (accepts ρ) 0 t).elim ρ.start.heldSample fun u =>
    (ρ.input u).sAxisTdata.setWidth 16

/-- What the filter gives in cycle `u` after a reset in cycle `r`. -/
def wordAt (r u : ℕ) : BitVec 32 :=
  ∑ k ∈ Icc 1 (min P.TAPS (u - r)),
    tapProduct P.TAPS (ρ.state (u + 1 - k)).axi.coefSlvReg (sampleAt ρ (u + 1 - k)) k

theorem loads_succ (t : ℕ) :
    loads ρ (t + 1) = ((ρ.input (t + 1)).mAxisTready && (ρ.input t).sAxisTvalid) :=
  rfl

theorem heldSample_eq_sampleAt (t : ℕ) : (ρ.state t).heldSample = sampleAt ρ t :=
  reg_eq_lastHigh (fun t => (ρ.state t).heldSample) (Nat.zero_le t)
    fun u _ _ => heldSample_succ ρ u

section reset

variable {ρ} {r : ℕ} (hr : (ρ.input r).aresetn = false)
include hr

theorem filterOut_eq_wordAt {u : ℕ} (hru : r < u)
    (hrun : ∀ v, r < v → v < u → (ρ.input v).aresetn = true) :
    (ρ.state u).filterOut P = wordAt ρ r u := by
  rw [← filteredAt_filterRun, filteredAt_eq_sums P.TAPS_pos,
    (filterChain P.TAPS_pos (filterRun ρ)).sums_last P.TAPS_pos hru hr
      fun v hv hrv => hrun v hrv hv, TransposedForm.directForm, wordAt]
  refine sum_congr rfl fun k _ => ?_
  rw [← heldSample_eq_sampleAt]
  rfl

/-- In every cycle after a reset, the output register holds the convolution of the cycle in which
it took a word last, or 0. -/
theorem output_word {t : ℕ} (hrt : r < t) (hrun : ∀ v, r < v → v < t → (ρ.input v).aresetn = true) :
    (ρ.state t).mAxisTdata = (lastHigh (loads ρ) (r + 1) t).elim 0 (wordAt ρ r) := by
  have hzero : (ρ.state (r + 1)).mAxisTdata = 0 := by
    simp [MyFir.mAxisTdata, MyFir.next, MAxis.next, hr]
  have hreg := reg_eq_lastHigh (p := loads ρ) (f := fun u => (ρ.state u).filterOut P)
    (fun u => (ρ.state u).mAxisTdata) hrt fun u hru hut =>
      MyFir.next_mAxisTdata P (ρ.input u) (ρ.state u) (hrun u hru hut)
  rw [hzero] at hreg
  rw [show (ρ.state t).mAxisTdata = _ from hreg]
  cases hlast : lastHigh (loads ρ) (r + 1) t with
  | none => rfl
  | some u =>
    obtain ⟨hru, hut, -⟩ := lastHigh_bounds hlast
    exact filterOut_eq_wordAt hr hru fun v hrv hvu => hrun v hrv (hvu.trans hut)

end reset

/-- Reset, the writes `coeff[1] = 1` and `coeff[2] = 2` after the enable bit, and three samples,
with a stall in cycle 14. -/
def stalledRun : (myFir (firTop fun _ => 0)).Run where
  start := zeroState
  input t :=
    { (programRun (firTop fun _ => 0) [(0, 1), (4, 1), (8, 2)]).input (t - 3) with
      aresetn := decide (3 ≤ t), sAxisTvalid := decide (12 ≤ t), sAxisTlast := false,
      sAxisTdata := BitVec.ofNat 32 t, mAxisTready := decide (t ≠ 14) }

theorem output_word_stalledRun :
    (stalledRun.state 17).mAxisTdata =
      (lastHigh (loads stalledRun) 3 17).elim 0 (wordAt stalledRun 2) :=
  output_word rfl (by decide) fun v hv _ => decide_eq_true (Nat.succ_le_of_lt hv)

/-- Sample 15 and twice sample 13 : sample 14 was not accepted, and 13 stayed for two cycles. -/
example : (stalledRun.state 17).mAxisTdata = 41 := by
  decide

end FirDemo
