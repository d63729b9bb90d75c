import FirDemo.MyFir
import Mathlib.Tactic.IntervalCases

/-!
# The output while it is stalled

The AXI-Stream rule for a master is that an output that is valid and not taken stays as it
is (`HeldWhileStalled`). Only the data register of the output waits for `m_axis_tready`.
Its valid and last bits are what `s_axis_tvalid` and `s_axis_tlast` were two cycles ago,
so the rule holds exactly when the source presented a beat with the same last bit behind
every beat that is stalled (`held_while_stalled_iff`).
-/

open Synchronous

namespace FirDemo

variable {P : Params} (ρ : (myFir P).Run)

/-- An output that is valid and not taken in cycle `t`, without reset, is the output of the
next cycle. -/
def HeldWhileStalled (t : ℕ) : Prop :=
  (ρ.input t).aresetn = true → (ρ.state t).mAxisTvalid = true →
    (ρ.input t).mAxisTready = false →
      (ρ.state (t + 1)).mAxisTvalid = true ∧
        (ρ.state (t + 1)).mAxisTdata = (ρ.state t).mAxisTdata ∧
        (ρ.state (t + 1)).mAxisTlast = (ρ.state t).mAxisTlast

/-- If a beat is presented in cycle `t` and the sink stalls two cycles later, with no reset
after the beat, a beat with the same last bit is presented in cycle `t + 1`. -/
def FollowedByLike (t : ℕ) : Prop :=
  (ρ.input t).sAxisTvalid = true → (ρ.input (t + 1)).aresetn = true →
    (ρ.input (t + 2)).aresetn = true → (ρ.input (t + 2)).mAxisTready = false →
      (ρ.input (t + 1)).sAxisTvalid = true ∧
        (ρ.input (t + 1)).sAxisTlast = (ρ.input t).sAxisTlast

/-- The data register waits. -/
theorem mAxisTdata_of_stalled {t : ℕ} (hreset : (ρ.input t).aresetn = true)
    (hready : (ρ.input t).mAxisTready = false) :
    (ρ.state (t + 1)).mAxisTdata = (ρ.state t).mAxisTdata := by
  have hdata := MyFir.next_mAxisTdata P (ρ.input t) (ρ.state t) hreset
  simpa [MAxis.txEn, hready, MyFir.mAxisTdata] using hdata

theorem heldWhileStalled_add_two (t : ℕ) : HeldWhileStalled ρ (t + 2) ↔ FollowedByLike ρ t := by
  unfold HeldWhileStalled FollowedByLike
  rw [mAxisTvalid_add_two ρ t, mAxisTvalid_add_two ρ (t + 1), mAxisTlast_add_two ρ t,
    mAxisTlast_add_two ρ (t + 1)]
  constructor
  · intro h hv h1 h2 hready
    obtain ⟨hvalid, -, hlast⟩ := h h2 (by rw [h1, hv]; rfl) hready
    simp only [h1, h2, Bool.true_and] at hvalid hlast
    exact ⟨hvalid, hlast⟩
  · intro h h2 hv hready
    obtain ⟨h1, hv⟩ := Bool.and_eq_true_iff.1 hv
    obtain ⟨hvalid, hlast⟩ := h hv h1 h2 hready
    refine ⟨by rw [h2, hvalid]; rfl, mAxisTdata_of_stalled ρ h2 hready, ?_⟩
    rw [h1, h2, hlast]

/-- In a run that begins with a reset cycle, whatever the source does, the output is held in
every stalled cycle exactly when every beat that meets a stall is followed by one like
it. -/
theorem held_while_stalled_iff (hreset : (ρ.input 0).aresetn = false) (n : ℕ) :
    (∀ t < n, HeldWhileStalled ρ t) ↔ ∀ t, t + 2 < n → FollowedByLike ρ t := by
  constructor
  · exact fun h t ht => (heldWhileStalled_add_two ρ t).1 (h (t + 2) ht)
  · intro h t ht
    match t with
    | 0 => exact fun h0 => by simp [hreset] at h0
    | 1 => exact fun _ hvalid => by simp [MyFir.mAxisTvalid, hreset] at hvalid
    | t + 2 => exact (heldWhileStalled_add_two ρ t).2 (h t ht)

/-- Reset, a write that enables the filter, and one beat that is accepted in cycle `6`. The
sink stalls in the cycles of `stalled`. -/
def singleBeatRun (stalled : List ℕ) : (myFir (firTop fun _ => 0)).Run where
  start := zeroState
  input t :=
    { idlePort with
      aresetn := decide (3 ≤ t),
      axi :=
        ⟨0, decide (3 ≤ t ∧ t < 5), 1, 15, decide (3 ≤ t ∧ t < 5), true, 0, false, false⟩,
      sAxisTvalid := decide (t = 6), sAxisTlast := decide (t = 6),
      mAxisTready := decide (t ∉ stalled) }

/-- Stalled in the cycle of its output, the beat is gone in the next one. -/
theorem singleBeatRun_not_held :
    ((singleBeatRun [8]).input 0).aresetn = false ∧ CompliantSource (singleBeatRun [8]) 9 ∧
      ¬∀ t < 9, HeldWhileStalled (singleBeatRun [8]) t := by
  refine ⟨rfl, fun t _ hv ha => ?_, fun h => ?_⟩
  · obtain rfl : t = 6 := by simpa [singleBeatRun] using hv
    revert ha
    decide
  · have hheld := (h 8 (by decide) (by decide) (by decide) (by decide)).1
    revert hheld
    decide

theorem held_while_stalled_iff_singleBeatRun :
    (∀ t < 10, HeldWhileStalled (singleBeatRun [7, 8]) t) ↔
      ∀ t, t + 2 < 10 → FollowedByLike (singleBeatRun [7, 8]) t :=
  held_while_stalled_iff _ rfl 10

end FirDemo
