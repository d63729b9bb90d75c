import FirDemo.MyFir

/-!
# Beats in flight

The valid bits of the output hold the last two values of `s_axis_tvalid`, so a beat that
is presented goes in flight whether it is accepted or not, and an output beat leaves
whether it is taken or not. `beat_ledger` balances the four.

A cycle that lets an output beat pass by while none is presented drops a beat
(`dropsBeat`), and one that presents a beat without accepting it while no output beat
passes by inserts one (`insertsBeat`). `accepted_le_transferred_iff` : from a quiescent
state to a quiet point no beat is lost exactly when not more are dropped than inserted.
`transferred_le_accepted_iff` : after reset no beat is invented exactly when what was
presented in vain is covered by what passed by and what is in flight.
-/

open Synchronous

namespace FirDemo

variable {P : Params} (ρ : (myFir P).Run)

/-- The beats in the two valid bits. -/
def inFlight (s : MyFir) : ℕ :=
  s.mAxis.validReg.toNat + s.mAxis.axisTvalidDelay.toNat

/-- A beat is presented and not accepted. -/
def waits (t : ℕ) : Bool :=
  (ρ.input t).sAxisTvalid && !(ρ.state t).sAxisTready (ρ.input t)

/-- An output beat is not taken. Its valid bit is overwritten all the same. -/
def passesBy (t : ℕ) : Bool :=
  (ρ.state t).mAxisTvalid && !(ρ.input t).mAxisTready

/-- Reset discards the beat of `valid_reg`. -/
def flushes (t : ℕ) : Bool :=
  !(ρ.input t).aresetn && (ρ.state t).mAxis.validReg

/-- A beat passes by and none takes its place. -/
def dropsBeat (t : ℕ) : Bool :=
  (passesBy ρ t || flushes ρ t) && !waits ρ t

/-- A beat goes in flight without being accepted and none passes by. -/
def insertsBeat (t : ℕ) : Bool :=
  waits ρ t && !passesBy ρ t && !flushes ρ t

/-- One edge : what is presented goes in flight, and what leaves is the output beat and
what reset discards. -/
theorem inFlight_next (t : ℕ) :
    inFlight (ρ.state (t + 1)) + (transfers ρ t).toNat + (passesBy ρ t).toNat +
        (flushes ρ t).toNat =
      inFlight (ρ.state t) + (accepts ρ t).toNat + (waits ρ t).toNat := by
  simp only [inFlight, transfers, passesBy, flushes, accepts, waits, MyFir.mAxisTvalid,
    Machine.Run.state_succ, myFir_next, MyFir.next_validReg, MyFir.next_axisTvalidDelay]
  cases (ρ.input t).sAxisTvalid <;> cases (ρ.input t).mAxisTready <;>
    cases (ρ.input t).aresetn <;> cases (ρ.state t).mAxis.validReg <;>
    cases (ρ.state t).mAxis.axisTvalidDelay <;>
    cases (ρ.state t).sAxisTready (ρ.input t) <;> rfl

/-- Over `n` cycles, beats presented are beats that left or are in flight. -/
theorem beat_ledger (n : ℕ) :
    inFlight ρ.start + tally (accepts ρ) n + tally (waits ρ) n =
      tally (transfers ρ) n + tally (passesBy ρ) n + tally (flushes ρ) n +
        inFlight (ρ.state n) := by
  induction n with
  | zero => simp
  | succ n ih =>
    have hnext := inFlight_next ρ n
    simp only [tally_succ]
    omega

/-- While the filter is enabled without reset, only stalled cycles drop or insert. -/
theorem tally_drops_add {n : ℕ} (hen : KeepsEnabled ρ n) :
    tally (dropsBeat ρ) n + tally (waits ρ) n =
      tally (passesBy ρ) n + tally (insertsBeat ρ) n := by
  induction n with
  | zero => simp
  | succ n ih =>
    have ih := ih fun t ht => hen t (by omega)
    have hn : (dropsBeat ρ n).toNat + (waits ρ n).toNat =
        (passesBy ρ n).toNat + (insertsBeat ρ n).toNat := by
      simp only [dropsBeat, insertsBeat, flushes, (hen n (by omega)).2]
      cases waits ρ n <;> cases passesBy ρ n <;> rfl
    simp only [tally_succ]
    omega

theorem tally_flushes {n : ℕ} (hen : KeepsEnabled ρ n) : tally (flushes ρ) n = 0 :=
  tally_eq_zero_iff.2 fun t ht => by simp [flushes, (hen t ht).2]

/-! ## No accepted beat is lost -/

/-- For the last three cycles before `n + 3` nothing is presented and the sink is ready. -/
def QuietPoint (n : ℕ) : Prop :=
  ∀ j < 3, (ρ.input (n + j)).sAxisTvalid = false ∧ (ρ.input (n + j)).mAxisTready = true

theorem QuietPoint.inFlight {n : ℕ} (h : QuietPoint ρ n) : inFlight (ρ.state (n + 3)) = 0 := by
  obtain ⟨hv, hd⟩ := valid_bits_empty ρ (n := n + 1) fun j hj => by
    rw [show n + 1 + j = n + (j + 1) by omega]
    exact (h (j + 1) (by omega)).1
  simp only [FirDemo.inFlight, hv, hd, Bool.toNat_false, Nat.add_zero]

/-- From a quiescent state and up to a quiet point, at least as many transfers as
accepted beats took place exactly when at most as many beats were dropped as inserted.
In particular this is so when no cycle drops a beat. -/
theorem accepted_le_transferred_iff (hq : Quiescent P ρ.start) {n : ℕ}
    (hen : KeepsEnabled ρ (n + 3)) (hquiet : QuietPoint ρ n) :
    (tally (accepts ρ) (n + 3) ≤ tally (transfers ρ) (n + 3) ↔
      tally (dropsBeat ρ) (n + 3) ≤ tally (insertsBeat ρ) (n + 3)) ∧
    ((∀ t < n + 3, dropsBeat ρ t = false) →
      tally (accepts ρ) (n + 3) ≤ tally (transfers ρ) (n + 3)) := by
  have hledger := beat_ledger ρ (n + 3)
  have hcover := tally_drops_add ρ hen
  have hstart : inFlight ρ.start = 0 := by simp [inFlight, hq.valid_bits]
  rw [hstart, hquiet.inFlight, tally_flushes ρ hen] at hledger
  refine ⟨⟨fun h => by omega, fun h => by omega⟩, fun h => ?_⟩
  have := tally_eq_zero_iff.2 h
  omega

/-- An enabled filter, one beat in cycle `0`, and a sink that stalls in cycle `2`. -/
def lostBeatRun : (myFir (firTop fun _ => 0)).Run where
  start := programmed (firTop fun _ => 0) [(0, 1)]
  input t :=
    { idlePort with
      sAxisTvalid := decide (t = 0), sAxisTlast := decide (t = 0),
      mAxisTready := decide (t ≠ 2) }

theorem lostBeatRun_spec :
    Quiescent (firTop fun _ => 0) lostBeatRun.start ∧ KeepsEnabled lostBeatRun (3 + 3) ∧
      CompliantSource lostBeatRun (3 + 3) ∧ QuietPoint lostBeatRun 3 := by
  refine ⟨quiescent_programmed (by decide), ?_, ?_, ?_⟩
  · unfold KeepsEnabled
    decide
  · intro t _ hv ha
    obtain rfl : t = 0 := by simpa [lostBeatRun] using hv
    revert ha
    decide
  · unfold QuietPoint
    decide

/-- The source is compliant, its one beat is accepted, and nothing is ever transferred. -/
theorem lostBeatRun_loses :
    Quiescent (firTop fun _ => 0) lostBeatRun.start ∧ KeepsEnabled lostBeatRun (3 + 3) ∧
      CompliantSource lostBeatRun (3 + 3) ∧ QuietPoint lostBeatRun 3 ∧
      ¬tally (accepts lostBeatRun) (3 + 3) ≤ tally (transfers lostBeatRun) (3 + 3) :=
  have ⟨hq, hen, hsource, hquiet⟩ := lostBeatRun_spec
  ⟨hq, hen, hsource, hquiet, by decide⟩

theorem accepted_le_transferred_iff_lostBeatRun :
    (tally (accepts lostBeatRun) (3 + 3) ≤ tally (transfers lostBeatRun) (3 + 3) ↔
      tally (dropsBeat lostBeatRun) (3 + 3) ≤ tally (insertsBeat lostBeatRun) (3 + 3)) ∧
    ((∀ t < 3 + 3, dropsBeat lostBeatRun t = false) →
      tally (accepts lostBeatRun) (3 + 3) ≤ tally (transfers lostBeatRun) (3 + 3)) :=
  accepted_le_transferred_iff lostBeatRun lostBeatRun_spec.1 lostBeatRun_spec.2.1
    lostBeatRun_spec.2.2.2

/-! ## No output beat is invented -/

/-- After reset and whatever the enable bit does, there are at most as many transfers as
accepted beats exactly when the beats presented in vain are covered by those that passed
by, were discarded or are in flight. In particular this is so in every cycle of a run in
which no cycle inserts a beat. -/
theorem transferred_le_accepted_iff (hr : AfterReset P ρ.start) :
    (∀ n, tally (transfers ρ) n ≤ tally (accepts ρ) n ↔
      tally (waits ρ) n ≤
        tally (passesBy ρ) n + tally (flushes ρ) n + inFlight (ρ.state n)) ∧
    ∀ n, (∀ t < n, insertsBeat ρ t = false) →
      tally (transfers ρ) n ≤ tally (accepts ρ) n := by
  have hstart : inFlight ρ.start = 0 := by simp [inFlight, hr.valid_bits]
  have hiff : ∀ n, tally (transfers ρ) n ≤ tally (accepts ρ) n ↔ tally (waits ρ) n ≤
      tally (passesBy ρ) n + tally (flushes ρ) n + inFlight (ρ.state n) := by
    intro n
    have hledger := beat_ledger ρ n
    rw [hstart] at hledger
    constructor <;> intro h <;> omega
  refine ⟨hiff, fun n h => (hiff n).2 ?_⟩
  have hwaits : tally (waits ρ) n ≤ tally (passesBy ρ) n + tally (flushes ρ) n := by
    induction n with
    | zero => simp
    | succ n ih =>
      have ih := ih fun t ht => h t (by omega)
      have hn := h n (by omega)
      simp only [insertsBeat] at hn
      simp only [tally_succ]
      cases hw : waits ρ n <;> cases hp : passesBy ρ n <;> cases hf : flushes ρ n <;>
        simp_all <;> omega
  omega

/-- From reset the filter stays disabled, the source holds its beat and the sink is
ready. -/
def disabledRun : (myFir (firTop fun _ => 0)).Run where
  start := (resetRun (firTop fun _ => 0)).state 3
  input _ := { idlePort with sAxisTvalid := true, mAxisTready := true }

/-- The beat is never accepted, and a transfer takes place in cycle `2`. -/
theorem disabledRun_invents :
    AfterReset (firTop fun _ => 0) disabledRun.start ∧ (∀ n, CompliantSource disabledRun n) ∧
      ¬tally (transfers disabledRun) 3 ≤ tally (accepts disabledRun) 3 :=
  ⟨afterReset_resetRun _, fun _ _ _ _ _ => ⟨rfl, rfl, rfl⟩, by decide⟩

theorem transferred_le_accepted_iff_disabledRun :
    (∀ n, tally (transfers disabledRun) n ≤ tally (accepts disabledRun) n ↔
      tally (waits disabledRun) n ≤ tally (passesBy disabledRun) n +
        tally (flushes disabledRun) n + inFlight (disabledRun.state n)) ∧
    ∀ n, (∀ t < n, insertsBeat disabledRun t = false) →
      tally (transfers disabledRun) n ≤ tally (accepts disabledRun) n :=
  transferred_le_accepted_iff disabledRun (afterReset_resetRun _)

end FirDemo
