import FirDemo.SimStart

/-!
# The simulated transfer, iteration by iteration

The counters of `axidma_twoway_transfer` and the valid bits of the filter it drives do not
depend on the data. From a quiet start they have closed forms in the number of iterations
(`Progress`), through the ten cycles without `m_axis_tready` that follow the fourth word
received. In those the valid bits shift on, so a transfer of five words loses its last one
and times out, and every other transfer ends 255 iterations after the last acceptance.
-/

namespace FirDemo

/-! ## Before a transfer -/

/-- The enable bit is set and stays so through any number of ticks with the AXI-Lite inputs
as they are. -/
def StaysEnabled (P : Params) (top : VfirTop) : Prop :=
  top.pins.aresetn = true ∧
    ∀ n, ((fun s : SAxi => s.next P true top.pins.axi)^[n] top.regs.axi).en = true

/-- No beat is in the filter. -/
def VfirTop.Drained (top : VfirTop) : Prop :=
  top.regs.mAxis.validReg = false ∧ top.regs.mAxis.axisTvalidDelay = false

/-- Quiet cycles empty the valid bits. -/
theorem QuietTicks.drained {P : Params} {top : VfirTop} (h : QuietTicks P top) : top.Drained := by
  obtain ⟨s, p₀, p₁, h0, h1, hregs⟩ := h
  simp [VfirTop.Drained, hregs, h0, h1]

/-- Ticks without a write presented leave the registers. -/
theorem regFile_iterate {P : Params} {p : SAxiPort} (hp : p.awvalid = false) (s : SAxi) (n : ℕ) :
    ((fun s : SAxi => s.next P true p)^[n] s).regFile = s.regFile := by
  refine WatchdogLoop.iterate_of_step (I := fun _ (s' : SAxi) => s'.regFile = s.regFile) rfl
    (fun _ s' h => ?_) n
  rw [SAxi.regFile_next_of_no_write (by simp [SAxi.slvRegWren, hp]), h]

/-- Without a write address the enable stays. -/
theorem staysEnabled_of_awvalid_low {P : Params} {top : VfirTop}
    (hreset : top.pins.aresetn = true) (haw : top.pins.axi.awvalid = false)
    (hen : top.regs.axi.en = true) : StaysEnabled P top := by
  refine ⟨hreset, fun n => ?_⟩
  have hctrl := congrArg RegFile.ctrlReg (regFile_iterate (P := P) haw top.regs.axi n)
  rw [SAxi.en, show SAxi.ctrlReg _ = top.regs.axi.ctrlReg from hctrl]
  exact hen

/-! ## One iteration -/

section iterate

variable {P : Params} {input : ℕ → BitVec 32} {words : ℕ} {s : XferState VfirTop}

/-- The inputs of `top` at the tick of an iteration. -/
def XferState.tickPins (input : ℕ → BitVec 32) (words : ℕ) (s : XferState VfirTop) : MyFirPort :=
  ((simDevice P).drive (s.drivenPins input words) s.dev).pins

theorem ticked_regs : (s.ticked (simDevice P) input words).regs =
    s.dev.regs.next P (s.tickPins (P := P) input words) :=
  rfl

/-- A word is taken unless the loop holds the sink back. -/
theorem took_eq (hen : (s.ticked (simDevice P) input words).regs.axi.en = true) :
    s.took (simDevice P) input words =
      (decide (s.accepted < words) && decide (s.backpressureCycles = 0)) := by
  have hready : (simDevice P).sAxisTready (s.ticked (simDevice P) input words) =
      ((s.ticked (simDevice P) input words).regs.axi.en && decide (s.backpressureCycles = 0)) := rfl
  rw [XferState.took, hready, hen, Bool.true_and]

/-- A word is received if the valid bit is set. -/
theorem got_eq (hreset : s.dev.pins.aresetn = true) :
    s.got (simDevice P) input words =
      (s.dev.regs.mAxis.validReg && decide (s.backpressureCycles = 0) &&
        decide (s.received < words)) := by
  have hvalid : (simDevice P).mAxisTvalid (s.ticked (simDevice P) input words) =
      (s.dev.pins.aresetn && s.dev.regs.mAxis.validReg) := MyFir.next_axisTvalidDelay P _ _
  rw [XferState.got, hvalid, hreset, Bool.true_and]

end iterate

/-!
## The timetable

The numbers come from the constants of the mock. The word number `kBackpressureStart` is
received in iteration 5, and `m_axis_tready` is low in the nine iterations that follow, as
iteration 5 counts already. The drain starts at 255, as the iteration that accepts the last
word counts already.
-/

section timetable

variable (words i : ℕ)

/-- Words accepted after `i` iterations while there are words left. None is accepted in
the iterations 6 to 14. -/
def fed : ℕ :=
  i - min (i - 5) 9

/-- The iteration after which all words are accepted. -/
def fedAt : ℕ :=
  if words ≤ 5 then words else words + 9

/-- The words that are received in the end. -/
def quota : ℕ :=
  if words = 5 then 4 else words

/-- The tick of iteration `i + 1` has `m_axis_tready`, in transfers that still feed. -/
def Flowing : Prop :=
  i < 5 ∨ 14 ≤ i

instance : Decidable (Flowing i) :=
  inferInstanceAs (Decidable (_ ∨ _))

/-- `backpressure_cycles` after `i` iterations. -/
def backpressureAt : ℕ :=
  if 4 ≤ words ∧ 5 ≤ i then 14 - i else 0

/-- `drain_cycles_remaining` after `i` iterations. -/
def drainAt : ℕ :=
  if fedAt words ≤ i then 255 + fedAt words - i else 0

/-- Before, in and after the stall. -/
theorem fed_phase : (i < 5 ∧ fed i = i ∧ fed (i + 1) = i + 1) ∨
    (5 ≤ i ∧ i < 14 ∧ fed i = 5 ∧ fed (i + 1) = 5) ∨
      (14 ≤ i ∧ fed i = i - 9 ∧ fed (i + 1) = i - 8) := by
  unfold fed
  omega

/-- The nine cycles of backpressure come after the fifth word. -/
theorem fedAt_phase : (words ≤ 5 ∧ fedAt words = words) ∨
    (5 < words ∧ fedAt words = words + 9) := by
  unfold fedAt
  split <;> omega

/-- The words are handed over until `fedAt`. -/
theorem fed_lt_iff : fed i < words ↔ i < fedAt words := by
  have := fed_phase i
  have := fedAt_phase words
  omega

theorem took_timetable :
    (fed i < words ∧ backpressureAt words i = 0) ↔ (i < fedAt words ∧ Flowing i) := by
  rw [fed_lt_iff]
  have := fedAt_phase words
  unfold backpressureAt Flowing
  split <;> omega

theorem got_timetable :
    ((1 ≤ i ∧ i ≤ fedAt words) ∧ backpressureAt words i = 0 ∧
      min (fed i - 1) (quota words) < words) ↔ (1 ≤ i ∧ i ≤ fedAt words ∧ Flowing i) := by
  have := fed_phase i
  have := fedAt_phase words
  unfold backpressureAt Flowing quota
  split_ifs <;> omega

theorem accepted_succ :
    (if i < fedAt words ∧ Flowing i then min (fed i) words + 1 else min (fed i) words) =
      min (fed (i + 1)) words := by
  have := fed_phase i
  have := fedAt_phase words
  unfold Flowing
  split <;> omega

theorem received_succ :
    (if 1 ≤ i ∧ i ≤ fedAt words ∧ Flowing i then min (fed i - 1) (quota words) + 1
      else min (fed i - 1) (quota words)) = min (fed (i + 1) - 1) (quota words) := by
  have := fed_phase i
  have := fedAt_phase words
  unfold Flowing quota
  split_ifs <;> omega

theorem fourth_received :
    ((1 ≤ i ∧ i ≤ fedAt words ∧ Flowing i) ∧ min (fed i - 1) (quota words) + 1 = 4 ∧
      backpressureAt words i = 0) ↔ (i = 4 ∧ 4 ≤ words) := by
  have := fed_phase i
  have := fedAt_phase words
  unfold Flowing quota backpressureAt
  split_ifs <;> omega

theorem backpressureAt_succ :
    (if i = 4 ∧ 4 ≤ words then 9 else backpressureAt words i - 1) =
      backpressureAt words (i + 1) := by
  unfold backpressureAt
  split_ifs <;> omega

/-- The last word is taken just before `fedAt`. -/
theorem last_taken : ((i < fedAt words ∧ Flowing i) ∧ min (fed i) words + 1 = words) ↔
    i + 1 = fedAt words := by
  have := fed_phase i
  have := fedAt_phase words
  unfold Flowing
  omega

theorem drainAt_succ :
    (if fedAt words ≤ i + 1 then (if i + 1 = fedAt words then 256 else drainAt words i) - 1
      else drainAt words i) = drainAt words (i + 1) := by
  unfold drainAt
  split_ifs <;> omega

end timetable

/-- The state after `i` iterations of a transfer of `words` words from `start`. -/
structure Progress (P : Params) (start : VfirTop) (words i : ℕ) (s : XferState VfirTop) : Prop where
  accepted : s.accepted = min (fed i) words
  received : s.received = min (fed i - 1) (quota words)
  cycles : s.cycles = i
  backpressureCycles : s.backpressureCycles = backpressureAt words i
  drainCyclesRemaining : s.drainCyclesRemaining = drainAt words i
  aresetn : s.dev.pins.aresetn = true
  axiPins : s.dev.pins.axi = start.pins.axi
  axi : s.dev.regs.axi = (fun s : SAxi => s.next P true start.pins.axi)^[i] start.regs.axi
  validReg : s.dev.regs.mAxis.validReg = decide (1 ≤ i ∧ i ≤ fedAt words)
  axisTvalidDelay : s.dev.regs.mAxis.axisTvalidDelay = decide (2 ≤ i ∧ i ≤ fedAt words + 1)

namespace Progress

variable {P : Params} {start : VfirTop} {input : ℕ → BitVec 32} {words i : ℕ}
  {s : XferState VfirTop}

theorem ticked_axi (h : Progress P start words i s) :
    (s.ticked (simDevice P) input words).regs.axi =
      (fun s : SAxi => s.next P true start.pins.axi)^[i + 1] start.regs.axi := by
  rw [Function.iterate_succ_apply', ← h.axi, ticked_regs, MyFir.next_axi]
  simp only [XferState.tickPins, simDevice, h.aresetn, h.axiPins]

/-- The words are taken as the timetable says. -/
theorem took_iff (hstart : StaysEnabled P start) (h : Progress P start words i s) :
    s.took (simDevice P) input words = true ↔ i < fedAt words ∧ Flowing i := by
  have hen : (s.ticked (simDevice P) input words).regs.axi.en = true := by
    rw [h.ticked_axi]
    exact hstart.2 (i + 1)
  rw [took_eq hen, h.accepted, h.backpressureCycles, Bool.and_eq_true, decide_eq_true_eq,
    decide_eq_true_eq, ← took_timetable, min_lt_iff, or_iff_left (Nat.lt_irrefl words)]

/-- The words are received as the timetable says. -/
theorem got_iff (h : Progress P start words i s) :
    s.got (simDevice P) input words = true ↔ 1 ≤ i ∧ i ≤ fedAt words ∧ Flowing i := by
  rw [got_eq h.aresetn, h.validReg, h.backpressureCycles, h.received, Bool.and_eq_true,
    Bool.and_eq_true, decide_eq_true_eq, decide_eq_true_eq, decide_eq_true_eq, and_assoc,
    got_timetable]

/-- Backpressure starts with the fourth word. -/
theorem startsBackpressure_iff (h : Progress P start words i s) :
    s.startsBackpressure (simDevice P) input words = true ↔ i = 4 ∧ 4 ≤ words := by
  rw [XferState.startsBackpressure, Bool.and_eq_true, Bool.and_eq_true, h.got_iff,
    decide_eq_true_eq, decide_eq_true_eq, h.received, h.backpressureCycles, kBackpressureStart,
    and_assoc, fourth_received]

/-- The loop goes on until the drain is over, and for ever with five words. -/
theorem running_iff (h : Progress P start words i s) :
    s.running words = true ↔ words = 5 ∨ i < fedAt words + 255 := by
  simp only [XferState.running, Bool.or_eq_true, decide_eq_true_eq, h.accepted, h.received,
    h.drainCyclesRemaining]
  have := fed_phase i
  have := fedAt_phase words
  unfold quota drainAt
  split_ifs <;> omega

theorem nextAccepted_eq (hstart : StaysEnabled P start) (h : Progress P start words i s) :
    s.nextAccepted (simDevice P) input words = min (fed (i + 1)) words := by
  simp only [XferState.nextAccepted, h.took_iff hstart, h.accepted]
  exact accepted_succ words i

theorem nextBackpressure_eq (h : Progress P start words i s) :
    s.nextBackpressure (simDevice P) input words = backpressureAt words (i + 1) := by
  rw [← backpressureAt_succ]
  simp only [XferState.nextBackpressure, h.startsBackpressure_iff, h.backpressureCycles,
    kBackpressureLength]
  split <;> split <;> omega

theorem nextDrain_eq (hstart : StaysEnabled P start) (h : Progress P start words i s) :
    s.nextDrain (simDevice P) input words = drainAt words (i + 1) := by
  have hlast : (s.took (simDevice P) input words && decide (s.accepted + 1 = words)) = true ↔
      i + 1 = fedAt words := by
    rw [Bool.and_eq_true, h.took_iff hstart, h.accepted, decide_eq_true_eq, last_taken]
  have hall : words ≤ min (fed (i + 1)) words ↔ fedAt words ≤ i + 1 := by
    rw [← Nat.not_lt, min_lt_iff, or_iff_left (Nat.lt_irrefl words), fed_lt_iff, Nat.not_lt]
  rw [← drainAt_succ]
  simp only [XferState.nextDrain, h.nextAccepted_eq hstart, hlast, hall, h.drainCyclesRemaining,
    kDrainCycles]
  split_ifs <;> omega

/-- One iteration. -/
theorem step (hstart : StaysEnabled P start) (h : Progress P start words i s) :
    Progress P start words (i + 1) (s.iterate (simDevice P) input words) where
  accepted := h.nextAccepted_eq hstart
  received := by
    simp only [XferState.iterate, XferState.nextReceived, h.got_iff, h.received]
    exact received_succ words i
  cycles := by rw [XferState.iterate, h.cycles]
  backpressureCycles := h.nextBackpressure_eq
  drainCyclesRemaining := h.nextDrain_eq hstart
  aresetn := h.aresetn
  axiPins := h.axiPins
  axi := h.ticked_axi
  validReg := by
    have hvalid : (s.iterate (simDevice P) input words).dev.regs.mAxis.validReg =
      decide (s.accepted < words) := rfl
    rw [hvalid, h.accepted, decide_eq_decide, min_lt_iff, or_iff_left (Nat.lt_irrefl words),
      fed_lt_iff]
    omega
  axisTvalidDelay := by
    have hdelay : (s.iterate (simDevice P) input words).dev.regs.mAxis.axisTvalidDelay =
      (s.dev.pins.aresetn && s.dev.regs.mAxis.validReg) := MyFir.next_axisTvalidDelay P _ _
    rw [hdelay, h.aresetn, Bool.true_and, h.validReg, decide_eq_decide]
    omega

end Progress

/-- The state after `i` iterations. -/
def xferAt (P : Params) (start : VfirTop) (input output : ℕ → BitVec 32) (words i : ℕ) :
    XferState VfirTop :=
  (XferState.iterate (simDevice P) input words)^[i] (startXfer (simDevice P) start output)

/-- The timetable starts with the loop. -/
theorem progress_start {P : Params} {start : VfirTop} (hstart : StaysEnabled P start)
    (hdrained : start.Drained) (output : ℕ → BitVec 32) {words : ℕ} (hwords : 0 < words) :
    Progress P start words 0 (startXfer (simDevice P) start output) := by
  have hfedAt := fedAt_phase words
  refine ⟨by simp [fed, startXfer], by simp [fed, startXfer], rfl, ?_, ?_, hstart.1, rfl, rfl,
    ?_, ?_⟩
  · simp [backpressureAt, startXfer]
  · rw [drainAt, if_neg (by omega)]
    rfl
  · exact hdrained.1.trans (decide_eq_false (by omega)).symm
  · exact hdrained.2.trans (decide_eq_false (by omega)).symm

/-- From a start without a beat in the filter, all iterations keep to the timetable. -/
theorem progress_xferAt {P : Params} {start : VfirTop} (hstart : StaysEnabled P start)
    (hdrained : start.Drained) (input output : ℕ → BitVec 32) {words : ℕ} (hwords : 0 < words)
    (i : ℕ) : Progress P start words i (xferAt P start input output words i) :=
  WatchdogLoop.iterate_of_step (progress_start hstart hdrained output hwords)
    (fun _ _ h => h.step hstart) i

/-! ## How a transfer ends -/

/-- The transfer is not one of five words, and its drain ends within the cycle limit. -/
def Succeeds (words : ℕ) : Prop :=
  words ≠ 5 ∧ fedAt words + 255 ≤ maxCycles words

instance (words : ℕ) : Decidable (Succeeds words) :=
  inferInstanceAs (Decidable (_ ∧ _))

/-- How many iterations the loop makes. -/
def iterations (words : ℕ) : ℕ :=
  if Succeeds words then fedAt words + 255 else maxCycles words + 1

/-- The loop makes `iterations words` iterations, and the call fails unless
`Succeeds words`. -/
theorem transfer_eq {P : Params} {start : VfirTop} (hstart : StaysEnabled P start)
    (hdrained : start.Drained) (input output : ℕ → BitVec 32) {txLen rxLen words : ℕ}
    (htransfer : transferWords txLen rxLen = words) (hwords : 0 < words) :
    axidmaTwowayTransfer (simDevice P) start (some input) txLen (some output) rxLen =
      ⟨if Succeeds words then 0 else -1,
        (xferAt P start input output words (iterations words)).release (simDevice P),
        (xferAt P start input output words (iterations words)).output⟩ := by
  have hrunning := fun i =>
    (progress_xferAt hstart hdrained input output hwords i).running_iff
  have hrun : (transferLoop (simDevice P) input words).run (startXfer (simDevice P) start output) =
      (decide (Succeeds words), xferAt P start input output words (iterations words)) := by
    by_cases hs : Succeeds words
    · rw [iterations, if_pos hs, decide_eq_true hs]
      refine WatchdogLoop.run_of_stop _ (fun j hj => (hrunning j).2 (Or.inr hj)) ?_ ?_
      · exact (Nat.zero_add _).trans_le hs.2
      · refine Bool.eq_false_iff.2 fun hgo => ?_
        have := (hrunning _).1 hgo
        have := hs.1
        omega
    · rw [iterations, if_neg hs, decide_eq_false hs]
      refine WatchdogLoop.run_of_limit _ (fun j hj => (hrunning j).2 ?_) (Nat.zero_add _)
      have hj : j ≤ maxCycles words := hj
      by_cases h5 : words = 5
      · exact Or.inl h5
      · have hlimit : ¬fedAt words + 255 ≤ maxCycles words := fun h => hs ⟨h5, h⟩
        exact Or.inr (by omega)
  simp only [axidmaTwowayTransfer, htransfer, if_neg (show words ≠ 0 by omega), hrun,
    decide_eq_true_eq]

/-- A transfer succeeds exactly if its length does. -/
theorem rc_eq_zero_iff {P : Params} {start : VfirTop} (hstart : StaysEnabled P start)
    (hdrained : start.Drained) (input output : ℕ → BitVec 32) {txLen rxLen words : ℕ}
    (htransfer : transferWords txLen rxLen = words) (hwords : 0 < words) :
    (axidmaTwowayTransfer (simDevice P) start (some input) txLen (some output) rxLen).rc = 0 ↔
      Succeeds words := by
  rw [transfer_eq hstart hdrained input output htransfer hwords]
  by_cases hs : Succeeds words <;> simp [hs]

/-- The state `main` starts its transfer in has the filter enabled and quiet. -/
theorem simStart_ready (P : Params) (regs : MyFir) :
    ∃ top, simStart P regs = some top ∧ StaysEnabled P top ∧ QuietTicks P top := by
  obtain ⟨top, hreturn, hbetween, -, hquiet, hctrl, -⟩ := simStart_spec P regs
  refine ⟨top, hreturn, staysEnabled_of_awvalid_low hbetween.aresetn hbetween.awvalid ?_, hquiet⟩
  rw [SAxi.en, hctrl]
  rfl

/-- The cycle limit, where `size_t` can represent it, leaves time for the drain. -/
theorem succeeds_iff_of_fits {words : ℕ} (hfits : 64 * words + 1280 < 2 ^ 64) :
    Succeeds words ↔ words ≠ 5 := by
  refine and_iff_left ?_
  rw [maxCycles, kDrainCycles, Nat.mod_eq_of_lt (by omega)]
  have := fedAt_phase words
  omega

/-- The first transfer returns 0 exactly when its length is not five words. -/
theorem first_transfer_succeeds_iff (P : Params) (regs : MyFir) (input output : ℕ → BitVec 32)
    {N : ℕ} (hN : 0 < N) (hfits : 64 * N + 1280 < 2 ^ 64) :
    ∃ top, simStart P regs = some top ∧
      ((axidmaTwowayTransfer (simDevice P) top (some input) (4 * N) (some output) (4 * N)).rc = 0 ↔
        N ≠ 5) := by
  obtain ⟨top, hreturn, henabled, hquiet⟩ := simStart_ready P regs
  refine ⟨top, hreturn, ?_⟩
  have hwords : transferWords (4 * N) (4 * N) = N := by
    rw [transferWords, Nat.min_self, Nat.mul_div_cancel_left N (by decide)]
  rw [rc_eq_zero_iff henabled hquiet.drained input output hwords hN, succeeds_iff_of_fits hfits]

/-- The fifth word is in the filter when the backpressure starts, and never comes out. -/
theorem first_transfer_of_five_fails : ∃ top, simStart (firTop fun _ => 0) zeroState = some top ∧
    (axidmaTwowayTransfer (simDevice (firTop fun _ => 0)) top (some fun i => BitVec.ofNat 32 i)
      (4 * 5) (some fun _ => 0) (4 * 5)).rc = -1 := by
  obtain ⟨top, hreturn, henabled, hquiet⟩ := simStart_ready (firTop fun _ => 0) zeroState
  refine ⟨top, hreturn, ?_⟩
  rw [transfer_eq henabled hquiet.drained _ _ (rfl : transferWords (4 * 5) (4 * 5) = 5) (by decide),
    if_neg fun h => h.1 rfl]

/-- The transfer of the demo. -/
theorem first_transfer_succeeds_iff_ramp : ∃ top,
    simStart (firTop fun _ => 0) zeroState = some top ∧
    ((axidmaTwowayTransfer (simDevice (firTop fun _ => 0)) top (some fun i => BitVec.ofNat 32 i)
      (4 * 32) (some fun _ => 0) (4 * 32)).rc = 0 ↔ 32 ≠ 5) :=
  first_transfer_succeeds_iff (firTop fun _ => 0) zeroState _ _ (by decide) (by decide)

end FirDemo
