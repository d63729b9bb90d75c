import FirDemo.TransferRun

/-!
# What a transfer hands over on the bus

The mock counts a word as received when `m_axis_tvalid` is high after a tick that had
`m_axis_tready`. The AXI-Stream handshake is one tick later, with the `m_axis_tready` of
that tick. The word received is the word on the bus in both readings (`BusProgress`), and
they count the same words, unless the stall falls between the two : of a transfer of four
words the last one is received and never handed over (`success_is_handed_over_iff`).
-/

open Synchronous

namespace FirDemo

/-- The word handed over at a rising edge, if `m_axis_tvalid` and `m_axis_tready` were high
before it. -/
def handshake (before : MyFirPort × MyFir) : Option (BitVec 32) :=
  valid (before.2.mAxisTvalid && before.1.mAxisTready) before.2.mAxisTdata

/-- The words handed over between `top` and the later `top'`, in order. -/
def handedOver (top top' : VfirTop) : List (BitVec 32) :=
  (top'.trace.drop top.trace.length).filterMap handshake

/-- The words handed over during a call are the first `words` of the receive buffer. -/
def HandedOver (top : VfirTop) (words : ℕ) (result : XferResult VfirTop) : Prop :=
  (handedOver top result.dev).length = words ∧
    handedOver top result.dev = (List.range words).map result.output

theorem handedOver_self (top : VfirTop) : handedOver top top = [] := by
  simp [handedOver]

/-! ## The timetable of the bus -/

section timetable

variable (words i : ℕ)

/-- The words handed over after `i` iterations. -/
def handed : ℕ :=
  min (fed i - 2) (if words = 4 ∨ words = 5 then 3 else words)

theorem handshake_timetable :
    ((2 ≤ i ∧ i ≤ fedAt words + 1) ∧ backpressureAt words i = 0) ↔
      (2 ≤ i ∧ i ≤ fedAt words + 1 ∧ Flowing i) := by
  have := fedAt_phase words
  unfold backpressureAt Flowing
  split <;> omega

theorem handed_succ :
    (if 2 ≤ i ∧ i ≤ fedAt words + 1 ∧ Flowing i then handed words i + 1 else handed words i) =
      handed words (i + 1) := by
  have := fed_phase i
  have := fedAt_phase words
  unfold Flowing handed
  split_ifs <;> omega

/-- The word at the output is the one received last. -/
theorem received_of_handshake (h : 2 ≤ i ∧ i ≤ fedAt words + 1 ∧ Flowing i) :
    min (fed i - 1) (quota words) = handed words i + 1 := by
  have := fed_phase i
  have := fedAt_phase words
  unfold Flowing at h
  unfold handed quota
  split_ifs <;> omega

theorem handed_le_received : handed words i ≤ min (fed i - 1) (quota words) := by
  unfold handed quota
  split_ifs <;> omega

end timetable

/-! ## The words received and the words handed over -/

/-- `output` holds the words handed over so far, and the word at the output as the one
received last. -/
structure BusProgress (start : VfirTop) (words i : ℕ) (s : XferState VfirTop) : Prop where
  prefix_trace : start.trace <+: s.dev.trace
  handedOver_eq : handedOver start s.dev = (List.range (handed words i)).map s.output
  mAxisTdata : 0 < s.received → s.dev.regs.mAxisTdata = s.output (s.received - 1)

section iterate

variable {P : Params} {start : VfirTop} {input : ℕ → BitVec 32} {words i : ℕ}
  {s : XferState VfirTop}

theorem handedOver_iterate (h : start.trace <+: s.dev.trace) :
    handedOver start (s.iterate (simDevice P) input words).dev =
      handedOver start s.dev ++
        (handshake (s.tickPins (P := P) input words, s.dev.regs)).toList := by
  have htrace : (s.iterate (simDevice P) input words).dev.trace =
      s.dev.trace ++ [(s.tickPins (P := P) input words, s.dev.regs)] := rfl
  rw [handedOver, htrace, List.drop_append_of_le_length h.length_le, List.filterMap_append,
    ← handedOver]
  cases hh : handshake (s.tickPins (P := P) input words, s.dev.regs) <;> simp [hh]

theorem Progress.handshake_eq (h : Progress P start words i s) :
    handshake (s.tickPins (P := P) input words, s.dev.regs) =
      valid (decide (2 ≤ i ∧ i ≤ fedAt words + 1 ∧ Flowing i)) s.dev.regs.mAxisTdata := by
  have hready : (s.tickPins (P := P) input words).mAxisTready =
      decide (s.backpressureCycles = 0) := rfl
  rw [handshake, hready, MyFir.mAxisTvalid, h.axisTvalidDelay, h.backpressureCycles,
    ← Bool.decide_and, decide_eq_decide.2 (handshake_timetable words i)]

/-- The output register takes a new word exactly when the mock receives one. -/
theorem Progress.mAxisTdata_iterate (input : ℕ → BitVec 32)
    (h : Progress P start words i s) :
    (s.iterate (simDevice P) input words).dev.regs.mAxisTdata =
      if s.got (simDevice P) input words then s.dev.regs.filterOut P
      else s.dev.regs.mAxisTdata := by
  have hdata : (s.iterate (simDevice P) input words).dev.regs.mAxisTdata =
      if s.dev.regs.mAxis.txEn (decide (s.backpressureCycles = 0)) then s.dev.regs.filterOut P
      else s.dev.regs.mAxisTdata := MyFir.next_mAxisTdata P _ _ h.aresetn
  have hgot : s.got (simDevice P) input words =
      s.dev.regs.mAxis.txEn (decide (s.backpressureCycles = 0)) := by
    rw [Bool.eq_iff_iff, h.got_iff, ← got_timetable, MAxis.txEn, h.validReg, h.backpressureCycles,
      Bool.and_eq_true, decide_eq_true_eq, decide_eq_true_eq]
    have := fed_phase i
    have := fedAt_phase words
    unfold quota
    split_ifs <;> omega
  rw [hdata, hgot]

theorem BusProgress.step (hp : Progress P start words i s) (h : BusProgress start words i s) :
    BusProgress start words (i + 1) (s.iterate (simDevice P) input words) := by
  have hreceived := hp.received
  have hle := handed_le_received words i
  refine ⟨h.prefix_trace.trans (List.prefix_append _ _), ?_, fun hpos => ?_⟩
  · have hold : (List.range (handed words i)).map s.output =
        (List.range (handed words i)).map (s.iterate (simDevice P) input words).output :=
      List.map_congr_left fun j hj =>
        (s.output_iterate_of_lt _ _ _ (by have := List.mem_range.1 hj; omega)).symm
    rw [handedOver_iterate h.prefix_trace, hp.handshake_eq, h.handedOver_eq, hold, ← handed_succ]
    by_cases hh : 2 ≤ i ∧ i ≤ fedAt words + 1 ∧ Flowing i
    · have hlast := received_of_handshake words i hh
      rw [if_pos hh, decide_eq_true hh, valid_true, h.mAxisTdata (by omega),
        show s.received - 1 = handed words i by omega,
        ← s.output_iterate_of_lt (simDevice P) input words (by omega),
        List.range_succ, List.map_append]
      rfl
    · rw [if_neg hh, decide_eq_false hh, valid_false, Option.toList_none, List.append_nil]
  · have hdata := hp.mAxisTdata_iterate input
    cases hgot : s.got (simDevice P) input words with
    | true =>
      obtain ⟨hrec, hout⟩ := s.iterate_of_got (simDevice P) input words hgot
      rw [hrec, Nat.add_sub_cancel, hout, Function.update_self]
      rfl
    | false =>
      obtain ⟨hrec, hout⟩ := s.iterate_of_not_got (simDevice P) input words hgot
      rw [hrec] at hpos
      rw [hrec, hout, hdata, hgot, if_neg Bool.false_ne_true, h.mAxisTdata hpos]

end iterate

section transfer

variable {P : Params} {start : VfirTop} (input output : ℕ → BitVec 32) {words : ℕ}

theorem busProgress_xferAt (hstart : StaysEnabled P start) (hdrained : start.Drained)
    (hwords : 0 < words) (i : ℕ) :
    BusProgress start words i (xferAt P start input output words i) := by
  have hnone : handed words 0 = 0 := by
    unfold handed fed
    omega
  have hfirst : BusProgress start words 0 (startXfer (simDevice P) start output) := by
    refine ⟨List.prefix_rfl, ?_, fun h => absurd h (Nat.lt_irrefl 0)⟩
    rw [hnone]
    exact handedOver_self start
  exact (WatchdogLoop.iterate_of_step
    (I := fun i s => Progress P start words i s ∧ BusProgress start words i s)
    ⟨progress_start hstart hdrained output hwords, hfirst⟩
    (fun _ _ h => ⟨h.1.step hstart, h.2.step h.1⟩) i).2

/-- What a call that returns 0 has handed over. -/
theorem handedOver_of_succeeds (hstart : StaysEnabled P start) (hdrained : start.Drained)
    {txLen rxLen : ℕ} (htransfer : transferWords txLen rxLen = words) (hwords : 0 < words)
    (hs : Succeeds words) :
    handedOver start
        (axidmaTwowayTransfer (simDevice P) start (some input) txLen (some output) rxLen).dev =
      (List.range (if words = 4 then 3 else words)).map (axidmaTwowayTransfer (simDevice P) start
        (some input) txLen (some output) rxLen).output := by
  have hbus :=
    (busProgress_xferAt input output hstart hdrained hwords (iterations words)).handedOver_eq
  have hcount : handed words (iterations words) = if words = 4 then 3 else words := by
    have hi : iterations words = fedAt words + 255 := if_pos hs
    have := fed_phase (iterations words)
    have := fedAt_phase words
    have := hs.1
    unfold handed
    split_ifs <;> omega
  rw [transfer_eq hstart hdrained input output htransfer hwords, ← hcount]
  exact hbus

end transfer

/-- When a call returns 0, the words handed over during it are those it left in the receive
buffer, for every length but four words. -/
theorem success_is_handed_over_iff (P : Params) {top : VfirTop} (henabled : StaysEnabled P top)
    (hquiet : QuietTicks P top) (input output : ℕ → BitVec 32) (txLen rxLen : ℕ) :
    ((axidmaTwowayTransfer (simDevice P) top (some input) txLen (some output) rxLen).rc = 0 →
        HandedOver top (transferWords txLen rxLen)
          (axidmaTwowayTransfer (simDevice P) top (some input) txLen (some output) rxLen)) ↔
      transferWords txLen rxLen ≠ 4 := by
  have hdrained := hquiet.drained
  rcases Nat.eq_zero_or_pos (transferWords txLen rxLen) with hzero | hpos
  · rw [axidmaTwowayTransfer_of_empty _ _ _ _ hzero, hzero]
    exact iff_of_true (fun _ => ⟨by rw [handedOver_self]; rfl, by rw [handedOver_self]; rfl⟩)
      (by decide)
  · rw [rc_eq_zero_iff henabled hdrained input output rfl hpos]
    by_cases hs : Succeeds (transferWords txLen rxLen)
    · have hbus := handedOver_of_succeeds input output henabled hdrained
        (rfl : transferWords txLen rxLen = _) hpos hs
      rw [HandedOver, hbus, List.length_map, List.length_range]
      constructor
      · intro h h4
        have := (h hs).1
        rw [if_pos h4] at this
        omega
      · intro h4 _
        rw [if_neg h4]
        exact ⟨rfl, rfl⟩
    · refine iff_of_true (fun h => absurd h hs) fun h4 => hs ?_
      rw [h4]
      decide

/-- A call with four words returns 0 and has handed over three. -/
theorem four_words_hand_over_three : ∃ top, simStart (firTop fun _ => 0) zeroState = some top ∧
    let result := axidmaTwowayTransfer (simDevice (firTop fun _ => 0)) top
      (some fun i => BitVec.ofNat 32 i) 16 (some fun _ => 0) 16
    StaysEnabled (firTop fun _ => 0) top ∧ QuietTicks (firTop fun _ => 0) top ∧
      result.rc = 0 ∧ transferWords 16 16 = 4 ∧ (handedOver top result.dev).length = 3 := by
  obtain ⟨top, hreturn, henabled, hquiet⟩ := simStart_ready (firTop fun _ => 0) zeroState
  have hs : Succeeds 4 := by decide
  have hwords : transferWords 16 16 = 4 := rfl
  refine ⟨top, hreturn, henabled, hquiet, ?_, hwords, ?_⟩
  · exact (rc_eq_zero_iff henabled hquiet.drained _ _ hwords (by decide)).2 hs
  · rw [handedOver_of_succeeds _ _ henabled hquiet.drained hwords (by decide) hs, List.length_map,
      List.length_range, if_pos rfl]

theorem success_is_handed_over_iff_ramp : ∃ top,
    simStart (firTop fun _ => 0) zeroState = some top ∧
    let result := axidmaTwowayTransfer (simDevice (firTop fun _ => 0)) top
      (some fun i => BitVec.ofNat 32 i) 128 (some fun _ => 0) 128
    (result.rc = 0 → HandedOver top 32 result) ↔ 32 ≠ 4 := by
  obtain ⟨top, hreturn, henabled, hquiet⟩ := simStart_ready (firTop fun _ => 0) zeroState
  exact ⟨top, hreturn, success_is_handed_over_iff _ henabled hquiet _ _ 128 128⟩

end FirDemo
