import FirDemo.TransferBus

/-!
# The data of a transfer

With the identity coefficients and nothing in the delay line the word received is the low
half-word of the sample accepted last, sign-extended (`DataProgress`). A call that fed all
its words leaves the filter without a beat, whether it succeeded or not (`Ready`), so in
any sequence of such calls those that return 0 are correct
(`successful_transfers_correct`).

A call is cut off while it feeds only when its cycle limit has wrapped in `size_t`
(`cut_off_then_wrong`).
-/

namespace FirDemo

/-- The filter enabled and out of reset, with the identity coefficients, no write presented
and nothing in the delay line. -/
structure IdentityFilter (P : Params) (top : VfirTop) : Prop where
  aresetn : top.pins.aresetn = true
  awvalid : top.pins.axi.awvalid = false
  en : top.regs.axi.en = true
  coeff_one : top.regs.axi.coefSlvReg 1 = 1
  singleTap : SingleTap P.TAPS top.regs.axi.coefSlvReg
  lineZero : LineZero P.TAPS top.regs.uFilter

/-- The filter between calls : no beat is in it. -/
structure Ready (P : Params) (top : VfirTop) : Prop extends IdentityFilter P top where
  drained : top.Drained

theorem IdentityFilter.staysEnabled {P : Params} {top : VfirTop} (h : IdentityFilter P top) :
    StaysEnabled P top :=
  staysEnabled_of_awvalid_low h.aresetn h.awvalid h.en

theorem IdentityFilter.filterOut_eq {P : Params} {top : VfirTop} (h : IdentityFilter P top) :
    top.regs.filterOut P = sample top.regs.sAxis.streamDataOut :=
  filteredSignal_identity P.TAPS_pos h.coeff_one h.lineZero _

/-- The receive buffer and the sample register after `i` iterations. -/
structure DataProgress (P : Params) (input output : ℕ → BitVec 32) (s : XferState VfirTop) :
    Prop where
  received : ∀ j < s.received, s.output j = sample (input j)
  beyond : ∀ j, s.received ≤ j → s.output j = output j
  held : 0 < s.accepted → s.dev.regs.sAxis.streamDataOut = input (s.accepted - 1)
  lineZero : LineZero P.TAPS s.dev.regs.uFilter

section iterate

variable {P : Params} {start : VfirTop} {input output : ℕ → BitVec 32} {words i : ℕ}
  {s : XferState VfirTop}

theorem Progress.identityFilter (hstart : IdentityFilter P start)
    (hp : Progress P start words i s) (hline : LineZero P.TAPS s.dev.regs.uFilter) :
    IdentityFilter P s.dev := by
  have hcoeff : s.dev.regs.axi.coefSlvReg = start.regs.axi.coefSlvReg := by
    rw [hp.axi]
    exact congrArg RegFile.coefSlvReg (regFile_iterate hstart.awvalid start.regs.axi i)
  refine ⟨hp.aresetn, by rw [hp.axiPins, hstart.awvalid], ?_, by rw [hcoeff, hstart.coeff_one],
    by rw [hcoeff]; exact hstart.singleTap, hline⟩
  rw [hp.axi]
  exact hstart.staysEnabled.2 i

/-- The sample register takes the word that the mock counts as accepted. -/
theorem Progress.held_iterate (input : ℕ → BitVec 32) (hstart : StaysEnabled P start)
    (hp : Progress P start words i s) :
    (s.iterate (simDevice P) input words).dev.regs.sAxis.streamDataOut =
      if s.took (simDevice P) input words then input s.accepted
      else s.dev.regs.sAxis.streamDataOut := by
  have hen : s.dev.regs.axi.en = true := by
    rw [hp.axi]
    exact hstart.2 i
  have hen' : (s.ticked (simDevice P) input words).regs.axi.en = true := by
    rw [hp.ticked_axi]
    exact hstart.2 (i + 1)
  have hdata : (s.iterate (simDevice P) input words).dev.regs.sAxis.streamDataOut =
      if decide (s.accepted < words) && (s.dev.regs.axi.en && decide (s.backpressureCycles = 0))
      then (if s.accepted < words then input s.accepted else 0)
      else s.dev.regs.sAxis.streamDataOut := rfl
  rw [hdata, took_eq hen', hen, Bool.true_and]
  by_cases hlt : s.accepted < words
  · rw [if_pos hlt]
  · rw [decide_eq_false hlt, Bool.false_and, if_neg Bool.false_ne_true, if_neg Bool.false_ne_true]

/-- When a word is received, the sample register holds the word of the same index. -/
theorem accepted_of_got {words i : ℕ} (h : 1 ≤ i ∧ i ≤ fedAt words ∧ Flowing i) :
    min (fed i) words = min (fed i - 1) (quota words) + 1 := by
  have := fed_phase i
  have := fedAt_phase words
  unfold Flowing at h
  unfold quota
  split_ifs <;> omega

theorem DataProgress.step (hstart : IdentityFilter P start) (hp : Progress P start words i s)
    (h : DataProgress P input output s) :
    DataProgress P input output (s.iterate (simDevice P) input words) := by
  refine ⟨fun j hj => ?_, fun j hj => ?_, fun hpos => ?_, ?_⟩
  · rcases Nat.lt_or_ge j s.received with hlt | hge
    · rw [s.output_iterate_of_lt _ _ _ hlt, h.received j hlt]
    · cases hgot : s.got (simDevice P) input words with
      | false =>
        rw [(s.iterate_of_not_got _ _ _ hgot).1] at hj
        omega
      | true =>
        obtain ⟨hrec, hout⟩ := s.iterate_of_got _ _ _ hgot
        obtain rfl : j = s.received := by omega
        have hindex := accepted_of_got (hp.got_iff.1 hgot)
        rw [← hp.accepted, ← hp.received] at hindex
        have hdata := hp.mAxisTdata_iterate input
        rw [hgot, if_pos rfl, (hp.identityFilter hstart h.lineZero).filterOut_eq,
          h.held (by omega), show s.accepted - 1 = s.received by omega] at hdata
        rw [hout, Function.update_self]
        exact hdata
  · obtain ⟨hrec, hout⟩ := s.output_iterate_of_le _ _ _ hj
    rw [hout, h.beyond j hrec]
  · have hheld := hp.held_iterate input hstart.staysEnabled
    have hacc : (s.iterate (simDevice P) input words).accepted =
        if s.took (simDevice P) input words then s.accepted + 1 else s.accepted := rfl
    cases htook : s.took (simDevice P) input words with
    | false =>
      rw [htook, if_neg Bool.false_ne_true] at hheld hacc
      rw [hheld, hacc, h.held (by omega)]
    | true =>
      rw [htook, if_pos rfl] at hheld hacc
      rw [hheld, hacc, Nat.add_sub_cancel]
  · exact lineZero_next (hp.identityFilter hstart h.lineZero).singleTap h.lineZero _ _

end iterate

theorem dataProgress_xferAt {P : Params} {start : VfirTop} (hstart : Ready P start)
    (input output : ℕ → BitVec 32) {words : ℕ} (hwords : 0 < words) (i : ℕ) :
    DataProgress P input output (xferAt P start input output words i) := by
  have hfirst : DataProgress P input output (startXfer (simDevice P) start output) :=
    ⟨fun j hj => absurd hj (Nat.not_lt_zero j), fun _ _ => rfl,
      fun h => absurd h (Nat.lt_irrefl 0), hstart.lineZero⟩
  exact (WatchdogLoop.iterate_of_step
    (I := fun i s => Progress P start words i s ∧ DataProgress P input output s)
    ⟨progress_start hstart.staysEnabled hstart.drained output hwords, hfirst⟩
    (fun _ _ h => ⟨h.1.step hstart.staysEnabled, h.2.step hstart.toIdentityFilter h.1⟩) i).2

/-- Taking the stream inputs back changes nothing of it. -/
theorem IdentityFilter.release {P : Params} {s : XferState VfirTop} (h : IdentityFilter P s.dev) :
    IdentityFilter P (s.release (simDevice P)) :=
  ⟨h.aresetn, h.awvalid, h.en, h.coeff_one, h.singleTap, h.lineZero⟩

/-! ## Sequences of calls -/

/-- The arguments of a call. -/
structure TransferCall where
  txBuf : Option (ℕ → BitVec 32)
  txLen : ℕ
  rxBuf : Option (ℕ → BitVec 32)
  rxLen : ℕ

namespace TransferCall

/-- The words of a call. -/
def words (c : TransferCall) : ℕ :=
  transferWords c.txLen c.rxLen

/-- A call on a device. -/
def run {σ : Type*} (D : Device σ) (dev : σ) (c : TransferCall) : XferResult σ :=
  axidmaTwowayTransfer D dev c.txBuf c.txLen c.rxBuf c.rxLen

/-- A call that returns 0 has filled the first `words` words of the receive buffer with the
samples, and left the others. -/
def Correct {σ : Type*} (c : TransferCall) (result : XferResult σ) : Prop :=
  result.rc = 0 → ∀ input output, c.txBuf = some input → c.rxBuf = some output →
    (∀ i < c.words, result.output i = sample (input i)) ∧
      ∀ i, c.words ≤ i → result.output i = output i

variable {P : Params} {top : VfirTop}

theorem correct (hready : Ready P top) (c : TransferCall) :
    c.Correct (c.run (simDevice P) top) := by
  intro hrc input output htx hrx
  rw [run, htx, hrx] at hrc ⊢
  rcases Nat.eq_zero_or_pos c.words with hzero | hpos
  · rw [axidmaTwowayTransfer_of_empty _ _ _ _ hzero, hzero]
    exact ⟨fun i hi => absurd hi (Nat.not_lt_zero i), fun _ _ => rfl⟩
  · have hs : Succeeds c.words :=
      (rc_eq_zero_iff hready.staysEnabled hready.drained input output rfl hpos).1 hrc
    have hp := progress_xferAt hready.staysEnabled hready.drained input output hpos
      (iterations c.words)
    have hd := dataProgress_xferAt hready input output hpos (iterations c.words)
    have hreceived : min (fed (iterations c.words) - 1) (quota c.words) = c.words := by
      have hi : iterations c.words = fedAt c.words + 255 := if_pos hs
      have := fed_phase (iterations c.words)
      have := fedAt_phase c.words
      unfold quota
      split_ifs with h5
      · exact absurd h5 hs.1
      · omega
    rw [← hp.received] at hreceived
    rw [transfer_eq hready.staysEnabled hready.drained input output rfl hpos]
    exact ⟨fun i hi => hd.received i (by omega), fun i hi => hd.beyond i (by omega)⟩

/-- A call whose cycle limit leaves time to feed all its words leaves the filter ready. -/
theorem ready (hready : Ready P top) (c : TransferCall)
    (hlimit : c.words + 10 ≤ maxCycles c.words) : Ready P (c.run (simDevice P) top).dev := by
  rw [run]
  cases htx : c.txBuf with
  | none => exact hready
  | some input =>
    cases hrx : c.rxBuf with
    | none => exact hready
    | some output =>
      rcases Nat.eq_zero_or_pos c.words with hzero | hpos
      · rw [axidmaTwowayTransfer_of_empty _ _ _ _ hzero]
        exact hready
      · have hp := progress_xferAt hready.staysEnabled hready.drained input output hpos
          (iterations c.words)
        have hd := dataProgress_xferAt hready input output hpos (iterations c.words)
        have hlate : fedAt c.words + 1 < iterations c.words := by
          have := fedAt_phase c.words
          unfold iterations
          split <;> omega
        rw [transfer_eq hready.staysEnabled hready.drained input output rfl hpos]
        refine ⟨(hp.identityFilter hready.toIdentityFilter hd.lineZero).release, ?_, ?_⟩
        · exact hp.validReg.trans (decide_eq_false (by omega))
        · exact hp.axisTvalidDelay.trans (decide_eq_false (by omega))

end TransferCall

/-- The device after calls one after the other. -/
def afterCalls {σ : Type*} (D : Device σ) (dev : σ) (calls : List TransferCall) : σ :=
  calls.foldl (fun dev c => (c.run D dev).dev) dev

/-- After reset, with the enable bit and the identity coefficients programmed and no other
coefficient set to anything but zero since, in a pause of the stream. -/
structure Programmed (P : Params) (top : VfirTop) : Prop where
  sinceReset : SinceReset P top
  quietTicks : QuietTicks P top
  aresetn : top.pins.aresetn = true
  awvalid : top.pins.axi.awvalid = false
  en : top.regs.axi.en = true
  coeff_one : top.regs.axi.coefSlvReg 1 = 1

theorem Programmed.ready {P : Params} {top : VfirTop} (h : Programmed P top) : Ready P top where
  aresetn := h.aresetn
  awvalid := h.awvalid
  en := h.en
  coeff_one := h.coeff_one
  singleTap := h.sinceReset.line.1
  lineZero := h.sinceReset.line.2
  drained := h.quietTicks.drained

theorem Ready.afterCalls {P : Params} {top : VfirTop} (h : Ready P top) (calls : List TransferCall)
    (hlimit : ∀ c ∈ calls, c.words + 10 ≤ maxCycles c.words) :
    Ready P (afterCalls (simDevice P) top calls) := by
  induction calls generalizing top with
  | nil => exact h
  | cons c calls ih =>
    exact ih (c.ready h (hlimit c List.mem_cons_self)) fun c' hc' =>
      hlimit c' (List.mem_cons_of_mem c hc')

/-- `main` leaves the filter programmed. -/
theorem simStart_programmed (P : Params) (regs : MyFir) :
    ∃ top, simStart P regs = some top ∧ Programmed P top := by
  obtain ⟨top, hreturn, hbetween, hsince, hquiet, hctrl, hcoeff⟩ := simStart_spec P regs
  refine ⟨top, hreturn, hsince, hquiet, hbetween.aresetn, hbetween.awvalid, ?_, hcoeff⟩
  rw [SAxi.en, hctrl]
  rfl

/-- After any calls whose cycle limits left time to feed all their words, a call that
returns 0 is correct. -/
theorem successful_transfers_correct {P : Params} {top : VfirTop} (h : Programmed P top)
    (earlier : List TransferCall) (hlimit : ∀ c ∈ earlier, c.words + 10 ≤ maxCycles c.words)
    (c : TransferCall) :
    c.Correct (c.run (simDevice P) (afterCalls (simDevice P) top earlier)) :=
  c.correct (h.ready.afterCalls earlier hlimit)

theorem successful_transfers_correct_mainCalls :
    ∃ top, simStart (firTop fun _ => 0) zeroState = some top ∧
      TransferCall.Correct ⟨some fun i => BitVec.ofNat 32 i, 128, some fun _ => 0, 128⟩
        (TransferCall.run (simDevice (firTop fun _ => 0))
          (afterCalls (simDevice (firTop fun _ => 0)) top
            [⟨some fun _ => 7, 20, some fun _ => 0, 20⟩])
          ⟨some fun i => BitVec.ofNat 32 i, 128, some fun _ => 0, 128⟩) := by
  obtain ⟨top, hreturn, hprogrammed⟩ := simStart_programmed (firTop fun _ => 0) zeroState
  exact ⟨top, hreturn, successful_transfers_correct hprogrammed _ (by decide) _⟩

/-! ## A call cut off while it feeds -/

/-- A call of one word that finds a beat in the filter receives that beat. -/
theorem IdentityFilter.stale_word {P : Params} {top : VfirTop} (h : IdentityFilter P top)
    (hbeat : top.regs.mAxis.validReg = true) (input output : ℕ → BitVec 32) {txLen rxLen : ℕ}
    (hwords : transferWords txLen rxLen = 1) :
    (axidmaTwowayTransfer (simDevice P) top (some input) txLen (some output) rxLen).rc = 0 ∧
      (axidmaTwowayTransfer (simDevice P) top (some input) txLen (some output) rxLen).output 0 =
        sample top.regs.sAxis.streamDataOut := by
  set s₀ := startXfer (simDevice P) top output with hs₀
  set s₁ := s₀.iterate (simDevice P) input 1 with hs₁
  have hen : (s₀.ticked (simDevice P) input 1).regs.axi.en = true := by
    have hnext : (s₀.ticked (simDevice P) input 1).regs.axi =
        top.regs.axi.next P top.pins.aresetn top.pins.axi := rfl
    rw [hnext, h.aresetn]
    exact h.staysEnabled.2 1
  have htook : s₀.took (simDevice P) input 1 = true := took_eq hen
  have hgot : s₀.got (simDevice P) input 1 = true := by
    rw [got_eq h.aresetn]
    exact congrArg (fun v => v && true && true) hbeat
  obtain ⟨hreceived, houtput⟩ := s₀.iterate_of_got (simDevice P) input 1 hgot
  have hdata : (simDevice P).mAxisTdata s₁.dev = sample top.regs.sAxis.streamDataOut := by
    have htx : s₁.dev.regs.mAxisTdata = if top.regs.mAxis.txEn true then top.regs.filterOut P
        else top.regs.mAxisTdata := MyFir.next_mAxisTdata P _ _ h.aresetn
    rw [MAxis.txEn, hbeat, Bool.and_self, if_pos rfl, h.filterOut_eq] at htx
    exact htx
  have hfull : s₁.Full 1 255 := by
    refine ⟨?_, hreceived, ?_⟩
    · simp only [hs₁, XferState.iterate, XferState.nextAccepted, htook, if_true]
      rfl
    · exact XferState.nextDrain_of_last (simDevice P) input htook rfl
  obtain ⟨last, hrun, hlast⟩ := hfull.run_of_iterate (simDevice P) input rfl
    (show 0 + 1 + 255 ≤ maxCycles 1 by decide)
  simp only [axidmaTwowayTransfer, hwords, Nat.one_ne_zero, if_false, ← hs₀, hrun, if_true,
    hlast, true_and]
  rw [houtput]
  exact (Function.update_self _ _ _).trans hdata

/-- A call whose cycle limit wraps to a value below its length is cut off with a beat in the
filter. -/
theorem TransferCall.cut_off {P : Params} {top : VfirTop} (hready : Ready P top)
    (input output : ℕ → BitVec 32) {txLen rxLen words : ℕ}
    (htransfer : transferWords txLen rxLen = words) (hlimit : 13 ≤ maxCycles words)
    (hcut : maxCycles words < words) :
    ∃ dev,
      (axidmaTwowayTransfer (simDevice P) top (some input) txLen (some output) rxLen).dev = dev ∧
      IdentityFilter P dev ∧ dev.regs.mAxis.validReg = true ∧
      dev.regs.sAxis.streamDataOut = input (maxCycles words - 9) := by
  have hwords : 0 < words := by omega
  have hfed := fedAt_phase words
  have hfails : ¬Succeeds words := fun hs => by
    have := hs.2
    omega
  have hi : iterations words = maxCycles words + 1 := if_neg hfails
  have hp := progress_xferAt hready.staysEnabled hready.drained input output hwords
    (iterations words)
  have hd := dataProgress_xferAt hready input output hwords (iterations words)
  have haccepted := hp.accepted
  have hphase := fed_phase (iterations words)
  rw [transfer_eq hready.staysEnabled hready.drained input output htransfer hwords]
  refine ⟨_, rfl, (hp.identityFilter hready.toIdentityFilter hd.lineZero).release, ?_, ?_⟩
  · exact hp.validReg.trans (decide_eq_true (by omega))
  · refine (hd.held (by omega)).trans (congrArg input ?_)
    omega

/-- With `2 ^ 58` words `max_cycles` is 1280, and the next call receives a word of the first. -/
theorem cut_off_then_wrong : ∃ top, simStart (firTop fun _ => 0) zeroState = some top ∧
    Programmed (firTop fun _ => 0) top ∧
    let dev := afterCalls (simDevice (firTop fun _ => 0)) top
      [⟨some fun _ => 7, 2 ^ 60, some fun _ => 0, 2 ^ 60⟩]
    let next : TransferCall := ⟨some fun _ => 0, 4, some fun _ => 0, 4⟩
    ¬next.Correct (next.run (simDevice (firTop fun _ => 0)) dev) := by
  obtain ⟨top, hreturn, hprogrammed⟩ := simStart_programmed (firTop fun _ => 0) zeroState
  refine ⟨top, hreturn, hprogrammed, fun hcorrect => ?_⟩
  have hwords : transferWords (2 ^ 60) (2 ^ 60) = 2 ^ 58 := by norm_num [transferWords]
  have hlimit : maxCycles (2 ^ 58) = 1280 := by norm_num [maxCycles, kDrainCycles]
  obtain ⟨dev, hdev, hfilter, hbeat, hheld⟩ := TransferCall.cut_off hprogrammed.ready
    (fun _ => 7) (fun _ => 0) hwords (by omega) (by omega)
  obtain ⟨hrc, hword⟩ := hfilter.stale_word hbeat (fun _ => 0) (fun _ => 0)
    (show transferWords 4 4 = 1 from rfl)
  rw [hheld, ← hdev] at hword
  rw [← hdev] at hrc
  have hzero := (hcorrect hrc _ _ rfl rfl).1 0 (by decide)
  exact absurd (hword.symm.trans hzero) (by decide)

end FirDemo
