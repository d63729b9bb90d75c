import FirDemo.AtomicRegisters
import FirDemo.MyFir

/-!
# What a reset leaves of the past

A reset cycle clears every register of the accelerator but three : `valid_reg` and
`last_reg`, which are overwritten on every edge, and the sample register of
`my_fir_v1_0_S_AXIS`, which has a reset input that no process reads. What the sample
register held before the reset goes through the filter as soon as coefficients are
programmed, and into the delay line. So two runs that differ only in their past have the
same outputs after a reset, whatever comes then, exactly when the low half-words of their
sample registers agree (`reset_erases_iff`).
-/

open Synchronous

namespace FirDemo

/-! ## What the outputs can ever show -/

section visible

variable (P : Params)

/-- The coefficients up to `TAPS` are all that the slave has. -/
def SAxi.visible (s : SAxi) : SAxi :=
  { s with coefSlvReg := fun k => if 1 ≤ k ∧ k ≤ P.TAPS then s.coefSlvReg k else 0 }

/-- A state without what no output depends on : the high half-word of the sample register,
and whatever is not a register of the source. -/
def MyFir.visible (s : MyFir) : MyFir where
  axi := s.axi.visible P
  uFilter i := if i + 1 < P.TAPS then s.uFilter i else 0
  sAxis := ⟨s.heldSample.setWidth 32⟩
  mAxis := s.mAxis

variable {P}

theorem SAxi.regDataOut_visible (p : SAxiPort) (s : SAxi) :
    (s.visible P).regDataOut P p = s.regDataOut P p := by
  have hcoef : (s.visible P).coefAt P s.axiAraddr.toNat = s.coefAt P s.axiAraddr.toNat := by
    unfold SAxi.coefAt SAxi.visible
    split_ifs with h
    · exact if_pos h
    · rfl
  have hunfold : (s.visible P).regDataOut P p = if s.slvRegRden p then
      if s.axiAraddr = 0 then s.ctrlReg
      else ((s.visible P).coefAt P s.axiAraddr.toNat).setWidth 32 else 0 := rfl
  rw [hunfold, hcoef]
  rfl

/-- What is visible after an edge depends on what is visible before it. -/
theorem SAxi.visible_next (aresetn : Bool) (p : SAxiPort) (s : SAxi) :
    ((s.visible P).next P aresetn p).visible P = (s.next P aresetn p).visible P := by
  have hdata := SAxi.regDataOut_visible (P := P) p s
  unfold SAxi.visible SAxi.next at *
  congr 1
  · exact if_congr Iff.rfl rfl (if_congr Iff.rfl hdata rfl)
  · funext k
    by_cases hk : 1 ≤ k ∧ k ≤ P.TAPS
    · simp only [if_pos hk]
      rfl
    · simp only [if_neg hk]

@[simp] theorem MyFir.heldSample_visible (s : MyFir) :
    (s.visible P).heldSample = s.heldSample := by
  simp [MyFir.heldSample, MyFir.visible]

theorem MyFir.visible_ext {s s' : MyFir} (haxi : s.axi.visible P = s'.axi.visible P)
    (huFilter : ∀ i, i + 1 < P.TAPS → s.uFilter i = s'.uFilter i)
    (hheld : s.heldSample = s'.heldSample) (hmAxis : s.mAxis = s'.mAxis) :
    s.visible P = s'.visible P := by
  simp only [MyFir.visible, haxi, hheld, hmAxis, MyFir.mk.injEq, true_and, and_true]
  funext i
  exact if_ctx_congr Iff.rfl (huFilter i) fun _ => rfl

theorem MyFir.summedSignal_visible (s : MyFir) {i : ℕ} (hi : i < P.TAPS) :
    summedSignal P.TAPS (s.visible P).axi.coefSlvReg s.heldSample (s.visible P).uFilter i =
      summedSignal P.TAPS s.axi.coefSlvReg s.heldSample s.uFilter i :=
  summedSignal_congr P.TAPS_pos (fun _ h1 hk => if_pos ⟨h1, hk⟩) (fun _ hi => if_pos hi) hi

theorem MyFir.filterOut_visible (s : MyFir) : (s.visible P).filterOut P = s.filterOut P := by
  have hTAPS := P.TAPS_pos
  rw [MyFir.filterOut, heldSample_visible]
  exact s.summedSignal_visible (by omega)

theorem MyFir.visible_next (p : MyFirPort) (s : MyFir) :
    ((s.visible P).next P p).visible P = (s.next P p).visible P := by
  have hheld : ((s.visible P).next P p).heldSample = (s.next P p).heldSample := by
    rw [heldSample_next, heldSample_next, heldSample_visible]
    rfl
  have huFilter : ∀ i, i + 1 < P.TAPS →
      ((s.visible P).next P p).uFilter i = (s.next P p).uFilter i := fun i hi => by
    change TransposedBlock.delayedSignal p.aresetn (summedSignal P.TAPS
      (s.visible P).axi.coefSlvReg (s.visible P).heldSample (s.visible P).uFilter i) = _
    rw [heldSample_visible, summedSignal_visible s (by omega)]
    rfl
  have hmAxis : ((s.visible P).next P p).mAxis = (s.next P p).mAxis := by
    change s.mAxis.next p.aresetn p.sAxisTvalid p.sAxisTlast p.mAxisTready
      ((s.visible P).filterOut P) = _
    rw [filterOut_visible]
    rfl
  exact visible_ext (SAxi.visible_next p.aresetn p.axi s.axi) huFilter hheld hmAxis

/-- No output depends on more than what is visible. -/
theorem MyFir.outputs_visible (s : MyFir) (p : MyFirPort) :
    (s.visible P).outputs p = s.outputs p :=
  rfl

theorem MyFir.outputs_eq_of_visible_eq {s s' : MyFir} (h : s.visible P = s'.visible P)
    (p : MyFirPort) : s.outputs p = s'.outputs p := by
  rw [← outputs_visible (P := P) s, h, outputs_visible]

/-- States that look the same stay so, with the same inputs. -/
theorem visible_state_eq {s s' : MyFir} (h : s.visible P = s'.visible P) (input : ℕ → MyFirPort)
    (t : ℕ) : ((⟨s, input⟩ : (myFir P).Run).state t).visible P =
      ((⟨s', input⟩ : (myFir P).Run).state t).visible P := by
  refine Machine.Run.rel_of_step (R := fun a b : MyFir => a.visible P = b.visible P)
    (fun a b p hab => ?_) input h t
  rw [myFir_next, myFir_next, ← MyFir.visible_next, hab, MyFir.visible_next]

theorem SAxi.visible_next_of_reset (p : SAxiPort) (s s' : SAxi) :
    (s.next P false p).visible P = (s'.next P false p).visible P := by
  have hregs := SAxi.regs_reset (P := P) (p := p) (s := s)
  have hregs' := SAxi.regs_reset (P := P) (p := p) (s := s')
  simp only [SAxi.visible, SAxi.mk.injEq]
  refine ⟨rfl, rfl, rfl, rfl, rfl, rfl, rfl, rfl, rfl, rfl, rfl, ?_, rfl⟩
  funext k
  exact if_ctx_congr Iff.rfl (fun hk => by rw [hregs.2 k hk.1 hk.2, hregs'.2 k hk.1 hk.2])
    fun _ => rfl

/-- A reset cycle without a beat leaves the sample and nothing else. -/
theorem MyFir.visible_next_of_reset {p : MyFirPort} (hreset : p.aresetn = false)
    (hvalid : p.sAxisTvalid = false) {s s' : MyFir} (h : s.heldSample = s'.heldSample) :
    (s.next P p).visible P = (s'.next P p).visible P := by
  refine visible_ext ?_ (fun i _ => ?_) ?_ ?_
  · rw [next_axi, next_axi, hreset]
    exact SAxi.visible_next_of_reset p.axi s.axi s'.axi
  · simp [MyFir.next, firTransposed, TransposedBlock.delayedSignal, hreset]
  · rw [heldSample_next, heldSample_next, hvalid, h]
    rfl
  · simp [MyFir.next, MAxis.next, hreset]

end visible

/-! ## What is left after a reset -/

/-- The inputs of a run begin with three cycles of reset without a beat. -/
def ResetsFirst (input : ℕ → MyFirPort) : Prop :=
  ∀ t < 3, (input t).aresetn = false ∧ (input t).sAxisTvalid = false

/-- Two states from which a reset and whatever comes then gives the same outputs. -/
def SameAfterReset (P : Params) (s s' : MyFir) : Prop :=
  ∀ input, ResetsFirst input → ∀ t, 3 ≤ t →
    ((⟨s, input⟩ : (myFir P).Run).state t).outputs (input t) =
      ((⟨s', input⟩ : (myFir P).Run).state t).outputs (input t)

variable {P : Params} {s s' : MyFir}

theorem sameAfterReset_of_heldSample_eq (h : s.heldSample = s'.heldSample) :
    SameAfterReset P s s' := by
  intro input hreset t ht
  obtain ⟨u, rfl⟩ : ∃ u, t = 1 + u := ⟨t - 1, by omega⟩
  obtain ⟨hlow, hvalid⟩ := hreset 0 (by omega)
  refine MyFir.outputs_eq_of_visible_eq (P := P) ?_ _
  rw [Machine.Run.state_add, Machine.Run.state_add]
  exact visible_state_eq (MyFir.visible_next_of_reset hlow hvalid h) _ u

/-- After the reset `coeff[1]` is set to 1, and a beat is presented that the filter, not
enabled, does not accept. -/
def probe (t : ℕ) : MyFirPort where
  aresetn := decide (3 ≤ t)
  axi := if t = 3 ∨ t = 4 then ⟨4, true, 1, 15, true, false, 0, false, false⟩ else SAxiPort.idle
  sAxisTdata := 0
  sAxisTlast := false
  sAxisTvalid := decide (t = 5)
  mAxisTready := decide (t = 6)

/-- The run of `probe` from `s`. -/
def probeRun (P : Params) (s : MyFir) : (myFir P).Run :=
  ⟨s, probe⟩

section probe

variable (P : Params) (s : MyFir)

/-- Nothing is accepted, so the sample register keeps what it holds. -/
theorem heldSample_probeRun (t : ℕ) :
    ((probeRun P s).state t).heldSample = s.heldSample := by
  induction t with
  | zero => rfl
  | succ t ih =>
    have hno : (((probeRun P s).input t).sAxisTvalid &&
        ((probeRun P s).state t).sAxisTready ((probeRun P s).input t)) = false := by
      rcases eq_or_ne t 5 with rfl | h5
      · exact congrArg (true && ·) (Bool.and_false _)
      · simp [probeRun, probe, h5]
    rw [Machine.Run.state_succ, myFir_next, MyFir.heldSample_next, hno, ← ih]
    rfl

/-- The write of `probe` sets `coeff[1]`, after a reset has cleared all coefficients. -/
theorem coefSlvReg_probeRun :
    (∀ t, 3 ≤ t → t < 6 → SingleTap P.TAPS ((probeRun P s).state t).axi.coefSlvReg) ∧
      ((probeRun P s).state 6).axi.coefSlvReg 1 = 1 := by
  have hnext : ∀ t, 3 ≤ t → ((probeRun P s).state (t + 1)).axi =
      ((probeRun P s).state t).axi.next P true (probe t).axi := fun t ht =>
    congrArg (fun r => ((probeRun P s).state t).axi.next P r (probe t).axi)
      (decide_eq_true (by omega))
  have h3 : SAxiAfterReset P ((probeRun P s).state 3).axi :=
    ⟨((probeRun P s).state 2).axi, (probe 2).axi, rfl⟩
  obtain ⟨haccept, hfile4⟩ := h3.writeIdle.accept (P := P) (p := (probe 3).axi) rfl rfl
  rw [← hnext 3 le_rfl] at haccept hfile4
  obtain ⟨hpending, hfile5⟩ := haccept.respond (P := P) (p := (probe 4).axi) rfl rfl
  rw [← hnext 4 (by omega)] at hpending hfile5
  obtain ⟨-, hfile6⟩ := hpending.stay (P := P) (p := (probe 5).axi) rfl
  rw [← hnext 5 (by omega)] at hfile6
  have hzero : ∀ k, 1 ≤ k → k ≤ P.TAPS → ((probeRun P s).state 3).axi.regFile.coefSlvReg k = 0 :=
    h3.agrees_zero.coefSlvReg
  have hindex : (regIndex (probe 3).axi.awaddr).toNat = 1 := by decide
  refine ⟨fun t ht ht' k h2 hk => ?_, ?_⟩
  · have hkeep : ∀ t, ((probeRun P s).state t).axi.coefSlvReg k =
        ((probeRun P s).state t).axi.regFile.coefSlvReg k := fun _ => rfl
    obtain rfl | rfl | rfl : t = 3 ∨ t = 4 ∨ t = 5 := by omega
    · exact hzero k (by omega) hk
    · rw [hkeep, hfile4, hzero k (by omega) hk]
    · rw [hkeep, hfile5, hfile4, RegFile.write]
      exact (if_neg (by omega)).trans (hzero k (by omega) hk)
  · have hTAPS := P.TAPS_pos
    have hfile : ((probeRun P s).state 6).axi.coefSlvReg 1 =
        ((probeRun P s).state 6).axi.regFile.coefSlvReg 1 := rfl
    rw [hfile, hfile6, hfile5, RegFile.write]
    exact if_pos ⟨le_rfl, by omega, hindex⟩

/-- The beat that is presented puts the sample of the past at the output. -/
theorem mAxisTdata_probeRun :
    ((probeRun P s).state 7).mAxisTdata = s.heldSample.signExtend 32 := by
  obtain ⟨htap, hone⟩ := coefSlvReg_probeRun P s
  have hline : ∀ t, 3 ≤ t → t ≤ 6 → LineZero P.TAPS ((probeRun P s).state t).uFilter := by
    intro t ht
    induction t, ht using Nat.le_induction with
    | base => exact fun _ i _ => rfl
    | succ t ht ih => exact fun ht' => lineZero_next (htap t ht (by omega)) (ih (by omega)) _ _
  have hdata : ((probeRun P s).state 7).mAxisTdata = ((probeRun P s).state 6).filterOut P := rfl
  rw [hdata, MyFir.filterOut, filteredSignal_identity P.TAPS_pos hone (hline 6 (by omega) le_rfl),
    heldSample_probeRun]

end probe

/-- Two histories give the same outputs after a reset, whatever the inputs then are,
exactly when they leave the same low half-word in the sample register. -/
theorem reset_erases_iff (P : Params) (s s' : MyFir) :
    SameAfterReset P s s' ↔ s.heldSample = s'.heldSample := by
  refine ⟨fun h => ?_, sameAfterReset_of_heldSample_eq⟩
  have hout := congrArg MyFirOut.mAxisTdata (h probe (fun t ht => ?_) 7 (by decide))
  · have hdata : s.heldSample.signExtend 32 = s'.heldSample.signExtend 32 :=
      (mAxisTdata_probeRun P s).symm.trans (hout.trans (mAxisTdata_probeRun P s'))
    rw [← BitVec.toInt_inj, BitVec.toInt_signExtend_of_le (by decide),
      BitVec.toInt_signExtend_of_le (by decide), BitVec.toInt_inj] at hdata
    exact hdata
  · exact ⟨decide_eq_false (by omega), decide_eq_false (by omega)⟩

/-- A run that accepts the sample `x`, is reset for three cycles, enabled with
`coeff[2] = 1`, and gets another beat. -/
def secretRun (x : BitVec 32) : (myFir (firTop fun _ => 0)).Run where
  start := (resetRun (firTop fun _ => 0)).state 3
  input t :=
    { idlePort with
      aresetn := decide (t < 4 ∨ 7 ≤ t)
      axi :=
        if t < 2 ∨ t = 7 ∨ t = 8 then ⟨0, true, 1, 15, true, true, 0, false, false⟩
        else if t = 10 ∨ t = 11 then ⟨8, true, 1, 15, true, true, 0, false, false⟩
        else { SAxiPort.idle with bready := true }
      sAxisTvalid := decide (t = 3 ∨ t = 13)
      sAxisTdata := if t = 3 then x else 5
      mAxisTready := true }

/-- The first word after the reset is the sample from before it. -/
theorem secretRun_leaks :
    (∀ t, 4 ≤ t → t < 7 → ((secretRun 1).input t).aresetn = false ∧
      ((secretRun 1).input t).sAxisTvalid = false) ∧
    (∀ t, 4 ≤ t → (secretRun 1).input t = (secretRun 2).input t) ∧
    ((secretRun 1).state 15).outputs ((secretRun 1).input 15) ≠
      ((secretRun 2).state 15).outputs ((secretRun 2).input 15) := by
  refine ⟨fun t h4 h7 => ⟨decide_eq_false (by omega), decide_eq_false (by omega)⟩, fun t h4 => ?_,
    fun h => ?_⟩
  · have h3 : t ≠ 3 := by omega
    simp [secretRun, h3]
  · have hdata := congrArg MyFirOut.mAxisTdata h
    revert hdata
    decide

end FirDemo
