import FirDemo.SAxi

/-!
# The accelerator

`my_fir_v1_0` joins the AXI-Lite slave with its filter, the stream input
`my_fir_v1_0_S_AXIS` and the stream output `my_fir_v1_0_M_AXIS`, here with one clock and
one reset, as `fir_top` wires it. The sample register, the delay line and the output
register take new values under three different conditions, and the valid and last bits
of the output under a fourth : they shift on every edge.

A beat is accepted in a cycle with `s_axis_tvalid` and `s_axis_tready` (`accepts`), and a
transfer happens in one with `m_axis_tvalid` and `m_axis_tready` (`transfers`).
-/

open Synchronous

namespace FirDemo

/-! ## The stream input and output -/

/-- The registers of `my_fir_v1_0_S_AXIS`. -/
structure SAxis where
  streamDataOut : BitVec 32

/-- `S_AXIS_TREADY = en`, and a beat is stored when both sides agree. -/
def SAxis.next (en sAxisTvalid : Bool) (sAxisTdata : BitVec 32) (s : SAxis) : SAxis where
  streamDataOut := if sAxisTvalid && en then sAxisTdata else s.streamDataOut

/-- The registers of `my_fir_v1_0_M_AXIS`. -/
structure MAxis where
  validReg : Bool
  lastReg : Bool
  axisTvalidDelay : Bool
  axisTlastDelay : Bool
  streamDataOut : BitVec 32

/-- `tx_en`. -/
def MAxis.txEn (mAxisTready : Bool) (s : MAxis) : Bool :=
  mAxisTready && s.validReg

/-- One rising edge of `M_AXIS_ACLK`. `valid_reg` and `last_reg` have no reset. -/
def MAxis.next (aresetn en last mAxisTready : Bool) (streamDataIn : BitVec 32) (s : MAxis) :
    MAxis where
  validReg := en
  lastReg := last
  axisTvalidDelay := if !aresetn then false else s.validReg
  axisTlastDelay := if !aresetn then false else s.lastReg
  streamDataOut :=
    if !aresetn then 0
    else if s.txEn mAxisTready then streamDataIn
    else s.streamDataOut

/-! ## `my_fir_v1_0` -/

/-- What the identity filter makes of a word. -/
def sample (x : BitVec 32) : BitVec 32 :=
  (x.setWidth 16).signExtend 32

/-- The inputs of `my_fir_v1_0` in one cycle. -/
structure MyFirPort where
  aresetn : Bool
  axi : SAxiPort
  sAxisTdata : BitVec 32
  sAxisTlast : Bool
  sAxisTvalid : Bool
  mAxisTready : Bool

/-- The outputs of `my_fir_v1_0` in one cycle. -/
structure MyFirOut where
  awready : Bool
  wready : Bool
  bresp : BitVec 2
  bvalid : Bool
  arready : Bool
  rdata : BitVec 32
  rresp : BitVec 2
  rvalid : Bool
  sAxisTready : Bool
  mAxisTvalid : Bool
  mAxisTdata : BitVec 32
  mAxisTlast : Bool

/-- The registers of `my_fir_v1_0`. -/
structure MyFir where
  axi : SAxi
  /-- The registers of `u_filter`. -/
  uFilter : ℕ → BitVec 32
  sAxis : SAxis
  mAxis : MAxis

namespace MyFir

variable (P : Params) (p : MyFirPort) (s : MyFir)

/-- `noisy_signal`, the low half-word of `filter_in`. -/
def heldSample : BitVec 16 :=
  s.sAxis.streamDataOut.setWidth 16

/-- `filter_out`. -/
def filterOut : BitVec 32 :=
  filteredSignal P.TAPS s.axi.coefSlvReg s.heldSample s.uFilter

/-- `s_axis_tready`. -/
def sAxisTready : Bool :=
  s.axi.en && p.mAxisTready

/-- `m_axis_tvalid`. -/
def mAxisTvalid : Bool :=
  s.mAxis.axisTvalidDelay

/-- `m_axis_tlast`. -/
def mAxisTlast : Bool :=
  s.mAxis.axisTlastDelay

/-- `m_axis_tdata`. -/
def mAxisTdata : BitVec 32 :=
  s.mAxis.streamDataOut

/-- The output ports. -/
def outputs : MyFirOut where
  awready := s.axi.axiAwready
  wready := s.axi.axiWready
  bresp := s.axi.axiBresp
  bvalid := s.axi.axiBvalid
  arready := s.axi.axiArready
  rdata := s.axi.axiRdata
  rresp := s.axi.axiRresp
  rvalid := s.axi.axiRvalid
  sAxisTready := s.sAxisTready p
  mAxisTvalid := s.mAxisTvalid
  mAxisTdata := s.mAxisTdata
  mAxisTlast := s.mAxisTlast

/-- One rising edge. `my_fir_v1_0_S_AXIS` is enabled by `en && m_axis_tready`, and
`my_fir_v1_0_M_AXIS` by `s_axis_tvalid`, accepted or not. -/
def next : MyFir where
  axi := s.axi.next P p.aresetn p.axi
  uFilter := (firTransposed P.TAPS).next s.uFilter ⟨p.aresetn, s.heldSample, s.axi.coefSlvReg⟩
  sAxis := s.sAxis.next (s.sAxisTready p) p.sAxisTvalid p.sAxisTdata
  mAxis := s.mAxis.next p.aresetn p.sAxisTvalid p.sAxisTlast p.mAxisTready (s.filterOut P)

end MyFir

/-- The accelerator as a clocked system. -/
def myFir (P : Params) : Machine MyFir MyFirPort where
  next s p := s.next P p

/-! ## Runs and their handshakes -/

section runs

variable {P : Params} (ρ : (myFir P).Run)

/-- A beat is accepted at `s_axis` in cycle `t`. -/
def accepts (t : ℕ) : Bool :=
  (ρ.input t).sAxisTvalid && (ρ.state t).sAxisTready (ρ.input t)

/-- A transfer takes place at `m_axis` in cycle `t`. -/
def transfers (t : ℕ) : Bool :=
  (ρ.state t).mAxisTvalid && (ρ.input t).mAxisTready

/-- The AXI-Stream rule for the source, in the first `n` cycles : what is not accepted is
held. -/
def CompliantSource (n : ℕ) : Prop :=
  ∀ t, t + 1 < n → (ρ.input t).sAxisTvalid = true → accepts ρ t = false →
    (ρ.input (t + 1)).sAxisTvalid = true ∧
      (ρ.input (t + 1)).sAxisTdata = (ρ.input t).sAxisTdata ∧
      (ρ.input (t + 1)).sAxisTlast = (ρ.input t).sAxisTlast

/-- `ctrl_reg[0]` is 1 and there is no reset in the first `n` cycles. -/
def KeepsEnabled (n : ℕ) : Prop :=
  ∀ t < n, (ρ.state t).axi.en = true ∧ (ρ.input t).aresetn = true

end runs

/-- A state after three cycles of reset with `s_axis_tvalid` 0, whatever came before. -/
def AfterReset (P : Params) (s : MyFir) : Prop :=
  ∃ ρ : (myFir P).Run, ρ.state 3 = s ∧
    ∀ t < 3, (ρ.input t).aresetn = false ∧ (ρ.input t).sAxisTvalid = false

/-- A state that a run from reset reaches with three cycles without reset and with
`s_axis_tvalid` 0, and with `ctrl_reg[0] = 1`. -/
def Quiescent (P : Params) (s : MyFir) : Prop :=
  s.axi.en = true ∧ ∃ ρ : (myFir P).Run, AfterReset P ρ.start ∧ ∃ n, ρ.state (n + 3) = s ∧
    ∀ j < 3, (ρ.input (n + j)).aresetn = true ∧ (ρ.input (n + j)).sAxisTvalid = false

/-! ## What one edge does -/

section next

variable (P : Params) (p : MyFirPort) (s : MyFir)

@[simp] theorem myFir_next : (myFir P).next s p = s.next P p :=
  rfl

@[simp] theorem MyFir.next_axi : (s.next P p).axi = s.axi.next P p.aresetn p.axi :=
  rfl

@[simp] theorem MyFir.next_validReg : (s.next P p).mAxis.validReg = p.sAxisTvalid :=
  rfl

@[simp] theorem MyFir.next_lastReg : (s.next P p).mAxis.lastReg = p.sAxisTlast :=
  rfl

@[simp] theorem MyFir.next_axisTvalidDelay :
    (s.next P p).mAxis.axisTvalidDelay = (p.aresetn && s.mAxis.validReg) := by
  cases h : p.aresetn <;> simp [MyFir.next, MAxis.next, h]

@[simp] theorem MyFir.next_axisTlastDelay :
    (s.next P p).mAxis.axisTlastDelay = (p.aresetn && s.mAxis.lastReg) := by
  cases h : p.aresetn <;> simp [MyFir.next, MAxis.next, h]

theorem MyFir.next_mAxisTdata (h : p.aresetn = true) :
    (s.next P p).mAxis.streamDataOut =
      if s.mAxis.txEn p.mAxisTready then s.filterOut P else s.mAxis.streamDataOut := by
  simp [MyFir.next, MAxis.next, h]

@[simp] theorem MyFir.next_sample :
    (s.next P p).sAxis.streamDataOut =
      if p.sAxisTvalid && s.sAxisTready p then p.sAxisTdata else s.sAxis.streamDataOut :=
  rfl

theorem MyFir.heldSample_next :
    (s.next P p).heldSample =
      if p.sAxisTvalid && s.sAxisTready p then p.sAxisTdata.setWidth 16 else s.heldSample := by
  cases h : p.sAxisTvalid && s.sAxisTready p <;> simp [MyFir.heldSample, h]

end next

section runs

variable {P : Params} (ρ : (myFir P).Run)

/-- The sample register holds the low half-word of the sample accepted last. -/
theorem heldSample_succ (t : ℕ) :
    (ρ.state (t + 1)).heldSample =
      if accepts ρ t then (ρ.input t).sAxisTdata.setWidth 16 else (ρ.state t).heldSample := by
  rw [Machine.Run.state_succ, myFir_next, MyFir.heldSample_next]
  rfl

/-- The valid bit of the output is `s_axis_tvalid` of two cycles before, unless reset. -/
theorem mAxisTvalid_add_two (t : ℕ) :
    (ρ.state (t + 2)).mAxisTvalid =
      ((ρ.input (t + 1)).aresetn && (ρ.input t).sAxisTvalid) := by
  simp [MyFir.mAxisTvalid]

theorem mAxisTlast_add_two (t : ℕ) :
    (ρ.state (t + 2)).mAxisTlast =
      ((ρ.input (t + 1)).aresetn && (ρ.input t).sAxisTlast) := by
  simp [MyFir.mAxisTlast]

end runs

/-- While no register write is presented the registers keep their values. -/
theorem regs_eq_start {P : Params} (ρ : (myFir P).Run) {n : ℕ}
    (h : ∀ t < n, (ρ.input t).aresetn = true ∧ (ρ.input t).axi.awvalid = false) :
    ∀ t ≤ n, (ρ.state t).axi.ctrlReg = ρ.start.axi.ctrlReg ∧
      (ρ.state t).axi.coefSlvReg = ρ.start.axi.coefSlvReg := by
  refine ρ.holds_of_step (I := fun _ s => s.axi.ctrlReg = ρ.start.axi.ctrlReg ∧
    s.axi.coefSlvReg = ρ.start.axi.coefSlvReg) ⟨rfl, rfl⟩ fun t ht ih => ?_
  have hw : (ρ.state t).axi.slvRegWren (ρ.input t).axi = false := by
    simp [SAxi.slvRegWren, (h t ht).2]
  have hnext := (ρ.state t).axi.next_regs_of_no_write P (ρ.input t).axi hw
  simp only [myFir_next, MyFir.next_axi, (h t ht).1, hnext]
  exact ih

/-- Two cycles without `s_axis_tvalid` empty the valid bits, reset or not. -/
theorem valid_bits_empty {P : Params} (ρ : (myFir P).Run) {n : ℕ}
    (h : ∀ j < 2, (ρ.input (n + j)).sAxisTvalid = false) :
    (ρ.state (n + 2)).mAxis.validReg = false ∧
      (ρ.state (n + 2)).mAxis.axisTvalidDelay = false := by
  have h0 := h 0 (by omega)
  have h1 := h 1 (by omega)
  simp only [Nat.add_zero] at h0
  simp [h0, h1]

theorem Quiescent.valid_bits {P : Params} {s : MyFir} (h : Quiescent P s) :
    s.mAxis.validReg = false ∧ s.mAxis.axisTvalidDelay = false := by
  obtain ⟨-, ρ, -, n, rfl, hidle⟩ := h
  refine valid_bits_empty ρ (n := n + 1) fun j hj => ?_
  rw [show n + 1 + j = n + (j + 1) by omega]
  exact (hidle (j + 1) (by omega)).2

theorem AfterReset.valid_bits {P : Params} {s : MyFir} (h : AfterReset P s) :
    s.mAxis.validReg = false ∧ s.mAxis.axisTvalidDelay = false := by
  obtain ⟨ρ, rfl, hreset⟩ := h
  refine valid_bits_empty ρ (n := 1) fun j hj => ?_
  exact (hreset (1 + j) (by omega)).2

/-! ## Programming the registers from reset -/

/-- All inputs low, out of reset. -/
def idlePort : MyFirPort where
  aresetn := true
  axi := SAxiPort.idle
  sAxisTdata := 0
  sAxisTlast := false
  sAxisTvalid := false
  mAxisTready := false

/-- All registers zero. -/
def zeroState : MyFir where
  axi := SAxi.zero
  uFilter _ := 0
  sAxis := ⟨0⟩
  mAxis := ⟨false, false, false, false, 0⟩

/-- Reset in every cycle. -/
def resetRun (P : Params) : (myFir P).Run where
  start := zeroState
  input _ := { idlePort with aresetn := false }

/-- From reset, one register write in every three cycles, then nothing. -/
def programRun (P : Params) (writes : List (BitVec 32 × BitVec 32)) : (myFir P).Run where
  start := (resetRun P).state 3
  input t :=
    match writes[t / 3]? with
    | none => idlePort
    | some (addr, data) =>
      { idlePort with
        axi := ⟨addr, decide (t % 3 < 2), data, 15, decide (t % 3 < 2), true, 0, false, false⟩ }

/-- The state the writes of `programRun` leave, three idle cycles later. -/
def programmed (P : Params) (writes : List (BitVec 32 × BitVec 32)) : MyFir :=
  (programRun P writes).state (3 * writes.length + 3)

theorem afterReset_resetRun (P : Params) : AfterReset P ((resetRun P).state 3) :=
  ⟨resetRun P, rfl, fun _ _ => ⟨rfl, rfl⟩⟩

theorem quiescent_programmed {P : Params} {writes : List (BitVec 32 × BitVec 32)}
    (hen : (programmed P writes).axi.en = true) : Quiescent P (programmed P writes) := by
  refine ⟨hen, programRun P writes, afterReset_resetRun P, 3 * writes.length, rfl, ?_⟩
  intro j hj
  have hnone : writes[(3 * writes.length + j) / 3]? = none :=
    List.getElem?_eq_none (by omega)
  simp only [programRun, hnone]
  exact ⟨rfl, rfl⟩

end FirDemo
