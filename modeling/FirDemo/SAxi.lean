import FirDemo.FirTransposed

/-!
# The AXI-Lite slave

`my_fir_v1_0_S_AXI` holds the control register, the coefficients and the registers of
the two AXI-Lite channels. `SAxi.next` writes its clocked processes one after the other,
in the order of the source. The filter it instantiates, `u_filter`, keeps its registers
apart (`FirDemo.MyFir`).

A read beyond the coefficient array has no value of its own in the source. `Params.oob`
stands for what the simulator or the synthesised read multiplexer returns there.
-/

namespace FirDemo

/-- The parameters of `my_fir_v1_0`, with what a read beyond `coef_slv_reg[1:TAPS]` gives. -/
structure Params where
  TAPS : ℕ
  oob : ℕ → BitVec 16
  TAPS_pos : 0 < TAPS

/-- `fir_top` sets `TAPS` to 5. -/
def firTop (oob : ℕ → BitVec 16) : Params where
  TAPS := 5
  oob := oob
  TAPS_pos := by decide

/-- The inputs of the AXI-Lite slave in one cycle. No process of the slave reads `wstrb`. -/
structure SAxiPort where
  awaddr : BitVec 32
  awvalid : Bool
  wdata : BitVec 32
  wstrb : BitVec 4
  wvalid : Bool
  bready : Bool
  araddr : BitVec 32
  arvalid : Bool
  rready : Bool

/-- Nothing is presented. -/
def SAxiPort.idle : SAxiPort :=
  ⟨0, false, 0, 0, false, false, 0, false, false⟩

/-- The registers of `my_fir_v1_0_S_AXI`. `coefSlvReg k` is `coef_slv_reg[k]`, `1 ≤ k ≤ TAPS`. -/
structure SAxi where
  axiAwaddr : BitVec 32
  axiAwready : Bool
  axiWready : Bool
  axiBresp : BitVec 2
  axiBvalid : Bool
  axiAraddr : BitVec 32
  axiArready : Bool
  axiRdata : BitVec 32
  axiRresp : BitVec 2
  axiRvalid : Bool
  ctrlReg : BitVec 32
  coefSlvReg : ℕ → BitVec 16
  awEn : Bool

/-- All registers zero. -/
def SAxi.zero : SAxi :=
  ⟨0, false, false, 0, false, 0, false, 0, 0, false, 0, fun _ => 0, false⟩

/-- `[OPT_MEM_ADDR_BITS + ADDR_LSB : ADDR_LSB]` of an address, bits 8 to 2. -/
def regIndex (addr : BitVec 32) : BitVec 32 :=
  (addr.extractLsb 8 2).setWidth 32

namespace SAxi

variable (P : Params) (aresetn : Bool) (p : SAxiPort) (s : SAxi)

/-- `slv_reg_wren`. -/
def slvRegWren : Bool :=
  s.axiWready && p.wvalid && s.axiAwready && p.awvalid

/-- `slv_reg_rden`. -/
def slvRegRden : Bool :=
  s.axiArready && p.arvalid && !s.axiRvalid

/-- `coef_slv_reg[index]`. -/
def coefAt (index : ℕ) : BitVec 16 :=
  if 1 ≤ index ∧ index ≤ P.TAPS then s.coefSlvReg index else P.oob index

/-- The register a read of `index` selects, the coefficients zero-extended. -/
def regAt (index : BitVec 32) : BitVec 32 :=
  if index = 0 then s.ctrlReg else (coefAt P s index.toNat).setWidth 32

/-- `reg_data_out`. -/
def regDataOut : BitVec 32 :=
  if slvRegRden p s then regAt P s s.axiAraddr else 0

/-- The enable bit, `ctrl_reg[EN_bit]`. -/
def en : Bool :=
  s.ctrlReg.getLsbD 0

/-- One rising edge of `S_AXI_ACLK`. -/
def next : SAxi where
  axiAwready :=
    if !aresetn then false
    else if !s.axiAwready && p.awvalid && p.wvalid && s.awEn then true
    else false
  awEn :=
    if !aresetn then true
    else if !s.axiAwready && p.awvalid && p.wvalid && s.awEn then false
    else if p.bready && s.axiBvalid then true
    else s.awEn
  axiAwaddr :=
    if !aresetn then 0
    else if !s.axiAwready && p.awvalid && p.wvalid && s.awEn then regIndex p.awaddr
    else s.axiAwaddr
  axiWready :=
    if !aresetn then false
    else if !s.axiWready && p.wvalid && p.awvalid && s.awEn then true
    else false
  ctrlReg :=
    if !aresetn then 0
    else if slvRegWren p s then if s.axiAwaddr = 0 then p.wdata else s.ctrlReg
    else s.ctrlReg
  coefSlvReg k :=
    if 1 ≤ k ∧ k ≤ P.TAPS then
      if !aresetn then 0
      else if slvRegWren p s then
        if s.axiAwaddr = 0 then s.coefSlvReg k
        else if s.axiAwaddr.toNat = k then p.wdata.setWidth 16
        else s.coefSlvReg k
      else s.coefSlvReg k
    else s.coefSlvReg k
  axiBvalid :=
    if !aresetn then false
    else if s.axiAwready && p.awvalid && !s.axiBvalid && s.axiWready && p.wvalid then true
    else if p.bready && s.axiBvalid then false
    else s.axiBvalid
  axiBresp :=
    if !aresetn then 0
    else if s.axiAwready && p.awvalid && !s.axiBvalid && s.axiWready && p.wvalid then 0
    else s.axiBresp
  axiArready :=
    if !aresetn then false
    else if !s.axiArready && p.arvalid then true
    else false
  axiAraddr :=
    if !aresetn then 0
    else if !s.axiArready && p.arvalid then regIndex p.araddr
    else s.axiAraddr
  axiRvalid :=
    if !aresetn then false
    else if s.axiArready && p.arvalid && !s.axiRvalid then true
    else if s.axiRvalid && p.rready then false
    else s.axiRvalid
  axiRresp :=
    if !aresetn then 0
    else if s.axiArready && p.arvalid && !s.axiRvalid then 0
    else s.axiRresp
  axiRdata :=
    if !aresetn then 0
    else if slvRegRden p s then regDataOut P p s
    else s.axiRdata

/-- Without reset and without a write the registers keep their values. -/
theorem next_regs_of_no_write (hw : slvRegWren p s = false) :
    (s.next P true p).ctrlReg = s.ctrlReg ∧ (s.next P true p).coefSlvReg = s.coefSlvReg := by
  constructor
  · simp [next, hw]
  · funext k
    simp [next, hw]

end SAxi

/-- The reset and the ports of the slave in one cycle. -/
structure SAxiCycle where
  aresetn : Bool
  port : SAxiPort

/-- The slave as a clocked system of its own. -/
def sAxi (P : Params) : Synchronous.Machine SAxi SAxiCycle where
  next s c := s.next P c.aresetn c.port

end FirDemo
