import FirDemo.MockAxidma
import FirDemo.MyFir

/-!
# The simulation backend

`sim_backend.cpp` holds the simulated design `top` and its `tick`, `axilite_ctrl.cpp`
writes the registers through the AXI-Lite inputs of `top`, and `main` calls both before
the first transfer (`simStart`). `simDevice` is `top` as the simulated DMA sees it.
-/

namespace FirDemo

/-- `Vfir_top` : the inputs assigned last, the registers, and what the waveform shows
before each rising edge, inputs and registers. -/
structure VfirTop where
  pins : MyFirPort
  regs : MyFir
  trace : List (MyFirPort × MyFir)

section driver

variable (P : Params)

/-- `tick` : one rising edge with the inputs assigned before it. -/
def tick (top : VfirTop) : VfirTop where
  pins := top.pins
  regs := top.regs.next P top.pins
  trace := top.trace ++ [(top.pins, top.regs)]

/-- `top` and `tick` as the mock sees them. -/
def simDevice : Device VfirTop where
  drive d top :=
    { top with
      pins :=
        { top.pins with
          sAxisTvalid := d.sAxisTvalid
          sAxisTdata := d.sAxisTdata
          sAxisTlast := d.sAxisTlast
          mAxisTready := d.mAxisTready } }
  tick := tick P
  sAxisTready top := top.regs.sAxisTready top.pins
  mAxisTvalid top := top.regs.mAxisTvalid
  mAxisTdata top := top.regs.mAxisTdata

/-- A new `Vfir_top`, its inputs low and its registers of any content. -/
def powerUp (regs : MyFir) : VfirTop :=
  ⟨{ idlePort with aresetn := false }, regs, []⟩

/-- `backend_init`. -/
def backendInit (regs : MyFir) : VfirTop :=
  let held := (tick P)^[8] (powerUp regs)
  (tick P)^[4] { held with pins := { held.pins with aresetn := true } }

/-- `kAxiLiteBaseAddr`. -/
def kAxiLiteBaseAddr : BitVec 32 := 0xA0000000

/-- `kMaxCycles` of `axil_write_cycle`. -/
def kMaxCycles : ℕ := 10000

/-- `top->s_axi_bvalid && top->s_axi_bready`. -/
def VfirTop.answered (top : VfirTop) : Bool :=
  top.regs.axi.axiBvalid && top.pins.axi.bready

/-- The inputs that present a write. -/
def VfirTop.presentWrite (offset value : BitVec 32) (top : VfirTop) : VfirTop :=
  { top with
    pins :=
      { top.pins with
        axi :=
          { top.pins.axi with
            awaddr := kAxiLiteBaseAddr + offset
            wdata := value
            wstrb := 15
            awvalid := true
            wvalid := true
            bready := true } } }

/-- The valids and `s_axi_bready` are taken back. -/
def VfirTop.lowerWrite (top : VfirTop) : VfirTop :=
  { top with
    pins :=
      { top.pins with
        axi := { top.pins.axi with awvalid := false, wvalid := false, bready := false } } }

/-- The loop of `axil_write_cycle`, with at most `n` more ticks. -/
def awaitResponse : ℕ → VfirTop → VfirTop
  | 0, top => top
  | n + 1, top => if (tick P top).answered then tick P top else awaitResponse n (tick P top)

/-- `axil_write_cycle`, `none` where it exits. -/
def axilWriteCycle (offset value : BitVec 32) (top : VfirTop) : Option VfirTop :=
  let waited := awaitResponse P kMaxCycles (top.presentWrite offset value)
  if waited.answered then some (tick P waited.lowerWrite) else none

/-- `axilite_write_reg` of the simulation build. -/
def axiliteWriteReg (offset value : BitVec 32) (top : VfirTop) : Option VfirTop :=
  axilWriteCycle P offset value top

/-- A sequence of register writes. -/
def writeRegs (writes : List (BitVec 32 × BitVec 32)) (top : VfirTop) : Option VfirTop :=
  writes.foldlM (fun top w => axiliteWriteReg P w.1 w.2 top) top

/-- The writes of `main` : the enable bit and the identity coefficients. -/
def mainWrites : List (BitVec 32 × BitVec 32) :=
  [(0x00, 1), (0x04, 1), (0x08, 0), (0x0C, 0), (0x10, 0), (0x14, 0)]

/-- `main` up to the first transfer. -/
def simStart (regs : MyFir) : Option VfirTop :=
  writeRegs P mainWrites (backendInit P regs)

end driver

end FirDemo
