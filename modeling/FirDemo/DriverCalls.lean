import FirDemo.SimStart

/-!
# The register writes of a program

Between two calls of `axilite_write_reg` the response of the first is pending, and any
number of ticks for other purposes may pass (`DriverState`). From every such state a call
returns after at most four ticks, what it takes for its response was raised by its own
write (`OwnResponse`), and it replaces one register, the one that the store of the hardware
build addresses (`register_write_exact`).
-/

namespace FirDemo

/-! ## Which register an offset is -/

theorem toNat_regIndex (addr : BitVec 32) : (regIndex addr).toNat = addr.toNat / 4 % 128 := by
  simp only [regIndex, BitVec.extractLsb_toNat, BitVec.toNat_setWidth, Nat.shiftRight_eq_div_pow]
  omega

/-- The index of the register at an offset into the window. -/
def registerOfOffset (offset : BitVec 32) : BitVec 32 :=
  BitVec.ofNat 32 (offset.toNat / 4 % 128)

/-- The address of `g_fir_regs[offset / 4U]`, in a window mapped at `window`. -/
def gFirRegsAddr (window offset : BitVec 32) : BitVec 32 :=
  window + 4 * (offset / 4)

theorem regIndex_kAxiLiteBaseAddr_add (offset : BitVec 32) :
    regIndex (kAxiLiteBaseAddr + offset) = registerOfOffset offset := by
  apply BitVec.eq_of_toNat_eq
  rw [toNat_regIndex, registerOfOffset, BitVec.toNat_ofNat, BitVec.toNat_add]
  have hbase : kAxiLiteBaseAddr.toNat = 0xA0000000 := rfl
  omega

/-- In a window aligned to 512 bytes the hardware build writes the same register. -/
theorem regIndex_gFirRegsAddr {window : BitVec 32} (hwindow : window.toNat % 512 = 0)
    (offset : BitVec 32) : regIndex (gFirRegsAddr window offset) = registerOfOffset offset := by
  apply BitVec.eq_of_toNat_eq
  have hfour : (4 : BitVec 32).toNat = 4 := rfl
  rw [toNat_regIndex, registerOfOffset, BitVec.toNat_ofNat, gFirRegsAddr, BitVec.toNat_add,
    BitVec.toNat_mul, BitVec.toNat_udiv, hfour]
  omega

/-! ## Between calls -/

/-- The states between calls of the driver : after `backend_init`, any number of calls, of
assignments to the inputs that present no write and take no response, and of other ticks. -/
inductive DriverState (P : Params) : VfirTop → Prop
  | init (regs : MyFir) : DriverState P (backendInit P regs)
  | assign {top : VfirTop} (pins : MyFirPort) (hreset : pins.aresetn = true)
    (haw : pins.axi.awvalid = false) (hw : pins.axi.wvalid = false)
    (hb : pins.axi.bready = false) :
    DriverState P top → DriverState P { top with pins := pins }
  | otherTick {top : VfirTop} : DriverState P top → DriverState P (tick P top)
  | call {top top' : VfirTop} {offset value : BitVec 32}
    (hreturn : axiliteWriteReg P offset value top = some top') :
    DriverState P top → DriverState P top'

variable {P : Params} {top : VfirTop}

theorem DriverState.betweenWrites (h : DriverState P top) : BetweenWrites top := by
  induction h with
  | init regs => exact (backendInit_spec P regs).1
  | assign pins hreset haw _ _ _ ih => exact ⟨hreset, haw, ih.channel⟩
  | otherTick _ ih => exact ih.tick.1
  | call hreturn _ ih =>
    obtain ⟨top', n, -, -, hreturn', -, hnext⟩ := ih.write (P := P) _ _
    rw [hreturn, Option.some.injEq] at hreturn'
    rwa [hreturn']

/-! ## The response that a call observes -/

/-- The response that `waited` shows, if it shows one, was raised at the last tick before
it : there the slave took the address and the data that `top` presents, with no response
pending and the registers as they were. -/
def OwnResponse (P : Params) (top waited : VfirTop) : Prop :=
  ∃ taken : VfirTop, waited = tick P taken ∧ taken.pins = top.pins ∧
    taken.regs.axi.WriteAccepting (regIndex top.pins.axi.awaddr) ∧
    taken.regs.axi.regFile = top.regs.axi.regFile

theorem ownResponse_of_idle (top : VfirTop) (n : ℕ) (hreset : top.pins.aresetn = true)
    (h : top.regs.axi.WriteIdle) (haw : top.pins.axi.awvalid = true)
    (hw : top.pins.axi.wvalid = true) (hb : top.pins.axi.bready = true) :
    OwnResponse P top (awaitResponse P (n + 2) top) := by
  obtain ⟨hwaited, haccept, hold, -, -⟩ := awaitResponse_of_idle (P := P) n hreset h haw hw hb
  rw [hwaited]
  exact ⟨tick P top, rfl, rfl, haccept, hold⟩

/-- The response that still waits is taken at the first tick, and not observed. -/
theorem ownResponse_of_pending (top : VfirTop) (n : ℕ) (hreset : top.pins.aresetn = true)
    (h : top.regs.axi.WritePending) (haw : top.pins.axi.awvalid = true)
    (hw : top.pins.axi.wvalid = true) (hb : top.pins.axi.bready = true) :
    OwnResponse P top (awaitResponse P (n + 3) top) := by
  obtain ⟨hwaited, hidle, hold⟩ := awaitResponse_of_pending (P := P) (n + 2) hreset h hb
  obtain ⟨taken, hrest, hpins, haccept, hfile⟩ :=
    ownResponse_of_idle (P := P) (tick P top) n hreset hidle haw hw hb
  rw [hwaited]
  exact ⟨taken, hrest, hpins, haccept, hfile.trans hold⟩

theorem BetweenWrites.ownResponse (h : BetweenWrites top) (offset value : BitVec 32) :
    OwnResponse P (top.presentWrite offset value)
      (awaitResponse P kMaxCycles (top.presentWrite offset value)) := by
  obtain ⟨k, hk⟩ : ∃ k, kMaxCycles = k + 3 := ⟨9997, rfl⟩
  rw [hk]
  rcases h.channel with hidle | hpending
  · exact ownResponse_of_idle _ (k + 1) h.aresetn hidle rfl rfl rfl
  · exact ownResponse_of_pending _ k h.aresetn hpending rfl rfl rfl

theorem Driven.length_trace {F : RegFile → Prop} {top' : VfirTop} {n : ℕ}
    (h : Driven P F top n top') : top'.trace.length = top.trace.length + n := by
  induction h with
  | refl => rfl
  | assign _ _ _ ih => exact ih
  | tick _ _ ih => rw [FirDemo.tick, List.length_append, ih, List.length_singleton, Nat.add_assoc]

/-- Every register write of a program returns after at most four ticks, with the response
of its own write, and replaces the register of its offset and no other. That register is
the one the store of the hardware build addresses in an aligned window. -/
theorem register_write_exact (h : DriverState P top) (offset value : BitVec 32) :
    ∃ top', axiliteWriteReg P offset value top = some top' ∧
      top'.trace.length ≤ top.trace.length + 4 ∧
      OwnResponse P (top.presentWrite offset value)
        (awaitResponse P kMaxCycles (top.presentWrite offset value)) ∧
      top'.regs.axi.regFile =
        top.regs.axi.regFile.write P (registerOfOffset offset) value ∧
      ∀ window : BitVec 32, window.toNat % 512 = 0 →
        regIndex (gFirRegsAddr window offset) = registerOfOffset offset := by
  obtain ⟨top', n, -, h4, hreturn, hwrote, -⟩ := h.betweenWrites.write (P := P) offset value
  refine ⟨top', hreturn, ?_, h.betweenWrites.ownResponse offset value, ?_,
    fun window hwindow => regIndex_gFirRegsAddr hwindow offset⟩
  · rw [hwrote.driven.length_trace]
    omega
  · rw [hwrote.regFile, regIndex_kAxiLiteBaseAddr_add]

/-- A second call, while the response of the first one waits. -/
theorem register_write_exact_twice :
    ∃ top top' : VfirTop,
      axiliteWriteReg (firTop fun _ => 0) 0x204 7
          (backendInit (firTop fun _ => 0) zeroState) = some top ∧
        axiliteWriteReg (firTop fun _ => 0) 0x208 9 top = some top' ∧
        top'.regs.axi.regFile.coefSlvReg 1 = 7 ∧ top'.regs.axi.regFile.coefSlvReg 2 = 9 := by
  have hinit := DriverState.init (P := firTop fun _ => 0) zeroState
  obtain ⟨top, hfirst, -, -, hfile, -⟩ := register_write_exact hinit 0x204 7
  obtain ⟨top', hsecond, -, -, hfile', -⟩ := register_write_exact (hinit.call hfirst) 0x208 9
  refine ⟨top, top', hfirst, hsecond, ?_, ?_⟩ <;> rw [hfile', hfile] <;> rfl

end FirDemo
