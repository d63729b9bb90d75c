import FirDemo.SAxi

/-!
# The write channel

Three clocked processes of the slave share the write channel. From reset they go through
three states : idle, the cycle of the ready pulses (`WriteAccepting`), and a response that
waits for `S_AXI_BREADY` (`WritePending`). The registers change in the ready cycle only,
by one write of the register file (`RegFile.write`).
-/

namespace FirDemo

/-- The registers that software programs. -/
structure RegFile where
  ctrlReg : BitVec 32
  coefSlvReg : ℕ → BitVec 16

/-- One write, of the register `index`. -/
def RegFile.write (P : Params) (index data : BitVec 32) (f : RegFile) : RegFile where
  ctrlReg := if index = 0 then data else f.ctrlReg
  coefSlvReg k :=
    if 1 ≤ k ∧ k ≤ P.TAPS ∧ index.toNat = k then data.setWidth 16 else f.coefSlvReg k

namespace SAxi

variable (P : Params) (p : SAxiPort) (s : SAxi)

/-- The registers that a write can change. -/
def regFile : RegFile :=
  ⟨s.ctrlReg, s.coefSlvReg⟩

/-- No write is going on. -/
structure WriteIdle : Prop where
  awready : s.axiAwready = false
  wready : s.axiWready = false
  bvalid : s.axiBvalid = false
  awEn : s.awEn = true

/-- The ready pulses are up, and `index` is latched. -/
structure WriteAccepting (index : BitVec 32) : Prop where
  awready : s.axiAwready = true
  wready : s.axiWready = true
  bvalid : s.axiBvalid = false
  awEn : s.awEn = false
  awaddr : s.axiAwaddr = index

/-- A write response waits. -/
structure WritePending : Prop where
  awready : s.axiAwready = false
  wready : s.axiWready = false
  bvalid : s.axiBvalid = true
  awEn : s.awEn = false

variable {P p s}

theorem regFile_next_of_no_write (hw : s.slvRegWren p = false) :
    (s.next P true p).regFile = s.regFile := by
  rw [regFile, regFile, (next_regs_of_no_write P p s hw).1, (next_regs_of_no_write P p s hw).2]

theorem regFile_next_of_write (hw : s.slvRegWren p = true) :
    (s.next P true p).regFile = s.regFile.write P s.axiAwaddr p.wdata := by
  simp only [regFile, RegFile.write, next, hw, Bool.not_true, Bool.false_eq_true, if_false, if_true,
    RegFile.mk.injEq, true_and]
  funext k
  have h0 : s.axiAwaddr = 0 → s.axiAwaddr.toNat = 0 := fun h => by rw [h]; rfl
  by_cases hk : 1 ≤ k ∧ k ≤ P.TAPS
  · rw [if_pos hk]
    by_cases hz : s.axiAwaddr = 0
    · have hnot : ¬(1 ≤ k ∧ k ≤ P.TAPS ∧ s.axiAwaddr.toNat = k) := by rw [h0 hz]; omega
      rw [if_pos hz, if_neg hnot]
    · rw [if_neg hz]
      exact if_congr ⟨fun h => ⟨hk.1, hk.2, h⟩, fun h => h.2.2⟩ rfl rfl
  · have hnot : ¬(1 ≤ k ∧ k ≤ P.TAPS ∧ s.axiAwaddr.toNat = k) := fun h => hk ⟨h.1, h.2.1⟩
    rw [if_neg hk, if_neg hnot]

/-- Reset leaves the channel idle and the registers zero. -/
theorem writeIdle_reset : (s.next P false p).WriteIdle := by
  constructor <;> simp [next]

theorem regs_reset : (s.next P false p).ctrlReg = 0 ∧
    ∀ k, 1 ≤ k → k ≤ P.TAPS → (s.next P false p).coefSlvReg k = 0 := by
  refine ⟨by simp [next], fun k h1 hk => ?_⟩
  simp [next, h1, hk]

namespace WriteIdle

theorem stay (h : s.WriteIdle) (hno : p.awvalid = false ∨ p.wvalid = false) :
    (s.next P true p).WriteIdle ∧ (s.next P true p).regFile = s.regFile := by
  refine ⟨?_, regFile_next_of_no_write (by simp [slvRegWren, h.awready])⟩
  rcases hno with hno | hno <;> constructor <;> simp [next, hno, h.bvalid, h.awEn]

/-- An address and data are taken together. -/
theorem accept (h : s.WriteIdle) (haw : p.awvalid = true) (hw : p.wvalid = true) :
    (s.next P true p).WriteAccepting (regIndex p.awaddr) ∧
      (s.next P true p).regFile = s.regFile := by
  refine ⟨?_, regFile_next_of_no_write (by simp [slvRegWren, h.awready])⟩
  constructor <;> simp [next, haw, hw, h.awready, h.wready, h.bvalid, h.awEn]

end WriteIdle

/-- In the ready cycle the register is written and the response raised. -/
theorem WriteAccepting.respond {index : BitVec 32} (h : s.WriteAccepting index)
    (haw : p.awvalid = true) (hw : p.wvalid = true) :
    (s.next P true p).WritePending ∧
      (s.next P true p).regFile = s.regFile.write P index p.wdata := by
  refine ⟨?_, ?_⟩
  · constructor <;> simp [next, haw, hw, h.awready, h.wready, h.bvalid, h.awEn]
  · rw [regFile_next_of_write (by simp [slvRegWren, haw, hw, h.awready, h.wready]), h.awaddr]

namespace WritePending

theorem stay (h : s.WritePending) (hb : p.bready = false) :
    (s.next P true p).WritePending ∧ (s.next P true p).regFile = s.regFile := by
  refine ⟨?_, regFile_next_of_no_write (by simp [slvRegWren, h.awready])⟩
  constructor <;> simp [next, hb, h.awready, h.bvalid, h.awEn]

/-- The response is taken, and nothing else is accepted in that cycle. -/
theorem take (h : s.WritePending) (hb : p.bready = true) :
    (s.next P true p).WriteIdle ∧ (s.next P true p).regFile = s.regFile := by
  refine ⟨?_, regFile_next_of_no_write (by simp [slvRegWren, h.awready])⟩
  constructor <;> simp [next, hb, h.awready, h.bvalid, h.awEn]

end WritePending

end SAxi

end FirDemo
