import FirDemo.AtomicRegisters

/-!
# Write strobes

The comment on the write logic of the slave says that write strobes select the byte
enables, and no process reads `S_AXI_WSTRB` : a write replaces the whole register. The
lanes of a write come out as the strobes say exactly when those it does not strobe carry
the bytes that the register holds (`strobed_writes_iff`).
-/

open Synchronous

namespace FirDemo

/-- Byte `lane` of a word. -/
def byteLane (word : BitVec 32) (lane : ℕ) : BitVec 8 :=
  word.extractLsb' (8 * lane) 8

/-- The byte lanes that the register `index` has, four of `ctrl_reg` and two of a
coefficient. -/
def lanes (index : BitVec 32) : ℕ :=
  if index = 0 then 4 else 2

/-- The two low bytes of a word are those of its low half-word. -/
theorem byteLane_setWidth (word : BitVec 32) {lane : ℕ} (hlane : lane < 2) :
    byteLane ((word.setWidth 16).setWidth 32) lane = byteLane word lane := by
  ext i hi
  have h16 : 8 * lane + i < 16 := by omega
  simp [byteLane, h16]
  omega

/-- A write replaces all lanes of its register. -/
theorem RegFile.byteLane_read_write {P : Params} (f : RegFile) {index : BitVec 32}
    (data : BitVec 32) (hi : index.toNat ≤ P.TAPS) {lane : ℕ} (hlane : lane < lanes index) :
    byteLane ((f.write P index data).read index) lane = byteLane data lane := by
  unfold lanes at hlane
  unfold RegFile.read
  split_ifs at hlane ⊢ with h0
  · simp [RegFile.write, h0]
  · have hne : index.toNat ≠ 0 := fun h => h0 (BitVec.eq_of_toNat_eq h)
    have hwritten : (f.write P index data).coefSlvReg index.toNat = data.setWidth 16 :=
      if_pos ⟨by omega, hi, rfl⟩
    rw [hwritten]
    exact byteLane_setWidth data hlane

variable {P : Params} (ρ : (sAxi P).Run)

/-- The register index of the address presented in cycle `t`. -/
def writeIndex (t : ℕ) : BitVec 32 :=
  regIndex (ρ.input t).port.awaddr

/-- In cycle `t` a register that the slave has is written. -/
def WritesRegister (t : ℕ) : Prop :=
  awHandshake ρ t = true ∧ (writeIndex ρ t).toNat ≤ P.TAPS

/-- The write of cycle `t` sets the lanes that it strobes and keeps the others. -/
def StrobedWrite (t : ℕ) : Prop :=
  ∀ lane < lanes (writeIndex ρ t),
    byteLane ((ρ.state (t + 1)).regFile.read (writeIndex ρ t)) lane =
      if (ρ.input t).port.wstrb.getLsbD lane then byteLane (ρ.input t).port.wdata lane
      else byteLane ((ρ.state t).regFile.read (writeIndex ρ t)) lane

/-- On the lanes without a strobe the data of cycle `t` are the bytes that the register
holds. -/
def CarriesOldBytes (t : ℕ) : Prop :=
  ∀ lane < lanes (writeIndex ρ t), (ρ.input t).port.wstrb.getLsbD lane = false →
    byteLane (ρ.input t).port.wdata lane =
      byteLane ((ρ.state t).regFile.read (writeIndex ρ t)) lane

theorem strobedWrite_iff {n t : ℕ} (hphase : WritePhase ρ n t)
    (hreset : (ρ.input t).aresetn = true) (ht : t < n) (hw : WritesRegister ρ t) :
    StrobedWrite ρ t ↔ CarriesOldBytes ρ t := by
  have hnext : (ρ.state (t + 1)).regFile =
      (ρ.state t).regFile.write P (writeIndex ρ t) (ρ.input t).port.wdata := by
    rw [hphase.regFile_next ρ hreset ht, if_pos hw.1]
    rfl
  refine forall₂_congr fun lane hlane => ?_
  rw [hnext, RegFile.byteLane_read_write _ _ hw.2 hlane]
  cases h : (ρ.input t).port.wstrb.getLsbD lane <;> simp

/-- From reset and with a compliant master, all writes come out as their strobes say
exactly when the lanes without a strobe carry the bytes of the register before the write.
In particular this is so of writes that strobe all lanes of their register. -/
theorem strobed_writes_iff (hstart : SAxiAfterReset P ρ.start) {n : ℕ}
    (hreset : ∀ t < n, (ρ.input t).aresetn = true) (hwrite : CompliantWriter ρ n) :
    (∀ t < n, WritesRegister ρ t → StrobedWrite ρ t) ↔
      ∀ t < n, WritesRegister ρ t → CarriesOldBytes ρ t := by
  refine forall₂_congr fun t ht => forall_congr' fun hw => ?_
  exact strobedWrite_iff ρ (writePhase hstart hreset hwrite t ht.le) (hreset t ht) ht hw

/-- After reset, a master that keeps writing the low byte of a coefficient. -/
def lowByteRun : (sAxi (firTop fun _ => 0)).Run where
  start := SAxi.zero.next (firTop fun _ => 0) false SAxiPort.idle
  input _ := ⟨true, ⟨4, true, 7, 1, true, true, 0, false, false⟩⟩

theorem strobed_writes_iff_lowByteRun :
    (∀ t < 8, WritesRegister lowByteRun t → StrobedWrite lowByteRun t) ↔
      ∀ t < 8, WritesRegister lowByteRun t → CarriesOldBytes lowByteRun t :=
  strobed_writes_iff _ ⟨_, _, rfl⟩ (fun _ _ => rfl)
    fun _ _ => ⟨fun _ _ => ⟨rfl, rfl⟩, fun _ _ => ⟨rfl, rfl⟩⟩

/-- After reset, a full write of `0xAB00` to `ctrl_reg` and a write of its low byte. -/
def byteStoreRun : (sAxi (firTop fun _ => 0)).Run where
  start := SAxi.zero.next (firTop fun _ => 0) false SAxiPort.idle
  input t :=
    ⟨true, ⟨0, decide (t % 3 < 2), if t < 3 then 0xAB00 else 1, if t < 3 then 15 else 1,
      decide (t % 3 < 2), true, 0, false, false⟩⟩

/-- The byte store clears the second byte of `ctrl_reg`. -/
theorem byteStoreRun_clobbers :
    SAxiAfterReset (firTop fun _ => 0) byteStoreRun.start ∧
      (∀ t < 6, (byteStoreRun.input t).aresetn = true) ∧ CompliantWriter byteStoreRun 6 ∧
      ¬∀ t < 6, WritesRegister byteStoreRun t → StrobedWrite byteStoreRun t := by
  refine ⟨⟨_, _, rfl⟩, fun _ _ => rfl, fun t ht => ?_, fun h => ?_⟩
  · have ht : t < 5 := by omega
    interval_cases t <;> decide
  · have hlane := h 4 (by decide) ⟨by decide, by decide⟩ 1 (by decide)
    revert hlane
    decide

end FirDemo
