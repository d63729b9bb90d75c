import FirDemo.WriteProtocol

/-!
# The slave as an atomic register file

For a master that holds what it presents and waits for the data of a read before the next
one, the slave is a register file on which every AW handshake is one write and every AR
handshake one read (`refines_atomic_registers`). The write takes effect in the cycle after
its handshake, and the read returns what the file held in the cycle of its own.
-/

open Synchronous

namespace FirDemo

/-! ## The register file -/

namespace RegFile

/-- All registers zero. -/
def zero : RegFile :=
  ⟨0, fun _ => 0⟩

/-- The word at `index`, a coefficient zero-extended. -/
def read (index : BitVec 32) (f : RegFile) : BitVec 32 :=
  if index = 0 then f.ctrlReg else (f.coefSlvReg index.toNat).setWidth 32

/-- The same control register and the same coefficients. -/
structure Agrees (P : Params) (f g : RegFile) : Prop where
  ctrlReg : f.ctrlReg = g.ctrlReg
  coefSlvReg : ∀ k, 1 ≤ k → k ≤ P.TAPS → f.coefSlvReg k = g.coefSlvReg k

variable {P : Params} {f g : RegFile}

theorem Agrees.write (h : f.Agrees P g) (index data : BitVec 32) :
    (f.write P index data).Agrees P (g.write P index data) := by
  refine ⟨?_, fun k h1 hk => ?_⟩
  · simp only [RegFile.write, h.ctrlReg]
  · simp only [RegFile.write, h.coefSlvReg k h1 hk]

theorem Agrees.read_eq (h : f.Agrees P g) {index : BitVec 32} (hi : index.toNat ≤ P.TAPS) :
    f.read index = g.read index := by
  unfold read
  split_ifs with h0
  · exact h.ctrlReg
  · have hne : index.toNat ≠ 0 := fun h => h0 (BitVec.eq_of_toNat_eq h)
    rw [h.coefSlvReg index.toNat (by omega) hi]

/-- What the slave reads at an index up to `TAPS`. -/
theorem regAt_eq_read (s : SAxi) {index : BitVec 32} (hi : index.toNat ≤ P.TAPS) :
    s.regAt P index = s.regFile.read index := by
  unfold SAxi.regAt read
  split_ifs with h0
  · rfl
  · have hne : index.toNat ≠ 0 := fun h => h0 (BitVec.eq_of_toNat_eq h)
    rw [SAxi.coefAt, if_pos ⟨by omega, hi⟩]
    rfl

end RegFile

variable {P : Params} (ρ : (sAxi P).Run)

/-! ## Writes -/

/-- The writes whose handshake lies before cycle `t`, address and data. -/
def writesBefore : ℕ → List (BitVec 32 × BitVec 32) :=
  collect (whenHigh (awHandshake ρ) fun t =>
    ((ρ.input t).port.awaddr, (ρ.input t).port.wdata))

/-- The register file these writes make, one after the other from all zeros. -/
def atomicRegs (t : ℕ) : RegFile :=
  (writesBefore ρ t).foldl (fun f w => f.write P (regIndex w.1) w.2) RegFile.zero

theorem atomicRegs_succ (t : ℕ) :
    atomicRegs ρ (t + 1) =
      if awHandshake ρ t then
        (atomicRegs ρ t).write P (regIndex (ρ.input t).port.awaddr) (ρ.input t).port.wdata
      else atomicRegs ρ t := by
  cases h : awHandshake ρ t <;> simp [atomicRegs, writesBefore, whenHigh, h]

/-- One edge : a handshake is one write of the registers, and nothing else changes them. -/
theorem WritePhase.regFile_next {n t : ℕ} (h : WritePhase ρ n t)
    (hreset : (ρ.input t).aresetn = true) (ht : t < n) :
    (ρ.state (t + 1)).regFile =
      if awHandshake ρ t then
        (ρ.state t).regFile.write P (regIndex (ρ.input t).port.awaddr) (ρ.input t).port.wdata
      else (ρ.state t).regFile := by
  rw [Machine.Run.state_succ, sAxi_next, hreset]
  cases h with
  | idle h =>
    rw [SAxi.regFile_next_of_no_write (by simp [SAxi.slvRegWren, h.awready])]
    simp [awHandshake, h.awready]
  | accepting h hheld =>
    obtain ⟨haw, hw, rfl⟩ := hheld ht
    rw [(h.respond haw hw).2]
    simp [awHandshake, haw, h.awready]
  | pending h =>
    rw [SAxi.regFile_next_of_no_write (by simp [SAxi.slvRegWren, h.awready])]
    simp [awHandshake, h.awready]

theorem SAxiAfterReset.agrees_zero {s : SAxi} (h : SAxiAfterReset P s) :
    s.regFile.Agrees P RegFile.zero := by
  obtain ⟨s₀, p, rfl⟩ := h
  have hregs := SAxi.regs_reset (P := P) (p := p) (s := s₀)
  exact ⟨hregs.1, hregs.2⟩

/-- In every cycle the registers are those of the writes before. -/
theorem regFile_agrees {n : ℕ} (hstart : SAxiAfterReset P ρ.start)
    (hreset : ∀ t < n, (ρ.input t).aresetn = true) (hwrite : CompliantWriter ρ n) :
    ∀ t ≤ n, (ρ.state t).regFile.Agrees P (atomicRegs ρ t) := by
  intro t
  induction t with
  | zero =>
    exact fun _ => hstart.agrees_zero
  | succ t ih =>
    intro ht
    have ih := ih (by omega)
    rw [(writePhase hstart hreset hwrite t (by omega)).regFile_next ρ (hreset t ht) ht,
      atomicRegs_succ]
    split_ifs
    · exact ih.write _ _
    · exact ih

/-! ## Reads -/

/-- ARVALID is raised for a read only after the R handshake of the read before. -/
def OneReadOutstanding (n : ℕ) : Prop :=
  ∀ t u, t < u → u < n → arHandshake ρ t = true → (ρ.input u).port.arvalid = true →
    ∃ v, t < v ∧ v < u ∧ rHandshake ρ v = true

section reads

variable {ρ} {n : ℕ}

/-- A response that waits is that of an AR handshake, with no R handshake since. -/
theorem exists_arHandshake (hstart : SAxiAfterReset P ρ.start)
    (hreset : ∀ t < n, (ρ.input t).aresetn = true) {t : ℕ} (ht : t ≤ n)
    (hvalid : (ρ.state t).axiRvalid = true) :
    ∃ u < t, arHandshake ρ u = true ∧ ∀ v, u < v → v < t → rHandshake ρ v = false := by
  induction t with
  | zero => simp [hstart.idle] at hvalid
  | succ t ih =>
    rw [Machine.Run.state_succ, sAxi_next, hreset t (by omega), SAxi.next_axiRvalid] at hvalid
    rcases Bool.or_eq_true_iff.1 hvalid with hnew | hold
    · refine ⟨t, by omega, ?_, fun v htv hvt => by omega⟩
      simp only [Bool.and_eq_true] at hnew
      simp [arHandshake, hnew]
    · obtain ⟨hr, hready⟩ := Bool.and_eq_true_iff.1 hold
      obtain ⟨u, hut, hu, hno⟩ := ih (by omega) hr
      refine ⟨u, by omega, hu, fun v huv hvt => ?_⟩
      rcases Nat.lt_or_ge v t with hlt | hge
      · exact hno v huv hlt
      · obtain rfl : v = t := by omega
        simpa [rHandshake, hr] using hready

/-- Such a master never has a read discarded. -/
theorem OneReadOutstanding.discardsRead_eq (hone : OneReadOutstanding ρ n)
    (hstart : SAxiAfterReset P ρ.start) (hreset : ∀ t < n, (ρ.input t).aresetn = true) :
    ∀ t < n, discardsRead ρ t = false := by
  intro t ht
  refine Bool.eq_false_iff.2 fun hd => ?_
  obtain ⟨har, hvalid⟩ := Bool.and_eq_true_iff.1 hd
  obtain ⟨u, hut, hu, hno⟩ := exists_arHandshake hstart hreset ht.le hvalid
  obtain ⟨v, huv, hvt, hv⟩ := hone u t hut ht hu (Bool.and_eq_true_iff.1 har).1
  rw [hno v huv hvt] at hv
  exact Bool.false_ne_true hv

/-- From its AR handshake to its R handshake a read waits with the data of the handshake. -/
theorem read_waits (hstart : SAxiAfterReset P ρ.start)
    (hreset : ∀ t < n, (ρ.input t).aresetn = true) (hread : CompliantReader ρ n) {t : ℕ}
    (ht : t < n) (har : arHandshake ρ t = true) (hkeep : discardsRead ρ t = false) {u : ℕ}
    (htu : t < u) (hu : u ≤ n) (hno : ∀ v, t < v → v < u → rHandshake ρ v = false) :
    (ρ.state u).axiRvalid = true ∧
      (ρ.state u).axiRdata = (ρ.state t).regAt P (regIndex (ρ.input t).port.araddr) := by
  obtain ⟨hvalid, hready⟩ := Bool.and_eq_true_iff.1 har
  have hidle : (ρ.state t).axiRvalid = false := by simpa [discardsRead, har] using hkeep
  have haddr := axiAraddr_eq ρ hstart hreset hread ht hready
  induction u, htu using Nat.le_induction with
  | base =>
    rw [Machine.Run.state_succ, sAxi_next, hreset t ht, SAxi.next_axiRvalid, SAxi.next_axiRdata]
    simp [SAxi.slvRegRden, hvalid, hready, hidle, haddr]
  | succ u htu ih =>
    obtain ⟨hwait, hdata⟩ := ih (by omega) fun v htv hvu => hno v htv (by omega)
    have hrready : (ρ.input u).port.rready = false := by
      simpa [rHandshake, hwait] using hno u (by omega) (by omega)
    rw [Machine.Run.state_succ, sAxi_next, hreset u (by omega), SAxi.next_axiRvalid,
      SAxi.next_axiRdata]
    simp [SAxi.slvRegRden, hwait, hrready, hdata]

end reads

/-- From reset, with a compliant master that has one read outstanding at most : in every
cycle the registers are those that the writes before make of all zeros, and every read has
one response, which waits with the value its register had in the cycle of the AR
handshake. -/
theorem refines_atomic_registers (hstart : SAxiAfterReset P ρ.start) {n : ℕ}
    (hreset : ∀ t < n, (ρ.input t).aresetn = true) (hwrite : CompliantWriter ρ n)
    (hread : CompliantReader ρ n) (hone : OneReadOutstanding ρ n) :
    (∀ t ≤ n, (ρ.state t).regFile.Agrees P (atomicRegs ρ t)) ∧
    (∀ m ≤ n, tally (arHandshake ρ) m = tally (rHandshake ρ) m + pendingReads (ρ.state m)) ∧
    (∀ t u, t < u → u < n → arHandshake ρ t = true → arHandshake ρ u = true →
      (∀ v, t < v → v < u → arHandshake ρ v = false) →
        ∃! v, (t < v ∧ v < u) ∧ rHandshake ρ v = true) ∧
    ∀ t < n, arHandshake ρ t = true → (regIndex (ρ.input t).port.araddr).toNat ≤ P.TAPS →
      ∀ u, t < u → u ≤ n → (∀ v, t < v → v < u → rHandshake ρ v = false) →
        (ρ.state u).axiRvalid = true ∧
          (ρ.state u).axiRdata = (atomicRegs ρ t).read (regIndex (ρ.input t).port.araddr) := by
  have hregs := regFile_agrees ρ hstart hreset hwrite
  have hkeep := hone.discardsRead_eq hstart hreset
  refine ⟨hregs, fun m hm => ?_, fun t u htu hu hat hau hnone => ?_,
    fun t ht hat hi u htu hu hno => ?_⟩
  · have hledger := read_ledger ρ hstart (n := m) fun t ht => hreset t (by omega)
    have := tally_eq_zero_iff.2 fun t (ht : t < m) => hkeep t (by omega)
    omega
  · have hnext : ∀ t < n, pendingReads (ρ.state (t + 1)) + (rHandshake ρ t).toNat =
        pendingReads (ρ.state t) + (arHandshake ρ t).toNat := fun t ht => by
      simpa [hkeep t ht] using pendingReads_next ρ (hreset t ht)
    have hidle : ∀ v < n, arHandshake ρ v = true → (ρ.state v).axiRvalid = false :=
      fun v hv hav => by simpa [discardsRead, hav] using hkeep v hv
    have hpending : pendingReads (ρ.state (t + 1)) = 1 := by
      simpa [pendingReads, rHandshake, hidle t (by omega) hat, hat] using hnext t (by omega)
    exact existsUnique_response (fun t => pendingReads (ρ.state t)) hnext htu hu.le hpending
      (by simp [pendingReads, hidle u hu hau]) hnone
  · obtain ⟨hwait, hdata⟩ := read_waits hstart hreset hread ht hat (hkeep t ht) htu hu hno
    refine ⟨hwait, ?_⟩
    rw [hdata, RegFile.regAt_eq_read _ hi, (hregs t ht.le).read_eq hi]

/-- After reset, a write of `7` to `coeff[1]`, and a read of it that overlaps the write and
whose response waits. -/
def overlapRun : (sAxi (firTop fun _ => 0)).Run where
  start := SAxi.zero.next (firTop fun _ => 0) false SAxiPort.idle
  input t :=
    ⟨true, ⟨4, decide (t < 2), 7, 15, decide (t < 2), true, 4, decide (1 ≤ t ∧ t < 3),
      decide (t = 5)⟩⟩

theorem overlapRun_spec : SAxiAfterReset (firTop fun _ => 0) overlapRun.start ∧
    (∀ t < 6, (overlapRun.input t).aresetn = true) ∧ CompliantWriter overlapRun 6 ∧
      CompliantReader overlapRun 6 ∧ OneReadOutstanding overlapRun 6 := by
  refine ⟨⟨_, _, rfl⟩, fun _ _ => rfl, ?_, ?_, ?_⟩
  · intro t ht
    have ht : t < 5 := by omega
    interval_cases t <;> decide
  · intro t ht
    have ht : t < 5 := by omega
    interval_cases t <;> decide
  · intro t u htu hu har hv
    obtain ⟨-, h3⟩ : 1 ≤ u ∧ u < 3 := by simpa [overlapRun] using hv
    have hno : arHandshake overlapRun t = false := by
      have ht : t < 2 := by omega
      interval_cases t <;> decide
    rw [hno] at har
    exact absurd har Bool.false_ne_true

theorem refines_atomic_registers_overlapRun :
    (overlapRun.state 5).axiRvalid = true ∧ (overlapRun.state 5).axiRdata = 7 :=
  have ⟨hstart, hreset, hwrite, hread, hone⟩ := overlapRun_spec
  have h := (refines_atomic_registers _ hstart hreset hwrite hread hone).2.2.2 2 (by decide)
    (by decide) (by decide) 5 (by decide) (by decide) fun v _ _ => by interval_cases v <;> decide
  ⟨h.1, h.2.trans (by decide)⟩

end FirDemo
