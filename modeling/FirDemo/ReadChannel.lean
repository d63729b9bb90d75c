import FirDemo.SAxi
import Mathlib.Data.List.Infix

/-!
# The read channel

`axi_arready` answers every `S_AXI_ARVALID` with a pulse, whether a response is waiting or
not, while `axi_rvalid` and the read enable are guarded by `~axi_rvalid`. An AR handshake
in a cycle with `axi_rvalid` high is therefore never answered (`discardsRead`). The write
channel keeps `aw_en` low until its response is taken, and has no such cycle.

`read_ledger` counts the handshakes, and `read_conservation` follows the data : while no
read is discarded, what is read in the AR handshakes is what the R handshakes carry and
then what waits in `axi_rdata`.
-/

open Synchronous

namespace FirDemo

variable {P : Params} (ρ : (sAxi P).Run)

/-- ARVALID and ARREADY are both high in cycle `t`. -/
def arHandshake (t : ℕ) : Bool :=
  (ρ.input t).port.arvalid && (ρ.state t).axiArready

/-- RVALID and RREADY are both high in cycle `t`. -/
def rHandshake (t : ℕ) : Bool :=
  (ρ.state t).axiRvalid && (ρ.input t).port.rready

/-- An address is taken while a response is waiting. -/
def discardsRead (t : ℕ) : Bool :=
  arHandshake ρ t && (ρ.state t).axiRvalid

/-- The responses pending in the slave. -/
def pendingReads (s : SAxi) : ℕ :=
  s.axiRvalid.toNat

/-- The AXI rule for the master's read address, in the first `n` cycles : ARVALID and
ARADDR are held until ARREADY. -/
def CompliantReader (n : ℕ) : Prop :=
  ∀ t, t + 1 < n → (ρ.input t).port.arvalid = true → (ρ.state t).axiArready = false →
    (ρ.input (t + 1)).port.arvalid = true ∧
      (ρ.input (t + 1)).port.araddr = (ρ.input t).port.araddr

/-- A state that a reset cycle leaves. -/
def SAxiAfterReset (P : Params) (s : SAxi) : Prop :=
  ∃ (s₀ : SAxi) (p : SAxiPort), s₀.next P false p = s

/-- The value, in the cycle of the AR handshakes, of the register each addresses. -/
def readRegs : ℕ → List (BitVec 32) :=
  collect (whenHigh (arHandshake ρ) fun t =>
    (ρ.state t).regAt P (regIndex (ρ.input t).port.araddr))

/-- The RDATA of the R handshakes. -/
def readData : ℕ → List (BitVec 32) :=
  collect (whenHigh (rHandshake ρ) fun t => (ρ.state t).axiRdata)

section next

variable (p : SAxiPort) (s : SAxi)

@[simp] theorem sAxi_next (c : SAxiCycle) : (sAxi P).next s c = s.next P c.aresetn c.port :=
  rfl

@[simp] theorem SAxi.next_axiArready :
    (s.next P true p).axiArready = (!s.axiArready && p.arvalid) := by
  simp [SAxi.next]

theorem SAxi.next_axiRvalid :
    (s.next P true p).axiRvalid =
      (s.axiArready && p.arvalid && !s.axiRvalid || s.axiRvalid && !p.rready) := by
  cases h : s.axiRvalid <;> simp [SAxi.next, h]

/-- An accepted read stores the register of the latched address. -/
theorem SAxi.next_axiRdata :
    (s.next P true p).axiRdata =
      if s.slvRegRden p then s.regAt P s.axiAraddr else s.axiRdata := by
  cases h : s.slvRegRden p <;> simp [SAxi.next, SAxi.regDataOut, h]

end next

theorem SAxiAfterReset.idle {s : SAxi} (h : SAxiAfterReset P s) :
    s.axiArready = false ∧ s.axiRvalid = false := by
  obtain ⟨s₀, p, rfl⟩ := h
  simp [SAxi.next]

/-! ## Counting the handshakes -/

theorem pendingReads_next {t : ℕ} (hreset : (ρ.input t).aresetn = true) :
    pendingReads (ρ.state (t + 1)) + (rHandshake ρ t).toNat + (discardsRead ρ t).toNat =
      pendingReads (ρ.state t) + (arHandshake ρ t).toNat := by
  simp only [pendingReads, rHandshake, discardsRead, arHandshake, Machine.Run.state_succ,
    sAxi_next, hreset, SAxi.next_axiRvalid]
  cases (ρ.state t).axiRvalid <;> cases (ρ.state t).axiArready <;>
    cases (ρ.input t).port.arvalid <;> cases (ρ.input t).port.rready <;> rfl

/-- AR handshakes are R handshakes, discarded reads and the pending response. -/
theorem read_ledger (hstart : SAxiAfterReset P ρ.start) {n : ℕ}
    (hreset : ∀ t < n, (ρ.input t).aresetn = true) :
    tally (arHandshake ρ) n =
      tally (rHandshake ρ) n + tally (discardsRead ρ) n + pendingReads (ρ.state n) := by
  induction n with
  | zero => simp [pendingReads, hstart.idle]
  | succ n ih =>
    have ih := ih fun t ht => hreset t (by omega)
    have hnext := pendingReads_next ρ (hreset n (by omega))
    simp only [tally_succ]
    omega

/-! ## Following the data -/

/-- In the cycle of an AR handshake the latched address is the one on the bus. -/
theorem axiAraddr_eq (hstart : SAxiAfterReset P ρ.start) {n t : ℕ}
    (hreset : ∀ t < n, (ρ.input t).aresetn = true) (hread : CompliantReader ρ n) (ht : t < n)
    (hready : (ρ.state t).axiArready = true) :
    (ρ.state t).axiAraddr = regIndex (ρ.input t).port.araddr := by
  cases t with
  | zero => simp [hstart.idle] at hready
  | succ t =>
    rw [Machine.Run.state_succ, sAxi_next, hreset t (by omega)] at hready ⊢
    obtain ⟨hlow, hvalid⟩ : (ρ.state t).axiArready = false ∧ (ρ.input t).port.arvalid = true := by
      simpa using hready
    rw [(hread t ht hvalid hlow).2]
    simp [SAxi.next, hlow, hvalid]

/-- The response that waits in the slave. -/
def waitingRead (s : SAxi) : List (BitVec 32) :=
  (valid s.axiRvalid s.axiRdata).toList

theorem waitingRead_next (hstart : SAxiAfterReset P ρ.start) {n t : ℕ}
    (hreset : ∀ t < n, (ρ.input t).aresetn = true) (hread : CompliantReader ρ n) (ht : t < n)
    (hkeep : discardsRead ρ t = false) :
    waitingRead (ρ.state t) ++ (whenHigh (arHandshake ρ) (fun t =>
        (ρ.state t).regAt P (regIndex (ρ.input t).port.araddr)) t).toList =
      (whenHigh (rHandshake ρ) (fun t => (ρ.state t).axiRdata) t).toList ++
        waitingRead (ρ.state (t + 1)) := by
  have hvalid := SAxi.next_axiRvalid (P := P) (ρ.input t).port (ρ.state t)
  have hdata := SAxi.next_axiRdata (P := P) (ρ.input t).port (ρ.state t)
  have haddr := axiAraddr_eq ρ hstart hreset hread ht
  simp only [discardsRead, arHandshake] at hkeep
  simp only [waitingRead, Machine.Run.state_succ, sAxi_next, hreset t ht, hvalid, hdata]
  cases hr : (ρ.state t).axiRvalid with
  | false =>
    cases ha : (ρ.state t).axiArready with
    | false => simp [whenHigh, arHandshake, rHandshake, hr, ha]
    | true =>
      cases hv : (ρ.input t).port.arvalid <;>
        simp [whenHigh, arHandshake, rHandshake, SAxi.slvRegRden, hr, ha, hv, haddr ha]
  | true =>
    -- `hkeep` : no address is taken, so the response waits or leaves
    have hno : arHandshake ρ t = false := by simpa [arHandshake, hr] using hkeep
    cases hready : (ρ.input t).port.rready <;>
      simp [whenHigh, hno, rHandshake, SAxi.slvRegRden, hr, hready]

/-- While no read is discarded, the registers read are the data of the R handshakes and
then the response that waits. -/
theorem read_conservation (hstart : SAxiAfterReset P ρ.start) {n : ℕ}
    (hreset : ∀ t < n, (ρ.input t).aresetn = true) (hread : CompliantReader ρ n)
    (hkeep : ∀ t < n, discardsRead ρ t = false) :
    readRegs ρ n = readData ρ n ++ waitingRead (ρ.state n) := by
  have h := collect_conservation (fun t => waitingRead (ρ.state t)) fun t ht =>
    waitingRead_next ρ hstart hreset hread ht (hkeep t ht)
  have hempty : waitingRead ρ.start = [] := by simp [waitingRead, hstart.idle]
  simp only [Machine.Run.state_zero, hempty, List.nil_append] at h
  exact h

/-- From reset and with a compliant master, every AR handshake has its response pending or
given, and the R handshakes carry the registers the AR handshakes address, exactly as long
as no address is taken while a response is waiting. -/
theorem reads_answered_iff (hstart : SAxiAfterReset P ρ.start) {n : ℕ}
    (hreset : ∀ t < n, (ρ.input t).aresetn = true) (hread : CompliantReader ρ n) :
    (∀ m ≤ n, tally (arHandshake ρ) m = tally (rHandshake ρ) m + pendingReads (ρ.state m) ∧
        readData ρ m <+: readRegs ρ m) ↔
      ∀ t < n, discardsRead ρ t = false := by
  have hledger : ∀ m ≤ n, _ := fun m hm =>
    read_ledger ρ hstart (n := m) fun t ht => hreset t (by omega)
  constructor
  · intro h
    have := (h n le_rfl).1
    exact tally_eq_zero_iff.1 (by have := hledger n le_rfl; omega)
  · intro h m hm
    have hkeep : ∀ t < m, discardsRead ρ t = false := fun t ht => h t (by omega)
    refine ⟨?_, waitingRead (ρ.state m), (read_conservation ρ hstart
      (fun t ht => hreset t (by omega)) (fun t ht => hread t (by omega)) hkeep).symm⟩
    have := hledger m hm
    have := tally_eq_zero_iff.2 hkeep
    omega

/-- After reset, a master that keeps reading `ctrl_reg` and is ready for the responses in
the cycles of `ready`. -/
def readerRun (ready : List ℕ) : (sAxi (firTop fun _ => 0)).Run where
  start := SAxi.zero.next (firTop fun _ => 0) false SAxiPort.idle
  input t := ⟨true, { SAxiPort.idle with arvalid := true, rready := decide (t ∈ ready) }⟩

theorem readerRun_spec (ready : List ℕ) (n : ℕ) :
    SAxiAfterReset (firTop fun _ => 0) (readerRun ready).start ∧
      (∀ t < n, ((readerRun ready).input t).aresetn = true) ∧
        CompliantReader (readerRun ready) n :=
  ⟨⟨_, _, rfl⟩, fun _ _ => rfl, fun _ _ _ _ => ⟨rfl, rfl⟩⟩

/-- The first response waits, and the second address is taken for nothing. -/
theorem readerRun_discards :
    SAxiAfterReset (firTop fun _ => 0) (readerRun []).start ∧
      (∀ t < 4, ((readerRun []).input t).aresetn = true) ∧ CompliantReader (readerRun []) 4 ∧
      tally (arHandshake (readerRun [])) 4 ≠
        tally (rHandshake (readerRun [])) 4 + pendingReads ((readerRun []).state 4) :=
  have ⟨hstart, hreset, hread⟩ := readerRun_spec [] 4
  ⟨hstart, hreset, hread, by decide⟩

theorem reads_answered_iff_readerRun :
    (∀ m ≤ 8, tally (arHandshake (readerRun [2, 4, 6])) m =
        tally (rHandshake (readerRun [2, 4, 6])) m +
          pendingReads ((readerRun [2, 4, 6]).state m) ∧
        readData (readerRun [2, 4, 6]) m <+: readRegs (readerRun [2, 4, 6]) m) ↔
      ∀ t < 8, discardsRead (readerRun [2, 4, 6]) t = false :=
  have ⟨hstart, hreset, hread⟩ := readerRun_spec [2, 4, 6] 8
  reads_answered_iff _ hstart hreset hread

end FirDemo
