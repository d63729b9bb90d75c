import FirDemo.ReadChannel
import FirDemo.WriteChannel
import Mathlib.Tactic.IntervalCases

/-!
# The write protocol

With a master that holds what it presents, the three clocked processes of the write
channel stay in step. In every cycle the channel is idle, in its ready cycle or waiting
for `S_AXI_BREADY` (`WritePhase`), and in the ready cycle both the address and the data
are still presented. So the AW and the W handshake fall in the same cycle, and the
handshakes and the responses alternate (`write_protocol`).
-/

open Synchronous

namespace FirDemo

variable {P : Params} (ρ : (sAxi P).Run)

/-- AWVALID and AWREADY are both high in cycle `t`. -/
def awHandshake (t : ℕ) : Bool :=
  (ρ.input t).port.awvalid && (ρ.state t).axiAwready

/-- WVALID and WREADY are both high in cycle `t`. -/
def wHandshake (t : ℕ) : Bool :=
  (ρ.input t).port.wvalid && (ρ.state t).axiWready

/-- BVALID and BREADY are both high in cycle `t`. -/
def bHandshake (t : ℕ) : Bool :=
  (ρ.state t).axiBvalid && (ρ.input t).port.bready

/-- The write responses pending in the slave. -/
def pendingWrites (s : SAxi) : ℕ :=
  s.axiBvalid.toNat

/-- The AXI rules for the master's write channels, in the first `n` cycles : AWVALID and
AWADDR are held until AWREADY, WVALID and WDATA until WREADY. -/
def CompliantWriter (n : ℕ) : Prop :=
  ∀ t, t + 1 < n →
    ((ρ.input t).port.awvalid = true → (ρ.state t).axiAwready = false →
      (ρ.input (t + 1)).port.awvalid = true ∧
        (ρ.input (t + 1)).port.awaddr = (ρ.input t).port.awaddr) ∧
    ((ρ.input t).port.wvalid = true → (ρ.state t).axiWready = false →
      (ρ.input (t + 1)).port.wvalid = true ∧
        (ρ.input (t + 1)).port.wdata = (ρ.input t).port.wdata)

/-! ## The three phases -/

/-- The phase of the write channel in cycle `t` of a run of `n` cycles. In the ready cycle
the address that was latched and the data are presented. -/
inductive WritePhase (n t : ℕ) : Prop
  | idle (h : (ρ.state t).WriteIdle)
  | accepting {index : BitVec 32} (h : (ρ.state t).WriteAccepting index)
    (hheld : t < n → (ρ.input t).port.awvalid = true ∧ (ρ.input t).port.wvalid = true ∧
      index = regIndex (ρ.input t).port.awaddr)
  | pending (h : (ρ.state t).WritePending)

section phases

variable {ρ} {n t : ℕ}

theorem SAxiAfterReset.writeIdle {s : SAxi} (h : SAxiAfterReset P s) : s.WriteIdle := by
  obtain ⟨s₀, p, rfl⟩ := h
  exact SAxi.writeIdle_reset

theorem WritePhase.next (hreset : (ρ.input t).aresetn = true) (hwrite : CompliantWriter ρ n)
    (ht : t < n) (h : WritePhase ρ n t) : WritePhase ρ n (t + 1) := by
  have hnext : ρ.state (t + 1) = (ρ.state t).next P true (ρ.input t).port := by
    rw [Machine.Run.state_succ, sAxi_next, hreset]
  cases h with
  | idle h =>
    cases haw : (ρ.input t).port.awvalid with
    | false => exact .idle (hnext ▸ (h.stay (Or.inl haw)).1)
    | true =>
      cases hw : (ρ.input t).port.wvalid with
      | false => exact .idle (hnext ▸ (h.stay (Or.inr hw)).1)
      | true =>
        refine .accepting (hnext ▸ (h.accept haw hw).1) fun ht' => ?_
        obtain ⟨hawHeld, hwHeld⟩ := hwrite t ht'
        obtain ⟨hawvalid, hawaddr⟩ := hawHeld haw h.awready
        exact ⟨hawvalid, (hwHeld hw h.wready).1, by rw [hawaddr]⟩
  | accepting h hheld =>
    obtain ⟨haw, hw, -⟩ := hheld ht
    exact .pending (hnext ▸ (h.respond haw hw).1)
  | pending h =>
    cases hb : (ρ.input t).port.bready with
    | false => exact .pending (hnext ▸ (h.stay hb).1)
    | true => exact .idle (hnext ▸ (h.take hb).1)

/-- From reset, the write channel of a run with a compliant master is always in one of its
three phases. -/
theorem writePhase (hstart : SAxiAfterReset P ρ.start)
    (hreset : ∀ t < n, (ρ.input t).aresetn = true) (hwrite : CompliantWriter ρ n) :
    ∀ t ≤ n, WritePhase ρ n t := by
  intro t
  induction t with
  | zero => exact fun _ => .idle hstart.writeIdle
  | succ t ih => exact fun ht => (ih (by omega)).next (hreset t ht) hwrite ht

/-- The registers of the three processes in step. -/
structure WriteInStep (s : SAxi) : Prop where
  ready_eq : s.axiAwready = s.axiWready
  exclusive : ¬(s.axiAwready = true ∧ s.axiBvalid = true)
  awEn_iff : s.awEn = false ↔ s.axiAwready = true ∨ s.axiBvalid = true

theorem WritePhase.inStep (h : WritePhase ρ n t) : WriteInStep (ρ.state t) := by
  cases h with
  | idle h => constructor <;> simp [h.awready, h.wready, h.bvalid, h.awEn]
  | accepting h _ => constructor <;> simp [h.awready, h.wready, h.bvalid, h.awEn]
  | pending h => constructor <;> simp [h.awready, h.wready, h.bvalid, h.awEn]

theorem WritePhase.awHandshake_eq (h : WritePhase ρ n t) (ht : t < n) :
    awHandshake ρ t = wHandshake ρ t := by
  cases h with
  | idle h => simp [awHandshake, wHandshake, h.awready, h.wready]
  | accepting h hheld => simp [awHandshake, wHandshake, h.awready, h.wready, hheld ht]
  | pending h => simp [awHandshake, wHandshake, h.awready, h.wready]

/-- No response waits in a cycle with a handshake. -/
theorem WritePhase.axiBvalid_eq (h : WritePhase ρ n t) (ha : awHandshake ρ t = true) :
    (ρ.state t).axiBvalid = false := by
  cases h with
  | idle h => exact h.bvalid
  | accepting h _ => exact h.bvalid
  | pending h => simp [awHandshake, h.awready] at ha

theorem WritePhase.axiBvalid_next (h : WritePhase ρ n t) (hreset : (ρ.input t).aresetn = true)
    (hb : (ρ.state t).axiBvalid = true) (hr : (ρ.input t).port.bready = false) :
    (ρ.state (t + 1)).axiBvalid = true := by
  rw [Machine.Run.state_succ, sAxi_next, hreset]
  cases h with
  | idle h => simp [h.bvalid] at hb
  | accepting h _ => simp [h.bvalid] at hb
  | pending h => exact (h.stay hr).1.bvalid

theorem WritePhase.ready_next (h : WritePhase ρ n t) (hreset : (ρ.input t).aresetn = true)
    (hb : (ρ.state t).axiBvalid = false) (ha : (ρ.state t).axiAwready = false)
    (haw : (ρ.input t).port.awvalid = true) (hw : (ρ.input t).port.wvalid = true) :
    (ρ.state (t + 1)).axiAwready = true ∧ (ρ.state (t + 1)).axiWready = true := by
  rw [Machine.Run.state_succ, sAxi_next, hreset]
  cases h with
  | idle h => exact ⟨(h.accept haw hw).1.awready, (h.accept haw hw).1.wready⟩
  | accepting h _ => simp [h.awready] at ha
  | pending h => simp [h.bvalid] at hb

end phases

/-! ## Writes and responses alternate -/

theorem pendingWrites_next {n t : ℕ} (hreset : (ρ.input t).aresetn = true) (ht : t < n)
    (h : WritePhase ρ n t) :
    pendingWrites (ρ.state (t + 1)) + (bHandshake ρ t).toNat =
      pendingWrites (ρ.state t) + (awHandshake ρ t).toNat := by
  simp only [pendingWrites, bHandshake, awHandshake, Machine.Run.state_succ, sAxi_next, hreset]
  cases h with
  | idle h => simp [SAxi.next, h.awready, h.bvalid]
  | accepting h hheld => simp [SAxi.next, h.awready, h.wready, h.bvalid, hheld ht]
  | pending h =>
    cases hb : (ρ.input t).port.bready <;> simp [SAxi.next, h.awready, h.bvalid, hb]

/-- From reset and with a compliant master, in every state the three processes of the
write channel are in step, the AW and the W handshake fall in the same cycle, there is one
response between two of these cycles and none too many, a response waits until it is
taken, and a channel that is idle answers an address and data. -/
theorem write_protocol (hstart : SAxiAfterReset P ρ.start) {n : ℕ}
    (hreset : ∀ t < n, (ρ.input t).aresetn = true) (hwrite : CompliantWriter ρ n) :
    (∀ t ≤ n, WriteInStep (ρ.state t)) ∧
    (∀ t < n, awHandshake ρ t = wHandshake ρ t) ∧
    (∀ t u, t < u → u < n → awHandshake ρ t = true → awHandshake ρ u = true →
      (∀ v, t < v → v < u → awHandshake ρ v = false) →
        ∃! v, (t < v ∧ v < u) ∧ bHandshake ρ v = true) ∧
    (∀ m ≤ n, tally (awHandshake ρ) m = tally (bHandshake ρ) m + pendingWrites (ρ.state m)) ∧
    (∀ t < n, (ρ.state t).axiBvalid = true → (ρ.input t).port.bready = false →
      (ρ.state (t + 1)).axiBvalid = true) ∧
    ∀ t < n, (ρ.state t).axiBvalid = false → (ρ.state t).axiAwready = false →
      (ρ.input t).port.awvalid = true → (ρ.input t).port.wvalid = true →
        (ρ.state (t + 1)).axiAwready = true ∧ (ρ.state (t + 1)).axiWready = true := by
  have hphase := writePhase hstart hreset hwrite
  have hnext : ∀ t < n, pendingWrites (ρ.state (t + 1)) + (bHandshake ρ t).toNat =
      pendingWrites (ρ.state t) + (awHandshake ρ t).toNat := fun t ht =>
    pendingWrites_next ρ (hreset t ht) ht (hphase t ht.le)
  refine ⟨fun t ht => (hphase t ht).inStep, fun t ht => (hphase t ht.le).awHandshake_eq ht,
    fun t u htu hu hat hau hnone => ?_, fun m hm => ?_,
    fun t ht => (hphase t ht.le).axiBvalid_next (hreset t ht),
    fun t ht => (hphase t ht.le).ready_next (hreset t ht)⟩
  · have hbt := (hphase t (by omega)).axiBvalid_eq hat
    have hone : pendingWrites (ρ.state (t + 1)) = 1 := by
      simpa [bHandshake, pendingWrites, hbt, hat] using hnext t (by omega)
    have hzero : pendingWrites (ρ.state u) = 0 := by
      simp [pendingWrites, (hphase u hu.le).axiBvalid_eq hau]
    exact existsUnique_response (fun t => pendingWrites (ρ.state t)) hnext htu hu.le
      hone hzero hnone
  · have hstart : pendingWrites ρ.start = 0 := by simp [pendingWrites, hstart.writeIdle.bvalid]
    have hbalance :=
      tally_balance (fun t => pendingWrites (ρ.state t)) hnext (Nat.zero_le m) hm
    simpa [hstart] using hbalance

/-- After reset, a master that keeps writing `data` to `addr` and takes the responses in the
cycles of `ready`. -/
def writerRun (addr data : BitVec 32) (ready : List ℕ) : (sAxi (firTop fun _ => 0)).Run where
  start := SAxi.zero.next (firTop fun _ => 0) false SAxiPort.idle
  input t :=
    ⟨true, ⟨addr, true, data, 15, true, decide (t ∈ ready), 0, false, false⟩⟩

theorem writerRun_spec (addr data : BitVec 32) (ready : List ℕ) (n : ℕ) :
    SAxiAfterReset (firTop fun _ => 0) (writerRun addr data ready).start ∧
      (∀ t < n, ((writerRun addr data ready).input t).aresetn = true) ∧
        CompliantWriter (writerRun addr data ready) n :=
  ⟨⟨_, _, rfl⟩, fun _ _ => rfl, fun _ _ => ⟨fun _ _ => ⟨rfl, rfl⟩, fun _ _ => ⟨rfl, rfl⟩⟩⟩

theorem write_protocol_writerRun :
    ∃! v, (1 < v ∧ v < 6) ∧ bHandshake (writerRun 4 1 [1, 4, 7]) v = true :=
  have ⟨hstart, hreset, hwrite⟩ := writerRun_spec 4 1 [1, 4, 7] 8
  (write_protocol _ hstart hreset hwrite).2.2.1 1 6 (by decide) (by decide) (by decide) (by decide)
    fun v _ _ => by interval_cases v <;> decide

end FirDemo
