import FirDemo.WatchdogLoop
import Mathlib.Algebra.Group.Nat.Defs
import Mathlib.Data.Int.Notation
import Mathlib.Logic.Function.Basic

/-!
# The simulated DMA

`axidma_twoway_transfer` of `mock_axidma.cpp` feeds the words of the transmit buffer to
the stream input of a device and stores what its stream output shows. It reads the
outputs after the rising edge, with the inputs it set before it, and holds
`m_axis_tready` low for some cycles once four words are received.

The device is any state with a tick (`Device`). `XferState` is the locals of the function
with the four inputs it drives, and one iteration of its loop is the functions below in
the order of the source. Sizes are `size_t` : the counters stay far below `2 ^ 64`, only
the cycle limit wraps (`maxCycles`).
-/

namespace FirDemo

/-- The inputs of `top` that the mock drives. -/
structure StreamPins where
  sAxisTvalid : Bool
  sAxisTdata : BitVec 32
  sAxisTlast : Bool
  mAxisTready : Bool

/-- A device under test : its inputs are assigned, a tick applies them at one rising edge,
and its outputs are read. -/
structure Device (σ : Type*) where
  drive : StreamPins → σ → σ
  tick : σ → σ
  sAxisTready : σ → Bool
  mAxisTvalid : σ → Bool
  mAxisTdata : σ → BitVec 32

/-- The locals of `axidma_twoway_transfer` with the receive buffer, the device and the
inputs driven last. -/
structure XferState (σ : Type*) where
  dev : σ
  pins : StreamPins
  accepted : ℕ
  received : ℕ
  cycles : ℕ
  backpressureCycles : ℕ
  drainCyclesRemaining : ℕ
  output : ℕ → BitVec 32

/-- `kDrainCycles`. -/
def kDrainCycles : ℕ := 256

/-- `kBackpressureStart`. -/
def kBackpressureStart : ℕ := 4

/-- `kBackpressureLength`. -/
def kBackpressureLength : ℕ := 10

/-- `max_cycles`, in `size_t` arithmetic. -/
def maxCycles (transferWords : ℕ) : ℕ :=
  (transferWords * 64 + 1024 + kDrainCycles) % 2 ^ 64

/-- `transfer_words` of two lengths in bytes. -/
def transferWords (txLen rxLen : ℕ) : ℕ :=
  min (txLen / 4) (rxLen / 4)

namespace XferState

variable {σ : Type*} (D : Device σ) (input : ℕ → BitVec 32) (words : ℕ) (s : XferState σ)

/-- The condition of the `while`. -/
def running : Bool :=
  decide (s.accepted < words) || decide (s.received < words) ||
    decide (0 < s.drainCyclesRemaining)

/-- The inputs for the tick. -/
def drivenPins : StreamPins where
  sAxisTvalid := decide (s.accepted < words)
  sAxisTdata := if s.accepted < words then input s.accepted else 0
  sAxisTlast := decide (s.accepted < words) && decide (s.accepted + 1 = words)
  mAxisTready := decide (s.backpressureCycles = 0)

/-- The device after the tick. -/
def ticked : σ :=
  D.tick (D.drive (s.drivenPins input words) s.dev)

/-- `top->s_axis_tvalid && top->s_axis_tready`, after the tick. -/
def took : Bool :=
  decide (s.accepted < words) && D.sAxisTready (s.ticked D input words)

/-- `top->m_axis_tvalid && top->m_axis_tready && received < transfer_words`, after the
tick. -/
def got : Bool :=
  D.mAxisTvalid (s.ticked D input words) && decide (s.backpressureCycles = 0) &&
    decide (s.received < words)

/-- `accepted` after the cycle. -/
def nextAccepted : ℕ :=
  if s.took D input words then s.accepted + 1 else s.accepted

/-- `received` after the cycle. -/
def nextReceived : ℕ :=
  if s.got D input words then s.received + 1 else s.received

/-- The word received completes the first `kBackpressureStart`. -/
def startsBackpressure : Bool :=
  s.got D input words && decide (s.received + 1 = kBackpressureStart) &&
    decide (s.backpressureCycles = 0)

/-- `drain_cycles_remaining` after the acceptance and after the decrement. -/
def nextDrain : ℕ :=
  let drain :=
    if s.took D input words && decide (s.accepted + 1 = words) then kDrainCycles
    else s.drainCyclesRemaining
  if words ≤ s.nextAccepted D input words ∧ 0 < drain then drain - 1 else drain

/-- `backpressure_cycles` after the reception and after the decrement. -/
def nextBackpressure : ℕ :=
  let backpressure :=
    if s.startsBackpressure D input words then kBackpressureLength else s.backpressureCycles
  if 0 < backpressure then backpressure - 1 else backpressure

/-- `rx_words` after the cycle. -/
def nextOutput : ℕ → BitVec 32 :=
  if s.got D input words then
    Function.update s.output s.received (D.mAxisTdata (s.ticked D input words))
  else s.output

/-- One iteration of the loop, with `++cycles`. -/
def iterate : XferState σ where
  dev := s.ticked D input words
  pins :=
    if s.startsBackpressure D input words then
      { s.drivenPins input words with mAxisTready := false }
    else s.drivenPins input words
  accepted := s.nextAccepted D input words
  received := s.nextReceived D input words
  cycles := s.cycles + 1
  backpressureCycles := s.nextBackpressure D input words
  drainCyclesRemaining := s.nextDrain D input words
  output := s.nextOutput D input words

/-- A word received goes to the next place of the buffer, and nothing else changes there. -/
theorem iterate_of_got (h : s.got D input words = true) :
    (s.iterate D input words).received = s.received + 1 ∧
      (s.iterate D input words).output =
        Function.update s.output s.received (D.mAxisTdata (s.iterate D input words).dev) := by
  simp [iterate, nextReceived, nextOutput, h]

theorem iterate_of_not_got (h : s.got D input words = false) :
    (s.iterate D input words).received = s.received ∧
      (s.iterate D input words).output = s.output := by
  simp [iterate, nextReceived, nextOutput, h]

/-- A word received stays in the buffer. -/
theorem output_iterate_of_lt {j : ℕ} (hj : j < s.received) :
    (s.iterate D input words).output j = s.output j := by
  cases h : s.got D input words with
  | true => rw [(s.iterate_of_got D input words h).2, Function.update_of_ne (by omega)]
  | false => rw [(s.iterate_of_not_got D input words h).2]

/-- What is not written keeps its value. -/
theorem output_iterate_of_le {j : ℕ} (hj : (s.iterate D input words).received ≤ j) :
    s.received ≤ j ∧ (s.iterate D input words).output j = s.output j := by
  cases h : s.got D input words with
  | true =>
    obtain ⟨hrec, hout⟩ := s.iterate_of_got D input words h
    exact ⟨by omega, by rw [hout, Function.update_of_ne (by omega)]⟩
  | false =>
    obtain ⟨hrec, hout⟩ := s.iterate_of_not_got D input words h
    exact ⟨by omega, by rw [hout]⟩

/-- Once all words are accepted, no more is. -/
theorem took_of_full {s : XferState σ} {words : ℕ} (h : s.accepted = words) :
    s.took D input words = false := by
  simp [took, h]

/-- The iteration that accepts the last word starts the drain and counts it down. -/
theorem nextDrain_of_last {s : XferState σ} {words : ℕ} (htook : s.took D input words = true)
    (hlast : s.accepted + 1 = words) : s.nextDrain D input words = kDrainCycles - 1 := by
  simp [nextDrain, nextAccepted, htook, hlast, kDrainCycles]

/-- No other iteration starts it. -/
theorem nextDrain_of_not_last {s : XferState σ} {words : ℕ}
    (h : ¬(s.took D input words = true ∧ s.accepted + 1 = words))
    (hdrain : s.drainCyclesRemaining = 0) : s.nextDrain D input words = 0 := by
  have hend : (s.took D input words && decide (s.accepted + 1 = words)) = false := by
    simpa using h
  simp [nextDrain, hend, hdrain]

/-- Then every iteration counts it down. -/
theorem nextDrain_of_full {s : XferState σ} {words : ℕ} (h : s.accepted = words) :
    s.nextDrain D input words = s.drainCyclesRemaining - 1 := by
  have hacc : s.nextAccepted D input words = words := by
    rw [nextAccepted, took_of_full D input h, h]
    rfl
  simp only [nextDrain, took_of_full D input h, hacc, Bool.false_and, Bool.false_eq_true, if_false]
  split <;> omega

/-- All words are accepted and received, and the drain is going on. -/
structure Full (remaining : ℕ) : Prop where
  accepted : s.accepted = words
  received : s.received = words
  drainCyclesRemaining : s.drainCyclesRemaining = remaining

/-- Then an iteration counts the drain down. -/
theorem Full.iterate {s : XferState σ} {remaining : ℕ} (h : s.Full words remaining) :
    (s.iterate D input words).Full words (remaining - 1) ∧
      (s.iterate D input words).output = s.output := by
  have htook : s.took D input words = false := took_of_full D input h.accepted
  have hgot : s.got D input words = false := by simp [got, h.received]
  have hacc : s.nextAccepted D input words = words := by simp [nextAccepted, htook, h.accepted]
  obtain ⟨hrec, hout⟩ := s.iterate_of_not_got D input words hgot
  refine ⟨⟨hacc, hrec.trans h.received, ?_⟩, hout⟩
  exact (nextDrain_of_full D input h.accepted).trans (by rw [h.drainCyclesRemaining])

theorem Full.iterates {s : XferState σ} {remaining : ℕ} (h : s.Full words remaining) (n : ℕ) :
    ((XferState.iterate D input words)^[n] s).Full words (remaining - n) ∧
      ((XferState.iterate D input words)^[n] s).output = s.output := by
  refine WatchdogLoop.iterate_of_step
    (I := fun n (s' : XferState σ) => s'.Full words (remaining - n) ∧ s'.output = s.output)
    ⟨h, rfl⟩ ?_ n
  rintro n s' ⟨hfull, hout⟩
  obtain ⟨hfull', hout'⟩ := hfull.iterate D input words
  exact ⟨hfull', hout'.trans hout⟩

/-- The loop goes on while the drain does. -/
theorem Full.running_iff {s : XferState σ} {words remaining : ℕ} (h : s.Full words remaining) :
    s.running words = true ↔ 0 < remaining := by
  simp [running, h.accepted, h.received, h.drainCyclesRemaining]

/-- The inputs are taken back before the function returns. -/
def release : σ :=
  D.drive { s.pins with sAxisTvalid := false, sAxisTlast := false, mAxisTready := false } s.dev

end XferState

/-- What a call leaves : its return code, the device and the receive buffer. -/
structure XferResult (σ : Type*) where
  rc : ℤ
  dev : σ
  output : ℕ → BitVec 32

section transfer

variable {σ : Type*} (D : Device σ)

/-- The loop of `axidma_twoway_transfer`. -/
def transferLoop (input : ℕ → BitVec 32) (words : ℕ) : WatchdogLoop (XferState σ) where
  running s := s.running words
  body s := s.iterate D input words
  cycles s := s.cycles
  limit := maxCycles words
  cycles_body _ := rfl

/-- The locals before the loop. -/
def startXfer (dev : σ) (output : ℕ → BitVec 32) : XferState σ where
  dev := D.drive ⟨false, 0, false, true⟩ dev
  pins := ⟨false, 0, false, true⟩
  accepted := 0
  received := 0
  cycles := 0
  backpressureCycles := 0
  drainCyclesRemaining := 0
  output := output

/-- The drain ends the loop, if the limit allows, and the buffer stays as it is. -/
theorem XferState.Full.run (input : ℕ → BitVec 32) {words remaining : ℕ} {s : XferState σ}
    (h : s.Full words remaining) (hlimit : s.cycles + remaining ≤ maxCycles words) :
    ∃ last, (transferLoop D input words).run s = (true, last) ∧ last.output = s.output := by
  refine ⟨_, WatchdogLoop.run_of_stop _ (fun j hj => ?_) hlimit ?_, (h.iterates D input _ _).2⟩
  · exact (h.iterates D input _ j).1.running_iff.2 (by omega)
  · exact Bool.eq_false_iff.2 fun hgo => by
      have := (h.iterates D input _ remaining).1.running_iff.1 hgo
      omega

/-- The same of a transfer that is full after its next iteration. -/
theorem XferState.Full.run_of_iterate (input : ℕ → BitVec 32) {words remaining : ℕ}
    {s : XferState σ} (hrunning : s.running words = true)
    (h : (s.iterate D input words).Full words remaining)
    (hlimit : s.cycles + 1 + remaining ≤ maxCycles words) :
    ∃ last, (transferLoop D input words).run s = (true, last) ∧
      last.output = (s.iterate D input words).output := by
  obtain ⟨last, hrun, hout⟩ := h.run D input hlimit
  have hfirst : (transferLoop D input words).run s =
      (transferLoop D input words).run (s.iterate D input words) :=
    WatchdogLoop.run_of_running _ hrunning (show s.cycles < maxCycles words by omega)
  exact ⟨last, hfirst.trans hrun, hout⟩

/-- `axidma_twoway_transfer`. A buffer is `none` when its pointer is null. -/
def axidmaTwowayTransfer (dev : σ) (txBuf : Option (ℕ → BitVec 32)) (txLen : ℕ)
    (rxBuf : Option (ℕ → BitVec 32)) (rxLen : ℕ) : XferResult σ :=
  match txBuf, rxBuf with
  | some input, some output =>
    if transferWords txLen rxLen = 0 then ⟨0, dev, output⟩
    else
      let ended := (transferLoop D input (transferWords txLen rxLen)).run (startXfer D dev output)
      ⟨if ended.1 then 0 else -1, ended.2.release D, ended.2.output⟩
  | _, rxBuf => ⟨-1, dev, rxBuf.getD fun _ => 0⟩

theorem axidmaTwowayTransfer_of_empty (dev : σ) (input output : ℕ → BitVec 32) {txLen rxLen : ℕ}
    (h : transferWords txLen rxLen = 0) :
    axidmaTwowayTransfer D dev (some input) txLen (some output) rxLen = ⟨0, dev, output⟩ := by
  rw [axidmaTwowayTransfer, if_pos h]

theorem axidmaTwowayTransfer_rc (dev : σ) (txBuf : Option (ℕ → BitVec 32)) (txLen : ℕ)
    (rxBuf : Option (ℕ → BitVec 32)) (rxLen : ℕ) :
    (axidmaTwowayTransfer D dev txBuf txLen rxBuf rxLen).rc = 0 ∨
      (axidmaTwowayTransfer D dev txBuf txLen rxBuf rxLen).rc = -1 := by
  unfold axidmaTwowayTransfer
  split
  · split
    · exact Or.inl rfl
    · dsimp only
      split
      · exact Or.inl rfl
      · exact Or.inr rfl
  · exact Or.inr rfl

end transfer

end FirDemo
