import FirDemo.MockAxidma
import FirDemo.Synchronous
import FirDemo.WordBuffer

/-!
# The simulated DMA against any device

The device is arbitrary : it may never answer, answer too often, or answer after the drain.
Whatever it does, the two word counters stay within the transfer, and the drain runs from
the tick that accepts the last word (`DmaCall.drain_locals`). So the pointers stay in
their buffers, a word is presented until it is accepted, and a call that returns 0 has
accepted and received all words and has ticked 256 times since the last acceptance
(`any_device_safe`).
-/

open Synchronous

namespace FirDemo

/-- A call of `axidma_twoway_transfer` : the device with its state, and the two buffers with
their lengths in bytes. -/
structure DmaCall (σ : Type*) where
  device : Device σ
  dev : σ
  input : ℕ → BitVec 32
  output : ℕ → BitVec 32
  txLen : ℕ
  rxLen : ℕ

/-- The device after ticks with the inputs `pins`. -/
def Device.afterTicks {σ : Type*} (D : Device σ) (dev : σ) (pins : List StreamPins) : σ :=
  pins.foldl (fun dev p => D.tick (D.drive p dev)) dev

namespace DmaCall

variable {σ : Type*}

section defs

variable (c : DmaCall σ)

/-- The number of words that both buffers hold. -/
def words : ℕ :=
  transferWords c.txLen c.rxLen

/-- What the call returns. -/
def result : XferResult σ :=
  axidmaTwowayTransfer c.device c.dev (some c.input) c.txLen (some c.output) c.rxLen

/-- The locals after `i` iterations of the loop. -/
def locals (i : ℕ) : XferState σ :=
  (XferState.iterate c.device c.input c.words)^[i] (startXfer c.device c.dev c.output)

/-- The inputs of the device at tick `i`. -/
def pins (i : ℕ) : StreamPins :=
  (c.locals i).drivenPins c.input c.words

/-- Tick `i` accepts a word. -/
def took (i : ℕ) : Bool :=
  (c.locals i).took c.device c.input c.words

/-- Tick `i` receives a word. -/
def got (i : ℕ) : Bool :=
  (c.locals i).got c.device c.input c.words

/-- The indices of `input` that the first `n` iterations read. -/
def reads (n : ℕ) : List ℕ :=
  collect (whenHigh (fun i => (c.pins i).sAxisTvalid) fun i => (c.locals i).accepted) n

/-- The writes to `output` of the first `n` iterations, the index with the word. -/
def writes (n : ℕ) : List (ℕ × BitVec 32) :=
  collect (whenHigh c.got fun i =>
    ((c.locals i).received, c.device.mAxisTdata (c.locals (i + 1)).dev)) n

/-- What holds of a call of `ticks` ticks, whether it times out or not. -/
structure Safe (ticks : ℕ) : Prop where
  ticks_le : ticks ≤ 64 * c.words + 1281
  device : (c.locals ticks).dev =
    c.device.afterTicks (c.device.drive ⟨false, 0, false, true⟩ c.dev)
      ((List.range ticks).map c.pins)
  accepted : ∀ i ≤ ticks, (c.locals i).accepted ≤ c.words
  received : ∀ i ≤ ticks, (c.locals i).received ≤ c.words
  reads : ∀ j ∈ c.reads ticks, j < c.words ∧ (⟨c.txLen, c.input⟩ : WordBuffer).Holds j
  writes : (c.writes ticks).map Prod.fst = List.range (c.locals ticks).received
  stores : ∀ w ∈ c.writes ticks, (⟨c.rxLen, c.output⟩ : WordBuffer).Holds w.1
  output : (c.locals ticks).output =
    (c.writes ticks).foldl (fun out w => Function.update out w.1 w.2) c.output
  presented : ∀ i < ticks, (c.pins i).sAxisTvalid = true ↔ (c.locals i).accepted < c.words
  taken : ∀ i < ticks, c.took i = true → (c.pins i).sAxisTvalid = true
  offered : ∀ i < ticks, (c.pins i).sAxisTvalid = true →
    (c.pins i).sAxisTdata = c.input (c.locals i).accepted
  last : ∀ i < ticks, (c.pins i).sAxisTlast = true ↔
    (c.pins i).sAxisTvalid = true ∧ (c.locals i).accepted = c.words - 1
  held : ∀ i j, i ≤ j → j < ticks → (c.pins i).sAxisTvalid = true →
    (∀ k, i ≤ k → k < j → c.took k = false) →
      (c.pins j).sAxisTvalid = true ∧ (c.pins j).sAxisTdata = (c.pins i).sAxisTdata ∧
        (c.pins j).sAxisTlast = (c.pins i).sAxisTlast

/-- All words are accepted and received, and the drain is over, 256 ticks with the one that
accepted the last word. -/
structure Complete (ticks : ℕ) : Prop where
  accepted : (c.locals ticks).accepted = c.words
  received : (c.locals ticks).received = c.words
  drained : ∃ i, i + 256 ≤ ticks ∧ c.took i = true ∧ (c.locals i).accepted + 1 = c.words

end defs

variable {c : DmaCall σ}

theorem locals_succ (i : ℕ) :
    c.locals (i + 1) = (c.locals i).iterate c.device c.input c.words :=
  Function.iterate_succ_apply' _ _ _

/-! ## The counters -/

theorem accepted_succ (i : ℕ) : (c.locals (i + 1)).accepted =
    if c.took i then (c.locals i).accepted + 1 else (c.locals i).accepted := by
  rw [locals_succ]
  rfl

theorem received_succ (i : ℕ) : (c.locals (i + 1)).received =
    if c.got i then (c.locals i).received + 1 else (c.locals i).received := by
  rw [locals_succ]
  rfl

/-- A word is taken only while there is one. -/
theorem lt_of_took {i : ℕ} (h : c.took i = true) : (c.locals i).accepted < c.words :=
  of_decide_eq_true (Bool.and_eq_true_iff.1 h).1

/-- A word is received only while there is room. -/
theorem lt_of_got {i : ℕ} (h : c.got i = true) : (c.locals i).received < c.words :=
  of_decide_eq_true (Bool.and_eq_true_iff.1 h).2

/-- No more words are taken than there are. -/
theorem accepted_le (i : ℕ) : (c.locals i).accepted ≤ c.words :=
  count_le (c := fun i => (c.locals i).accepted) accepted_succ (Nat.zero_le _)
    (fun _ => lt_of_took) i

/-- No more words are received than fit. -/
theorem received_le (i : ℕ) : (c.locals i).received ≤ c.words :=
  count_le (c := fun i => (c.locals i).received) received_succ (Nat.zero_le _)
    (fun _ => lt_of_got) i

/-! ## The accesses -/

/-- Every read lies in the transmit buffer. -/
theorem lt_of_mem_reads {n j : ℕ} (hj : j ∈ c.reads n) : j < c.words := by
  induction n with
  | zero => exact absurd hj List.not_mem_nil
  | succ n ih =>
    rw [reads, collect_succ, List.mem_append] at hj
    rcases hj with hj | hj
    · exact ih hj
    · rw [Option.mem_toList, whenHigh, valid] at hj
      split_ifs at hj with hv
      · obtain rfl := Option.some.inj hj
        exact of_decide_eq_true hv

/-- The words are written in order, each place once. -/
theorem writes_fst (n : ℕ) : (c.writes n).map Prod.fst = List.range (c.locals n).received := by
  rw [writes, map_collect_whenHigh]
  exact collect_eq_range received_succ rfl n

/-- Every write lies in the receive buffer. -/
theorem lt_of_mem_writes {n : ℕ} {w : ℕ × BitVec 32} (hw : w ∈ c.writes n) :
    w.1 < c.words := by
  have hmem := List.mem_map_of_mem (f := Prod.fst) hw
  rw [writes_fst, List.mem_range] at hmem
  exact hmem.trans_le (received_le n)

/-- They are all that changes the buffer. -/
theorem output_locals (n : ℕ) : (c.locals n).output =
    (c.writes n).foldl (fun out w => Function.update out w.1 w.2) c.output := by
  induction n with
  | zero => rfl
  | succ n ih =>
    rw [writes, collect_succ, List.foldl_append, ← writes, ← ih, locals_succ]
    cases hgot : c.got n with
    | true =>
      rw [((c.locals n).iterate_of_got c.device c.input c.words hgot).2]
      simp [whenHigh, hgot, locals_succ]
    | false =>
      rw [((c.locals n).iterate_of_not_got c.device c.input c.words hgot).2]
      simp [whenHigh, hgot]

/-- The words of a transfer are in both buffers. -/
theorem holds_of_lt {j : ℕ} (h : j < c.words) : (⟨c.txLen, c.input⟩ : WordBuffer).Holds j ∧
    (⟨c.rxLen, c.output⟩ : WordBuffer).Holds j := by
  unfold words transferWords at h
  simp only [WordBuffer.Holds]
  omega

/-! ## The inputs of the device -/

/-- Every iteration is one tick of the device. -/
theorem dev_locals (n : ℕ) : (c.locals n).dev =
    c.device.afterTicks (c.device.drive ⟨false, 0, false, true⟩ c.dev)
      ((List.range n).map c.pins) := by
  induction n with
  | zero => rfl
  | succ n ih =>
    unfold Device.afterTicks at ih ⊢
    rw [List.range_succ, List.map_append, List.foldl_append, ← ih, locals_succ]
    rfl

/-- A word is presented until all are taken. -/
theorem tvalid_iff (i : ℕ) :
    (c.pins i).sAxisTvalid = true ↔ (c.locals i).accepted < c.words :=
  decide_eq_true_iff

/-- It is the next one. -/
theorem tdata_of_tvalid {i : ℕ} (h : (c.pins i).sAxisTvalid = true) :
    (c.pins i).sAxisTdata = c.input (c.locals i).accepted :=
  if_pos ((tvalid_iff i).1 h)

/-- Only the last is marked. -/
theorem tlast_iff (i : ℕ) : (c.pins i).sAxisTlast = true ↔
    (c.pins i).sAxisTvalid = true ∧ (c.locals i).accepted = c.words - 1 := by
  have hlast : (c.pins i).sAxisTlast = true ↔
      (c.locals i).accepted < c.words ∧ (c.locals i).accepted + 1 = c.words := by
    simp [pins, XferState.drivenPins]
  rw [hlast, tvalid_iff]
  omega

/-- What is presented depends on the words accepted only, so it is held until the next one. -/
theorem held_of_not_took {i j : ℕ} (hij : i ≤ j) (hnot : ∀ k, i ≤ k → k < j → c.took k = false) :
    (c.pins j).sAxisTvalid = (c.pins i).sAxisTvalid ∧
      (c.pins j).sAxisTdata = (c.pins i).sAxisTdata ∧
      (c.pins j).sAxisTlast = (c.pins i).sAxisTlast := by
  have hsame : (c.locals j).accepted = (c.locals i).accepted :=
    count_eq_of_low (c := fun i => (c.locals i).accepted) accepted_succ hij hnot
  simp [pins, XferState.drivenPins, hsame]

/-! ## The drain -/

/-- Before the last acceptance there is no drain, and after it the drain is what is left of
256 ticks, that of the acceptance counted. -/
theorem drain_locals (hwords : 0 < c.words) (n : ℕ) :
    ((c.locals n).accepted < c.words ∧ (c.locals n).drainCyclesRemaining = 0) ∨
    (c.locals n).accepted = c.words ∧ ∃ i < n, c.took i = true ∧
      (c.locals i).accepted + 1 = c.words ∧
      (c.locals n).drainCyclesRemaining = 256 - (n - i) := by
  induction n with
  | zero => exact Or.inl ⟨hwords, rfl⟩
  | succ n ih =>
    rw [accepted_succ, locals_succ]
    rcases ih with ⟨hlt, hdrain⟩ | ⟨hfull, i, hi, htook, hlast, hdrain⟩
    · by_cases hend : c.took n = true ∧ (c.locals n).accepted + 1 = c.words
      · obtain ⟨htook, hlast⟩ := hend
        refine Or.inr ⟨(if_pos htook).trans hlast, n, Nat.lt_succ_self n, htook, hlast, ?_⟩
        rw [Nat.add_sub_cancel_left]
        exact XferState.nextDrain_of_last c.device c.input htook hlast
      · refine Or.inl ⟨?_, XferState.nextDrain_of_not_last c.device c.input hend hdrain⟩
        split_ifs with htook
        · exact lt_of_le_of_ne hlt fun hlast => hend ⟨htook, hlast⟩
        · exact hlt
    · have hnot : c.took n = false := XferState.took_of_full c.device c.input hfull
      refine Or.inr ⟨by rw [hnot]; exact hfull, i, by omega, htook, hlast, ?_⟩
      calc ((c.locals n).iterate c.device c.input c.words).drainCyclesRemaining
          = (c.locals n).drainCyclesRemaining - 1 :=
            XferState.nextDrain_of_full c.device c.input hfull
        _ = 256 - (n + 1 - i) := by omega

/-! ## A call -/

/-- A run within the limit is safe. -/
theorem safe_of_le {ticks : ℕ} (h : ticks ≤ 64 * c.words + 1281) : c.Safe ticks where
  ticks_le := h
  device := dev_locals ticks
  accepted i _ := accepted_le i
  received i _ := received_le i
  reads j hj := ⟨lt_of_mem_reads hj, (holds_of_lt (lt_of_mem_reads hj)).1⟩
  writes := writes_fst ticks
  stores w hw := (holds_of_lt (lt_of_mem_writes hw)).2
  output := output_locals ticks
  presented i _ := tvalid_iff i
  taken i _ htook := (tvalid_iff i).2 (lt_of_took htook)
  offered _ _ := tdata_of_tvalid
  last i _ := tlast_iff i
  held i j hij _ hvalid hnot := by
    obtain ⟨hvalid', hdata, hlast⟩ := held_of_not_took hij hnot
    exact ⟨hvalid'.trans hvalid, hdata, hlast⟩

/-- When the loop is over, so is the drain. -/
theorem complete_of_not_running {ticks : ℕ} (hwords : 0 < c.words)
    (h : (c.locals ticks).running c.words = false) : c.Complete ticks := by
  have hle := received_le (c := c) ticks
  simp only [XferState.running, Bool.or_eq_false_iff, decide_eq_false_iff_not] at h
  obtain ⟨⟨hacc, hrec⟩, hdrain⟩ := h
  rcases drain_locals hwords ticks with ⟨hlt, -⟩ | ⟨hfull, i, hi, htook, hlast, hleft⟩
  · exact absurd hlt hacc
  · exact ⟨hfull, by omega, i, by omega, htook, hlast⟩

/-- A call with words runs the loop. -/
theorem result_of_pos (hwords : 0 < c.words) : c.result =
    let ended := (transferLoop c.device c.input c.words).run (startXfer c.device c.dev c.output)
    ⟨if ended.1 then 0 else -1, ended.2.release c.device, ended.2.output⟩ :=
  if_neg (by unfold words at hwords; omega)

/-- A call ends in an iterate of the loop, with 0 if the loop is over there. -/
theorem exists_ticks (hwords : 0 < c.words) : ∃ ticks rc, ticks ≤ 64 * c.words + 1281 ∧
    c.result = ⟨rc, (c.locals ticks).release c.device, (c.locals ticks).output⟩ ∧
    (rc = 0 → (c.locals ticks).running c.words = false) := by
  have hlimit : maxCycles c.words ≤ 64 * c.words + 1280 :=
    (Nat.mod_le _ _).trans (by rw [kDrainCycles]; omega)
  obtain ⟨ticks, hle, hrun⟩ := (transferLoop c.device c.input c.words).run_cases
    (s := startXfer c.device c.dev c.output) (Nat.zero_le _)
  have hticks : ticks ≤ maxCycles c.words + 1 := by simpa [transferLoop, startXfer] using hle
  rcases hrun with ⟨hrun, hstop⟩ | ⟨hrun, -⟩
  · exact ⟨ticks, 0, by omega, by rw [result_of_pos hwords, hrun]; rfl, fun _ => hstop⟩
  · exact ⟨ticks, -1, by omega, by rw [result_of_pos hwords, hrun]; rfl,
      fun hrc => absurd hrc (by decide)⟩

end DmaCall

/-! ## Words that are not read -/

section congr

variable {σ : Type*} {D : Device σ} {input input' : ℕ → BitVec 32} {words : ℕ}
  (h : ∀ j < words, input' j = input j)
include h

/-- The words beyond the buffer are not presented. -/
theorem drivenPins_congr (s : XferState σ) :
    s.drivenPins input' words = s.drivenPins input words := by
  have hdata : (if s.accepted < words then input' s.accepted else 0) =
      if s.accepted < words then input s.accepted else 0 := by
    split_ifs with hlt
    · exact h _ hlt
    · rfl
  rw [XferState.drivenPins, XferState.drivenPins, hdata]

/-- Nor does a cycle read them. -/
theorem iterate_congr (s : XferState σ) :
    s.iterate D input' words = s.iterate D input words := by
  have hticked : s.ticked D input' words = s.ticked D input words := by
    rw [XferState.ticked, XferState.ticked, drivenPins_congr h]
  have htook : s.took D input' words = s.took D input words := by
    rw [XferState.took, XferState.took, hticked]
  have hgot : s.got D input' words = s.got D input words := by
    rw [XferState.got, XferState.got, hticked]
  have hstarts : s.startsBackpressure D input' words = s.startsBackpressure D input words := by
    rw [XferState.startsBackpressure, XferState.startsBackpressure, hgot]
  have haccepted : s.nextAccepted D input' words = s.nextAccepted D input words := by
    rw [XferState.nextAccepted, XferState.nextAccepted, htook]
  have hreceived : s.nextReceived D input' words = s.nextReceived D input words := by
    rw [XferState.nextReceived, XferState.nextReceived, hgot]
  have hbackpressure : s.nextBackpressure D input' words = s.nextBackpressure D input words := by
    rw [XferState.nextBackpressure, XferState.nextBackpressure, hstarts]
  have hdrain : s.nextDrain D input' words = s.nextDrain D input words := by
    rw [XferState.nextDrain, XferState.nextDrain, htook, haccepted]
  have houtput : s.nextOutput D input' words = s.nextOutput D input words := by
    rw [XferState.nextOutput, XferState.nextOutput, hgot, hticked]
  rw [XferState.iterate, XferState.iterate, hticked, drivenPins_congr h, hstarts, haccepted,
    hreceived, hbackpressure, hdrain, houtput]

/-- Nor does the loop. -/
theorem transferLoop_congr : transferLoop D input' words = transferLoop D input words := by
  have hbody : (fun s : XferState σ => s.iterate D input' words) =
      fun s => s.iterate D input words := funext (iterate_congr h)
  unfold transferLoop
  simp only [hbody]

end congr

/-! ## Safety against any device -/

/-- Whatever the device does, a call ends within `64 * words + 1281` ticks and is safe. If it
returns 0, it is complete. No word of the input beyond the transfer matters. Without words to
transfer, it returns 0 and does nothing. -/
theorem any_device_safe {σ : Type*} (c : DmaCall σ) :
    (c.words = 0 → c.result = ⟨0, c.dev, c.output⟩) ∧
    (0 < c.words → ∃ ticks, c.Safe ticks ∧
      c.result.dev = (c.locals ticks).release c.device ∧
      c.result.output = (c.locals ticks).output ∧
      (c.result.rc = 0 → c.Complete ticks)) ∧
    ∀ input', (∀ j < c.words, input' j = c.input j) →
      { c with input := input' }.result = c.result := by
  refine ⟨axidmaTwowayTransfer_of_empty c.device c.dev c.input c.output, fun hwords => ?_,
    fun input' h => ?_⟩
  · obtain ⟨ticks, rc, hle, hresult, hstop⟩ := DmaCall.exists_ticks hwords
    rw [hresult]
    exact ⟨ticks, DmaCall.safe_of_le hle, rfl, rfl,
      fun hrc => DmaCall.complete_of_not_running hwords (hstop hrc)⟩
  · have hloop : transferLoop c.device input' (transferWords c.txLen c.rxLen) =
        transferLoop c.device c.input (transferWords c.txLen c.rxLen) := transferLoop_congr h
    simp only [DmaCall.result, axidmaTwowayTransfer, hloop]

/-- The device whose outputs after `n` ticks are given, whatever its inputs are. -/
def sequenceDevice (ready valid : ℕ → Bool) (data : ℕ → BitVec 32) : Device ℕ where
  drive _ n := n
  tick n := n + 1
  sAxisTready := ready
  mAxisTvalid := valid
  mAxisTdata := data

/-- One word to a device that is always ready and valid. -/
def readyCall : DmaCall ℕ where
  device := sequenceDevice (fun _ => true) (fun _ => true) (BitVec.ofNat 32)
  dev := 0
  input _ := 7
  output _ := 0
  txLen := 4
  rxLen := 6

/-- A device that always takes and gives words. -/
theorem readyCall_complete :
    readyCall.result.rc = 0 ∧ ∃ ticks, readyCall.Safe ticks ∧ readyCall.Complete ticks := by
  have hrc : readyCall.result.rc = 0 := by
    -- The first tick accepts the word and receives one, and then the drain ends the loop.
    have hfull : ((startXfer readyCall.device readyCall.dev readyCall.output).iterate
        readyCall.device readyCall.input readyCall.words).Full readyCall.words 255 := by
      constructor <;> decide
    obtain ⟨last, hrun, -⟩ :=
      hfull.run_of_iterate readyCall.device readyCall.input (by decide) (by decide)
    rw [DmaCall.result_of_pos (by decide), hrun]
    rfl
  obtain ⟨ticks, hsafe, -, -, hcomplete⟩ := (any_device_safe readyCall).2.1 (by decide)
  exact ⟨hrc, ticks, hsafe, hcomplete hrc⟩

end FirDemo
