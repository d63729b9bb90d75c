import FirDemo.SimBackend
import FirDemo.Strtol
import FirDemo.WordBuffer

/-!
# The demo

`main.cpp` takes a sample count from the command line, programs the filter, sizes two
buffers and lets `transfer_and_verify` fill one with a ramp, transfer it and compare what
came back. `int` is `BitVec 32`, `long` is `BitVec 64`. A run that accesses a word outside
its buffer has no result.

The count is checked as a `long`, then narrowed to `int` and multiplied by 4 in `int`. The
buffers hold the words that the loops use exactly when the value is less than `2 ^ 29`
(`buffers_fit_iff`).
-/

namespace FirDemo

/-- Without an argument. -/
def kDefaultSampleCount : BitVec 32 := 32

/-- The samples by which the output lags. -/
def kPipelineLatency : ℕ := 0

/-- The line that is printed where the argument is refused. -/
def usage (program : List Char) : String :=
  "Usage: " ++ String.ofList program ++ " [sample_count>0]\n"

/-- The `sample_count` of `main`, from `argv`. -/
def readSampleCount : List (List Char) → Except String (BitVec 32)
  | program :: arg :: _ =>
    let parsed := strtol arg
    if parsed.rest = arg ∨ parsed.rest ≠ [] ∨ parsed.value.sle 0 = true then .error (usage program)
    else .ok (parsed.value.setWidth 32)
  | _ => .ok kDefaultSampleCount

/-- The sizes of `struct dma_transfer`. -/
structure DmaTransfer where
  inputSize : BitVec 32
  outputSize : BitVec 32

/-- The descriptor that `main` builds. -/
def buildTransfer (sampleCount : BitVec 32) : DmaTransfer where
  inputSize := sampleCount * 4
  outputSize := sampleCount * 4

/-- The conversion of an `int` to `size_t`. -/
def toSizeT (n : BitVec 32) : ℕ :=
  (n.signExtend 64).toNat

/-- The iterations of `for (int i = 0; i < sample_count; ++i)`. -/
def loopCount (sampleCount : BitVec 32) : ℕ :=
  sampleCount.toInt.toNat

/-! ## `transfer_and_verify` -/

/-- Whether `axidma_init` gets its handle, and what `malloc` gives for the two buffers, by
size. -/
structure Heap where
  axidmaDev : Bool
  input : ℕ → Option (ℕ → BitVec 32)
  output : ℕ → Option (ℕ → BitVec 32)

/-- A buffer of the size, if it is not empty and there is memory. -/
def axidmaMalloc (malloc : ℕ → Option (ℕ → BitVec 32)) (size : ℕ) : Option WordBuffer :=
  if size = 0 then none else (malloc size).map (WordBuffer.mk size)

/-- `tx[i] = i`. -/
def fillRamp (sampleCount : BitVec 32) (tx : WordBuffer) : Option WordBuffer :=
  countedLoop (fun tx i => tx.store i (BitVec.ofNat 32 i)) (loopCount sampleCount) tx

/-- `FAIL: output[index] = actual, expected expected`. -/
structure FailLine where
  index : ℕ
  actual : BitVec 32
  expected : BitVec 32

/-- The verification loop. -/
def verifySamples (sampleCount : BitVec 32) (rx : WordBuffer) : Option (List FailLine) :=
  countedLoop
    (fun fails i => (rx.load i).map fun actual =>
      let expected := BitVec.ofNat 32 (i + kPipelineLatency)
      if actual ≠ expected then fails ++ [⟨i, actual, expected⟩] else fails)
    (loopCount sampleCount) []

/-- A line of `dump_buffers`, marked when it shows a difference. -/
structure DumpLine where
  index : ℕ
  input : BitVec 32
  expected : BitVec 32
  actual : BitVec 32
  marked : Bool

/-- `dump_buffers`. -/
def dumpBuffers (tx rx : WordBuffer) (sampleCount : BitVec 32) : Option (List DumpLine) :=
  countedLoop
    (fun lines i =>
      (tx.load (i + kPipelineLatency)).bind fun expected =>
        (tx.load i).bind fun input =>
          (rx.load i).map fun actual =>
            lines ++ [⟨i, input, expected, actual, decide (actual ≠ expected)⟩])
    (loopCount sampleCount) []

/-- What `transfer_and_verify` returns and prints, with the transfer it issued. -/
structure Verification (σ : Type*) where
  rc : ℤ
  transfer : Option (XferResult σ)
  error : Option String
  fails : List FailLine
  dump : List DumpLine

section verify

variable {σ : Type*} (D : Device σ)

/-- `transfer_and_verify` after the transfer. -/
def verifyTransfer (sampleCount : BitVec 32) (tx rx : WordBuffer) (result : XferResult σ) :
    Option (Verification σ) :=
  if result.rc < 0 then
    (dumpBuffers tx rx sampleCount).map fun dump =>
      ⟨result.rc, some result, some "Error: AXI DMA two-way transfer failed.\n", [], dump⟩
  else
    (verifySamples sampleCount rx).bind fun fails =>
      if fails.isEmpty then some ⟨result.rc, some result, none, [], []⟩
      else
        (dumpBuffers tx rx sampleCount).map fun dump => ⟨-1, some result, none, fails, dump⟩

/-- `transfer_and_verify`. -/
def transferAndVerify (dev : σ) (heap : Heap) (trans : DmaTransfer) (sampleCount : BitVec 32) :
    Option (Verification σ) :=
  match axidmaMalloc heap.input (toSizeT trans.inputSize) with
  | none => some ⟨-1, none, some "Error: failed to allocate input DMA buffer.\n", [], []⟩
  | some inputBuf =>
    match axidmaMalloc heap.output (toSizeT trans.outputSize) with
    | none => some ⟨-1, none, some "Error: failed to allocate output DMA buffer.\n", [], []⟩
    | some outputBuf =>
      (fillRamp sampleCount inputBuf).bind fun tx =>
        let result :=
          axidmaTwowayTransfer D dev (some tx.word) (toSizeT trans.inputSize)
            (some outputBuf.clear.word) (toSizeT trans.outputSize)
        verifyTransfer sampleCount tx { outputBuf with word := result.output } result

/-- `EXIT_FAILURE`. -/
def exitFailure : ℤ := 1

/-- `main` of the simulation build, its exit status. -/
def main (P : Params) (regs : MyFir) (heap : Heap) (argv : List (List Char)) : Option ℤ :=
  match readSampleCount argv with
  | .error _ => some exitFailure
  | .ok sampleCount =>
    match simStart P regs with
    | none => some exitFailure
    | some top =>
      if heap.axidmaDev then
        (transferAndVerify (simDevice P) top heap (buildTransfer sampleCount) sampleCount).map
          fun v => if v.rc < 0 then exitFailure else 0
      else some exitFailure

end verify

/-! ## The loops in their buffers -/

section loops

variable {sampleCount : BitVec 32} {tx rx : WordBuffer}

/-- A ramp over the first `n` words. -/
def ramp (n : ℕ) (word : ℕ → BitVec 32) (j : ℕ) : BitVec 32 :=
  if j < n then BitVec.ofNat 32 j else word j

/-- A ramp grows by one word. -/
theorem update_ramp (n : ℕ) (word : ℕ → BitVec 32) :
    Function.update (ramp n word) n (BitVec.ofNat 32 n) = ramp (n + 1) word := by
  funext j
  unfold ramp
  rcases Nat.lt_trichotomy j n with hlt | rfl | hgt
  · rw [Function.update_of_ne (Nat.ne_of_lt hlt), if_pos hlt, if_pos (Nat.lt_succ_of_lt hlt)]
  · rw [Function.update_self, if_pos (Nat.lt_succ_self j)]
  · rw [Function.update_of_ne (Nat.ne_of_gt hgt), if_neg (by omega), if_neg (by omega)]

/-- A ramp of no words. -/
theorem ramp_zero (word : ℕ → BitVec 32) : ramp 0 word = word :=
  funext fun _ => if_neg (Nat.not_lt_zero _)

/-- The transmit buffer after `n` iterations. -/
def rampBuffer (tx : WordBuffer) (n : ℕ) : WordBuffer :=
  { tx with word := ramp n tx.word }

/-- One round of the first loop. -/
theorem fillRamp_step (n : ℕ) (h : tx.Holds n) :
    (rampBuffer tx n).store n (BitVec.ofNat 32 n) = some (rampBuffer tx (n + 1)) := by
  have hstore := WordBuffer.store_of_holds (b := rampBuffer tx n) h (BitVec.ofNat 32 n)
  rw [hstore, rampBuffer, update_ramp, rampBuffer]

/-- A buffer before the loop. -/
theorem rampBuffer_zero (tx : WordBuffer) : rampBuffer tx 0 = tx := by
  rw [rampBuffer, ramp_zero]

/-- The buffer holds the ramp if it holds its words. -/
theorem fillRamp_eq (h : ∀ i < loopCount sampleCount, tx.Holds i) :
    fillRamp sampleCount tx = some (rampBuffer tx (loopCount sampleCount)) :=
  countedLoop_eq_some (rampBuffer tx) (rampBuffer_zero tx) fun i hi => fillRamp_step i (h i hi)

/-- The first word outside the buffer ends the run. -/
theorem fillRamp_eq_none {k : ℕ} (h : ∀ i < k, tx.Holds i) (hk : ¬tx.Holds k)
    (hcount : k < loopCount sampleCount) : fillRamp sampleCount tx = none :=
  countedLoop_eq_none (rampBuffer tx) (rampBuffer_zero tx) (fun i hi => fillRamp_step i (h i hi))
    (WordBuffer.store_of_not_holds (b := rampBuffer tx k) hk _) hcount

/-- The lines of the verification loop for the first `n` words. -/
def failLines (rx : WordBuffer) (n : ℕ) : List FailLine :=
  ((List.range n).filter fun i => rx.word i ≠ BitVec.ofNat 32 (i + kPipelineLatency)).map fun i =>
    ⟨i, rx.word i, BitVec.ofNat 32 (i + kPipelineLatency)⟩

/-- The lines are those of the words that differ. -/
theorem verifySamples_eq (h : ∀ i < loopCount sampleCount, rx.Holds i) :
    verifySamples sampleCount rx = some (failLines rx (loopCount sampleCount)) := by
  refine countedLoop_eq_some (failLines rx) rfl fun i hi => ?_
  rw [WordBuffer.load_of_holds (h i hi), Option.map_some, failLines, failLines, List.range_succ,
    List.filter_append, List.map_append]
  by_cases heq : rx.word i = BitVec.ofNat 32 (i + kPipelineLatency) <;> simp [heq]

/-- No line is printed exactly if the buffer holds the ramp. -/
theorem failLines_eq_nil_iff {n : ℕ} :
    failLines rx n = [] ↔ ∀ i < n, rx.word i = BitVec.ofNat 32 i := by
  simp [failLines, List.filter_eq_nil_iff, kPipelineLatency]

/-- A line for each sample. -/
theorem dumpBuffers_eq (htx : ∀ i < loopCount sampleCount, tx.Holds (i + kPipelineLatency))
    (hrx : ∀ i < loopCount sampleCount, rx.Holds i) :
    dumpBuffers tx rx sampleCount =
      some ((List.range (loopCount sampleCount)).map fun i =>
        ⟨i, tx.word i, tx.word (i + kPipelineLatency), rx.word i,
          decide (rx.word i ≠ tx.word (i + kPipelineLatency))⟩) := by
  refine countedLoop_eq_some (fun n => (List.range n).map _) rfl fun i hi => ?_
  rw [WordBuffer.load_of_holds (htx i hi), Option.bind_some,
    WordBuffer.load_of_holds ((htx i hi).mono (Nat.le_add_right i _)), Option.bind_some,
    WordBuffer.load_of_holds (hrx i hi), Option.map_some, List.range_succ, List.map_append]
  rfl

/-- Inside its buffers `transfer_and_verify` reports success exactly when the transfer did
and every word came back. -/
theorem verifyTransfer_eq {σ : Type*} (result : XferResult σ)
    (htx : ∀ i < loopCount sampleCount, tx.Holds (i + kPipelineLatency))
    (hrx : ∀ i < loopCount sampleCount, rx.Holds i) :
    ∃ v, verifyTransfer sampleCount tx rx result = some v ∧ v.transfer = some result ∧
      (v.rc = result.rc ∨ v.rc = -1) ∧
      (v.rc = 0 ↔
        result.rc = 0 ∧ ∀ i < loopCount sampleCount, rx.word i = BitVec.ofNat 32 i) := by
  rw [verifyTransfer, verifySamples_eq hrx, dumpBuffers_eq htx hrx, ← failLines_eq_nil_iff]
  by_cases hrc : result.rc < 0
  · rw [if_pos hrc]
    exact ⟨_, rfl, rfl, Or.inl rfl, fun h => absurd h (Int.ne_of_lt hrc),
      fun h => absurd h.1 (Int.ne_of_lt hrc)⟩
  · rw [if_neg hrc, Option.bind_some]
    by_cases hfails : failLines rx (loopCount sampleCount) = []
    · rw [if_pos (List.isEmpty_iff.2 hfails)]
      exact ⟨_, rfl, rfl, Or.inl rfl, fun h => ⟨h, hfails⟩, fun h => h.1⟩
    · rw [if_neg fun h => hfails (List.isEmpty_iff.1 h)]
      exact ⟨_, rfl, rfl, Or.inr rfl, fun h => absurd h (show (-1 : ℤ) ≠ 0 by decide),
        fun h => absurd h.2 hfails⟩

end loops

/-! ## The sizes of the buffers -/

/-- The indices of the words that the loops use. -/
def usedIndices (sampleCount : BitVec 32) : List ℕ :=
  (List.range (loopCount sampleCount)).flatMap fun i => [i, i + kPipelineLatency]

/-- The count is the value, the sizes are four bytes a sample, and the words that the loops
use are in the buffers allocated. -/
structure BuffersFit (value : BitVec 64) (sampleCount : BitVec 32) (trans : DmaTransfer) :
    Prop where
  count_eq : sampleCount.toInt = value.toInt
  count_pos : 0 < sampleCount.toInt
  inputSize_eq : trans.inputSize.toInt = 4 * sampleCount.toInt
  outputSize_eq : trans.outputSize.toInt = 4 * sampleCount.toInt
  fits : ∀ i ∈ usedIndices sampleCount,
    4 * i + 4 ≤ toSizeT trans.inputSize ∧ 4 * i + 4 ≤ toSizeT trans.outputSize

/-- The loops use the indices below the count. -/
theorem mem_usedIndices {sampleCount : BitVec 32} {i : ℕ} :
    i ∈ usedIndices sampleCount ↔ i < loopCount sampleCount := by
  simp [usedIndices, kPipelineLatency]

/-- A count that is not negative is no larger as a `size_t`. -/
theorem toSizeT_of_lt {n : BitVec 32} (h : n.toNat < 2 ^ 31) : toSizeT n = n.toNat := by
  have hmsb : n.msb = false := by
    rw [BitVec.msb_eq_decide]
    exact decide_eq_false (by omega)
  rw [toSizeT, BitVec.toNat_signExtend, hmsb, BitVec.toNat_setWidth]
  simp only [Bool.false_eq_true, if_false]
  omega

/-- Nor as an `int`. -/
theorem toInt_of_lt {n : BitVec 32} (h : n.toNat < 2 ^ 31) : n.toInt = n.toNat := by
  rw [BitVec.toInt_eq_toNat_cond, if_pos (by omega)]

/-- The sizes of less than `2 ^ 29` samples are exact. -/
theorem toNat_mul_four {n : BitVec 32} (h : n.toNat < 2 ^ 29) : (n * 4).toNat = 4 * n.toNat := by
  have hfour : (4 : BitVec 32).toNat = 4 := rfl
  rw [BitVec.toNat_mul, hfour]
  omega

/-- Four bytes for each sample, where the product does not wrap. -/
theorem buildTransfer_sizes {sampleCount : BitVec 32} (h : sampleCount.toNat < 2 ^ 29) :
    toSizeT (buildTransfer sampleCount).inputSize = 4 * sampleCount.toNat ∧
      toSizeT (buildTransfer sampleCount).outputSize = 4 * sampleCount.toNat := by
  have hmul := toNat_mul_four h
  have hsize := toSizeT_of_lt (n := sampleCount * 4) (by omega)
  exact ⟨hsize.trans hmul, hsize.trans hmul⟩

/-- The loops run once for each sample. -/
theorem loopCount_of_lt {sampleCount : BitVec 32} (h : sampleCount.toNat < 2 ^ 31) :
    loopCount sampleCount = sampleCount.toNat := by
  rw [loopCount, toInt_of_lt h, Int.toNat_natCast]

/-- Every word that is used lies in both buffers. -/
theorem buildTransfer_fits {sampleCount : BitVec 32} (h : sampleCount.toNat < 2 ^ 29) :
    ∀ i ∈ usedIndices sampleCount,
      4 * i + 4 ≤ toSizeT (buildTransfer sampleCount).inputSize ∧
        4 * i + 4 ≤ toSizeT (buildTransfer sampleCount).outputSize := by
  intro i hi
  have hsizes := buildTransfer_sizes h
  rw [mem_usedIndices, loopCount_of_lt (by omega)] at hi
  omega

/-- A string is accepted when it is a positive `long` and nothing after it. -/
theorem readSampleCount_eq_ok {program arg : List Char} {more : List (List Char)}
    {sampleCount : BitVec 32} :
    readSampleCount (program :: arg :: more) = .ok sampleCount ↔
      (strtol arg).rest ≠ arg ∧ (strtol arg).rest = [] ∧ 0 < (strtol arg).value.toInt ∧
        (strtol arg).value.setWidth 32 = sampleCount := by
  have hsle : (strtol arg).value.sle 0 = true ↔ (strtol arg).value.toInt ≤ 0 :=
    BitVec.sle_iff_toInt_le
  simp only [readSampleCount, hsle]
  split
  · next h =>
    refine ⟨fun he => (nomatch he), fun ⟨harg, hrest, hpos, _⟩ => ?_⟩
    rcases h with h | h | h
    · exact absurd h harg
    · exact absurd hrest h
    · omega
  · next h =>
    simp only [not_or, not_not, Int.not_le] at h
    rw [Except.ok.injEq]
    exact ⟨fun he => ⟨h.1, h.2.1, h.2.2, he⟩, fun he => he.2.2.2⟩

/-- Every positive `long` is accepted, in its decimal digits. -/
theorem readSampleCount_toDigits (program : List Char) (more : List (List Char)) {n : ℕ}
    (hn : 0 < n) (hmax : (n : ℤ) ≤ longMax) :
    readSampleCount (program :: Nat.toDigits 10 n :: more) = .ok (BitVec.ofNat 32 n) := by
  rw [readSampleCount_eq_ok, strtol_toDigits hn hmax]
  have hle : (n : ℤ) ≤ 2 ^ 63 - 1 := hmax
  refine ⟨Nat.toDigits_ne_nil.symm, rfl, ?_, ?_⟩
  · rw [BitVec.toInt_ofInt, Int.bmod_eq_of_le (by omega) (by omega)]
    omega
  · apply BitVec.eq_of_toNat_eq
    rw [BitVec.ofInt_natCast, BitVec.toNat_setWidth, BitVec.toNat_ofNat, BitVec.toNat_ofNat]
    omega

/-- A buffer has the size that was asked for. -/
theorem axidmaMalloc_size {malloc : ℕ → Option (ℕ → BitVec 32)} {size : ℕ} {b : WordBuffer}
    (h : axidmaMalloc malloc size = some b) : b.size = size := by
  unfold axidmaMalloc at h
  split at h
  · exact nomatch h
  · obtain ⟨word, -, rfl⟩ := Option.map_eq_some_iff.1 h
    rfl

section runs

variable {σ : Type*} (D : Device σ) (dev : σ) {heap : Heap} {trans : DmaTransfer}
  {sampleCount : BitVec 32} {inputBuf outputBuf : WordBuffer}

/-- With both buffers allocated and no word used outside them, what `transfer_and_verify`
returns is decided by its transfer. -/
theorem transferAndVerify_eq
    (hinput : axidmaMalloc heap.input (toSizeT trans.inputSize) = some inputBuf)
    (houtput : axidmaMalloc heap.output (toSizeT trans.outputSize) = some outputBuf)
    (hfits : ∀ i ∈ usedIndices sampleCount,
      4 * i + 4 ≤ toSizeT trans.inputSize ∧ 4 * i + 4 ≤ toSizeT trans.outputSize) :
    ∃ v, transferAndVerify D dev heap trans sampleCount = some v ∧
      ∃ result, result = axidmaTwowayTransfer D dev
          (some (ramp (loopCount sampleCount) inputBuf.word)) (toSizeT trans.inputSize)
          (some fun _ => 0) (toSizeT trans.outputSize) ∧
        v.transfer = some result ∧ (v.rc = result.rc ∨ v.rc = -1) ∧
        (v.rc = 0 ↔
          result.rc = 0 ∧ ∀ i < loopCount sampleCount, result.output i = BitVec.ofNat 32 i) := by
  set result := axidmaTwowayTransfer D dev (some (ramp (loopCount sampleCount) inputBuf.word))
    (toSizeT trans.inputSize) (some fun _ => 0) (toSizeT trans.outputSize) with hresult
  have htx : ∀ i < loopCount sampleCount, inputBuf.Holds i := fun i hi =>
    (hfits i (mem_usedIndices.2 hi)).1.trans (axidmaMalloc_size hinput).ge
  have hrx : ∀ i < loopCount sampleCount,
      WordBuffer.Holds { outputBuf with word := result.output } i := fun i hi =>
    (hfits i (mem_usedIndices.2 hi)).2.trans (axidmaMalloc_size houtput).ge
  obtain ⟨v, hv, htransfer, hrc⟩ := verifyTransfer_eq result
    (show ∀ i < _, (rampBuffer inputBuf (loopCount sampleCount)).Holds i from htx) hrx
  refine ⟨v, ?_, result, rfl, htransfer, hrc⟩
  simp only [transferAndVerify, hinput, houtput, fillRamp_eq htx, Option.bind_some]
  exact hv

/-- A transmit buffer that is too small is overrun. -/
theorem transferAndVerify_overrun
    (hinput : axidmaMalloc heap.input (toSizeT trans.inputSize) = some inputBuf)
    (houtput : axidmaMalloc heap.output (toSizeT trans.outputSize) = some outputBuf)
    (hsmall : toSizeT trans.inputSize < 4 * loopCount sampleCount) :
    transferAndVerify D dev heap trans sampleCount = none := by
  have hsize := axidmaMalloc_size hinput
  have hfill : fillRamp sampleCount inputBuf = none := by
    refine fillRamp_eq_none (k := inputBuf.size / 4) (fun i hi => ?_) ?_ (by omega)
    · unfold WordBuffer.Holds
      omega
    · unfold WordBuffer.Holds
      omega
  simp only [transferAndVerify, hinput, houtput, hfill, Option.bind_none]

/-- Without memory no transfer is issued. -/
theorem transferAndVerify_no_memory
    (h : axidmaMalloc heap.input (toSizeT trans.inputSize) = none ∨
      axidmaMalloc heap.output (toSizeT trans.outputSize) = none) :
    ∃ v, transferAndVerify D dev heap trans sampleCount = some v ∧ v.transfer = none ∧
      v.rc = -1 := by
  unfold transferAndVerify
  cases hinput : axidmaMalloc heap.input (toSizeT trans.inputSize) with
  | none => exact ⟨_, rfl, rfl, rfl⟩
  | some inputBuf =>
    rw [hinput] at h
    rw [h.resolve_left (Option.some_ne_none inputBuf)]
    exact ⟨_, rfl, rfl, rfl⟩

/-- Buffers that fit are not overrun. -/
theorem BuffersFit.runs {value : BitVec 64} (h : BuffersFit value sampleCount trans) :
    ∃ v, transferAndVerify D dev heap trans sampleCount = some v := by
  cases hinput : axidmaMalloc heap.input (toSizeT trans.inputSize) with
  | none =>
    obtain ⟨v, hv, -⟩ := transferAndVerify_no_memory D dev (Or.inl hinput)
    exact ⟨v, hv⟩
  | some inputBuf =>
    cases houtput : axidmaMalloc heap.output (toSizeT trans.outputSize) with
    | none =>
      obtain ⟨v, hv, -⟩ := transferAndVerify_no_memory D dev (Or.inr houtput)
      exact ⟨v, hv⟩
    | some outputBuf =>
      obtain ⟨v, hv, -⟩ := transferAndVerify_eq D dev hinput houtput h.fits
      exact ⟨v, hv⟩

end runs

/-- The buffers fit an accepted value exactly when it is less than `2 ^ 29`. -/
theorem buffers_fit_iff {program arg : List Char} {more : List (List Char)}
    {sampleCount : BitVec 32}
    (haccept : readSampleCount (program :: arg :: more) = .ok sampleCount) :
    BuffersFit (strtol arg).value sampleCount (buildTransfer sampleCount) ↔
      (strtol arg).value.toInt < 2 ^ 29 := by
  obtain ⟨-, -, hpos, rfl⟩ := readSampleCount_eq_ok.1 haccept
  constructor
  · intro h
    have hsize := h.inputSize_eq
    have hcount := h.count_eq
    have hint := BitVec.toInt_lt (x := (buildTransfer ((strtol arg).value.setWidth 32)).inputSize)
    omega
  · intro hlt
    set value := (strtol arg).value with hvalue
    have hnat : value.toInt = value.toNat := by
      have := value.isLt
      rw [BitVec.toInt_eq_toNat_cond] at hpos hlt ⊢
      split at hpos <;> omega
    have hcount : (value.setWidth 32).toNat = value.toNat := by
      rw [BitVec.toNat_setWidth]
      omega
    have hmul := toNat_mul_four (n := value.setWidth 32) (by omega)
    have hsize : ((value.setWidth 32) * 4).toInt = 4 * (value.setWidth 32).toInt := by
      rw [toInt_of_lt (by omega), toInt_of_lt (by omega)]
      omega
    refine ⟨?_, ?_, hsize, hsize, buildTransfer_fits (by omega)⟩
    · rw [toInt_of_lt (by omega)]
      omega
    · rw [toInt_of_lt (by omega)]
      omega

/-- The argument 32. -/
theorem buffers_fit_iff_thirtyTwo :
    readSampleCount [['d', 'e', 'm', 'o'], ['3', '2']] = .ok 32 ∧
      BuffersFit (strtol ['3', '2']).value 32 (buildTransfer 32) :=
  have haccept : readSampleCount (['d', 'e', 'm', 'o'] :: ['3', '2'] :: []) = .ok 32 := rfl
  ⟨haccept, (buffers_fit_iff haccept).2 (by decide)⟩

/-- Between `2 ^ 30` and `2 ^ 30 + 2 ^ 29` samples the sizes wrap to smaller positive ones, and
the ramp overruns its buffer. -/
theorem wrapped_overruns {σ : Type*} (D : Device σ) (dev : σ) {heap : Heap} {n : ℕ}
    (hlow : 2 ^ 30 < n) (hhigh : n < 2 ^ 30 + 2 ^ 29) {inputBuf outputBuf : WordBuffer}
    (hinput : axidmaMalloc heap.input (4 * n - 2 ^ 32) = some inputBuf)
    (houtput : axidmaMalloc heap.output (4 * n - 2 ^ 32) = some outputBuf) :
    transferAndVerify D dev heap (buildTransfer (BitVec.ofNat 32 n)) (BitVec.ofNat 32 n) =
      none := by
  have hnat : (BitVec.ofNat 32 n).toNat = n := by
    rw [BitVec.toNat_ofNat]
    omega
  have hmul : (BitVec.ofNat 32 n * 4).toNat = 4 * n - 2 ^ 32 := by
    have hfour : (4 : BitVec 32).toNat = 4 := rfl
    rw [BitVec.toNat_mul, hnat, hfour]
    omega
  have hsize : toSizeT (BitVec.ofNat 32 n * 4) = 4 * n - 2 ^ 32 :=
    (toSizeT_of_lt (by omega)).trans hmul
  rw [← hsize] at hinput houtput
  refine transferAndVerify_overrun D dev hinput houtput ?_
  rw [loopCount_of_lt (by omega), hnat]
  exact hsize.trans_lt (by omega)

/-- The value `2 ^ 30 + 1` is accepted, and its buffers have four bytes. -/
theorem four_bytes_overrun :
    readSampleCount
        [['d', 'e', 'm', 'o'], ['1', '0', '7', '3', '7', '4', '1', '8', '2', '5']] =
      .ok 1073741825 ∧
      toSizeT (buildTransfer 1073741825).inputSize = 4 ∧ 1 ∈ usedIndices 1073741825 ∧
      ¬BuffersFit (strtol ['1', '0', '7', '3', '7', '4', '1', '8', '2', '5']).value 1073741825
        (buildTransfer 1073741825) := by
  have hsize : toSizeT (buildTransfer 1073741825).inputSize = 4 := by decide
  have hused : 1 ∈ usedIndices 1073741825 := mem_usedIndices.2 (by decide)
  exact ⟨rfl, hsize, hused, fun h => by
    have := (h.fits 1 hused).1
    omega⟩

end FirDemo
