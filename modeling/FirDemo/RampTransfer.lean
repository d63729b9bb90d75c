import FirDemo.DemoMain
import FirDemo.TransferData

/-!
# The verdict of the demo

`transfer_and_verify` expects the 32-bit ramp back. What comes back is the 16-bit sample,
sign-extended, so a transfer that returns 0 is reported as a success exactly when it has at
most `2 ^ 15` samples (`ramp_reported_iff`).
-/

namespace FirDemo

/-- A sample that is non-negative in 16 bits comes back as it is. -/
theorem sample_of_lt {i : ℕ} (h : i < 2 ^ 15) : sample (BitVec.ofNat 32 i) = BitVec.ofNat 32 i := by
  have hnat : ((BitVec.ofNat 32 i).setWidth 16).toNat = i := by
    rw [BitVec.toNat_setWidth, BitVec.toNat_ofNat]
    omega
  have hmsb : ((BitVec.ofNat 32 i).setWidth 16).msb = false := by
    rw [BitVec.msb_eq_decide, hnat]
    exact decide_eq_false (by omega)
  apply BitVec.eq_of_toNat_eq
  rw [sample, BitVec.signExtend_eq_setWidth_of_msb_false hmsb, BitVec.toNat_setWidth, hnat,
    BitVec.toNat_ofNat]

/-- The ramp comes back as it is up to `2 ^ 15` samples. -/
theorem sample_ramp_iff {N : ℕ} :
    (∀ i < N, sample (BitVec.ofNat 32 i) = BitVec.ofNat 32 i) ↔ N ≤ 2 ^ 15 := by
  constructor
  · intro h
    by_contra hlt
    exact absurd (h (2 ^ 15) (by omega)) (by decide)
  · exact fun h i hi => sample_of_lt (by omega)

/-- A transfer of the ramp that returns 0 brought it back, and is reported as a success. -/
def PassReported {σ : Type*} (N : ℕ) (run : Option (Verification σ)) : Prop :=
  ∃ v, run = some v ∧ ∀ result, v.transfer = some result → result.rc = 0 →
    (∀ i < N, result.output i = BitVec.ofNat 32 i) ∧ v.rc = 0

theorem toNat_sampleCount {N : ℕ} (hint : 4 * N < 2 ^ 31) : (BitVec.ofNat 32 N).toNat = N := by
  rw [BitVec.toNat_ofNat]
  omega

theorem sizes_rampCall {N : ℕ} (hint : 4 * N < 2 ^ 31) :
    toSizeT (buildTransfer (BitVec.ofNat 32 N)).inputSize = 4 * N ∧
      toSizeT (buildTransfer (BitVec.ofNat 32 N)).outputSize = 4 * N := by
  have hnat := toNat_sampleCount hint
  have hsizes := buildTransfer_sizes (show (BitVec.ofNat 32 N).toNat < 2 ^ 29 by omega)
  rwa [hnat] at hsizes

/-- The call of `transfer_and_verify` for `N` samples. -/
def rampCall (N : ℕ) (input : ℕ → BitVec 32) : TransferCall :=
  ⟨some (ramp N input), 4 * N, some fun _ => 0, 4 * N⟩

theorem words_rampCall (N : ℕ) (input : ℕ → BitVec 32) : (rampCall N input).words = N := by
  have hwords : (rampCall N input).words = min (4 * N / 4) (4 * N / 4) := rfl
  omega

section allocated

variable {P : Params} {top : VfirTop} {N : ℕ}

/-- From the state `main` leaves only the transfer of five words fails. -/
theorem rampCall_rc (hready : Ready P top) (hN : 1 ≤ N) (hint : 4 * N < 2 ^ 31)
    (input : ℕ → BitVec 32) : ((rampCall N input).run (simDevice P) top).rc = 0 ↔ N ≠ 5 := by
  rw [← succeeds_iff_of_fits (show 64 * N + 1280 < 2 ^ 64 by omega)]
  exact rc_eq_zero_iff hready.staysEnabled hready.drained _ _ (words_rampCall N input) hN

/-- The samples that come back. -/
theorem rampCall_output (hready : Ready P top) (input : ℕ → BitVec 32)
    (hrc : ((rampCall N input).run (simDevice P) top).rc = 0) :
    ∀ i < N, ((rampCall N input).run (simDevice P) top).output i =
      sample (BitVec.ofNat 32 i) := by
  intro i hi
  obtain ⟨hwords, -⟩ := (rampCall N input).correct hready hrc _ _ rfl rfl
  rw [words_rampCall] at hwords
  rw [hwords i hi, ramp, if_pos hi]

/-- A successful transfer brought the ramp back when it has at most `2 ^ 15` samples. -/
theorem rampCall_output_iff (hready : Ready P top) (input : ℕ → BitVec 32)
    (hrc : ((rampCall N input).run (simDevice P) top).rc = 0) :
    (∀ i < N, ((rampCall N input).run (simDevice P) top).output i = BitVec.ofNat 32 i) ↔
      N ≤ 2 ^ 15 := by
  rw [← sample_ramp_iff]
  have houtput := rampCall_output hready input hrc
  exact forall₂_congr fun i hi => by rw [houtput i hi]

/-- The run with both buffers allocated. -/
theorem ramp_run (hready : Ready P top) (hN : 1 ≤ N) (hint : 4 * N < 2 ^ 31) {heap : Heap}
    {input output : ℕ → BitVec 32} (hinput : heap.input (4 * N) = some input)
    (houtput : heap.output (4 * N) = some output) :
    ∃ v, transferAndVerify (simDevice P) top heap (buildTransfer (BitVec.ofNat 32 N))
        (BitVec.ofNat 32 N) = some v ∧
      v.transfer = some ((rampCall N input).run (simDevice P) top) ∧ (v.rc = 0 ∨ v.rc = -1) ∧
      (v.rc = 0 ↔ N ≠ 5 ∧ N ≤ 2 ^ 15) := by
  have hnat := toNat_sampleCount hint
  have hfits := buildTransfer_fits (show (BitVec.ofNat 32 N).toNat < 2 ^ 29 by omega)
  obtain ⟨hsizeIn, hsizeOut⟩ := sizes_rampCall hint
  have hcount : loopCount (BitVec.ofNat 32 N) = N := by
    rw [loopCount_of_lt (by omega), hnat]
  have hmalloc : axidmaMalloc heap.input
      (toSizeT (buildTransfer (BitVec.ofNat 32 N)).inputSize) = some ⟨4 * N, input⟩ := by
    rw [hsizeIn, axidmaMalloc, if_neg (by omega), hinput, Option.map_some]
  have hmalloc' : axidmaMalloc heap.output
      (toSizeT (buildTransfer (BitVec.ofNat 32 N)).outputSize) = some ⟨4 * N, output⟩ := by
    rw [hsizeOut, axidmaMalloc, if_neg (by omega), houtput, Option.map_some]
  obtain ⟨v, hv, result, hresult, htransfer, hrc, hpass⟩ :=
    transferAndVerify_eq (simDevice P) top hmalloc hmalloc' hfits
  rw [hcount, hsizeIn, hsizeOut] at hresult
  rw [hcount] at hpass
  have hcall : result = (rampCall N input).run (simDevice P) top := hresult
  subst hcall
  refine ⟨v, hv, htransfer, ?_, ?_⟩
  · have := axidmaTwowayTransfer_rc (simDevice P) top (rampCall N input).txBuf (4 * N)
      (rampCall N input).rxBuf (4 * N)
    rcases hrc with hrc | hrc
    · rw [hrc]
      exact this
    · exact Or.inr hrc
  · rw [hpass, ← rampCall_rc hready hN hint input]
    exact and_congr_right fun h => rampCall_output_iff hready input h

end allocated

theorem passReported_no_memory {P : Params} {top : VfirTop} {heap : Heap} {N : ℕ} (hN : 1 ≤ N)
    (hint : 4 * N < 2 ^ 31) (h : heap.input (4 * N) = none ∨ heap.output (4 * N) = none) :
    PassReported N (transferAndVerify (simDevice P) top heap (buildTransfer (BitVec.ofNat 32 N))
      (BitVec.ofNat 32 N)) := by
  obtain ⟨hsizeIn, hsizeOut⟩ := sizes_rampCall hint
  have hmalloc : axidmaMalloc heap.input (toSizeT (buildTransfer (BitVec.ofNat 32 N)).inputSize) =
        none ∨
      axidmaMalloc heap.output (toSizeT (buildTransfer (BitVec.ofNat 32 N)).outputSize) = none := by
    rw [hsizeIn, hsizeOut]
    exact h.imp (fun h => by rw [axidmaMalloc, if_neg (by omega), h, Option.map_none])
      fun h => by rw [axidmaMalloc, if_neg (by omega), h, Option.map_none]
  obtain ⟨v, hv, htransfer, -⟩ := transferAndVerify_no_memory (simDevice P) top hmalloc
  exact ⟨v, hv, fun result hresult => by
    rw [htransfer] at hresult
    exact nomatch hresult⟩

/-- A transfer of the ramp is reported as it went exactly when it has at most `2 ^ 15`
samples, or was not issued for want of memory. -/
theorem ramp_reported_iff (P : Params) (regs : MyFir) (heap : Heap) {N : ℕ} (hN : 1 ≤ N)
    (hint : 4 * N < 2 ^ 31) :
    ∃ top, simStart P regs = some top ∧
      (PassReported N (transferAndVerify (simDevice P) top heap
          (buildTransfer (BitVec.ofNat 32 N)) (BitVec.ofNat 32 N)) ↔
        N ≤ 2 ^ 15 ∨ heap.input (4 * N) = none ∨ heap.output (4 * N) = none) := by
  obtain ⟨top, hreturn, hprogrammed⟩ := simStart_programmed P regs
  refine ⟨top, hreturn, ?_⟩
  rcases hinput : heap.input (4 * N) with - | input
  · exact iff_of_true (passReported_no_memory hN hint (Or.inl hinput)) (Or.inr (Or.inl rfl))
  · rcases houtput : heap.output (4 * N) with - | output
    · exact iff_of_true (passReported_no_memory hN hint (Or.inr houtput)) (Or.inr (Or.inr rfl))
    · obtain ⟨v, hv, htransfer, -, hpass⟩ := ramp_run hprogrammed.ready hN hint hinput houtput
      have hrc := rampCall_rc hprogrammed.ready hN hint input
      simp only [reduceCtorEq, or_false]
      constructor
      · rintro ⟨v', hv', h⟩
        obtain rfl : v = v' := Option.some.inj (hv.symm.trans hv')
        by_contra hlong
        have hzero := hrc.2 (show N ≠ 5 by omega)
        exact hlong ((rampCall_output_iff hprogrammed.ready input hzero).1 (h _ htransfer hzero).1)
      · intro hshort
        refine ⟨v, hv, fun result hresult hzero => ?_⟩
        obtain rfl := Option.some.inj (htransfer.symm.trans hresult)
        exact ⟨(rampCall_output_iff hprogrammed.ready input hzero).2 hshort,
          hpass.2 ⟨hrc.1 hzero, hshort⟩⟩

/-- The two buffers, of any content. -/
def plentyHeap : Heap :=
  ⟨true, fun _ => some fun _ => 0, fun _ => some fun _ => 0⟩

theorem ramp_reported_iff_thirtyTwo : ∃ top, simStart (firTop fun _ => 0) zeroState = some top ∧
    PassReported 32 (transferAndVerify (simDevice (firTop fun _ => 0)) top plentyHeap
      (buildTransfer (BitVec.ofNat 32 32)) (BitVec.ofNat 32 32)) := by
  obtain ⟨top, hreturn, hiff⟩ :=
    ramp_reported_iff (N := 32) (firTop fun _ => 0) zeroState plentyHeap (by decide) (by decide)
  exact ⟨top, hreturn, hiff.2 (Or.inl (by decide))⟩

/-- With `2 ^ 15 + 1` samples the transfer returns 0, the last word comes back negative, and
a failure is reported. -/
theorem long_ramp_fails : ∃ top v, simStart (firTop fun _ => 0) zeroState = some top ∧
    transferAndVerify (simDevice (firTop fun _ => 0)) top plentyHeap
        (buildTransfer (BitVec.ofNat 32 32769)) (BitVec.ofNat 32 32769) = some v ∧
      (∃ result, v.transfer = some result ∧ result.rc = 0 ∧ result.output 32768 = 0xFFFF8000) ∧
      v.rc = -1 ∧ ¬PassReported 32769 (some v) := by
  obtain ⟨top, hreturn, hprogrammed⟩ := simStart_programmed (firTop fun _ => 0) zeroState
  obtain ⟨v, hv, htransfer, hrc, hpass⟩ := ramp_run (N := 32769) hprogrammed.ready (by decide)
    (by decide) (show plentyHeap.input _ = some fun _ => 0 from rfl)
    (show plentyHeap.output _ = some fun _ => 0 from rfl)
  have hzero := (rampCall_rc (N := 32769) hprogrammed.ready (by decide) (by decide)
    (fun _ => 0)).2 (by decide)
  have hfails : v.rc ≠ 0 := fun h => absurd (hpass.1 h).2 (by decide)
  refine ⟨top, v, hreturn, hv, ⟨_, htransfer, hzero, ?_⟩, hrc.resolve_left hfails, ?_⟩
  · rw [rampCall_output hprogrammed.ready _ hzero _ (by decide)]
    decide
  · rintro ⟨v', hv', h⟩
    obtain rfl := Option.some.inj hv'
    exact hfails (h _ htransfer hzero).2

/-- `main` reports success for the counts up to `2 ^ 15` other than 5. -/
theorem main_succeeds_iff (P : Params) (regs : MyFir) {heap : Heap} (program : List Char)
    (more : List (List Char)) {n : ℕ} (hn : 0 < n) (hlt : n < 2 ^ 29) (hdev : heap.axidmaDev = true)
    {input output : ℕ → BitVec 32} (hinput : heap.input (4 * n) = some input)
    (houtput : heap.output (4 * n) = some output) :
    main P regs heap (program :: Nat.toDigits 10 n :: more) = some 0 ↔ n ≠ 5 ∧ n ≤ 2 ^ 15 := by
  obtain ⟨top, hreturn, hprogrammed⟩ := simStart_programmed P regs
  have hmax : (n : ℤ) ≤ longMax := by
    have : longMax = 2 ^ 63 - 1 := rfl
    omega
  obtain ⟨v, hv, -, hrc, hpass⟩ :=
    ramp_run hprogrammed.ready hn (show 4 * n < 2 ^ 31 by omega) hinput houtput
  simp only [main, readSampleCount_toDigits program more hn hmax, hreturn, hdev, if_true, hv,
    Option.map_some, Option.some.injEq]
  rw [← hpass]
  rcases hrc with hrc | hrc <;> simp [hrc, exitFailure]

end FirDemo
