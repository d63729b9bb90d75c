import FirDemo.ElasticStream

/-!
# A sink that never stalls

With the filter enabled and the sink always ready the four register stages stay in step.
A beat accepted in cycle `t` is in the sample register in cycle `t + 1`, and its output
is transferred in cycle `t + 2` with its last bit. The word transferred is the convolution
of what the sample register held in the cycles before, because the delay line takes a
value in every cycle, accepted or not (`SteadySink.transfer_data`). Inside a burst
without a gap these are the samples of the burst, and before them what was held when it
began (`SteadySink.burst`).
-/

open Finset Synchronous

namespace FirDemo

variable {P : Params} (ρ : (myFir P).Run)

/-- The run of `u_filter` inside a run of the accelerator. -/
def filterRun : (firTransposed P.TAPS).Run where
  start := ρ.start.uFilter
  input t := ⟨(ρ.input t).aresetn, (ρ.state t).heldSample, (ρ.state t).axi.coefSlvReg⟩

theorem state_filterRun (t : ℕ) : (filterRun ρ).state t = (ρ.state t).uFilter := by
  induction t with
  | zero => rfl
  | succ t ih => rw [Machine.Run.state_succ, ih]; rfl

theorem filteredAt_filterRun (t : ℕ) : filteredAt (filterRun ρ) t = (ρ.state t).filterOut P := by
  rw [filteredAt, state_filterRun]
  rfl

/-- From cycle `s` on there is no reset, the coefficients are `c` and the product of the
oldest tap fits in 16 signed bits; from cycle `e` on the filter is enabled and the sink
ready. -/
structure SteadySink (s e : ℕ) (c : ℕ → BitVec 16) : Prop where
  le : s ≤ e
  reset : ∀ t, s ≤ t → (ρ.input t).aresetn = true
  coeff : ∀ t, s ≤ t → ∀ k, 1 ≤ k → k ≤ P.TAPS → (ρ.state t).axi.coefSlvReg k = c k
  fits : ∀ t, s ≤ t → FitsSigned16 (fullProduct (c P.TAPS) (ρ.state t).heldSample)
  enabled : ∀ t, e ≤ t → (ρ.state t).axi.en = true ∧ (ρ.input t).mAxisTready = true

namespace SteadySink

variable {ρ} {s e : ℕ} {c : ℕ → BitVec 16} (h : SteadySink ρ s e c)
include h

theorem accepts_eq {t : ℕ} (ht : e ≤ t) : accepts ρ t = (ρ.input t).sAxisTvalid := by
  rw [accepts_of_enabled ρ (h.enabled t ht).1, (h.enabled t ht).2, Bool.and_true]

/-- A beat goes through the valid bits in two cycles. -/
theorem transfers_add_two {t : ℕ} (ht : e ≤ t) : transfers ρ (t + 2) = accepts ρ t := by
  have hle := h.le
  rw [transfers, mAxisTvalid_add_two, h.accepts_eq ht, h.reset (t + 1) (by omega),
    (h.enabled (t + 2) (by omega)).2, Bool.true_and, Bool.and_true]

theorem mAxisTlast_add_two {t : ℕ} (ht : e ≤ t) :
    (ρ.state (t + 2)).mAxisTlast = (ρ.input t).sAxisTlast := by
  have hle := h.le
  rw [FirDemo.mAxisTlast_add_two, h.reset (t + 1) (by omega), Bool.true_and]

/-- Once the delay line has run for `TAPS` cycles the filter is a convolution of the held
samples. -/
theorem filterOut_eq {t : ℕ} (ht : s + P.TAPS ≤ t + 1) :
    (ρ.state t).filterOut P = BitVec.ofInt 32
      (∑ k ∈ Icc 1 P.TAPS, fullProduct (c k) (ρ.state (t + 1 - k)).heldSample) := by
  rw [← filteredAt_filterRun, filteredAt_eq_sums P.TAPS_pos,
    (filterChain P.TAPS_pos (filterRun ρ)).sums_last_of_run P.TAPS_pos (by omega)
      fun u hu hut => h.reset u (by omega), ofInt_sum, TransposedForm.directForm]
  refine sum_congr rfl fun k hk => ?_
  rw [mem_Icc] at hk
  have hcoeff := h.coeff (t + 1 - k) (by omega)
  have hfits := h.fits (t + 1 - k) (by omega)
  rw [← hcoeff P.TAPS P.TAPS_pos le_rfl] at hfits
  rw [filterRun, tapProduct_of_fits hfits, hcoeff k hk.1 hk.2]

theorem transfer_data {t : ℕ} (ht : e ≤ t) (hs : s + P.TAPS ≤ t + 2) (ha : accepts ρ t = true) :
    (ρ.state (t + 2)).mAxisTdata = BitVec.ofInt 32
      (∑ k ∈ Icc 1 P.TAPS, fullProduct (c k) (ρ.state (t + 2 - k)).heldSample) := by
  have hle := h.le
  have hvalid : (ρ.state (t + 1)).mAxis.validReg = true := by
    simpa [h.accepts_eq ht] using ha
  have htx : (ρ.state (t + 1)).mAxis.txEn (ρ.input (t + 1)).mAxisTready = true := by
    rw [MAxis.txEn, hvalid, (h.enabled (t + 1) (by omega)).2]
    rfl
  rw [← h.filterOut_eq (t := t + 1) hs]
  exact (MyFir.next_mAxisTdata P _ _ (h.reset (t + 1) (by omega))).trans (if_pos htx)

/-- During a burst the sample register holds, one cycle later, the samples of the burst. -/
theorem heldSample_burst {t L : ℕ} (ht : e ≤ t)
    (hburst : ∀ i < L, (ρ.input (t + i)).sAxisTvalid = true) {i : ℕ} (hi : i < L) :
    (ρ.state (t + i + 1)).heldSample = (ρ.input (t + i)).sAxisTdata.setWidth 16 := by
  rw [heldSample_succ, h.accepts_eq (by omega), hburst i hi, if_pos rfl]

/-- The outputs of a burst of `L` beats without a gap. Tap `k` of output `i` sees sample
`i + 1 - k` of the burst, or what was held before the burst. -/
theorem burst {t L : ℕ} (ht : e ≤ t)
    (hburst : ∀ i < L, (ρ.input (t + i)).sAxisTvalid = true) {i : ℕ} (hi : i < L) :
    transfers ρ (t + i + 2) = true ∧
      (ρ.state (t + i + 2)).mAxisTlast = (ρ.input (t + i)).sAxisTlast ∧
      (s + P.TAPS ≤ t + i + 2 → (ρ.state (t + i + 2)).mAxisTdata = BitVec.ofInt 32
        (∑ k ∈ Icc 1 P.TAPS, fullProduct (c k)
          (if k ≤ i + 1 then (ρ.input (t + (i + 1 - k))).sAxisTdata.setWidth 16
            else (ρ.state (t + i + 2 - k)).heldSample))) := by
  have ha : accepts ρ (t + i) = true := by rw [h.accepts_eq (by omega), hburst i hi]
  refine ⟨by rw [h.transfers_add_two (by omega), ha], h.mAxisTlast_add_two (by omega),
    fun hs => ?_⟩
  rw [h.transfer_data (by omega) hs ha]
  congr 1
  refine sum_congr rfl fun k hk => ?_
  rw [mem_Icc] at hk
  split_ifs with hki
  · rw [← h.heldSample_burst ht hburst (by omega : i + 1 - k < L),
      show t + (i + 1 - k) + 1 = t + i + 2 - k by omega]
  · rfl

end SteadySink

/-- With a sink that never stalls, a beat is accepted in cycle `t` exactly when a transfer
takes place in cycle `t + 2`, with the same last bit; once the delay line has run for
`TAPS` cycles, the word transferred is the convolution of the held samples, which are the
samples accepted last. A burst without a gap is convolved sample by sample. -/
theorem steady_sink_behaviour {s e : ℕ} {c : ℕ → BitVec 16} (h : SteadySink ρ s e c) :
    (∀ u, (ρ.state (u + 1)).heldSample =
      if accepts ρ u then (ρ.input u).sAxisTdata.setWidth 16 else (ρ.state u).heldSample) ∧
    ∀ t, e ≤ t →
      (accepts ρ t = true ↔ transfers ρ (t + 2) = true) ∧
      (accepts ρ t = true → (ρ.state (t + 2)).mAxisTlast = (ρ.input t).sAxisTlast) ∧
      (accepts ρ t = true → s + P.TAPS ≤ t + 2 →
        (ρ.state (t + 2)).mAxisTdata = BitVec.ofInt 32
          (∑ k ∈ Icc 1 P.TAPS, fullProduct (c k) (ρ.state (t + 2 - k)).heldSample)) ∧
      ∀ L, (∀ i < L, (ρ.input (t + i)).sAxisTvalid = true) → ∀ i < L,
        transfers ρ (t + i + 2) = true ∧
          (ρ.state (t + i + 2)).mAxisTlast = (ρ.input (t + i)).sAxisTlast ∧
          (s + P.TAPS ≤ t + i + 2 → (ρ.state (t + i + 2)).mAxisTdata = BitVec.ofInt 32
            (∑ k ∈ Icc 1 P.TAPS, fullProduct (c k)
              (if k ≤ i + 1 then (ρ.input (t + (i + 1 - k))).sAxisTdata.setWidth 16
                else (ρ.state (t + i + 2 - k)).heldSample))) := by
  refine ⟨heldSample_succ ρ, fun t ht => ⟨?_, fun _ => h.mAxisTlast_add_two ht,
    fun ha hs => h.transfer_data ht hs ha, fun L hburst i hi => h.burst ht hburst hi⟩⟩
  rw [h.transfers_add_two ht]

theorem steadySink_gapRun (gap : ℕ) :
    SteadySink (gapRun [(0, 1), (4, 1)] gap) 0 0
      (programmed (firTop fun _ => 0) [(0, 1), (4, 1)]).axi.coefSlvReg := by
  have hregs : ∀ t, _ := fun t => regs_eq_start (gapRun [(0, 1), (4, 1)] gap) (n := t)
    (fun _ _ => ⟨rfl, rfl⟩) t le_rfl
  refine ⟨le_rfl, fun _ _ => rfl, fun t _ k _ _ => by rw [(hregs t).2]; rfl, fun t _ => ?_,
    fun t _ => ⟨?_, rfl⟩⟩
  · have hzero : (programmed (firTop fun _ => 0) [(0, 1), (4, 1)]).axi.coefSlvReg 5 = 0 := by
      decide
    change FitsSigned16 (fullProduct
      ((programmed (firTop fun _ => 0) [(0, 1), (4, 1)]).axi.coefSlvReg 5) _)
    rw [hzero]
    simp [FitsSigned16, fullProduct]
  · rw [SAxi.en, (hregs t).1]
    change (programmed (firTop fun _ => 0) [(0, 1), (4, 1)]).axi.en = true
    decide

theorem steady_sink_behaviour_gapRun :
    transfers (gapRun [(0, 1), (4, 1)] 3) 5 = true ∧
      ((gapRun [(0, 1), (4, 1)] 3).state 5).mAxisTdata = BitVec.ofInt 32
        (∑ k ∈ Icc 1 5, fullProduct
          ((programmed (firTop fun _ => 0) [(0, 1), (4, 1)]).axi.coefSlvReg k)
          ((gapRun [(0, 1), (4, 1)] 3).state (5 - k)).heldSample) :=
  have h := (steady_sink_behaviour _ (steadySink_gapRun 3)).2 3 (Nat.zero_le 3)
  ⟨h.1.1 (by decide), h.2.2.1 (by decide) (by decide)⟩

end FirDemo
