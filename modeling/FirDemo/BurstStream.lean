import FirDemo.ElasticStream

/-!
# A burst under backpressure

With both valid bits set and a beat presented in every cycle, a stall leaves the valid
bits as they are, and the sink takes a word exactly when the source has one accepted. The
pipeline is then elastic : the words transferred are those in the output and the sample
register and then the samples accepted, whatever the stalls (`burst_elastic`).
-/

open Synchronous

namespace FirDemo

/-- With the identity coefficients and nothing in the line the sample-clocked filter is
`sample`, word by word. -/
theorem stream_eq_map_sample {TAPS : ℕ} {coeff : ℕ → BitVec 16} (hTAPS : 0 < TAPS)
    (h1 : coeff 1 = 1) (hcoeff : SingleTap TAPS coeff) (xs : List (BitVec 32)) :
    ∀ h : Held, LineZero TAPS h.line → h.stream TAPS coeff xs = xs.map sample := by
  induction xs with
  | nil => exact fun _ _ => rfl
  | cons x xs ih =>
    intro h hline
    have hline' : LineZero TAPS (h.push TAPS coeff x).line :=
      lineZero_summedSignal hcoeff hline h.sample
    rw [Held.stream, ih _ hline', List.map_cons]
    exact congrArg (· :: xs.map sample) (filteredSignal_identity hTAPS h1 hline' _)

variable {P : Params} (ρ : (myFir P).Run)

/-- The first `n` cycles are part of a burst : the filter stays enabled with the identity
coefficients and nothing in the delay line, both valid bits are set at the start, and a
beat is presented in every cycle. -/
structure Burst (n : ℕ) : Prop where
  enabled : KeepsEnabled ρ n
  coeff : KeepsCoeff ρ n
  coeff_one : ρ.start.axi.coefSlvReg 1 = 1
  singleTap : SingleTap P.TAPS ρ.start.axi.coefSlvReg
  lineZero : LineZero P.TAPS ρ.start.uFilter
  validReg : ρ.start.mAxis.validReg = true
  axisTvalidDelay : ρ.start.mAxis.axisTvalidDelay = true
  noGap : ∀ t < n, (ρ.input t).sAxisTvalid = true

namespace Burst

variable {ρ} {m n : ℕ} (h : Burst ρ n)
include h

theorem of_le (hm : m ≤ n) : Burst ρ m where
  enabled t ht := h.enabled t (by omega)
  coeff t ht := h.coeff t (by omega)
  coeff_one := h.coeff_one
  singleTap := h.singleTap
  lineZero := h.lineZero
  validReg := h.validReg
  axisTvalidDelay := h.axisTvalidDelay
  noGap t ht := h.noGap t (by omega)

/-- Both valid bits stay set. -/
theorem valid_bits : ∀ t ≤ n, (ρ.state t).mAxis.validReg = true ∧
    (ρ.state t).mAxis.axisTvalidDelay = true := by
  refine ρ.holds_of_step (I := fun _ s => s.mAxis.validReg = true ∧
    s.mAxis.axisTvalidDelay = true) ⟨h.validReg, h.axisTvalidDelay⟩ fun t ht ih => ?_
  simp [h.noGap t ht, (h.enabled t ht).2, ih]

/-- A word is accepted exactly in the cycles in which one is transferred. -/
theorem accepts_eq {t : ℕ} (ht : t < n) : accepts ρ t = transfers ρ t := by
  rw [accepts_of_enabled ρ (h.enabled t ht).1, h.noGap t ht, transfers, MyFir.mAxisTvalid,
    (h.valid_bits t ht.le).2]

theorem tally_accepts : tally (accepts ρ) n = tally (transfers ρ) n := by
  induction n with
  | zero => rfl
  | succ n ih => rw [tally_succ, tally_succ, ih (h.of_le (by omega)), h.accepts_eq (by omega)]

theorem elastic : Elastic ρ n := by
  refine elastic_of_singleTap ρ h.coeff h.singleTap h.lineZero fun t ht _ => ?_
  rw [h.noGap t ht, (h.valid_bits t ht.le).1, (h.valid_bits t ht.le).2]
  exact ⟨rfl, rfl⟩

/-- The words in flight are those in the output and the sample register. -/
theorem dataInFlight_eq :
    dataInFlight ρ n = [(ρ.state n).mAxisTdata, sample (ρ.state n).sAxis.streamDataOut] := by
  have hline : LineZero P.TAPS (heldAt ρ n).line := by
    induction n with
    | zero => exact h.lineZero
    | succ n ih =>
      rw [heldAt]
      split_ifs
      · exact lineZero_summedSignal h.singleTap (ih (h.of_le (by omega))) _
      · exact ih (h.of_le (by omega))
  have hout : (heldAt ρ n).out P.TAPS ρ.start.axi.coefSlvReg =
      sample (ρ.state n).sAxis.streamDataOut := by
    rw [Held.out, filteredSignal_identity P.TAPS_pos h.coeff_one hline, heldAt_sample]
    rfl
  have hvalid := h.valid_bits n le_rfl
  rw [dataInFlight, hvalid.1, hvalid.2, hout]
  rfl

/-- The words at the start and the samples accepted are the words transferred and those
still in flight. -/
theorem conservation :
    [ρ.start.mAxisTdata, sample ρ.start.sAxis.streamDataOut] ++ (acceptedData ρ n).map sample =
      transferredData ρ n ++ [(ρ.state n).mAxisTdata, sample (ρ.state n).sAxis.streamDataOut] := by
  have hcons := sampleClocked_conservation ρ h.enabled h.coeff h.elastic
  rw [(h.of_le (Nat.zero_le n)).dataInFlight_eq, h.dataInFlight_eq,
    stream_eq_map_sample P.TAPS_pos h.coeff_one h.singleTap _ _ h.lineZero] at hcons
  exact hcons

end Burst

/-- In every cycle of a burst, whatever the stalls, as many words were accepted as
transferred, and the words transferred are, in order, the contents of the output register,
the low half-word of the sample register and those of the samples accepted. None is lost
or doubled : the rest is in the two registers. -/
theorem burst_elastic {n : ℕ} (h : Burst ρ n) {m : ℕ} (hm : m ≤ n) :
    tally (accepts ρ) m = tally (transfers ρ) m ∧
    transferredData ρ m = ([ρ.start.mAxisTdata, sample ρ.start.sAxis.streamDataOut] ++
      (acceptedData ρ m).map sample).take (tally (accepts ρ) m) ∧
    [ρ.start.mAxisTdata, sample ρ.start.sAxis.streamDataOut] ++ (acceptedData ρ m).map sample =
      transferredData ρ m ++
        [(ρ.state m).mAxisTdata, sample (ρ.state m).sAxis.streamDataOut] := by
  have hburst := h.of_le hm
  have hlen : (transferredData ρ m).length = tally (accepts ρ) m := by
    rw [transferredData, length_collect_whenHigh, hburst.tally_accepts]
  refine ⟨hburst.tally_accepts, ?_, hburst.conservation⟩
  rw [hburst.conservation, ← hlen, List.take_left]

/-- The middle of a burst of the samples `0`, `1`, ..., with a sink that stalls in the cycles
of `stalled`. -/
def burstRun (stalled : List ℕ) : (myFir (firTop fun _ => 0)).Run where
  start :=
    { programmed (firTop fun _ => 0) [(0, 1), (4, 1)] with
      sAxis := ⟨0xFFFF⟩, mAxis := ⟨true, false, true, false, 5⟩ }
  input t :=
    { idlePort with
      sAxisTvalid := true, sAxisTdata := BitVec.ofNat 32 t, mAxisTready := decide (t ∉ stalled) }

theorem burst_elastic_burstRun :
    transferredData (burstRun [1, 2]) 5 = [5, 0xFFFFFFFF, 0] := by
  have hregs := fun t => regs_eq_start (burstRun [1, 2]) (n := t) (fun _ _ => ⟨rfl, rfl⟩) t le_rfl
  have hen : (burstRun [1, 2]).start.axi.en = true := by decide
  have hburst : Burst (burstRun [1, 2]) 5 := by
    refine ⟨fun t _ => ⟨?_, rfl⟩, fun t _ k _ _ => ?_, by decide, identity_programmed.1,
      identity_programmed.2, rfl, rfl, fun _ _ => rfl⟩
    · rw [SAxi.en, (hregs t).1]
      exact hen
    · rw [(hregs t).2]
  exact (burst_elastic _ hburst le_rfl).2.1.trans (by decide)

end FirDemo
