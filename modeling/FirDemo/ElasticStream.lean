import FirDemo.BeatLedger
import Mathlib.Tactic.IntervalCases

/-!
# What a stall does to the stream

The valid and last bits of the output shift on every edge, and the output register takes
a new value only with `m_axis_tready`. A stall leaves the beats in flight as they are when
the shift does not change the bits that mark them.

Framing : if this holds of the last bits in every stalled cycle, the last bits transferred
are those accepted (`transferredLast_eq_acceptedLast`).

Timing : the delay line advances on every edge too, with or without a new sample. If it is
left as it is in the cycles that accept none, and stalls leave the valid bits as they are,
the words transferred are a function of the samples accepted (`sampleClocked_conservation`),
and two such runs give the same words (`transferredData_eq_of_accepted_eq`).
-/

open Synchronous

namespace FirDemo

variable {P : Params} (ρ : (myFir P).Run)

/-- The `s_axis_tlast` of the accepted beats, in order. -/
def acceptedLast : ℕ → List Bool :=
  collect (whenHigh (accepts ρ) fun t => (ρ.input t).sAxisTlast)

/-- The `m_axis_tlast` of the transfers, in order. -/
def transferredLast : ℕ → List Bool :=
  collect (whenHigh (transfers ρ) fun t => (ρ.state t).mAxisTlast)

/-- The `s_axis_tdata` of the accepted beats, in order. -/
def acceptedData : ℕ → List (BitVec 32) :=
  collect (whenHigh (accepts ρ) fun t => (ρ.input t).sAxisTdata)

/-- The `m_axis_tdata` of the transfers, in order. -/
def transferredData : ℕ → List (BitVec 32) :=
  collect (whenHigh (transfers ρ) fun t => (ρ.state t).mAxisTdata)

theorem accepts_of_enabled {t : ℕ} (hen : (ρ.state t).axi.en = true) :
    accepts ρ t = ((ρ.input t).sAxisTvalid && (ρ.input t).mAxisTready) := by
  simp [accepts, MyFir.sAxisTready, hen]

/-! ## Packet framing -/

/-- In a stalled cycle the shift leaves the last bits in flight as they are : a beat is
presented exactly when one is at the output, and all beats in flight have the same last
bit as the beat presented. -/
def StallKeepsLast (t : ℕ) : Prop :=
  (ρ.input t).mAxisTready = false →
    (ρ.input t).sAxisTvalid = (ρ.state t).mAxis.axisTvalidDelay ∧
      ((ρ.state t).mAxis.axisTvalidDelay = true →
        (ρ.input t).sAxisTlast = (ρ.state t).mAxis.axisTlastDelay ∧
          ((ρ.state t).mAxis.validReg = true →
            (ρ.state t).mAxis.lastReg = (ρ.state t).mAxis.axisTlastDelay))

/-- The last bits of the beats in flight, the older first. -/
def lastInFlight (s : MyFir) : List Bool :=
  slots (valid s.mAxis.axisTvalidDelay s.mAxis.axisTlastDelay)
    (valid s.mAxis.validReg s.mAxis.lastReg)

theorem lastInFlight_next {t : ℕ} (hen : (ρ.state t).axi.en = true)
    (hreset : (ρ.input t).aresetn = true) (hstall : StallKeepsLast ρ t) :
    lastInFlight (ρ.state t) ++
        (whenHigh (accepts ρ) (fun t => (ρ.input t).sAxisTlast) t).toList =
      (whenHigh (transfers ρ) (fun t => (ρ.state t).mAxisTlast) t).toList ++
        lastInFlight (ρ.state (t + 1)) := by
  have hnext : lastInFlight (ρ.state (t + 1)) =
      slots (valid (ρ.state t).mAxis.validReg (ρ.state t).mAxis.lastReg)
        (valid (ρ.input t).sAxisTvalid (ρ.input t).sAxisTlast) := by
    simp [lastInFlight, hreset]
  rw [hnext, lastInFlight]
  cases hready : (ρ.input t).mAxisTready with
  | true =>
    simpa [whenHigh, accepts_of_enabled ρ hen, transfers, hready, MyFir.mAxisTvalid,
      MyFir.mAxisTlast] using slots_shift _ _ _
  | false =>
    -- nothing enters or leaves, and the shift changes nothing
    obtain ⟨hv, hl⟩ := hstall hready
    cases hd : (ρ.state t).mAxis.axisTvalidDelay with
    | false => simp [whenHigh, accepts_of_enabled ρ hen, transfers, hready, hv, hd, slots]
    | true =>
      obtain ⟨hlast, hreg⟩ := hl hd
      cases hr : (ρ.state t).mAxis.validReg with
      | false =>
        simp [whenHigh, accepts_of_enabled ρ hen, transfers, hready, hv, hd, hlast, slots]
      | true =>
        simp [whenHigh, accepts_of_enabled ρ hen, transfers, hready, hv, hd, hlast,
          hreg hr, slots]

/-- Over `n` cycles whose stalls keep the last bits in flight, the last bits accepted are
those transferred and then those in flight. -/
theorem last_conservation {n : ℕ} (hen : KeepsEnabled ρ n)
    (hstall : ∀ t < n, StallKeepsLast ρ t) :
    lastInFlight ρ.start ++ acceptedLast ρ n =
      transferredLast ρ n ++ lastInFlight (ρ.state n) :=
  collect_conservation (fun t => lastInFlight (ρ.state t)) fun t ht =>
    lastInFlight_next ρ (hen t ht).1 (hen t ht).2 (hstall t ht)

/-- From a quiescent state, if in every stalled cycle the shift leaves the last bits in
flight as they are and as many transfers as accepted beats took place, transfer `j` has
the last bit of accepted beat `j`. -/
theorem transferredLast_eq_acceptedLast (hq : Quiescent P ρ.start) {n : ℕ}
    (hen : KeepsEnabled ρ n) (hcount : tally (transfers ρ) n = tally (accepts ρ) n)
    (hstall : ∀ t < n, StallKeepsLast ρ t) : transferredLast ρ n = acceptedLast ρ n := by
  have hcons := last_conservation ρ hen hstall
  have hstart : lastInFlight ρ.start = [] := by simp [lastInFlight, hq.valid_bits]
  rw [hstart, List.nil_append] at hcons
  have hlen : (transferredLast ρ n).length = (acceptedLast ρ n).length := by
    rw [transferredLast, acceptedLast, length_collect_whenHigh, length_collect_whenHigh, hcount]
  have hempty : lastInFlight (ρ.state n) = [] := by
    have := congrArg List.length hcons
    rw [List.length_append] at this
    exact List.length_eq_zero_iff.1 (by omega)
  rw [hcons, hempty, List.append_nil]

/-! ## A filter clocked by its samples -/

/-- A sample with the delay line in front of it. -/
structure Held where
  sample : BitVec 16
  line : ℕ → BitVec 32

namespace Held

variable (TAPS : ℕ) (coeff : ℕ → BitVec 16)

/-- One new sample : the delay line takes the sums of the sample it held. -/
def push (h : Held) (x : BitVec 32) : Held where
  sample := x.setWidth 16
  line := summedSignal TAPS coeff h.sample h.line

/-- The output register when the held sample is taken. -/
def out (h : Held) : BitVec 32 :=
  filteredSignal TAPS coeff h.sample h.line

/-- The outputs of a filter that advances with its samples only. -/
def stream (h : Held) : List (BitVec 32) → List (BitVec 32)
  | [] => []
  | x :: xs => (h.push TAPS coeff x).out TAPS coeff :: stream (h.push TAPS coeff x) xs

theorem stream_append (h : Held) (xs ys : List (BitVec 32)) :
    h.stream TAPS coeff (xs ++ ys) =
      h.stream TAPS coeff xs ++ (xs.foldl (push TAPS coeff) h).stream TAPS coeff ys := by
  induction xs generalizing h with
  | nil => rfl
  | cons x xs ih => simp [stream, ih]

end Held

/-! ## The stream does not depend on timing -/

/-- The coefficients stay what they are at the start in the first `n` cycles. -/
def KeepsCoeff (n : ℕ) : Prop :=
  ∀ t < n, ∀ k, 1 ≤ k → k ≤ P.TAPS → (ρ.state t).axi.coefSlvReg k = ρ.start.axi.coefSlvReg k

/-- Every block adds up to what its register holds, so an edge would not change it. -/
def SteadyLine (P : Params) (s : MyFir) : Prop :=
  ∀ i, i + 1 < P.TAPS →
    summedSignal P.TAPS s.axi.coefSlvReg s.heldSample s.uFilter i = s.uFilter i

/-- The first `n` cycles are elastic : a stalled cycle leaves the valid bits as they are,
and a cycle that accepts no sample leaves the delay line as it is, as far as the output
register still captures a value later. -/
structure Elastic (n : ℕ) : Prop where
  stall : ∀ t < n, (ρ.input t).mAxisTready = false →
    (ρ.input t).sAxisTvalid = (ρ.state t).mAxis.axisTvalidDelay ∧
      (ρ.state t).mAxis.validReg = (ρ.state t).mAxis.axisTvalidDelay
  idle : ∀ t t', t < t' → t' < n → accepts ρ t = false →
    (ρ.state t').mAxis.txEn (ρ.input t').mAxisTready = true → SteadyLine P (ρ.state t)

/-- The filter clocked by the samples accepted before cycle `t`. -/
def heldAt : ℕ → Held
  | 0 => ⟨ρ.start.heldSample, ρ.start.uFilter⟩
  | t + 1 =>
    if accepts ρ t then
      (heldAt t).push P.TAPS ρ.start.axi.coefSlvReg (ρ.input t).sAxisTdata
    else heldAt t

theorem heldAt_sample (t : ℕ) : (heldAt ρ t).sample = (ρ.state t).heldSample := by
  induction t with
  | zero => rfl
  | succ t ih =>
    rw [heldSample_succ, heldAt]
    split_ifs
    · rfl
    · exact ih

theorem heldAt_eq_foldl (t : ℕ) :
    heldAt ρ t = (acceptedData ρ t).foldl (Held.push P.TAPS ρ.start.axi.coefSlvReg)
      ⟨ρ.start.heldSample, ρ.start.uFilter⟩ := by
  induction t with
  | zero => rfl
  | succ t ih =>
    cases h : accepts ρ t <;> simp [heldAt, acceptedData, whenHigh, h, ih]

/-- The outputs of the sample-clocked filter are collected as samples are accepted. -/
theorem collect_out_heldAt (n : ℕ) :
    collect (whenHigh (accepts ρ) fun t =>
        (heldAt ρ (t + 1)).out P.TAPS ρ.start.axi.coefSlvReg) n =
      (⟨ρ.start.heldSample, ρ.start.uFilter⟩ : Held).stream P.TAPS ρ.start.axi.coefSlvReg
        (acceptedData ρ n) := by
  induction n with
  | zero => rfl
  | succ n ih =>
    have hdata : acceptedData ρ (n + 1) = acceptedData ρ n ++
        (whenHigh (accepts ρ) (fun t => (ρ.input t).sAxisTdata) n).toList := rfl
    rw [collect_succ, ih, hdata, Held.stream_append, ← heldAt_eq_foldl]
    cases h : accepts ρ n <;> simp [whenHigh, h, Held.stream, heldAt]

/-- While the delay line does not move on its own, it is the line of the sample-clocked
filter. -/
theorem uFilter_eq_line {n t : ℕ} (hen : KeepsEnabled ρ n) (hcoeff : KeepsCoeff ρ n)
    (hidle : ∀ u < t, accepts ρ u = false → SteadyLine P (ρ.state u)) (ht : t ≤ n) :
    ∀ i, i + 1 < P.TAPS → (ρ.state t).uFilter i = (heldAt ρ t).line i := by
  induction t with
  | zero => exact fun i _ => rfl
  | succ t ih =>
    have ih := ih (fun u hu => hidle u (by omega)) (by omega)
    intro i hi
    have hrun : (ρ.state (t + 1)).uFilter i = summedSignal P.TAPS (ρ.state t).axi.coefSlvReg
        (ρ.state t).heldSample (ρ.state t).uFilter i := by
      simp [MyFir.next, firTransposed, TransposedBlock.delayedSignal, (hen t (by omega)).2]
    cases h : accepts ρ t with
    | false => rw [hrun, hidle t (by omega) h i hi, ih i hi]; simp [heldAt, h]
    | true =>
      rw [hrun, heldAt, if_pos h, Held.push, heldAt_sample]
      exact summedSignal_congr P.TAPS_pos (hcoeff t (by omega)) ih (by omega)

/-- The words in flight, the older first : the output register, then what the filter makes
of the held sample. -/
def dataInFlight (t : ℕ) : List (BitVec 32) :=
  slots (valid (ρ.state t).mAxis.axisTvalidDelay (ρ.state t).mAxisTdata)
    (valid (ρ.state t).mAxis.validReg ((heldAt ρ t).out P.TAPS ρ.start.axi.coefSlvReg))

theorem filterOut_eq_out {n t : ℕ} (hen : KeepsEnabled ρ n) (hcoeff : KeepsCoeff ρ n)
    (he : Elastic ρ n) (ht : t < n)
    (hcapture : (ρ.state t).mAxis.txEn (ρ.input t).mAxisTready = true) :
    (ρ.state t).filterOut P = (heldAt ρ t).out P.TAPS ρ.start.axi.coefSlvReg := by
  have hline := uFilter_eq_line ρ hen hcoeff
    (fun u hu ha => he.idle u t hu ht ha hcapture) (by omega : t ≤ n)
  rw [MyFir.filterOut, Held.out, heldAt_sample]
  exact summedSignal_congr P.TAPS_pos (hcoeff t ht) hline (by have := P.TAPS_pos; omega)

theorem dataInFlight_next {n t : ℕ} (hen : KeepsEnabled ρ n) (hcoeff : KeepsCoeff ρ n)
    (he : Elastic ρ n) (ht : t < n) :
    dataInFlight ρ t ++ (whenHigh (accepts ρ) (fun t =>
        (heldAt ρ (t + 1)).out P.TAPS ρ.start.axi.coefSlvReg) t).toList =
      (whenHigh (transfers ρ) (fun t => (ρ.state t).mAxisTdata) t).toList ++
        dataInFlight ρ (t + 1) := by
  have haccepts := accepts_of_enabled ρ (hen t ht).1
  have hdata := MyFir.next_mAxisTdata P (ρ.input t) (ρ.state t) (hen t ht).2
  cases hready : (ρ.input t).mAxisTready with
  | true =>
    -- the pipeline moves on, and captures what the sample-clocked filter gives
    have hnext : dataInFlight ρ (t + 1) =
        slots (valid (ρ.state t).mAxis.validReg
            ((heldAt ρ t).out P.TAPS ρ.start.axi.coefSlvReg))
          (valid (ρ.input t).sAxisTvalid
            ((heldAt ρ (t + 1)).out P.TAPS ρ.start.axi.coefSlvReg)) := by
      cases hv : (ρ.state t).mAxis.validReg with
      | false => simp [dataInFlight, (hen t ht).2, hv]
      | true =>
        have hcapture : (ρ.state t).mAxis.txEn (ρ.input t).mAxisTready = true := by
          simp [MAxis.txEn, hready, hv]
        rw [if_pos hcapture, filterOut_eq_out ρ hen hcoeff he ht hcapture] at hdata
        simp [dataInFlight, (hen t ht).2, hv, MyFir.mAxisTdata, hdata]
    rw [hnext, dataInFlight]
    simpa [whenHigh, haccepts, transfers, hready, MyFir.mAxisTvalid] using slots_shift _ _ _
  | false =>
    -- neither the data nor, by `he.stall`, the valid bits change
    obtain ⟨hv, hr⟩ := he.stall t ht hready
    have hno : accepts ρ t = false := by rw [haccepts, hready, Bool.and_false]
    have hkeep : (ρ.state (t + 1)).mAxisTdata = (ρ.state t).mAxisTdata := by
      simpa [MAxis.txEn, hready, MyFir.mAxisTdata] using hdata
    have hheld : heldAt ρ (t + 1) = heldAt ρ t := by simp [heldAt, hno]
    have hnext : dataInFlight ρ (t + 1) = dataInFlight ρ t := by
      rw [dataInFlight, dataInFlight, hkeep, hheld]
      simp [(hen t ht).2, hv, hr]
    rw [hnext]
    simp [whenHigh, hno, transfers, hready]

/-- In an elastic run the words transferred, then those in flight, are those in flight at
the start, then the outputs of the filter clocked by the accepted samples. -/
theorem sampleClocked_conservation {n : ℕ} (hen : KeepsEnabled ρ n) (hcoeff : KeepsCoeff ρ n)
    (he : Elastic ρ n) :
    dataInFlight ρ 0 ++ (⟨ρ.start.heldSample, ρ.start.uFilter⟩ : Held).stream P.TAPS
        ρ.start.axi.coefSlvReg (acceptedData ρ n) =
      transferredData ρ n ++ dataInFlight ρ n := by
  rw [← collect_out_heldAt]
  exact collect_conservation (dataInFlight ρ) fun t ht =>
    dataInFlight_next ρ hen hcoeff he ht

theorem transferredData_eq_take {n : ℕ} (hen : KeepsEnabled ρ n) (hcoeff : KeepsCoeff ρ n)
    (he : Elastic ρ n) (hcount : tally (transfers ρ) n = tally (accepts ρ) n) :
    transferredData ρ n = (dataInFlight ρ 0 ++ (⟨ρ.start.heldSample, ρ.start.uFilter⟩ :
      Held).stream P.TAPS ρ.start.axi.coefSlvReg (acceptedData ρ n)).take
        (acceptedData ρ n).length := by
  have hlen : (acceptedData ρ n).length = (transferredData ρ n).length := by
    rw [transferredData, acceptedData, length_collect_whenHigh, length_collect_whenHigh, hcount]
  rw [sampleClocked_conservation ρ hen hcoeff he, hlen, List.take_left]

/-- Two runs from the same state that accept the same samples and transfer as many words
transfer the same words, if each of them is elastic. -/
theorem transferredData_eq_of_accepted_eq {ρ₁ ρ₂ : (myFir P).Run} {n₁ n₂ : ℕ}
    (hstart : ρ₁.start = ρ₂.start) (hen₁ : KeepsEnabled ρ₁ n₁) (hen₂ : KeepsEnabled ρ₂ n₂)
    (hcoeff₁ : KeepsCoeff ρ₁ n₁) (hcoeff₂ : KeepsCoeff ρ₂ n₂)
    (hacc : acceptedData ρ₁ n₁ = acceptedData ρ₂ n₂)
    (hcount₁ : tally (transfers ρ₁) n₁ = tally (accepts ρ₁) n₁)
    (hcount₂ : tally (transfers ρ₂) n₂ = tally (accepts ρ₂) n₂)
    (he₁ : Elastic ρ₁ n₁) (he₂ : Elastic ρ₂ n₂) :
    transferredData ρ₁ n₁ = transferredData ρ₂ n₂ := by
  have hflight : dataInFlight ρ₁ 0 = dataInFlight ρ₂ 0 := by simp [dataInFlight, heldAt, hstart]
  rw [transferredData_eq_take ρ₁ hen₁ hcoeff₁ he₁ hcount₁,
    transferredData_eq_take ρ₂ hen₂ hcoeff₂ he₂ hcount₂, hflight, hacc, hstart]

/-- With a single tap and an empty delay line only stalls matter. -/
theorem elastic_of_singleTap {n : ℕ} (hcoeff : KeepsCoeff ρ n)
    (htap : SingleTap P.TAPS ρ.start.axi.coefSlvReg) (hline : LineZero P.TAPS ρ.start.uFilter)
    (hstall : ∀ t < n, (ρ.input t).mAxisTready = false →
      (ρ.input t).sAxisTvalid = (ρ.state t).mAxis.axisTvalidDelay ∧
        (ρ.state t).mAxis.validReg = (ρ.state t).mAxis.axisTvalidDelay) : Elastic ρ n := by
  have htap' : ∀ t < n, SingleTap P.TAPS (ρ.state t).axi.coefSlvReg := fun t ht k h2 hk => by
    rw [hcoeff t ht k (by omega) hk, htap k h2 hk]
  have hzero : ∀ t ≤ n, LineZero P.TAPS (ρ.state t).uFilter :=
    ρ.holds_of_step (I := fun _ s => LineZero P.TAPS s.uFilter) hline
      fun t ht hline => lineZero_next (htap' t ht) hline _ _
  refine ⟨hstall, fun t t' htt' ht' _ _ i hi => ?_⟩
  rw [hzero t (by omega) i hi]
  exact lineZero_summedSignal (htap' t (by omega)) (hzero t (by omega)) _ i hi

/-! ## Three taps, a gap, a stall -/

/-- A filter programmed with `writes`, a sink that is always ready, and the samples `1`
and `2` in the cycles `0` and `gap`. -/
def gapRun (writes : List (BitVec 32 × BitVec 32)) (gap : ℕ) : (myFir (firTop fun _ => 0)).Run where
  start := programmed (firTop fun _ => 0) writes
  input t :=
    { idlePort with
      sAxisTvalid := decide (t = 0 ∨ t = gap), sAxisTdata := if t = 0 then 1 else 2,
      mAxisTready := true }

theorem gapRun_keepsCoeff (writes : List (BitVec 32 × BitVec 32)) (gap n : ℕ) :
    KeepsCoeff (gapRun writes gap) n := fun t ht k _ _ => by
  rw [(regs_eq_start (gapRun writes gap) (n := n) (fun _ _ => ⟨rfl, rfl⟩) t ht.le).2]

/-- With `coeff[3] = 1` two idle cycles between the samples change the second output. -/
theorem gapRun_differs :
    let ρ₁ := gapRun [(0, 1), (12, 1)] 1
    let ρ₂ := gapRun [(0, 1), (12, 1)] 3
    ρ₁.start = ρ₂.start ∧ (∀ i < 4, ρ₁.start.uFilter i = 0) ∧
      ρ₁.start.sAxis.streamDataOut = 0 ∧ KeepsEnabled ρ₁ 6 ∧ KeepsEnabled ρ₂ 6 ∧
      KeepsCoeff ρ₁ 6 ∧ KeepsCoeff ρ₂ 6 ∧ acceptedData ρ₁ 6 = acceptedData ρ₂ 6 ∧
      tally (transfers ρ₁) 6 = tally (accepts ρ₁) 6 ∧
      tally (transfers ρ₂) 6 = tally (accepts ρ₂) 6 ∧
      transferredData ρ₁ 6 ≠ transferredData ρ₂ 6 := by
  refine ⟨rfl, by decide, by decide, ?_, ?_, gapRun_keepsCoeff _ _ _, gapRun_keepsCoeff _ _ _,
    by decide, by decide, by decide, by decide⟩
  · unfold KeepsEnabled
    decide
  · unfold KeepsEnabled
    decide

theorem identity_programmed :
    SingleTap 5 (programmed (firTop fun _ => 0) [(0, 1), (4, 1)]).axi.coefSlvReg ∧
      LineZero 5 (programmed (firTop fun _ => 0) [(0, 1), (4, 1)]).uFilter := by
  refine ⟨fun k h2 h5 => ?_, fun i hi => ?_⟩
  · interval_cases k <;> decide
  · have hi : i < 4 := Nat.lt_of_succ_lt_succ hi
    interval_cases i <;> decide

/-- The filter with a single tap, the samples in their cycles (0 for none), and a sink that stalls
in the cycles of `stalled`. -/
def sampleRun (samples stalled : List ℕ) : (myFir (firTop fun _ => 0)).Run where
  start := programmed (firTop fun _ => 0) [(0, 1), (4, 1)]
  input t :=
    { idlePort with
      sAxisTvalid := decide (samples.getD t 0 ≠ 0),
      sAxisTdata := BitVec.ofNat 32 (samples.getD t 0), mAxisTready := decide (t ∉ stalled) }

theorem sampleRun_keepsCoeff (samples stalled : List ℕ) (n : ℕ) :
    KeepsCoeff (sampleRun samples stalled) n := fun t ht k _ _ => by
  rw [(regs_eq_start (sampleRun samples stalled) (n := n) (fun _ _ => ⟨rfl, rfl⟩) t ht.le).2]

/-- Four samples, in one run with a stall inside the burst, in the other with a gap. -/
theorem transferredData_eq_of_accepted_eq_sampleRun :
    transferredData (sampleRun [1, 2, 3, 3, 4] [2]) 7 =
      transferredData (sampleRun [1, 2, 0, 3, 4] []) 7 :=
  transferredData_eq_of_accepted_eq rfl (by unfold KeepsEnabled; decide)
    (by unfold KeepsEnabled; decide) (sampleRun_keepsCoeff _ _ _) (sampleRun_keepsCoeff _ _ _)
    (by decide) (by decide) (by decide)
    (elastic_of_singleTap _ (sampleRun_keepsCoeff _ _ _) identity_programmed.1
      identity_programmed.2 (by decide))
    (elastic_of_singleTap _ (sampleRun_keepsCoeff _ _ _) identity_programmed.1
      identity_programmed.2 (by decide))

/-- A packet of three beats, and a sink that stalls in the cycles of `stalled`. -/
def packetRun (stalled : List ℕ) : (myFir (firTop fun _ => 0)).Run where
  start := programmed (firTop fun _ => 0) [(0, 1)]
  input t :=
    { idlePort with
      sAxisTvalid := decide (t < 3 + stalled.length), sAxisTdata := BitVec.ofNat 32 (min t 2),
      sAxisTlast := decide (2 ≤ t ∧ t < 3 + stalled.length), mAxisTready := decide (t ∉ stalled) }

theorem packetRun_spec {stalled : List ℕ} :
    Quiescent (firTop fun _ => 0) (packetRun stalled).start ∧
      KeepsEnabled (packetRun stalled) 7 := by
  refine ⟨quiescent_programmed (by decide), fun t ht => ⟨?_, rfl⟩⟩
  have h := (regs_eq_start (packetRun stalled) (n := t) (fun _ _ => ⟨rfl, rfl⟩) t le_rfl).1
  rw [SAxi.en, h]
  change (programmed (firTop fun _ => 0) [(0, 1)]).axi.en = true
  decide

/-- Stalled for two cycles while its last beat waits, the packet comes out as three
packets. -/
theorem packetRun_breaks :
    Quiescent (firTop fun _ => 0) (packetRun [2, 3]).start ∧ KeepsEnabled (packetRun [2, 3]) 7 ∧
      CompliantSource (packetRun [2, 3]) 7 ∧
      tally (transfers (packetRun [2, 3])) 7 = tally (accepts (packetRun [2, 3])) 7 ∧
      transferredLast (packetRun [2, 3]) 7 ≠ acceptedLast (packetRun [2, 3]) 7 := by
  refine ⟨packetRun_spec.1, packetRun_spec.2, ?_, by decide, by decide⟩
  intro t ht hv ha
  have ht : t < 6 := by omega
  revert hv ha
  interval_cases t <;> decide

/-- A packet of six beats, and a sink that stalls while the fourth is presented. -/
def stalledPacketRun : (myFir (firTop fun _ => 0)).Run where
  start := programmed (firTop fun _ => 0) [(0, 1)]
  input t :=
    { idlePort with
      sAxisTvalid := decide (t < 7), sAxisTdata := if t ≤ 3 then BitVec.ofNat 32 t else
        BitVec.ofNat 32 (t - 1),
      sAxisTlast := decide (t = 6), mAxisTready := decide (t ≠ 3) }

theorem transferredLast_eq_acceptedLast_stalledPacketRun :
    transferredLast stalledPacketRun 9 = acceptedLast stalledPacketRun 9 :=
  transferredLast_eq_acceptedLast _ (quiescent_programmed (by decide))
    (by unfold KeepsEnabled; decide) (by decide) (by unfold StallKeepsLast; decide)

end FirDemo
