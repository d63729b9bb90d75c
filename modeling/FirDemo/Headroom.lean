import FirDemo.FirTransposed
import Mathlib.Algebra.BigOperators.Ring.Finset

/-!
# The headroom of the accumulators

`summed_signal` and `delayed_signal` have 32 bits and no guard bits. The chain of the
exact integer products (`exactChain`) never leaves their range if the absolute values of
the coefficients add up to at most `65535`, whatever the samples. Then no operation of any
block wraps and `filtered_signal` is the exact convolution. With a sum of `65536` two taps
are enough to wrap (`accumulator_headroom`).
-/

open Finset Synchronous

namespace FirDemo

/-- No operation of a cycle wraps : the 16-bit product of the oldest tap, and the product
and the sum of every block. The registers only copy. -/
structure NoWrap (TAPS : ℕ) (coeff : ℕ → BitVec 16) (x : BitVec 16) (delayed : ℕ → BitVec 32) :
    Prop where
  oldest : (summedSignal TAPS coeff x delayed 0).toInt = (coeff TAPS).toInt * x.toInt
  mul : ∀ i, i + 1 < TAPS →
    (TransposedBlock.mul (coeff (TAPS - 1 - i)) x).toInt = (coeff (TAPS - 1 - i)).toInt * x.toInt
  summed : ∀ i, i + 1 < TAPS →
    (summedSignal TAPS coeff x delayed (i + 1)).toInt =
      (TransposedBlock.mul (coeff (TAPS - 1 - i)) x).toInt + (delayed i).toInt

/-- An integer below `2 ^ 31` in absolute value is read back from 32 bits. -/
theorem toInt_ofInt_of_abs_lt {z : ℤ} (h : |z| < 2 ^ 31) : (BitVec.ofInt 32 z).toInt = z := by
  have := abs_lt.1 h
  rw [BitVec.toInt_ofInt, bmod_eq_self_iff (by norm_num)]
  norm_num at *
  omega

theorem toInt_mul (c x : BitVec 16) : (TransposedBlock.mul c x).toInt = fullProduct c x := by
  rw [mul_eq_ofInt, toInt_ofInt_of_abs_lt]
  exact (abs_fullProduct_le c x).trans_lt (by norm_num)

/-- Every sample is at most `2 ^ 15` in absolute value. -/
theorem abs_fullProduct_le_mul (c x : BitVec 16) : |fullProduct c x| ≤ |c.toInt| * 2 ^ 15 := by
  rw [fullProduct, abs_mul]
  refine mul_le_mul_of_nonneg_left ?_ (abs_nonneg _)
  have h1 := BitVec.le_toInt x
  have h2 := BitVec.toInt_lt (x := x)
  rw [abs_le]
  constructor <;> norm_num at * <;> omega

/-! ## The exact chain -/

section chain

variable {TAPS : ℕ} (ρ : (firTransposed TAPS).Run)

/-- The contents of the registers, in integers. -/
def exactReg : ℕ → ℕ → ℤ
  | 0, _ => 0
  | t + 1, i =>
    if (ρ.input t).resetn then
      TransposedForm.sums TAPS
        (fun k => fullProduct ((ρ.input t).coeff k) (ρ.input t).noisySignal) (exactReg t) i
    else 0

/-- The chain of the exact products. -/
def exactChain : TransposedForm.Chain TAPS
    (fun t k => fullProduct ((ρ.input t).coeff k) (ρ.input t).noisySignal)
    (fun t => (ρ.input t).resetn) where
  reg := exactReg ρ
  reg_succ _ _ := rfl

/-- From cycle `r`, a reset cycle, to cycle `t` there is no other reset, the coefficients
are `c`, with absolute values that add up to at most `65535`, and the products of the oldest
tap fit in 16 signed bits. -/
structure WithinHeadroom (r t : ℕ) (c : ℕ → BitVec 16) : Prop where
  reset : (ρ.input r).resetn = false
  lt : r < t
  run : ∀ u, r < u → u ≤ t → (ρ.input u).resetn = true
  coeff : ∀ u, r < u → u ≤ t → ∀ k, 1 ≤ k → k ≤ TAPS → (ρ.input u).coeff k = c k
  sum_le : ∑ k ∈ Icc 1 TAPS, |(c k).toInt| ≤ 65535
  fits : ∀ u, r < u → u ≤ t → FitsSigned16 (fullProduct (c TAPS) (ρ.input u).noisySignal)

end chain

namespace WithinHeadroom

variable {TAPS : ℕ} {ρ : (firTransposed TAPS).Run} {r t : ℕ} {c : ℕ → BitVec 16}
  (hTAPS : 0 < TAPS) (h : WithinHeadroom ρ r t c)
include h

theorem of_le {u : ℕ} (hru : r < u) (hut : u ≤ t) : WithinHeadroom ρ r u c where
  reset := h.reset
  lt := hru
  run v hv hvu := h.run v hv (by omega)
  coeff v hv hvu := h.coeff v hv (by omega)
  sum_le := h.sum_le
  fits v hv hvu := h.fits v hv (by omega)

/-- The exact sums stay in the range of 32 bits. -/
theorem abs_sums_lt {i : ℕ} (hi : i < TAPS) : |(exactChain ρ).sums t i| < 2 ^ 31 := by
  have hle := (exactChain ρ).abs_sums_le_sum (b := fun k => |(c k).toInt| * 2 ^ 15) h.reset hi h.lt
    fun u hu hut k h1 hk => by
      rw [h.coeff u hu hut k h1 hk]
      exact abs_fullProduct_le_mul (c k) _
  rw [← sum_mul] at hle
  calc |(exactChain ρ).sums t i| ≤ (∑ k ∈ Icc 1 TAPS, |(c k).toInt|) * 2 ^ 15 := hle
    _ ≤ 65535 * 2 ^ 15 := mul_le_mul_of_nonneg_right h.sum_le (by norm_num)
    _ < 2 ^ 31 := by norm_num

include hTAPS

/-- So the 32-bit sums are the exact ones. -/
theorem toInt_sums {i : ℕ} (hi : i < TAPS) :
    ((filterChain hTAPS ρ).sums t i).toInt = (exactChain ρ).sums t i := by
  have hexact := (filterChain hTAPS ρ).sums_eq_of_tap_eq
    ((exactChain ρ).map (Int.castRingHom (BitVec 32)).toAddMonoidHom) h.reset hi h.lt
    fun u hu hut k _ _ => tapProduct_of_fits
      (by rw [h.coeff u hu hut TAPS hTAPS le_rfl]; exact h.fits u hu hut) k
  rw [hexact, TransposedForm.Chain.sums_map]
  exact toInt_ofInt_of_abs_lt (h.abs_sums_lt hi)

/-- And so are the contents of the registers. -/
theorem toInt_reg {i : ℕ} (hi : i + 1 < TAPS) : (ρ.state t i).toInt = exactReg ρ t i := by
  have hlt := h.lt
  obtain ⟨u, rfl⟩ : ∃ u, t = u + 1 := ⟨t - 1, by omega⟩
  have hF := (filterChain hTAPS ρ).reg_succ u i
  have hE := (exactChain ρ).reg_succ u i
  change ρ.state (u + 1) i = _ at hF
  change exactReg ρ (u + 1) i = _ at hE
  rw [hF, hE]
  rcases Nat.lt_or_ge r u with hru | hge
  · rw [h.run u hru (by omega), if_pos rfl, if_pos rfl]
    exact (h.of_le hru (by omega)).toInt_sums hTAPS (by omega)
  · obtain rfl : u = r := by omega
    rw [h.reset]
    rfl

theorem noWrap :
    NoWrap TAPS (ρ.input t).coeff (ρ.input t).noisySignal (ρ.state t) := by
  have hsummed : ∀ i < TAPS,
      (summedSignal TAPS (ρ.input t).coeff (ρ.input t).noisySignal (ρ.state t) i).toInt =
        (exactChain ρ).sums t i := by
    intro i hi
    rw [← h.toInt_sums hTAPS hi, summedSignal_eq_sums hTAPS]
    rfl
  refine ⟨hsummed 0 hTAPS, fun i _ => toInt_mul _ _, fun i hi => ?_⟩
  rw [hsummed (i + 1) hi, h.toInt_reg hTAPS hi, toInt_mul]
  rfl

theorem toInt_filteredAt : (filteredAt ρ t).toInt = convolution ρ (min TAPS (t - r)) t := by
  rw [filteredAt_eq_sums hTAPS, h.toInt_sums hTAPS (by omega),
    (exactChain ρ).sums_last hTAPS h.lt h.reset fun u hu hru => h.run u hru (by omega)]
  rfl

end WithinHeadroom

/-! ## Two taps at the end of the range -/

/-- `coeff[1] = -32768`, `coeff[2] = second` and the other coefficients zero. -/
def extremeCoeff (second : BitVec 16) (k : ℕ) : BitVec 16 :=
  if k = 1 then 0x8000 else if k = 2 then second else 0

/-- The sample `-32768` throughout, reset in cycle `0`. -/
def extremeRun (TAPS : ℕ) (second : BitVec 16) : (firTransposed TAPS).Run where
  start _ := 0
  input t := ⟨decide (t ≠ 0), 0x8000, extremeCoeff second⟩

theorem extremeCoeff_of_le {second : BitVec 16} {k : ℕ} (hk : 3 ≤ k) :
    extremeCoeff second k = 0 := by
  rw [extremeCoeff, if_neg (by omega), if_neg (by omega)]

theorem sum_extremeCoeff {TAPS : ℕ} (hTAPS : 2 ≤ TAPS) :
    ∑ k ∈ Icc 1 TAPS, |(extremeCoeff 0x8000 k).toInt| = 65536 := by
  have hsub : Icc 1 2 ⊆ Icc 1 TAPS := Icc_subset_Icc_right hTAPS
  rw [← sum_subset hsub]
  · decide
  · intro k hk hk'
    rw [mem_Icc] at hk hk'
    rw [extremeCoeff_of_le (by omega)]
    rfl

/-- The exact sum of the two products is `2 ^ 31`. -/
theorem extremeRun_wraps {TAPS : ℕ} (hTAPS : 2 ≤ TAPS) :
    (filteredAt (extremeRun TAPS 0x8000) 2).toInt ≠
      convolution (extremeRun TAPS 0x8000) (min TAPS (2 - 0)) 2 := by
  have hconv : convolution (extremeRun TAPS 0x8000) (min TAPS (2 - 0)) 2 = 2 ^ 31 := by
    rw [Nat.sub_zero, Nat.min_eq_right hTAPS]
    change ∑ k ∈ Icc 1 2, fullProduct (extremeCoeff 0x8000 k) 0x8000 = 2 ^ 31
    decide
  have hlt := BitVec.toInt_lt (x := filteredAt (extremeRun TAPS 0x8000) 2)
  rw [hconv]
  norm_num at *
  omega

/-- With coefficients whose absolute values add up to at most `65535`, and whose oldest
product fits, no operation wraps in any cycle after reset and the filter is the exact
convolution. The bound is sharp for three taps or more. -/
theorem accumulator_headroom :
    (∀ {TAPS : ℕ} (ρ : (firTransposed TAPS).Run) {r t : ℕ} {c : ℕ → BitVec 16}, 0 < TAPS →
      WithinHeadroom ρ r t c →
        NoWrap TAPS (ρ.input t).coeff (ρ.input t).noisySignal (ρ.state t) ∧
          (filteredAt ρ t).toInt = convolution ρ (min TAPS (t - r)) t) ∧
    ∀ TAPS, 3 ≤ TAPS → ∃ (c : ℕ → BitVec 16) (ρ : (firTransposed TAPS).Run) (t : ℕ),
      ∑ k ∈ Icc 1 TAPS, |(c k).toInt| = 65536 ∧ c TAPS = 0 ∧ 0 < t ∧
        (ρ.input 0).resetn = false ∧ (∀ u, 0 < u → (ρ.input u).resetn = true) ∧
        (∀ u, (ρ.input u).coeff = c) ∧
        (filteredAt ρ t).toInt ≠ convolution ρ (min TAPS (t - 0)) t := by
  refine ⟨fun ρ r t c hTAPS h => ⟨h.noWrap hTAPS, h.toInt_filteredAt hTAPS⟩, fun TAPS h3 => ?_⟩
  exact ⟨extremeCoeff 0x8000, extremeRun TAPS 0x8000, 2, sum_extremeCoeff (by omega),
    extremeCoeff_of_le h3, by decide, rfl, fun u hu => decide_eq_true (by omega), fun _ => rfl,
    extremeRun_wraps (by omega)⟩

/-- One less, and the same samples do not wrap. -/
theorem accumulator_headroom_extremeRun :
    (filteredAt (extremeRun 5 0x8001) 4).toInt =
      convolution (extremeRun 5 0x8001) (min 5 (4 - 0)) 4 := by
  have hwithin : WithinHeadroom (extremeRun 5 0x8001) 0 4 (extremeCoeff 0x8001) := by
    refine ⟨rfl, by decide, fun u hu _ => decide_eq_true (by omega), fun _ _ _ _ _ _ => rfl,
      by decide, fun u _ _ => ?_⟩
    rw [extremeCoeff_of_le (by decide)]
    simp [FitsSigned16, fullProduct]
  exact (accumulator_headroom.1 _ (by decide) hwithin).2

end FirDemo
