import FirDemo.Synchronous
import FirDemo.TransposedForm
import Mathlib.Algebra.Order.Ring.Abs
import Mathlib.Data.BitVec
import Mathlib.Tactic.Ring
import Mathlib.Tactic.Linarith

/-!
# The transposed filter

`transposed_block` multiplies at the width of `mul`, 32 bits. `FIR_transposed` writes the
product of its oldest tap as `$signed(noisy_signal * coeff[TAPS])` : an argument of
`$signed` is self-determined, so that product is 16 bits wide before it is extended.

`filteredSignal_eq_iff` compares the filter with the direct form of the full products.
They agree in a cycle exactly when the oldest tap has seen no sample since the reset or
its product fits in 16 signed bits.
-/

open Finset Synchronous

namespace FirDemo

/-! ## `transposed_block` and `FIR_transposed` -/

namespace TransposedBlock

/-- `assign mul = coeff * normal_signal`, both extended to the 32 bits of `mul`. -/
def mul (coeff normalSignal : BitVec 16) : BitVec 32 :=
  coeff.signExtend 32 * normalSignal.signExtend 32

/-- `assign summed_signal = mul + delayed_signal`. -/
def summedSignal (coeff normalSignal : BitVec 16) (delayedSignal : BitVec 32) : BitVec 32 :=
  mul coeff normalSignal + delayedSignal

/-- The clocked process of `delayed_signal`. -/
def delayedSignal (resetn : Bool) (toRegister : BitVec 32) : BitVec 32 :=
  if !resetn then 0 else toRegister

end TransposedBlock

/-- `summed_signal[0:TAPS-1]`. `delayed i` is the register of the block `gen_block[i]`. -/
def summedSignal (TAPS : ℕ) (coeff : ℕ → BitVec 16) (noisySignal : BitVec 16)
    (delayed : ℕ → BitVec 32) : ℕ → BitVec 32
  | 0 => (noisySignal * coeff TAPS).signExtend 32
  | i + 1 => TransposedBlock.summedSignal (coeff (TAPS - 1 - i)) noisySignal (delayed i)

/-- `filtered_signal`. -/
def filteredSignal (TAPS : ℕ) (coeff : ℕ → BitVec 16) (noisySignal : BitVec 16)
    (delayed : ℕ → BitVec 32) : BitVec 32 :=
  summedSignal TAPS coeff noisySignal delayed (TAPS - 1)

/-- The inputs of `FIR_transposed` in one cycle. `coeff k` is `coeff[k]`, `1 ≤ k ≤ TAPS`. -/
structure FirPort where
  resetn : Bool
  noisySignal : BitVec 16
  coeff : ℕ → BitVec 16

/-- `FIR_transposed` : its state is the registers of the blocks. -/
def firTransposed (TAPS : ℕ) : Machine (ℕ → BitVec 32) FirPort where
  next delayed p i :=
    TransposedBlock.delayedSignal p.resetn (summedSignal TAPS p.coeff p.noisySignal delayed i)

/-- `filtered_signal` in cycle `t` of a run. -/
def filteredAt {TAPS : ℕ} (ρ : (firTransposed TAPS).Run) (t : ℕ) : BitVec 32 :=
  filteredSignal TAPS (ρ.input t).coeff (ρ.input t).noisySignal (ρ.state t)

/-- Only the coefficients up to `TAPS` and the registers of the `TAPS - 1` blocks count. -/
theorem summedSignal_congr {TAPS : ℕ} {c c' : ℕ → BitVec 16} {x : BitVec 16}
    {d d' : ℕ → BitVec 32} (hTAPS : 0 < TAPS) (hc : ∀ k, 1 ≤ k → k ≤ TAPS → c k = c' k)
    (hd : ∀ i, i + 1 < TAPS → d i = d' i) {i : ℕ} (hi : i < TAPS) :
    summedSignal TAPS c x d i = summedSignal TAPS c' x d' i := by
  cases i with
  | zero => simp only [summedSignal, hc TAPS hTAPS le_rfl]
  | succ i => simp only [summedSignal, hc (TAPS - 1 - i) (by omega) (by omega), hd i hi]

/-! ## The chain of the filter -/

/-- What tap `k` adds. The oldest tap is multiplied in 16 bits. -/
def tapProduct (TAPS : ℕ) (coeff : ℕ → BitVec 16) (x : BitVec 16) (k : ℕ) : BitVec 32 :=
  if k = TAPS then (x * coeff TAPS).signExtend 32 else TransposedBlock.mul (coeff k) x

theorem summedSignal_eq_sums {TAPS : ℕ} (hTAPS : 0 < TAPS) (coeff : ℕ → BitVec 16)
    (x : BitVec 16) (delayed : ℕ → BitVec 32) :
    summedSignal TAPS coeff x delayed =
      TransposedForm.sums TAPS (tapProduct TAPS coeff x) delayed := by
  funext i
  cases i with
  | zero => simp [summedSignal, TransposedForm.sums, tapProduct]
  | succ i =>
    have hne : TAPS - 1 - i ≠ TAPS := by omega
    simp [summedSignal, TransposedForm.sums, tapProduct, hne, TransposedBlock.summedSignal]

/-- The registers of a run are a transposed chain of its tap products. -/
def filterChain {TAPS : ℕ} (hTAPS : 0 < TAPS) (ρ : (firTransposed TAPS).Run) :
    TransposedForm.Chain TAPS
      (fun t => tapProduct TAPS (ρ.input t).coeff (ρ.input t).noisySignal)
      (fun t => (ρ.input t).resetn) where
  reg := ρ.state
  reg_succ t i := by
    rw [← summedSignal_eq_sums hTAPS, Machine.Run.state_succ]
    cases h : (ρ.input t).resetn <;> simp [firTransposed, TransposedBlock.delayedSignal, h]

theorem filteredAt_eq_sums {TAPS : ℕ} (hTAPS : 0 < TAPS) (ρ : (firTransposed TAPS).Run) (t : ℕ) :
    filteredAt ρ t = (filterChain hTAPS ρ).sums t (TAPS - 1) := by
  rw [filteredAt, filteredSignal, summedSignal_eq_sums hTAPS]
  rfl

/-! ## The direct form of the full products -/

/-- An integer that a signed 16-bit value can hold. -/
def FitsSigned16 (z : ℤ) : Prop :=
  -2 ^ 15 ≤ z ∧ z < 2 ^ 15

instance (z : ℤ) : Decidable (FitsSigned16 z) :=
  inferInstanceAs (Decidable (_ ∧ _))

/-- The product of a coefficient and a sample as an integer. -/
def fullProduct (c x : BitVec 16) : ℤ :=
  c.toInt * x.toInt

theorem mul_eq_ofInt (c x : BitVec 16) :
    TransposedBlock.mul c x = BitVec.ofInt 32 (fullProduct c x) := by
  have h : ∀ y : BitVec 16, y.signExtend 32 = BitVec.ofInt 32 y.toInt := fun y => rfl
  rw [TransposedBlock.mul, fullProduct, BitVec.ofInt_mul, ← h, ← h]

theorem abs_fullProduct_le (c x : BitVec 16) : |fullProduct c x| ≤ 2 ^ 30 := by
  have hbound : ∀ y : BitVec 16, |y.toInt| ≤ 2 ^ 15 := by
    intro y
    have h1 := BitVec.le_toInt y
    have h2 := BitVec.toInt_lt (x := y)
    rw [abs_le]
    constructor <;> norm_num at * <;> omega
  calc |fullProduct c x| = |c.toInt| * |x.toInt| := abs_mul _ _
    _ ≤ 2 ^ 15 * 2 ^ 15 := mul_le_mul (hbound c) (hbound x) (abs_nonneg _) (by norm_num)
    _ = 2 ^ 30 := by norm_num

theorem bmod_eq_self_iff {z : ℤ} {w : ℕ} (hw : 0 < w) :
    z.bmod (2 ^ w) = z ↔ -2 ^ (w - 1) ≤ z ∧ z < 2 ^ (w - 1) := by
  obtain ⟨v, rfl⟩ : ∃ v, w = v + 1 := ⟨w - 1, by omega⟩
  have hpow : ((2 ^ (v + 1) : ℕ) : ℤ) = 2 * 2 ^ v := by push_cast; ring
  constructor
  · intro h
    have h1 := Int.le_bmod (x := z) (m := 2 ^ (v + 1)) (by positivity)
    have h2 := Int.bmod_lt (x := z) (m := 2 ^ (v + 1)) (by positivity)
    rw [h, hpow] at h1 h2
    simp only [Nat.add_sub_cancel]
    omega
  · rintro ⟨h1, h2⟩
    simp only [Nat.add_sub_cancel] at h1 h2
    apply Int.bmod_eq_of_le <;> rw [hpow] <;> omega

/-- The 16-bit product of the oldest tap is the full product exactly when that fits. -/
theorem oldest_product_eq_iff (c x : BitVec 16) :
    (x * c).signExtend 32 = BitVec.ofInt 32 (fullProduct c x) ↔ FitsSigned16 (fullProduct c x) := by
  have hprod : (x * c).toInt = (fullProduct c x).bmod (2 ^ 16) := by
    rw [BitVec.toInt_mul, fullProduct, mul_comm]
  have h32 : (fullProduct c x).bmod (2 ^ 32) = fullProduct c x := by
    have := abs_le.mp (abs_fullProduct_le c x)
    rw [bmod_eq_self_iff (by norm_num)]
    norm_num at *
    omega
  rw [← BitVec.toInt_inj, BitVec.toInt_signExtend_of_le (by norm_num), BitVec.toInt_ofInt, hprod,
    h32, bmod_eq_self_iff (by norm_num)]
  rfl

/-- A tap that is not the oldest adds its full product. -/
theorem tapProduct_of_ne {TAPS k : ℕ} (h : k ≠ TAPS) (coeff : ℕ → BitVec 16) (x : BitVec 16) :
    tapProduct TAPS coeff x k = BitVec.ofInt 32 (fullProduct (coeff k) x) := by
  rw [tapProduct, if_neg h, mul_eq_ofInt]

theorem tapProduct_last (TAPS : ℕ) (coeff : ℕ → BitVec 16) (x : BitVec 16) :
    tapProduct TAPS coeff x TAPS = BitVec.ofInt 32 (fullProduct (coeff TAPS) x) ↔
      FitsSigned16 (fullProduct (coeff TAPS) x) := by
  rw [tapProduct, if_pos rfl, oldest_product_eq_iff]

/-- Every tap adds its full product when the product of the oldest tap fits. -/
theorem tapProduct_of_fits {TAPS : ℕ} {coeff : ℕ → BitVec 16} {x : BitVec 16}
    (h : FitsSigned16 (fullProduct (coeff TAPS) x)) (k : ℕ) :
    tapProduct TAPS coeff x k = BitVec.ofInt 32 (fullProduct (coeff k) x) := by
  rcases eq_or_ne k TAPS with rfl | hk
  · exact (tapProduct_last k coeff x).2 h
  · exact tapProduct_of_ne hk coeff x

theorem ofInt_sum (s : Finset ℕ) (f : ℕ → ℤ) :
    BitVec.ofInt 32 (∑ k ∈ s, f k) = ∑ k ∈ s, BitVec.ofInt 32 (f k) := by
  classical
  induction s using Finset.induction_on with
  | empty => rfl
  | insert a s ha ih => rw [sum_insert ha, sum_insert ha, BitVec.ofInt_add, ih]

/-- The exact convolution in cycle `t` of a run, over the `m` youngest taps. -/
def convolution {TAPS : ℕ} (ρ : (firTransposed TAPS).Run) (m t : ℕ) : ℤ :=
  ∑ k ∈ Icc 1 m, fullProduct ((ρ.input (t + 1 - k)).coeff k) (ρ.input (t + 1 - k)).noisySignal

/-- After a reset in cycle `r`, `filtered_signal` is the convolution modulo `2 ^ 32` in
cycle `t` exactly when the oldest tap contributes nothing yet or its product fits in 16
signed bits. -/
theorem filteredSignal_eq_iff {TAPS : ℕ} (hTAPS : 0 < TAPS) (ρ : (firTransposed TAPS).Run)
    {r t : ℕ} (hrt : r < t) (hr : (ρ.input r).resetn = false)
    (hrun : ∀ u, r < u → u ≤ t → (ρ.input u).resetn = true) :
    filteredAt ρ t = BitVec.ofInt 32 (convolution ρ (min TAPS (t - r)) t) ↔
      (TAPS ≤ t - r → FitsSigned16 (fullProduct ((ρ.input (t + 1 - TAPS)).coeff TAPS)
        (ρ.input (t + 1 - TAPS)).noisySignal)) := by
  rw [filteredAt_eq_sums hTAPS, (filterChain hTAPS ρ).sums_last hTAPS hrt hr
    fun u hu hru => hrun u hru hu.le, convolution, ofInt_sum, TransposedForm.directForm]
  rcases Nat.lt_or_ge (t - r) TAPS with hlt | hge
  · -- no term of either sum is the oldest tap
    have hmin : min TAPS (t - r) = t - r := Nat.min_eq_right hlt.le
    refine iff_of_true (sum_congr rfl fun k hk => tapProduct_of_ne ?_ _ _) fun h => by omega
    rw [mem_Icc] at hk
    omega
  · obtain ⟨n, rfl⟩ : ∃ n, TAPS = n + 1 := ⟨TAPS - 1, by omega⟩
    rw [Nat.min_eq_left hge, sum_Icc_succ_top (by omega), sum_Icc_succ_top (by omega)]
    have hsame : ∀ k ∈ Icc 1 n,
        tapProduct (n + 1) (ρ.input (t + 1 - k)).coeff (ρ.input (t + 1 - k)).noisySignal k =
          BitVec.ofInt 32 (fullProduct ((ρ.input (t + 1 - k)).coeff k)
            (ρ.input (t + 1 - k)).noisySignal) := by
      intro k hk
      rw [mem_Icc] at hk
      exact tapProduct_of_ne (by omega) _ _
    rw [sum_congr rfl hsame, add_right_inj, tapProduct_last]
    exact ⟨fun h _ => h, fun h => h hge⟩

/-! ## A single tap -/

/-- Only `coeff[1]` may be non-zero. -/
def SingleTap (TAPS : ℕ) (coeff : ℕ → BitVec 16) : Prop :=
  ∀ k, 2 ≤ k → k ≤ TAPS → coeff k = 0

/-- All registers of the delay line are zero. -/
def LineZero (TAPS : ℕ) (delayed : ℕ → BitVec 32) : Prop :=
  ∀ i, i + 1 < TAPS → delayed i = 0

section singleTap

variable {TAPS : ℕ} {coeff : ℕ → BitVec 16} {delayed : ℕ → BitVec 32}

/-- With a single tap all blocks but the last add up to zero. -/
theorem lineZero_summedSignal (hcoeff : SingleTap TAPS coeff) (hline : LineZero TAPS delayed)
    (x : BitVec 16) : LineZero TAPS (summedSignal TAPS coeff x delayed) := by
  intro i hi
  cases i with
  | zero => simp [summedSignal, hcoeff TAPS (by omega) le_rfl]
  | succ i =>
    simp [summedSignal, TransposedBlock.summedSignal, TransposedBlock.mul,
      hcoeff (TAPS - 1 - i) (by omega) (by omega), hline i (by omega)]

theorem lineZero_next (hcoeff : SingleTap TAPS coeff) (hline : LineZero TAPS delayed)
    (resetn : Bool) (x : BitVec 16) :
    LineZero TAPS ((firTransposed TAPS).next delayed ⟨resetn, x, coeff⟩) := by
  intro i hi
  simp [firTransposed, TransposedBlock.delayedSignal, lineZero_summedSignal hcoeff hline x i hi]

/-- With `coeff[1] = 1` alone the filter extends the sample. -/
theorem filteredSignal_identity (hTAPS : 0 < TAPS) (h1 : coeff 1 = 1)
    (hline : LineZero TAPS delayed) (x : BitVec 16) :
    filteredSignal TAPS coeff x delayed = x.signExtend 32 := by
  obtain ⟨n, rfl⟩ : ∃ n, TAPS = n + 1 := ⟨TAPS - 1, by omega⟩
  cases n with
  | zero => simp [filteredSignal, summedSignal, h1]
  | succ n =>
    simp [filteredSignal, summedSignal, TransposedBlock.summedSignal, TransposedBlock.mul,
      hline n (by omega), h1]

end singleTap

/-! ## A product that wraps -/

/-- Five taps, `coeff[5] = 256` and the others `0`, a constant sample `256`, reset in
cycle `0`. -/
def oldestTapRun : (firTransposed 5).Run where
  start _ := 0
  input t := ⟨decide (t ≠ 0), 256, fun k => if k = 5 then 256 else 0⟩

/-- The product `256 * 256` of the oldest tap is `0` in 16 bits. -/
theorem oldestTapRun_wraps :
    (oldestTapRun.input 0).resetn = false ∧
      (∀ u, 0 < u → u ≤ 5 → (oldestTapRun.input u).resetn = true) ∧
      filteredAt oldestTapRun 5 ≠ BitVec.ofInt 32 (convolution oldestTapRun (min 5 (5 - 0)) 5) := by
  refine ⟨rfl, fun u hu _ => decide_eq_true (by omega), ?_⟩
  decide

theorem filteredSignal_eq_iff_oldestTapRun :
    filteredAt oldestTapRun 4 = BitVec.ofInt 32 (convolution oldestTapRun (min 5 (4 - 0)) 4) ↔
      (5 ≤ 4 - 0 → FitsSigned16 (fullProduct ((oldestTapRun.input (4 + 1 - 5)).coeff 5)
        (oldestTapRun.input (4 + 1 - 5)).noisySignal)) :=
  filteredSignal_eq_iff (by decide) oldestTapRun (by decide) rfl
    fun u hu _ => decide_eq_true (by omega)

end FirDemo
