import Mathlib.Algebra.BigOperators.Intervals
import Mathlib.Algebra.Order.BigOperators.Group.Finset
import Mathlib.Tactic.Common

/-!
# The transposed form of a convolution

A chain of registers adds one tap per stage. Stage `0` is the oldest tap alone, stage
`i + 1` the tap `taps - 1 - i` on top of what register `i` holds, and register `i` takes
the sum of stage `i` on every cycle, or is cleared. `tap t k` is what tap `k` contributes
in cycle `t` : the contributions are any elements of a commutative monoid and may
change from cycle to cycle.

`Chain.sums_unroll` follows one sum back through the registers. The last stage is then
the direct form `directForm`, over as many taps as cycles have passed since the chain
was last cleared (`Chain.sums_last`) or over all of them (`Chain.sums_last_of_run`).

An additive map takes a chain to a chain (`Chain.map`), and in an ordered group bounds on
the taps bound every stage (`Chain.abs_sums_le_sum`).
-/

open Finset

namespace TransposedForm

variable {M : Type*} [AddCommMonoid M]

/-- The sums of the stages in one cycle. -/
def sums (taps : ℕ) (tap reg : ℕ → M) : ℕ → M
  | 0 => tap taps
  | i + 1 => tap (taps - 1 - i) + reg i

/-- The registers of a chain over time : `run t` is low in the cycles that clear it. -/
structure Chain (taps : ℕ) (tap : ℕ → ℕ → M) (run : ℕ → Bool) where
  reg : ℕ → ℕ → M
  reg_succ : ∀ t i, reg (t + 1) i = if run t then sums taps (tap t) (reg t) i else 0

/-- The direct form in cycle `t`, over the `m` youngest taps. -/
def directForm (tap : ℕ → ℕ → M) (m t : ℕ) : M :=
  ∑ k ∈ Icc 1 m, tap (t + 1 - k) k

theorem directForm_eq_sum_range (tap : ℕ → ℕ → M) (m t : ℕ) :
    directForm tap m t = ∑ j ∈ range m, tap (t - j) (j + 1) := by
  rw [directForm, ← Finset.Ico_add_one_right_eq_Icc, sum_Ico_eq_sum_range]
  refine sum_congr rfl fun j _ => ?_
  rw [Nat.add_comm 1 j, Nat.add_sub_add_right]

theorem directForm_succ (tap : ℕ → ℕ → M) (m t : ℕ) :
    directForm tap (m + 1) t = directForm tap m t + tap (t - m) (m + 1) := by
  rw [directForm_eq_sum_range, sum_range_succ, ← directForm_eq_sum_range]

namespace Chain

variable {taps : ℕ} {tap : ℕ → ℕ → M} {run : ℕ → Bool} (c : Chain taps tap run)

/-- The sums of the stages in cycle `t`. -/
def sums (t : ℕ) : ℕ → M :=
  TransposedForm.sums taps (tap t) (c.reg t)

/-- One stage back is one cycle back. -/
theorem sums_succ {t i : ℕ} (hi : i + 1 < taps) :
    c.sums (t + 1) (i + 1) = tap (t + 1) (taps - (i + 1)) + if run t then c.sums t i else 0 := by
  rw [sums, TransposedForm.sums, c.reg_succ, show taps - 1 - i = taps - (i + 1) by omega]
  rfl

/-- Following stage `i` back through `m` registers, while the chain is not cleared. -/
theorem sums_unroll {i t : ℕ} (hi : i < taps) :
    ∀ m, m ≤ i → m ≤ t → (∀ u < t, t - m ≤ u → run u = true) →
      c.sums t i = ∑ j ∈ range m, tap (t - j) (taps - i + j) + c.sums (t - m) (i - m)
  | 0, _, _, _ => by simp
  | m + 1, hmi, hmt, hrun => by
    have ih := sums_unroll hi m (by omega) (by omega) fun u hu hm => hrun u hu (by omega)
    have hback : c.sums (t - m) (i - m) =
        tap (t - m) (taps - i + m) + c.sums (t - (m + 1)) (i - (m + 1)) := by
      obtain ⟨t', ht'⟩ : ∃ t', t - m = t' + 1 := ⟨t - m - 1, by omega⟩
      obtain ⟨i', hi'⟩ : ∃ i', i - m = i' + 1 := ⟨i - m - 1, by omega⟩
      rw [ht', hi', c.sums_succ (by omega), if_pos (hrun t' (by omega) (by omega)),
        show taps - (i' + 1) = taps - i + m by omega, show t - (m + 1) = t' by omega,
        show i - (m + 1) = i' by omega]
    rw [ih, hback, sum_range_succ, add_assoc]

/-- A chain that ran for `taps - 1` cycles gives the direct form of all taps. -/
theorem sums_last_of_run {t : ℕ} (htaps : 0 < taps) (ht : taps ≤ t + 1)
    (hrun : ∀ u < t, t + 1 - taps ≤ u → run u = true) :
    c.sums t (taps - 1) = directForm tap taps t := by
  have h := c.sums_unroll (i := taps - 1) (by omega) (taps - 1) le_rfl (by omega)
    fun u hu hm => hrun u hu (by omega)
  obtain ⟨n, rfl⟩ : ∃ n, taps = n + 1 := ⟨taps - 1, by omega⟩
  rw [h, directForm_eq_sum_range, sum_range_succ]
  congr 1
  · refine sum_congr rfl fun j _ => ?_
    rw [show n + 1 - (n + 1 - 1) + j = j + 1 by omega]
  · simp [sums, TransposedForm.sums]

/-- After the chain was cleared in cycle `r`, the last stage is the direct form of the
taps that have seen a sample since. -/
theorem sums_last {r t : ℕ} (htaps : 0 < taps) (hrt : r < t) (hr : run r = false)
    (hrun : ∀ u < t, r < u → run u = true) :
    c.sums t (taps - 1) = directForm tap (min taps (t - r)) t := by
  rcases Nat.lt_or_ge (t - r) taps with hlt | hge
  · obtain ⟨m, hm⟩ : ∃ m, t - r = m + 1 := ⟨t - r - 1, by omega⟩
    have h := c.sums_unroll (i := taps - 1) (by omega) m (by omega) (by omega)
      fun u hu hum => hrun u hu (by omega)
    obtain ⟨i, hi⟩ : ∃ i, taps - 1 - m = i + 1 := ⟨taps - 1 - m - 1, by omega⟩
    rw [show t - m = r + 1 by omega, hi, c.sums_succ (by omega), hr,
      show taps - (i + 1) = m + 1 by omega] at h
    rw [h, Nat.min_eq_right hlt.le, hm, directForm_succ, show t - m = r + 1 by omega,
      directForm_eq_sum_range]
    simp only [Bool.false_eq_true, if_false, add_zero]
    congr 1
    refine sum_congr rfl fun j _ => ?_
    rw [show taps - (taps - 1) + j = j + 1 by omega]
  · rw [Nat.min_eq_left hge]
    exact c.sums_last_of_run htaps (by omega) fun u hu hum => hrun u hu (by omega)

/-- A chain with its taps mapped, as long as the map adds up. -/
def map {N : Type*} [AddCommMonoid N] (φ : M →+ N) :
    Chain taps (fun t k => φ (tap t k)) run where
  reg t i := φ (c.reg t i)
  reg_succ t i := by
    rw [c.reg_succ]
    cases run t with
    | false => simp
    | true => cases i <;> simp [TransposedForm.sums]

theorem sums_map {N : Type*} [AddCommMonoid N] (φ : M →+ N) (t i : ℕ) :
    (c.map φ).sums t i = φ (c.sums t i) := by
  cases i <;> simp [sums, TransposedForm.sums, map]

/-- After the chain was cleared in cycle `r` its sums depend on the taps since only. -/
theorem sums_eq_of_tap_eq {tap' : ℕ → ℕ → M} (c' : Chain taps tap' run) {r : ℕ}
    (hr : run r = false) {i t : ℕ} (hi : i < taps) (hrt : r < t)
    (htap : ∀ u, r < u → u ≤ t → ∀ k, 1 ≤ k → k ≤ taps → tap u k = tap' u k) :
    c.sums t i = c'.sums t i := by
  induction i generalizing t with
  | zero => exact htap t hrt le_rfl taps (by omega) le_rfl
  | succ i ih =>
    obtain ⟨u, rfl⟩ : ∃ u, t = u + 1 := ⟨t - 1, by omega⟩
    rw [c.sums_succ hi, c'.sums_succ hi, htap (u + 1) hrt le_rfl _ (by omega) (by omega)]
    cases hrun : run u with
    | false => rfl
    | true =>
      have hru : r < u := lt_of_le_of_ne (by omega) fun h => by simp [← h, hr] at hrun
      rw [if_pos rfl, if_pos rfl, ih (by omega) hru fun v hv hvu => htap v hv (by omega)]

end Chain

/-! ## How large the sums become -/

namespace Chain

variable {G : Type*} [AddCommGroup G] [LinearOrder G] [IsOrderedAddMonoid G] {taps : ℕ}
  {tap : ℕ → ℕ → G} {run : ℕ → Bool} (c : Chain taps tap run)

/-- If the taps since the chain was cleared are bounded by `b`, a stage is bounded by the
taps that it adds up. -/
theorem abs_sums_le {r : ℕ} (hr : run r = false) {b : ℕ → G} {i t : ℕ} (hi : i < taps)
    (hrt : r < t) (hb : ∀ u, r < u → u ≤ t → ∀ k, 1 ≤ k → k ≤ taps → |tap u k| ≤ b k) :
    |c.sums t i| ≤ ∑ j ∈ range (i + 1), b (taps - j) := by
  induction i generalizing t with
  | zero =>
    rw [sum_range_one, Nat.sub_zero]
    exact hb t hrt le_rfl taps (by omega) le_rfl
  | succ i ih =>
    obtain ⟨u, rfl⟩ : ∃ u, t = u + 1 := ⟨t - 1, by omega⟩
    have htap := hb (u + 1) hrt le_rfl (taps - (i + 1)) (by omega) (by omega)
    have hreg : |if run u then c.sums u i else 0| ≤ ∑ j ∈ range (i + 1), b (taps - j) := by
      cases hrun : run u with
      | false =>
        rw [if_neg Bool.false_ne_true, abs_zero]
        refine sum_nonneg fun j hj => ?_
        rw [mem_range] at hj
        exact (abs_nonneg _).trans (hb (u + 1) hrt le_rfl (taps - j) (by omega) (by omega))
      | true =>
        have hru : r < u := lt_of_le_of_ne (by omega) fun h => by simp [← h, hr] at hrun
        exact ih (by omega) hru fun v hv hvu => hb v hv (by omega)
    rw [c.sums_succ hi, sum_range_succ _ (i + 1), add_comm]
    exact (abs_add_le _ _).trans (add_le_add hreg htap)

/-- Every stage is bounded by all taps together. -/
theorem abs_sums_le_sum {r : ℕ} (hr : run r = false) {b : ℕ → G} {i t : ℕ} (hi : i < taps)
    (hrt : r < t) (hb : ∀ u, r < u → u ≤ t → ∀ k, 1 ≤ k → k ≤ taps → |tap u k| ≤ b k) :
    |c.sums t i| ≤ ∑ k ∈ Icc 1 taps, b k := by
  have hall : ∑ j ∈ range taps, b (taps - j) = ∑ k ∈ Icc 1 taps, b k := by
    rw [← Finset.Ico_add_one_right_eq_Icc, sum_Ico_eq_sum_range, Nat.add_sub_cancel,
      ← sum_range_reflect]
    refine sum_congr rfl fun j hj => ?_
    rw [mem_range] at hj
    rw [show taps - (taps - 1 - j) = 1 + j by omega]
  rw [← hall]
  refine (c.abs_sums_le hr hi hrt hb).trans
    (sum_le_sum_of_subset_of_nonneg (range_mono hi) fun j hj _ => ?_)
  rw [mem_range] at hj
  exact (abs_nonneg _).trans (hb t hrt le_rfl (taps - j) (by omega) (by omega))

end Chain

end TransposedForm
