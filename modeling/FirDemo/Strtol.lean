import Mathlib.Algebra.Group.Int.Defs
import Mathlib.Data.Nat.Init

/-!
# `strtol`

The `strtol` of a C library with a 64-bit `long`, in the "C" locale and with base 0 : white
space, a sign, a prefix that gives the base, digits. A string is the characters before its
null character, and `endptr` is what is left of it.

Every value from 1 to `LONG_MAX` is read from its decimal digits (`strtol_toDigits`).
-/

namespace FirDemo

/-- `isspace` : the blank and the characters from `\t` to `\r`. -/
def isspace (c : Char) : Bool :=
  decide (c = ' ') || (decide (9 ≤ c.toNat) && decide (c.toNat ≤ 13))

/-- The value of a digit or a letter, 36 of any other character. -/
def digitValue (c : Char) : ℕ :=
  if c.isDigit then c.toNat - '0'.toNat
  else if c.isLower then c.toNat - 'a'.toNat + 10
  else if c.isUpper then c.toNat - 'A'.toNat + 10
  else 36

/-- The optional sign. -/
def splitSign : List Char → Bool × List Char
  | '-' :: cs => (true, cs)
  | '+' :: cs => (false, cs)
  | cs => (false, cs)

/-- The base that the prefix gives. `0x` is one only if a digit follows. -/
def splitBase : List Char → ℕ × List Char
  | '0' :: x :: d :: cs =>
    if (x = 'x' ∨ x = 'X') ∧ digitValue d < 16 then (16, d :: cs) else (8, '0' :: x :: d :: cs)
  | '0' :: cs => (8, '0' :: cs)
  | cs => (10, cs)

/-- The digits at the front, after those that make `acc`. -/
def readDigits (base acc : ℕ) : List Char → ℕ × List Char
  | [] => (acc, [])
  | c :: cs =>
    if digitValue c < base then readDigits base (acc * base + digitValue c) cs else (acc, c :: cs)

/-- `LONG_MAX`. -/
def longMax : ℤ := 2 ^ 63 - 1

/-- `LONG_MIN`. -/
def longMin : ℤ := -2 ^ 63

/-- The value returned, and the string at `endptr`. -/
structure StrtolResult where
  value : BitVec 64
  rest : List Char
  deriving DecidableEq

/-- `strtol(nptr, &endptr, 0)`. Without a digit `endptr` is `nptr`. -/
def strtol (nptr : List Char) : StrtolResult :=
  let (negative, unsigned) := splitSign (nptr.dropWhile isspace)
  let (base, digits) := splitBase unsigned
  let (magnitude, rest) := readDigits base 0 digits
  if rest.length = digits.length then ⟨0, nptr⟩
  else
    ⟨BitVec.ofInt 64 (max longMin (min longMax (if negative then -magnitude else magnitude))), rest⟩

/-! ## Decimal digits -/

/-- The value of a decimal digit. -/
theorem digitValue_of_isDigit {c : Char} (h : c.isDigit = true) :
    digitValue c = c.toNat - '0'.toNat :=
  if_pos h

/-- A decimal digit is below the base. -/
theorem digitValue_lt_ten {c : Char} (h : c.isDigit = true) : digitValue c < 10 := by
  have h9 := h
  rw [digitValue_of_isDigit h]
  simp only [Char.isDigit, Bool.and_eq_true, decide_eq_true_eq, ge_iff_le,
    UInt32.le_iff_toNat_le] at h9
  have hle : c.toNat ≤ 57 := h9.2
  have hzero : '0'.toNat = 48 := rfl
  omega

/-- Decimal digits are read to their end. -/
theorem readDigits_of_isDigit {cs : List Char} (h : ∀ c ∈ cs, c.isDigit = true) (acc : ℕ) :
    readDigits 10 acc cs = (Nat.ofDigitChars 10 cs acc, []) := by
  induction cs generalizing acc with
  | nil => rfl
  | cons c cs ih =>
    have hc := h c List.mem_cons_self
    rw [readDigits, if_pos (digitValue_lt_ten hc), digitValue_of_isDigit hc,
      ih fun c' hc' => h c' (List.mem_cons_of_mem c hc'), Nat.ofDigitChars_cons, Nat.mul_comm acc]

/-- The first decimal digit of a positive number is not 0. -/
theorem toDigits_eq_cons {n : ℕ} (hn : 0 < n) :
    ∃ c cs, Nat.toDigits 10 n = c :: cs ∧ c ≠ '0' := by
  induction n using Nat.strong_induction_on with
  | _ n ih =>
    rcases Nat.lt_or_ge n 10 with hlt | hge
    · refine ⟨n.digitChar, [], Nat.toDigits_of_lt_base hlt, ?_⟩
      rw [Ne, Nat.digitChar_eq_zero]
      omega
    · obtain ⟨c, cs, hdigits, hc⟩ := ih (n / 10) (by omega) (by omega)
      refine ⟨c, cs ++ [(n % 10).digitChar], ?_, hc⟩
      rw [Nat.toDigits_of_base_le (by decide) hge, hdigits, List.cons_append]

/-- A digit is no blank. -/
theorem isspace_of_isDigit {c : Char} (h : c.isDigit = true) : isspace c = false := by
  simp only [Char.isDigit, Bool.and_eq_true, decide_eq_true_eq, ge_iff_le,
    UInt32.le_iff_toNat_le] at h
  have hge : 48 ≤ c.toNat := h.1
  have hblank : c ≠ ' ' := fun he => by
    rw [he] at hge
    exact absurd hge (by decide)
  rw [isspace, decide_eq_false hblank, Bool.false_or, Bool.and_eq_false_imp]
  intro _
  exact decide_eq_false (by omega)

/-- A digit is no sign. -/
theorem splitSign_of_isDigit {c : Char} (cs : List Char) (h : c.isDigit = true) :
    splitSign (c :: cs) = (false, c :: cs) := by
  unfold splitSign
  split
  · next he =>
    obtain ⟨rfl, -⟩ := List.cons.inj he
    exact absurd h (by decide)
  · next he =>
    obtain ⟨rfl, -⟩ := List.cons.inj he
    exact absurd h (by decide)
  · rfl

/-- Without a leading 0 the base is 10. -/
theorem splitBase_of_ne_zero {c : Char} (cs : List Char) (h : c ≠ '0') :
    splitBase (c :: cs) = (10, c :: cs) := by
  unfold splitBase
  split
  · next he => exact absurd (List.cons.inj he).1 h
  · next he => exact absurd (List.cons.inj he).1 h
  · rfl

/-- The digits of a positive `long` are read as that number. -/
theorem strtol_toDigits {n : ℕ} (hn : 0 < n) (hmax : (n : ℤ) ≤ longMax) :
    strtol (Nat.toDigits 10 n) = ⟨BitVec.ofInt 64 n, []⟩ := by
  obtain ⟨c, cs, hdigits, hzero⟩ := toDigits_eq_cons hn
  have hall : ∀ d ∈ c :: cs, d.isDigit = true := fun d hd =>
    Nat.isDigit_of_mem_toDigits (by decide) (by decide) (hdigits ▸ hd)
  have hc := hall c List.mem_cons_self
  have hread : readDigits 10 0 (c :: cs) = (n, []) := by
    rw [readDigits_of_isDigit hall, ← hdigits, Nat.ofDigitChars_ten_toDigits]
  have hclamp : max longMin (min longMax (n : ℤ)) = n := by
    have : longMin = -2 ^ 63 := rfl
    omega
  rw [hdigits, strtol, List.dropWhile_cons_of_neg (by simp [isspace_of_isDigit hc])]
  simp only [splitSign_of_isDigit cs hc, splitBase_of_ne_zero cs hzero, hread, hclamp,
    List.length_nil, List.length_cons, Bool.false_eq_true, if_false, (Nat.succ_ne_zero _).symm]

/-- `0x10` is 16, `010` is 8, and of `0x` only the 0 is read. -/
example : (strtol ['0', 'x', '1', '0']).value = 16 ∧ (strtol [' ', '+', '0', '1', '0']).value = 8 ∧
    (strtol ['0', 'x']).rest = ['x'] := by decide

end FirDemo
