import Mathlib.Data.Nat.Init
import Mathlib.Logic.Function.Basic

/-!
# Word buffers

A buffer of 32-bit words that a program allocates in bytes. An access that does not lie in
the buffer has no result, so a loop over one returns a value exactly when all its accesses
do (`countedLoop_eq_some`, `countedLoop_eq_none`).
-/

namespace FirDemo

/-- An allocation of `size` bytes, read as words. -/
structure WordBuffer where
  size : ℕ
  word : ℕ → BitVec 32

namespace WordBuffer

/-- All four bytes of word `i` are in the buffer. -/
def Holds (b : WordBuffer) (i : ℕ) : Prop :=
  4 * i + 4 ≤ b.size

instance (b : WordBuffer) (i : ℕ) : Decidable (b.Holds i) :=
  inferInstanceAs (Decidable (_ ≤ _))

/-- A word, if it is in the buffer. -/
def load (b : WordBuffer) (i : ℕ) : Option (BitVec 32) :=
  if b.Holds i then some (b.word i) else none

/-- The buffer with another word, if that is in it. -/
def store (b : WordBuffer) (i : ℕ) (v : BitVec 32) : Option WordBuffer :=
  if b.Holds i then some { b with word := Function.update b.word i v } else none

/-- `memset(b, 0, size)`. -/
def clear (b : WordBuffer) : WordBuffer :=
  { b with word := fun _ => 0 }

/-- A word in the buffer is read. -/
theorem load_of_holds {b : WordBuffer} {i : ℕ} (h : b.Holds i) : b.load i = some (b.word i) :=
  if_pos h

/-- A word in the buffer is written. -/
theorem store_of_holds {b : WordBuffer} {i : ℕ} (h : b.Holds i) (v : BitVec 32) :
    b.store i v = some { b with word := Function.update b.word i v } :=
  if_pos h

/-- A word beyond it is not. -/
theorem store_of_not_holds {b : WordBuffer} {i : ℕ} (h : ¬b.Holds i) (v : BitVec 32) :
    b.store i v = none :=
  if_neg h

/-- The words below a word of the buffer are in it too. -/
theorem Holds.mono {b : WordBuffer} {i j : ℕ} (h : b.Holds j) (hij : i ≤ j) : b.Holds i := by
  unfold Holds at *
  omega

end WordBuffer

/-! ## Counted loops -/

/-- `for (i = 0; i < n; ++i) s = body(s, i)`, where an iteration may have no result. -/
def countedLoop {β : Type*} (body : β → ℕ → Option β) (n : ℕ) (s : β) : Option β :=
  (List.range n).foldlM body s

section countedLoop

variable {β : Type*} {body : β → ℕ → Option β} {n k : ℕ} {s : β}

/-- The last round comes last. -/
theorem countedLoop_succ (s : β) :
    countedLoop body (n + 1) s = (countedLoop body n s).bind fun s => body s n := by
  rw [countedLoop, List.range_succ, List.foldlM_append]
  simp [countedLoop, List.foldlM]

/-- The state after each iteration is that of `value`. -/
theorem countedLoop_eq_some (value : ℕ → β) (hstart : value 0 = s)
    (h : ∀ i < n, body (value i) i = some (value (i + 1))) :
    countedLoop body n s = some (value n) := by
  induction n with
  | zero => exact congrArg some hstart.symm
  | succ n ih =>
    rw [countedLoop_succ, ih fun i hi => h i (Nat.lt_succ_of_lt hi), Option.bind_some,
      h n (Nat.lt_succ_self n)]

/-- The first iteration without a result ends the loop. -/
theorem countedLoop_eq_none (value : ℕ → β) (hstart : value 0 = s)
    (h : ∀ i < k, body (value i) i = some (value (i + 1))) (hk : body (value k) k = none)
    (hn : k < n) : countedLoop body n s = none := by
  induction n, hn using Nat.le_induction with
  | base => rw [countedLoop_succ, countedLoop_eq_some value hstart h, Option.bind_some, hk]
  | succ n _ ih => rw [countedLoop_succ, ih, Option.bind_none]

end countedLoop

end FirDemo
