import Mathlib.Data.List.Pairwise
import Mathlib.Data.List.Perm.Basic
import Mathlib.Tactic.Common

/-!
# Translation through a list of segments

A segment maps the addresses from `base` on to those from `target` on. A list of segments
translates a range of addresses through the first segment that covers it (`translate`).

If the segments are apart, at most one covers a nonempty range, so the order of the list does
not matter (`translate_perm`) and a part of a range goes where the range takes it
(`translate_add`). If the targets are apart too, different addresses never meet
(`translate_inj`).
-/

namespace Segments

/-- `size` addresses from `base` on, which are mapped to those from `target` on. -/
structure Segment where
  base : ℕ
  size : ℕ
  target : ℕ

namespace Segment

/-- The range of length `n` at `a` lies in the segment. -/
def Covers (g : Segment) (a n : ℕ) : Prop :=
  g.base ≤ a ∧ a + n ≤ g.base + g.size

instance (g : Segment) (a n : ℕ) : Decidable (g.Covers a n) :=
  inferInstanceAs (Decidable (_ ∧ _))

/-- Where the segment maps an address. -/
def image (g : Segment) (a : ℕ) : ℕ :=
  g.target + (a - g.base)

/-- The segments share no address. -/
def Apart (g h : Segment) : Prop :=
  g.base + g.size ≤ h.base ∨ h.base + h.size ≤ g.base

/-- The segments share no target. -/
def TargetsApart (g h : Segment) : Prop :=
  g.target + g.size ≤ h.target ∨ h.target + h.size ≤ g.target

instance : Std.Symm Apart :=
  ⟨fun _ _ => Or.symm⟩

instance : Std.Symm TargetsApart :=
  ⟨fun _ _ => Or.symm⟩

/-- A nonempty range is not covered by two segments that are apart. -/
theorem Apart.not_covers {g h : Segment} (hgh : g.Apart h) {a n : ℕ} (hn : 0 < n)
    (hg : g.Covers a n) : ¬h.Covers a n := by
  rintro ⟨hlo, hhi⟩
  obtain ⟨glo, ghi⟩ := hg
  rcases hgh with hgh | hgh <;> omega

end Segment

/-- The range of length `n` at `a`, through the first segment that covers it. -/
def translate (L : List Segment) (a n : ℕ) : Option ℕ :=
  (L.find? fun g => g.Covers a n).map fun g => g.image a

section

variable {L : List Segment} {a n d : ℕ}

/-- A range that is translated has a segment that covers it. -/
theorem exists_of_translate (h : translate L a n = some d) :
    ∃ g ∈ L, g.Covers a n ∧ d = g.image a := by
  obtain ⟨g, hfind, hd⟩ := Option.map_eq_some_iff.mp h
  exact ⟨g, List.mem_of_find?_eq_some hfind, by simpa using List.find?_some hfind, hd.symm⟩

/-- A range is not translated if no segment covers it. -/
theorem translate_eq_none_iff : translate L a n = none ↔ ∀ g ∈ L, ¬g.Covers a n := by
  simp [translate]

/-- Segments that are apart have at most one that covers a nonempty range. -/
theorem eq_of_covers (hL : L.Pairwise Segment.Apart) (hn : 0 < n) {g h : Segment}
    (hg : g ∈ L) (hh : h ∈ L) (hga : g.Covers a n) (hha : h.Covers a n) : g = h := by
  by_contra hne
  exact (hL.forall hg hh hne).not_covers hn hga hha

/-- Between segments that are apart, any one that covers the range translates it. -/
theorem translate_eq_some_iff (hL : L.Pairwise Segment.Apart) (hn : 0 < n) :
    translate L a n = some d ↔ ∃ g ∈ L, g.Covers a n ∧ d = g.image a := by
  refine ⟨exists_of_translate, ?_⟩
  rintro ⟨g, hg, hcov, rfl⟩
  cases hd : translate L a n with
  | none => exact absurd hcov (translate_eq_none_iff.mp hd g hg)
  | some d =>
    obtain ⟨h, hh, hcov', rfl⟩ := exists_of_translate hd
    rw [eq_of_covers hL hn hg hh hcov hcov']

/-- The order of segments that are apart does not matter. -/
theorem translate_perm {L' : List Segment} (hperm : L.Perm L') (hL : L.Pairwise Segment.Apart)
    (hn : 0 < n) : translate L a n = translate L' a n := by
  have hL' : L'.Pairwise Segment.Apart := hperm.pairwise hL fun h => Or.symm h
  apply Option.ext
  intro d
  rw [translate_eq_some_iff hL hn, translate_eq_some_iff hL' hn]
  simp only [hperm.mem_iff]

/-- A part of a range is translated with the range. -/
theorem translate_add (hL : L.Pairwise Segment.Apart) {k m : ℕ} (hm : 0 < m) (hk : k + m ≤ n)
    (h : translate L a n = some d) : translate L (a + k) m = some (d + k) := by
  obtain ⟨g, hg, ⟨hlo, hhi⟩, rfl⟩ := exists_of_translate h
  refine (translate_eq_some_iff hL hm).mpr ⟨g, hg, ⟨by omega, by omega⟩, ?_⟩
  simp only [Segment.image]
  omega

/-- Translated ranges meet in the same places as the ranges. -/
theorem translate_inj (hT : L.Pairwise Segment.TargetsApart) {b m e i j : ℕ}
    (ha : translate L a n = some d) (hb : translate L b m = some e)
    (hi : i < n) (hj : j < m) (hmeet : d + i = e + j) : a + i = b + j := by
  obtain ⟨g, hg, ⟨hlo, hhi⟩, rfl⟩ := exists_of_translate ha
  obtain ⟨h, hh, ⟨hlo', hhi'⟩, rfl⟩ := exists_of_translate hb
  simp only [Segment.image] at hmeet
  by_cases hgh : g = h
  · subst hgh
    omega
  · rcases hT.forall hg hh hgh with hap | hap <;> omega

end

end Segments
