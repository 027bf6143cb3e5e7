import Liangshi.Plane.Affine
import Mathlib.Algebra.Module.Prod
import Mathlib.Analysis.Real.Sqrt
import Mathlib.Tactic.Linarith

/-!
# Chords

Lengths and distances in the real plane.  A point is near a line through two points if a point of the
line is within a bound of it, which also covers two points that coincide; for distinct points this is
a bound on the distance from the line, the cross product over the length of the chord.
-/

namespace Plane

variable {a b p v : Point ℝ} {bound : ℝ}

/-- The length of a vector. -/
noncomputable def length (v : Point ℝ) : ℝ := √(v.1 ^ 2 + v.2 ^ 2)

/-- The scalar product. -/
def dot (v w : Point ℝ) : ℝ := v.1 * w.1 + v.2 * w.2

/-- The cross product. -/
def cross (v w : Point ℝ) : ℝ := v.1 * w.2 - v.2 * w.1

/-- The distance of a point from the line through two points that differ. -/
noncomputable def lineDistance (a b p : Point ℝ) : ℝ := |cross (b - a) (p - a)| / length (b - a)

/-- A point of the line through two points, or the point itself where they coincide, is within a
bound of the point. -/
def NearLine (bound : ℝ) (a b p : Point ℝ) : Prop := ∃ t : ℝ, length (p - (a + t • (b - a))) ≤ bound

/-- A length is not negative. -/
lemma length_nonneg (v : Point ℝ) : 0 ≤ length v := Real.sqrt_nonneg _

/-- The square of a length. -/
lemma length_sq (v : Point ℝ) : length v ^ 2 = v.1 ^ 2 + v.2 ^ 2 := Real.sq_sqrt (by positivity)

/-- Only the zero vector has no length. -/
lemma length_eq_zero : length v = 0 ↔ v = 0 := by
  rw [length, Real.sqrt_eq_zero (by positivity)]
  constructor
  · intro h
    have h1 : v.1 ^ 2 = 0 := by linarith only [h, sq_nonneg v.1, sq_nonneg v.2]
    have h2 : v.2 ^ 2 = 0 := by linarith only [h, sq_nonneg v.1, sq_nonneg v.2]
    exact Prod.ext (pow_eq_zero_iff two_ne_zero |>.mp h1) (pow_eq_zero_iff two_ne_zero |>.mp h2)
  · rintro rfl
    simp

/-- Any other vector has a length. -/
lemma length_pos (h : v ≠ 0) : 0 < length v :=
  lt_of_le_of_ne (length_nonneg v) fun h' => h (length_eq_zero.mp h'.symm)

/-- Nearness to the line through distinct points is a bound on the distance from it. -/
theorem nearLine_iff (h : a ≠ b) : NearLine bound a b p ↔ lineDistance a b p ≤ bound := by
  have hpos : 0 < length (b - a) := length_pos (sub_ne_zero.mpr h.symm)
  -- the square of the distance from a point of the line, taken apart along the chord and across it
  have hsplit : ∀ t : ℝ, length (p - (a + t • (b - a))) ^ 2 * length (b - a) ^ 2 =
      cross (b - a) (p - a) ^ 2 + (dot (b - a) (p - a) - t * length (b - a) ^ 2) ^ 2 := by
    intro t
    simp only [length_sq, cross, dot, Prod.fst_sub, Prod.snd_sub, Prod.fst_add, Prod.snd_add,
      Prod.smul_fst, Prod.smul_snd, smul_eq_mul]
    ring
  rw [lineDistance, div_le_iff₀ hpos]
  constructor
  · rintro ⟨t, ht⟩
    have hprod : |cross (b - a) (p - a)| ≤ length (p - (a + t • (b - a))) * length (b - a) := by
      refine abs_le_of_sq_le_sq ?_ (mul_nonneg (length_nonneg _) hpos.le)
      rw [mul_pow, hsplit t]
      exact le_add_of_nonneg_right (sq_nonneg _)
    exact hprod.trans (mul_le_mul_of_nonneg_right ht hpos.le)
  · intro hbound
    -- the foot of the perpendicular
    refine ⟨dot (b - a) (p - a) / length (b - a) ^ 2, ?_⟩
    have hfoot := hsplit (dot (b - a) (p - a) / length (b - a) ^ 2)
    rw [div_mul_cancel₀ _ (pow_pos hpos 2).ne', sub_self, zero_pow two_ne_zero, add_zero,
      ← mul_pow, ← sq_abs (cross _ _)] at hfoot
    have hroot := (pow_left_inj₀ (mul_nonneg (length_nonneg _) hpos.le) (abs_nonneg _)
      two_ne_zero).mp hfoot
    rw [← hroot] at hbound
    exact le_of_mul_le_mul_right hbound hpos

/-- A point off the line through two points differs from both. -/
lemma ne_of_lineDistance_pos (h : 0 < lineDistance a b p) : a ≠ p ∧ p ≠ b := by
  constructor
  · rintro rfl
    simp [lineDistance, cross] at h
  · rintro rfl
    have hzero : cross (p - a) (p - a) = 0 := by
      rw [cross]
      ring
    simp [lineDistance, hzero] at h

/-- The first of the two points is on the line. -/
lemma lineDistance_left (a b : Point ℝ) : lineDistance a b a = 0 := by
  simp [lineDistance, cross]

end Plane
