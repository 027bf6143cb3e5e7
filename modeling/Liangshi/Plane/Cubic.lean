import Liangshi.Plane.Chord
import Mathlib.Tactic.LinearCombination

/-!
# Cubic segments and their fit

Cubic Bézier segments in the real plane, with their derivatives, and the least-squares fit of the two
handle lengths of a segment whose ends and end directions are given, to points at given parameters.
The fit has two unknowns: its normal equations have a matrix and a right-hand side that are sums over
the points, and one solution where the determinant is not zero (`Frame.Solves.unique`).
-/

namespace Plane

/-- A cubic segment, by its control points. -/
@[ext] structure CubicSegment where
  p0 : Point ℝ
  p1 : Point ℝ
  p2 : Point ℝ
  p3 : Point ℝ

/-- The Bernstein polynomial of degree three that belongs to the start of a segment. -/
def bernstein0 (u : ℝ) : ℝ := (1 - u) ^ 3

/-- The Bernstein polynomial of the first handle. -/
def bernstein1 (u : ℝ) : ℝ := 3 * u * (1 - u) ^ 2

/-- The Bernstein polynomial of the second handle. -/
def bernstein2 (u : ℝ) : ℝ := 3 * u ^ 2 * (1 - u)

/-- The Bernstein polynomial of the end. -/
def bernstein3 (u : ℝ) : ℝ := u ^ 3

namespace CubicSegment

/-- The point of a segment at a parameter; outside of the interval from 0 to 1, the point of the curve
that goes on from the segment. -/
def eval (c : CubicSegment) (u : ℝ) : Point ℝ :=
  bernstein0 u • c.p0 + bernstein1 u • c.p1 + bernstein2 u • c.p2 + bernstein3 u • c.p3

/-- The first derivative. -/
def velocity (c : CubicSegment) (u : ℝ) : Point ℝ :=
  (3 * (1 - u) ^ 2) • (c.p1 - c.p0) + (6 * u * (1 - u)) • (c.p2 - c.p1) +
    (3 * u ^ 2) • (c.p3 - c.p2)

/-- The second derivative. -/
def acceleration (c : CubicSegment) (u : ℝ) : Point ℝ :=
  (6 * (1 - u)) • ((c.p2 - c.p1) - (c.p1 - c.p0)) + (6 * u) • ((c.p3 - c.p2) - (c.p2 - c.p1))

/-- Some point of the segment is nearer to a point than the root of a bound. -/
def Near (c : CubicSegment) (bound : ℝ) (p : Point ℝ) : Prop :=
  ∃ t, 0 ≤ t ∧ t ≤ 1 ∧ length (c.eval t - p) ^ 2 < bound

/-- A segment starts at its first control point. -/
@[simp] lemma eval_zero (c : CubicSegment) : c.eval 0 = c.p0 := by
  simp [eval, bernstein0, bernstein1, bernstein2, bernstein3]

/-- A segment ends at its last control point. -/
@[simp] lemma eval_one (c : CubicSegment) : c.eval 1 = c.p3 := by
  simp [eval, bernstein0, bernstein1, bernstein2, bernstein3]

/-- A segment is near its start. -/
lemma near_start (c : CubicSegment) {bound : ℝ} (h : 0 < bound) : c.Near bound c.p0 :=
  ⟨0, le_rfl, zero_le_one, by simpa [length] using h⟩

/-- A segment is near its end. -/
lemma near_end (c : CubicSegment) {bound : ℝ} (h : 0 < bound) : c.Near bound c.p3 :=
  ⟨1, zero_le_one, le_rfl, by simpa [length] using h⟩

end CubicSegment

/-! ## Handle lengths -/

/-- The ends of a segment and the directions of its handles. -/
structure Frame where
  p0 : Point ℝ
  p3 : Point ℝ
  t1 : Point ℝ
  t2 : Point ℝ

/-- A point to be fitted and its parameter. -/
abbrev Sample := ℝ × Point ℝ

namespace Frame

variable (f : Frame)

/-- The segment with given handle lengths. -/
def segment (l r : ℝ) : CubicSegment := ⟨f.p0, f.p0 + l • f.t1, f.p3 + r • f.t2, f.p3⟩

/-- What is left of a sample when both handles have length zero. -/
def residual (s : Sample) : Point ℝ := s.2 - (f.segment 0 0).eval s.1

/-- The entry of the matrix of the normal equations that belongs to the first handle. -/
def c11 (samples : List Sample) : ℝ :=
  (samples.map fun s => dot (bernstein1 s.1 • f.t1) (bernstein1 s.1 • f.t1)).sum

/-- The entries of the matrix that belong to both handles. -/
def c12 (samples : List Sample) : ℝ :=
  (samples.map fun s => dot (bernstein1 s.1 • f.t1) (bernstein2 s.1 • f.t2)).sum

/-- The entry of the matrix that belongs to the second handle. -/
def c22 (samples : List Sample) : ℝ :=
  (samples.map fun s => dot (bernstein2 s.1 • f.t2) (bernstein2 s.1 • f.t2)).sum

/-- The right-hand side of the first equation. -/
def x1 (samples : List Sample) : ℝ :=
  (samples.map fun s => dot (bernstein1 s.1 • f.t1) (f.residual s)).sum

/-- The right-hand side of the second equation. -/
def x2 (samples : List Sample) : ℝ :=
  (samples.map fun s => dot (bernstein2 s.1 • f.t2) (f.residual s)).sum

/-- The determinant of the normal equations. -/
def normalDet (samples : List Sample) : ℝ :=
  f.c11 samples * f.c22 samples - f.c12 samples * f.c12 samples

/-- Handle lengths that satisfy the normal equations. -/
structure Solves (samples : List Sample) (l r : ℝ) : Prop where
  left : f.c11 samples * l + f.c12 samples * r = f.x1 samples
  right : f.c12 samples * l + f.c22 samples * r = f.x2 samples

variable {f} {samples : List Sample} {l r : ℝ}

/-- The solution is unique where the determinant is not zero. -/
lemma Solves.unique {l' r' : ℝ} (hdet : f.normalDet samples ≠ 0) (h : f.Solves samples l r)
    (h' : f.Solves samples l' r') : l = l' ∧ r = r' := by
  have hl : f.normalDet samples * (l - l') = 0 := by
    rw [normalDet]
    linear_combination f.c22 samples * h.left - f.c12 samples * h.right -
      f.c22 samples * h'.left + f.c12 samples * h'.right
  have hr : f.normalDet samples * (r - r') = 0 := by
    rw [normalDet]
    linear_combination f.c11 samples * h.right - f.c12 samples * h.left -
      f.c11 samples * h'.right + f.c12 samples * h'.left
  exact ⟨sub_eq_zero.mp ((mul_eq_zero.mp hl).resolve_left hdet),
    sub_eq_zero.mp ((mul_eq_zero.mp hr).resolve_left hdet)⟩

end Frame

end Plane
