import Mathlib.Algebra.Field.Defs
import Mathlib.Tactic.Lemma
import Mathlib.Tactic.Ring
import Mathlib.Tactic.FieldSimp

/-!
# Affine maps of the plane

Affine maps over a field as the six numbers that graphics libraries keep, with the library's
conventions: a point is a row, so that in a product the first factor is applied first, and the inverse
of a map that has none is the identity.
-/

namespace Plane

variable {K : Type}

/-- The numerals of the definitions over the reals. -/
instance atLeastTwo_two : Nat.AtLeastTwo 2 := ⟨le_rfl⟩
instance atLeastTwo_three : Nat.AtLeastTwo 3 := ⟨by decide⟩

/-- A point of the plane. -/
abbrev Point (K : Type) := K × K

/-- An affine map, with the numbers of its linear part by rows. -/
structure Affine (K : Type) where
  m11 : K
  m12 : K
  m21 : K
  m22 : K
  dx : K
  dy : K
deriving DecidableEq

namespace Affine

variable [Field K]

/-- The image of a point. -/
def map (m : Affine K) (p : Point K) : Point K :=
  (m.m11 * p.1 + m.m21 * p.2 + m.dx, m.m12 * p.1 + m.m22 * p.2 + m.dy)

/-- The identity. -/
def identity : Affine K := ⟨1, 0, 0, 1, 0, 0⟩

/-- The map that multiplies the coordinates. -/
def scaling (s : Point K) : Affine K := ⟨s.1, 0, 0, s.2, 0, 0⟩

/-- The map that adds to the coordinates. -/
def translation (d : Point K) : Affine K := ⟨1, 0, 0, 1, d.1, d.2⟩

/-- The first map, then the second one. -/
def mul (m n : Affine K) : Affine K where
  m11 := m.m11 * n.m11 + m.m12 * n.m21
  m12 := m.m11 * n.m12 + m.m12 * n.m22
  m21 := m.m21 * n.m11 + m.m22 * n.m21
  m22 := m.m21 * n.m12 + m.m22 * n.m22
  dx := m.dx * n.m11 + m.dy * n.m21 + n.dx
  dy := m.dx * n.m12 + m.dy * n.m22 + n.dy

/-- The determinant of the linear part. -/
def det (m : Affine K) : K := m.m11 * m.m22 - m.m12 * m.m21

/-- The inverse; the identity where there is none. -/
def inverted [DecidableEq K] (m : Affine K) : Affine K :=
  if m.det = 0 then identity
  else
    { m11 := m.m22 / m.det
      m12 := -m.m12 / m.det
      m21 := -m.m21 / m.det
      m22 := m.m11 / m.det
      dx := (m.m21 * m.dy - m.m22 * m.dx) / m.det
      dy := (m.m12 * m.dx - m.m11 * m.dy) / m.det }

/-- The identity leaves a point where it is. -/
@[simp] lemma map_identity (p : Point K) : identity.map p = p := by
  simp [map, identity]

/-- A scaling stretches both coordinates. -/
@[simp] lemma map_scaling (s p : Point K) : (scaling s).map p = (s.1 * p.1, s.2 * p.2) := by
  simp [map, scaling]

/-- A translation shifts a point. -/
@[simp] lemma map_translation (d p : Point K) : (translation d).map p = (p.1 + d.1, p.2 + d.2) := by
  simp [map, translation]

/-- A product maps by its factors one after the other. -/
@[simp] lemma map_mul (m n : Affine K) (p : Point K) : (m.mul n).map p = n.map (m.map p) := by
  simp only [map, mul, Prod.mk.injEq]
  constructor <;> ring

/-- The identity is its own inverse. -/
@[simp] lemma inverted_identity [DecidableEq K] : (identity : Affine K).inverted = identity := by
  unfold inverted
  split_ifs <;> simp [identity, det]

end Affine

end Plane
