import Liangshi.Plane.Affine
import Mathlib.Analysis.SpecialFunctions.Trigonometric.Basic

/-!
# Turns of the plane

The rotation by an angle in degrees, in the convention of graphics libraries: a positive angle turns
the first axis to the second one.  Turns are composed by adding their angles, and one of them commutes with a
scaling only where it is a half turn or the scaling is uniform.
-/

namespace Plane

namespace Affine

/-- Maps that agree at every point are the same. -/
lemma ext_map {K : Type} [Field K] {m n : Affine K} (h : ∀ p, m.map p = n.map p) : m = n := by
  obtain ⟨hdx, hdy⟩ := Prod.mk.inj (h (0, 0))
  obtain ⟨h11, h12⟩ := Prod.mk.inj (h (1, 0))
  obtain ⟨h21, h22⟩ := Prod.mk.inj (h (0, 1))
  simp only [mul_zero, mul_one, zero_add, add_zero] at hdx hdy h11 h12 h21 h22
  rw [hdx, add_left_inj] at h11 h21
  rw [hdy, add_left_inj] at h12 h22
  obtain ⟨m11, m12, m21, m22, dx, dy⟩ := m
  obtain rfl : m11 = n.m11 := h11
  obtain rfl : m12 = n.m12 := h12
  obtain rfl : m21 = n.m21 := h21
  obtain rfl : m22 = n.m22 := h22
  obtain rfl : dx = n.dx := hdx
  obtain rfl : dy = n.dy := hdy
  rfl

open Real

/-- An angle in degrees. -/
noncomputable def radians (a : ℝ) : ℝ := π / 180 * a

/-- The rotation by an angle in degrees. -/
noncomputable def turn (a : ℝ) : Affine ℝ :=
  ⟨cos (radians a), sin (radians a), -sin (radians a), cos (radians a), 0, 0⟩

/-- Where a turn takes a point. -/
lemma map_turn (a : ℝ) (p : Point ℝ) : (turn a).map p =
    (cos (radians a) * p.1 - sin (radians a) * p.2, sin (radians a) * p.1 + cos (radians a) * p.2) := by
  simp only [map, turn, add_zero, neg_mul]
  rfl

/-- A turn is additive. -/
lemma map_turn_add (a : ℝ) (p q : Point ℝ) :
    (turn a).map (p + q) = (turn a).map p + (turn a).map q := by
  simp only [map_turn, Prod.fst_add, Prod.snd_add, Prod.mk_add_mk, Prod.mk.injEq]
  constructor <;> ring

/-- A turn leaves the origin. -/
lemma map_turn_origin (a : ℝ) : (turn a).map (0, 0) = (0, 0) := by
  simp [map_turn]

/-- A turn by no angle leaves every point. -/
lemma map_turn_zero (p : Point ℝ) : (turn 0).map p = p := by
  simp [map_turn, radians]

/-- Turning by one angle and by another one is turning by their sum. -/
lemma map_turn_map_turn (a b : ℝ) (p : Point ℝ) :
    (turn a).map ((turn b).map p) = (turn (a + b)).map p := by
  have hsum : radians (a + b) = radians a + radians b := by
    rw [radians, radians, radians]
    ring
  simp only [map_turn, hsum, cos_add, sin_add, Prod.mk.injEq]
  constructor <;> ring

/-- Points with the same image under a turn are the same. -/
lemma turn_injective (a : ℝ) : Function.Injective (turn a).map := by
  intro p q h
  have hback := congrArg (turn (-a)).map h
  rwa [map_turn_map_turn, map_turn_map_turn, neg_add_cancel, map_turn_zero, map_turn_zero] at hback

/-- A turn and a scaling commute where the turn is a half turn or none, or the scaling is uniform. -/
lemma turn_scaling_comm_iff (a : ℝ) (s : Point ℝ) :
    (∀ p, (scaling s).map ((turn a).map p) = (turn a).map ((scaling s).map p)) ↔
      sin (radians a) = 0 ∨ s.1 = s.2 := by
  simp only [map_turn, map_scaling, Prod.mk.injEq]
  constructor
  · intro h
    obtain ⟨-, h2⟩ := h (1, 0)
    have hfactor : sin (radians a) * (s.1 - s.2) = 0 := by linarith
    exact (mul_eq_zero.mp hfactor).imp id sub_eq_zero.mp
  · rintro (hsin | hs) p
    · rw [hsin]
      constructor <;> ring
    · rw [hs]
      constructor <;> ring

end Affine

end Plane
