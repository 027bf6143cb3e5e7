import Liangshi.Stroke.FittedCurve

/-!
# The least-squares handles

`GenerateBezier` is meant to give its segment the handle lengths that fit the points best, unless the
normal equations of the fit are close to singular or a handle comes out too short.  With its matrix
entries mixed up, it computes a determinant of zero for all points and falls back on handles of a third
of the chord, so that it finds the fit exactly where these are the fit (`generateBezier_fits_iff`).
-/

namespace Liangshi

open Plane Ordered Transition

/-- The points of a range with their parameters. -/
def samples (d : List QVector2D) (first : Nat) (u : List ℝ) : List Sample :=
  (List.range u.length).map fun i => (u.getD i 0, d.getD (first + i) 0)

/-- The handle lengths are the ones that the fit asks for: they solve its normal equations, whose
determinant is not close to zero, and neither is too short for the chord. -/
structure WellPosed (f : Frame) (samples : List Sample) (l r : ℝ) : Prop where
  det : f.normalDet samples ≤ -0.01 ∨ 0.01 ≤ f.normalDet samples
  solves : f.Solves samples l r
  left : 1.0e-6 * length (f.p0 - f.p3) ≤ l
  right : 1.0e-6 * length (f.p0 - f.p3) ≤ r

/-- Two segments of a frame with the same control points have the same handle lengths. -/
lemma segment_inj {f : Frame} {l r l' r' : ℝ} (h1 : length f.t1 = 1) (h2 : length f.t2 = 1)
    (h : f.segment l r = f.segment l' r') : l = l' ∧ r = r' := by
  have hleft : l • f.t1 = l' • f.t1 := add_left_cancel (congrArg CubicSegment.p1 h)
  have hright : r • f.t2 = r' • f.t2 := add_left_cancel (congrArg CubicSegment.p2 h)
  have hne : ∀ t : QVector2D, length t = 1 → t ≠ 0 := by
    rintro t ht rfl
    simp [length] at ht
  exact ⟨smul_left_injective ℝ (hne _ h1) hleft, smul_left_injective ℝ (hne _ h2) hright⟩

/-- The code gives a segment the handles of a well-posed fit exactly if a third of the chord is the
right length for both. -/
theorem generateBezier_fits_iff {d : List QVector2D} {first last : Nat} {u : List ℝ} {f : Frame}
    {l r : ℝ} (hrange : Range d first last) (hu : u.length = last - first + 1)
    (hp0 : f.p0 = d.getD first 0) (hp3 : f.p3 = d.getD last 0) (h1 : length f.t1 = 1)
    (h2 : length f.t2 = 1) (hposed : WellPosed f (samples d first u) l r) :
    generateBezier d first last u f.t1 f.t2 = .ok (f.segment l r) ↔
      f.Solves (samples d first u) (length (f.p0 - f.p3) / 3) (length (f.p0 - f.p3) / 3) := by
  have hgenerate : generateBezier d first last u f.t1 f.t2 = .ok (f.segment
      (length (f.p0 - f.p3) / 3) (length (f.p0 - f.p3) / 3)) := by
    obtain ⟨_, hc, rfl⟩ : Gives (generateBezier d first last u f.t1 f.t2) _ :=
      generateBezier_gives hrange hu
    rw [hc, ← hp0, ← hp3]
    rfl
  have hdet : f.normalDet (samples d first u) ≠ 0 := by
    intro hzero
    have hout := hposed.det
    rw [hzero] at hout
    norm_num at hout
  rw [hgenerate, Except.ok.injEq]
  constructor
  · intro h
    obtain ⟨hl, hr⟩ := segment_inj h1 h2 h
    have hsolves := hposed.solves
    rwa [← hl, ← hr] at hsolves
  · intro h
    obtain ⟨hl, hr⟩ := h.unique hdet hposed.solves
    rw [hl, ← hr, hl]

/-- A straight stroke of four points. -/
def straightStroke : List QVector2D := [(0, 0), (1, 0), (2.0, 0), (3, 0)]

/-- Its frame. -/
def straightFrame : Frame := ⟨(0, 0), (3, 0), (1, 0), (-1, 0)⟩

/-- The straight stroke is given the handles that fit it, which are a third of it. -/
theorem generateBezier_fits_iff_straightStroke :
    generateBezier straightStroke 0 3 [0, 1 / 3, 2 / 3, 1] (1, 0) (-1, 0) =
      .ok (straightFrame.segment 1 1) := by
  have hrange : List.range 4 = [0, 1, 2, 3] := by decide
  have hsamples : samples straightStroke 0 [0, 1 / 3, 2 / 3, 1] =
      [(0, (0, 0)), (1 / 3, (1, 0)), (2 / 3, (2, 0)), (1, (3, 0))] := by
    norm_num [samples, hrange, straightStroke]
  have hlength : length (straightFrame.p0 - straightFrame.p3) = 3 := by
    have hchord : straightFrame.p0 - straightFrame.p3 = (-3, 0) := by
      norm_num [straightFrame]
    rw [hchord, length_horizontal]
    norm_num
  have hsolves : straightFrame.Solves (samples straightStroke 0 [0, 1 / 3, 2 / 3, 1]) 1 1 := by
    rw [hsamples]
    constructor
    · norm_num [Frame.c11, Frame.c12, Frame.x1, Frame.residual, Frame.segment, CubicSegment.eval,
        straightFrame, bernstein0, bernstein1, bernstein2, bernstein3, dot]
    · norm_num [Frame.c12, Frame.c22, Frame.x2, Frame.residual, Frame.segment, CubicSegment.eval,
        straightFrame, bernstein0, bernstein1, bernstein2, bernstein3, dot]
  have hdet : 0.01 ≤ straightFrame.normalDet (samples straightStroke 0 [0, 1 / 3, 2 / 3, 1]) := by
    rw [hsamples]
    norm_num [Frame.normalDet, Frame.c11, Frame.c12, Frame.c22, straightFrame, bernstein1, bernstein2,
      dot]
  refine (generateBezier_fits_iff (f := straightFrame) ⟨by decide, by simp [straightStroke]⟩ rfl rfl
    rfl (by norm_num [length, straightFrame]) (by norm_num [length, straightFrame])
    ⟨.inr hdet, hsolves, ?_, ?_⟩).mpr ?_
  · rw [hlength]
    norm_num
  · rw [hlength]
    norm_num
  · rw [hlength]
    norm_num
    exact hsolves

/-- The frame of the whole right-angled stroke. -/
def cornerFrame : Frame := ⟨(0, 0), (3, 3), (0, 1), (-1, 0)⟩

/-- The fit of the right-angled stroke at its chord-length parameters is well posed, with handles of
length four. -/
lemma wellPosed_corner : WellPosed cornerFrame (samples corner 0 [0, 1 / 2, 1]) 4 4 := by
  have hrange : List.range 3 = [0, 1, 2] := by decide
  have hsamples : samples corner 0 [0, 1 / 2, 1] =
      [(0, (0, 0)), (1 / 2, (0, 3)), (1, (3, 3))] := by
    simp [samples, hrange, corner]
  have hlength : length (cornerFrame.p0 - cornerFrame.p3) ≤ 5 := by
    rw [length, Real.sqrt_le_iff]
    norm_num [cornerFrame]
  rw [hsamples]
  refine ⟨.inr ?_, ⟨?_, ?_⟩, by linarith, by linarith⟩
  · norm_num [Frame.normalDet, Frame.c11, Frame.c12, Frame.c22, cornerFrame, bernstein1, bernstein2,
      dot]
  · norm_num [Frame.c11, Frame.c12, Frame.x1, Frame.residual, Frame.segment, CubicSegment.eval,
      cornerFrame, bernstein0, bernstein1, bernstein2, bernstein3, dot]
  · norm_num [Frame.c12, Frame.c22, Frame.x2, Frame.residual, Frame.segment, CubicSegment.eval,
      cornerFrame, bernstein0, bernstein1, bernstein2, bernstein3, dot]

/-- The tangents of the corner are unit vectors. -/
lemma length_cornerFrame : length cornerFrame.t1 = 1 ∧ length cornerFrame.t2 = 1 := by
  norm_num [length, cornerFrame]

/-- The right-angled stroke is not given the handles that fit it. -/
theorem not_generateBezier_fits_corner :
    WellPosed cornerFrame (samples corner 0 [0, 1 / 2, 1]) 4 4 ∧ length cornerFrame.t1 = 1 ∧
      length cornerFrame.t2 = 1 ∧
      generateBezier corner 0 2 [0, 1 / 2, 1] (0, 1) (-1, 0) ≠ .ok (cornerFrame.segment 4 4) := by
  refine ⟨wellPosed_corner, length_cornerFrame.1, length_cornerFrame.2, fun h => ?_⟩
  obtain ⟨_, hc, rfl⟩ : Gives (generateBezier corner 0 2 [0, 1 / 2, 1] (0, 1) (-1, 0)) _ :=
    generateBezier_gives ⟨by decide, by simp [corner]⟩ rfl
  have hthird : length (cornerFrame.p0 - cornerFrame.p3) / 3 = 4 :=
    (segment_inj length_cornerFrame.1 length_cornerFrame.2 (Except.ok.inj (hc.symm.trans h))).1
  have hlength : length (cornerFrame.p0 - cornerFrame.p3) = 12 := by
    linarith
  have hsquare := length_sq (cornerFrame.p0 - cornerFrame.p3)
  rw [hlength] at hsquare
  norm_num [cornerFrame] at hsquare

end Liangshi
