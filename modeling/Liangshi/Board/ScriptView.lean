import Liangshi.Plane.Turn
import Liangshi.Transition.System

/-!
# The view of a script

`BanScriptWidget` of `Client/src/hera`, as far as a script sets the origin, the rotation and the scale
of what it draws.  Each of the three first takes back its last value and then puts the new one on the same
matrix, before what is there (`QMatrix` applies the step that was added last first).  Numbers
are exact; a division by zero leaves a matrix that has no numbers.

In the order scale, rotation, origin the three make `viewMatrix`.  Taking back a scale and
putting another one is always right, unless it is zero, as the scale comes first.  A rotation
is right when it commutes with the scale, and an origin when the scale and the rotation leave its move
as it is (`viewsLast_iff`).
-/

namespace Liangshi

open Plane Transition

/-- The view of a script: the matrix of the elements, and the values that were set last. -/
structure ScriptView where
  elementMatrix : Option (Affine ℝ)
  lastOrigin : Int32 × Int32
  lastRotate : ℝ
  lastScale : Point ℝ

/-- A call of a script. -/
inductive ScriptCall where
  | setOrigin (x y : Int32)
  | rotate (angle : ℝ)
  | scale (x y : ℝ)
  | reset

/-- A point of whole numbers. -/
def ofInts (p : Int32 × Int32) : Point ℝ := (p.1.toInt, p.2.toInt)

namespace ScriptView

/-- `translate`, `rotate` and `scale` of `QMatrix`: a step before the others. -/
noncomputable def before (step : Affine ℝ) (v : ScriptView) : ScriptView :=
  { v with elementMatrix := v.elementMatrix.map step.mul }

/-- `reset`, as far as the view goes. -/
noncomputable def reset : ScriptView := ⟨some .identity, (0, 0), 0, (1, 1)⟩

/-- `setOrigin`, which returns the last origin. -/
noncomputable def setOrigin (v : ScriptView) (x y : Int32) : ScriptView × (Int32 × Int32) :=
  let back := (v.before (.translation (ofInts (-v.lastOrigin.1, -v.lastOrigin.2))))
  ({ back.before (.translation (ofInts (x, y))) with lastOrigin := (x, y) }, v.lastOrigin)

/-- `rotate`, which returns the last rotation. -/
noncomputable def rotate (v : ScriptView) (angle : ℝ) : ScriptView × ℝ :=
  let back := v.before (.turn (-v.lastRotate))
  ({ back.before (.turn angle) with lastRotate := angle }, v.lastRotate)

/-- `scale`, which returns the last scale. -/
noncomputable def scale (v : ScriptView) (x y : ℝ) : ScriptView × Point ℝ :=
  let back := if v.lastScale.1 = 0 ∨ v.lastScale.2 = 0 then { v with elementMatrix := none }
    else v.before (.scaling (1 / v.lastScale.1, 1 / v.lastScale.2))
  ({ back.before (.scaling (x, y)) with lastScale := (x, y) }, v.lastScale)

/-- A call of a script. -/
noncomputable def call (v : ScriptView) : ScriptCall → ScriptView
  | .setOrigin x y => (v.setOrigin x y).1
  | .rotate angle => (v.rotate angle).1
  | .scale x y => (v.scale x y).1
  | .reset => reset

/-- The calls of a script that has been reset. -/
def system : System ScriptView ScriptCall where
  init v := v = reset
  step v c v' := v' = v.call c

/-! ## The matrix of the last values -/

/-- The scale, then the rotation, then the move to the origin. -/
noncomputable def viewMatrix (origin : Point ℝ) (rotate : ℝ) (scale : Point ℝ) : Affine ℝ :=
  (Affine.scaling scale).mul ((Affine.turn rotate).mul (.translation origin))

/-- The matrix has numbers, and they depend on the last values only. -/
def ViewsLast (v : ScriptView) : Prop :=
  v.elementMatrix = some (viewMatrix (ofInts v.lastOrigin) v.lastRotate v.lastScale)

/-- The move of the last origin to a new one. -/
def originMove (v : ScriptView) (x y : Int32) : Point ℝ := ofInts (x, y) - ofInts v.lastOrigin

/-- What `setOrigin` moves by: negating the least integer leaves it as it is. -/
def madeMove (v : ScriptView) (x y : Int32) : Point ℝ :=
  ofInts (x, y) + ofInts (-v.lastOrigin.1, -v.lastOrigin.2)

/-- When a call keeps the other two values in force: the last scale and rotation take the move that
is made to the move of the origin, the rotation commutes with the last scale, the last scale
has no zero. -/
def Keeps (v : ScriptView) : ScriptCall → Prop
  | .setOrigin x y => (Affine.turn v.lastRotate).map ((Affine.scaling v.lastScale).map
      (v.madeMove x y)) = v.originMove x y
  | .rotate angle =>
    Real.sin (Affine.radians (angle - v.lastRotate)) = 0 ∨ v.lastScale.1 = v.lastScale.2
  | .scale _ _ => v.lastScale.1 ≠ 0 ∧ v.lastScale.2 ≠ 0
  | .reset => True

variable {v : ScriptView}

/-- Where the view takes a point. -/
lemma map_viewMatrix (origin : Point ℝ) (rotate : ℝ) (scale p : Point ℝ) :
    (viewMatrix origin rotate scale).map p =
      (Affine.turn rotate).map (scale.1 * p.1, scale.2 * p.2) + origin := by
  simp only [viewMatrix, Affine.map_mul, Affine.map_scaling, Affine.map_translation]
  rfl

/-- Two steps before the others, on a matrix of last values. -/
lemma elementMatrix_before (h : v.ViewsLast) (first second : Affine ℝ) :
    ((v.before first).before second).elementMatrix =
      some (second.mul (first.mul (viewMatrix (ofInts v.lastOrigin) v.lastRotate v.lastScale))) := by
  rw [before, before, h]
  rfl

/-- Setting the origin. -/
lemma viewsLast_setOrigin_iff (h : v.ViewsLast) (x y : Int32) :
    (v.call (.setOrigin x y)).ViewsLast ↔ v.Keeps (.setOrigin x y) := by
  let back : Point ℝ := ofInts (-v.lastOrigin.1, -v.lastOrigin.2)
  let target : Point ℝ := ofInts (x, y)
  have hmatrix : (v.call (.setOrigin x y)).ViewsLast ↔
      (Affine.translation target).mul ((Affine.translation back).mul
        (viewMatrix (ofInts v.lastOrigin) v.lastRotate v.lastScale)) =
          viewMatrix target v.lastRotate v.lastScale := by
    show ((v.before (.translation back)).before (.translation target)).elementMatrix = _ ↔ _
    rw [elementMatrix_before h, Option.some.injEq]
    rfl
  rw [hmatrix, Keeps, madeMove, originMove, Affine.map_scaling]
  have hturn := fun p q => Affine.map_turn_add v.lastRotate p q
  constructor
  · intro heq
    have hzero := congrArg (Affine.map · (0, 0)) heq
    simp only [Affine.map_mul, Affine.map_translation, map_viewMatrix, zero_add, mul_zero,
      Affine.map_turn_origin] at hzero
    rw [Prod.mk_zero_zero, zero_add] at hzero
    exact eq_sub_of_add_eq hzero
  · intro hkeeps
    refine Affine.ext_map fun p => ?_
    simp only [Affine.map_mul, Affine.map_translation, map_viewMatrix]
    have hsplit : (v.lastScale.1 * (p.1 + target.1 + back.1), v.lastScale.2 * (p.2 + target.2 + back.2)) =
        (v.lastScale.1 * p.1, v.lastScale.2 * p.2) +
          (v.lastScale.1 * (target + back).1, v.lastScale.2 * (target + back).2) := by
      simp only [Prod.fst_add, Prod.snd_add, Prod.mk_add_mk, Prod.mk.injEq]
      constructor <;> ring
    rw [hsplit, hturn, hkeeps, add_assoc, sub_add_cancel]

/-- Setting the rotation. -/
lemma viewsLast_rotate_iff (h : v.ViewsLast) (angle : ℝ) :
    (v.call (.rotate angle)).ViewsLast ↔ v.Keeps (.rotate angle) := by
  have hmatrix : (v.call (.rotate angle)).ViewsLast ↔
      (Affine.turn angle).mul ((Affine.turn (-v.lastRotate)).mul
        (viewMatrix (ofInts v.lastOrigin) v.lastRotate v.lastScale)) =
          viewMatrix (ofInts v.lastOrigin) angle v.lastScale := by
    show ((v.before (.turn (-v.lastRotate))).before (.turn angle)).elementMatrix = _ ↔ _
    rw [elementMatrix_before h, Option.some.injEq]
    rfl
  -- The turn by the difference is made before the scale, and should be made behind it.
  have hleft (p : Point ℝ) : ((Affine.turn angle).mul ((Affine.turn (-v.lastRotate)).mul
      (viewMatrix (ofInts v.lastOrigin) v.lastRotate v.lastScale))).map p =
      (Affine.turn v.lastRotate).map ((Affine.scaling v.lastScale).map
        ((Affine.turn (angle - v.lastRotate)).map p)) + ofInts v.lastOrigin := by
    rw [Affine.map_mul, Affine.map_mul, map_viewMatrix, Affine.map_turn_map_turn, Affine.map_scaling,
      neg_add_eq_sub]
  have hright (p : Point ℝ) : (viewMatrix (ofInts v.lastOrigin) angle v.lastScale).map p =
      (Affine.turn v.lastRotate).map ((Affine.turn (angle - v.lastRotate)).map
        ((Affine.scaling v.lastScale).map p)) + ofInts v.lastOrigin := by
    rw [map_viewMatrix, Affine.map_turn_map_turn, Affine.map_scaling, add_sub_cancel]
  rw [hmatrix, Keeps, ← Affine.turn_scaling_comm_iff]
  constructor
  · intro heq p
    have hp := congrArg (Affine.map · p) heq
    simp only [hleft, hright] at hp
    exact Affine.turn_injective v.lastRotate (add_right_cancel hp)
  · intro hcomm
    refine Affine.ext_map fun p => ?_
    rw [hleft, hright, hcomm]

/-- Setting the scale. -/
lemma viewsLast_scale_iff (h : v.ViewsLast) (x y : ℝ) :
    (v.call (.scale x y)).ViewsLast ↔ v.Keeps (.scale x y) := by
  by_cases hzero : v.lastScale.1 = 0 ∨ v.lastScale.2 = 0
  · refine iff_of_false ?_ fun hkeeps => hzero.elim hkeeps.1 hkeeps.2
    have hnone : (v.call (.scale x y)).elementMatrix = none := by
      simp [call, scale, hzero, before]
    intro hviews
    rw [ViewsLast, hnone] at hviews
    cases hviews
  · obtain ⟨hx, hy⟩ := not_or.mp hzero
    refine iff_of_true ?_ ⟨hx, hy⟩
    have hcall : (v.call (.scale x y)).elementMatrix =
        ((v.before (.scaling (1 / v.lastScale.1, 1 / v.lastScale.2))).before
          (.scaling (x, y))).elementMatrix := by
      simp [call, scale, hzero, before]
    have hlast : (v.call (.scale x y)).lastOrigin = v.lastOrigin ∧
        (v.call (.scale x y)).lastRotate = v.lastRotate ∧
        (v.call (.scale x y)).lastScale = (x, y) := by
      simp [call, scale, hzero, before]
    rw [ViewsLast, hcall, elementMatrix_before h, hlast.1, hlast.2.1, hlast.2.2, Option.some.injEq]
    refine Affine.ext_map fun p => ?_
    simp only [Affine.map_mul, Affine.map_scaling, map_viewMatrix]
    have hx' : v.lastScale.1 * (1 / v.lastScale.1 * (x * p.1)) = x * p.1 := by field_simp
    have hy' : v.lastScale.2 * (1 / v.lastScale.2 * (y * p.2)) = y * p.2 := by field_simp
    rw [hx', hy']

/-- The matrix of a script that has been reset. -/
lemma viewsLast_reset : reset.ViewsLast := by
  have hmatrix : Affine.identity = viewMatrix (ofInts (0, 0)) 0 (1, 1) := by
    refine Affine.ext_map fun p => ?_
    rw [map_viewMatrix, Affine.map_turn_zero, Affine.map_identity]
    simp [ofInts]
  exact congrArg some hmatrix

/-- In every state of a script the matrix is made of the last values exactly when every call meets
its condition. -/
theorem viewsLast_iff (calls : List ScriptCall) :
    system.EveryState ViewsLast reset calls ↔ system.EveryStep Keeps reset calls := by
  refine System.everyState_iff (I := fun _ => True) ⟨trivial, viewsLast_reset⟩
    (fun v c v' _ hviews hstep => ⟨?_, fun _ => trivial⟩) calls
  obtain rfl : v' = v.call c := hstep
  cases c with
  | setOrigin x y => exact (viewsLast_setOrigin_iff hviews x y).symm
  | rotate angle => exact (viewsLast_rotate_iff hviews angle).symm
  | scale x y => exact (viewsLast_scale_iff hviews x y).symm
  | reset => exact iff_of_true trivial viewsLast_reset

/-- The same origin, rotation and scale in two orders. -/
theorem not_viewsLast_swapped :
    ¬ ∃ matrix : Int32 × Int32 → ℝ → Point ℝ → Affine ℝ, ∀ calls : List ScriptCall,
      (calls.foldl call reset).elementMatrix =
        some (matrix (calls.foldl call reset).lastOrigin (calls.foldl call reset).lastRotate
          (calls.foldl call reset).lastScale) := by
  rintro ⟨matrix, h⟩
  have hscaled : (Affine.translation (1, 0)).mul ((Affine.translation (0, 0)).mul
      ((Affine.scaling (2, 2)).mul ((Affine.scaling (1, 1)).mul .identity))) =
        matrix (1, 0) 0 (2, 2) := by
    simpa [call, setOrigin, scale, reset, before, ofInts] using h [.scale 2 2, .setOrigin 1 0]
  have hmoved : (Affine.scaling (2, 2)).mul ((Affine.scaling (1, 1)).mul
      ((Affine.translation (1, 0)).mul ((Affine.translation (0, 0)).mul .identity))) =
        matrix (1, 0) 0 (2, 2) := by
    simpa [call, setOrigin, scale, reset, before, ofInts] using h [.setOrigin 1 0, .scale 2 2]
  have hdx := congrArg Affine.dx (hscaled.trans hmoved.symm)
  norm_num [Affine.mul, Affine.translation, Affine.scaling, Affine.identity] at hdx

end ScriptView

end Liangshi
