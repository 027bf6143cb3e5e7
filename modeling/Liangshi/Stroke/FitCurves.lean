import Liangshi.Stroke.Douglas
import Liangshi.Plane.Cubic

/-!
# Fitting curves to a stroke

`FitCurve` and what it calls, over exact real arithmetic, with the faults of `StrokeFault`.

The matrices of `GenerateBezier` are one-dimensional arrays that the code indexes as `A[i,0]`,
`C[0,1]` and so on.  A comma in brackets is the comma operator, so that these are `A[0]`,
`C[1]` and so on: the products of all points are formed with those of the last point, and the
four entries of the matrix share two numbers.
-/

namespace Liangshi

open Plane Ordered Transition

/-- `isDoubleZero`. -/
def IsDoubleZero (d : ℝ) : Prop := d > -0.01 ∧ d < 0.01

noncomputable instance : DecidablePred IsDoubleZero :=
  fun d => inferInstanceAs (Decidable (d > -0.01 ∧ d < 0.01))

/-- `QVector2D::normalize`: the null vector stays as it is. -/
noncomputable def normalized (v : QVector2D) : QVector2D :=
  if v = 0 then v else (1 / length v) • v

/-- `BezierII`. -/
def bezierII : Nat → List QVector2D → ℝ → Except StrokeFault QVector2D
  | 0, vtemp, _ => itemAt vtemp 0
  | degree + 1, vtemp, t =>
    bezierII degree (List.zipWith (fun p q => (1 - t) • p + t • q) vtemp vtemp.tail) t

/-- `B0`. -/
def b0 (u : ℝ) : ℝ :=
  let tmp := 1 - u
  tmp * tmp * tmp

/-- `B1`. -/
def b1 (u : ℝ) : ℝ :=
  let tmp := 1 - u
  3 * u * (tmp * tmp)

/-- `B2`. -/
def b2 (u : ℝ) : ℝ :=
  let tmp := 1 - u
  3 * u * u * tmp

/-- `B3`. -/
def b3 (u : ℝ) : ℝ := u * u * u

/-- The item before an index. -/
def itemBefore {α : Type} (items : List α) : Nat → Except StrokeFault α
  | 0 => .error .outOfRange
  | index + 1 => itemAt items index

/-- `ComputeLeftTangent`. -/
noncomputable def computeLeftTangent (d : List QVector2D) (index : Nat) :
    Except StrokeFault QVector2D := do
  return normalized ((← itemAt d (index + 1)) - (← itemAt d index))

/-- `ComputeRightTangent`. -/
noncomputable def computeRightTangent (d : List QVector2D) (index : Nat) :
    Except StrokeFault QVector2D := do
  return normalized ((← itemBefore d index) - (← itemAt d index))

/-- `ComputeCenterTangent`. -/
noncomputable def computeCenterTangent (d : List QVector2D) (center : Nat) :
    Except StrokeFault QVector2D := do
  let v1 := (← itemBefore d center) - (← itemAt d center)
  let v2 := (← itemAt d center) - (← itemAt d (center + 1))
  return normalized ((v1.1 + v2.1) / 2, (v1.2 + v2.2) / 2)

/-- The first loop of `ChordLengthParameterize`: the lengths of the stroke up to each point. -/
noncomputable def chordLengths (d : List QVector2D) (first last : Nat) :
    Except StrokeFault (List ℝ) :=
  (List.range' (first + 1) (last - first)).foldlM (fun u i => do
    let chord := (← itemBefore d i) - (← itemAt d i)
    return u ++ [(← itemBefore u (i - first)) + length chord]) [0]

/-- `ChordLengthParameterize`.  The whole length, which every other one is divided by, is the last to
be replaced. -/
noncomputable def chordLengthParameterize (d : List QVector2D) (first last : Nat) :
    Except StrokeFault (List ℝ) := do
  let u ← chordLengths d first last
  let total ← itemAt u (last - first)
  return 0 :: (← u.tail.mapM fun x => divided x total)

/-- The numbers that `GenerateBezier` adds up. -/
structure NormalSums where
  c0 : ℝ
  c1 : ℝ
  x0 : ℝ
  x1 : ℝ

/-- A segment whose handles are a third of its chord. -/
noncomputable def standardSegment (f : Frame) : CubicSegment :=
  let dist := length (f.p0 - f.p3) / 3
  f.segment dist dist

/-- The first loop of `GenerateBezier`.  The entries `A[i,0]` and `A[i,1]` are `A[0]` and `A[1]`
for every `i`. -/
noncomputable def precomputed (nPts : Nat) (uPrime : List ℝ) (tHat1 tHat2 : QVector2D) :
    Except StrokeFault (QVector2D × QVector2D) :=
  (List.range nPts).foldlM (fun _ i => do
    let u ← itemAt uPrime i
    return (b1 u • tHat1, b2 u • tHat2)) (0, 0)

/-- The second loop of `GenerateBezier`.  The entries `C[0,1]` and `C[1,1]` are `C[1]`, and what is
added to `C[0,0]` is lost when `C[1,0]` is assigned. -/
noncomputable def normalSums (d : List QVector2D) (first last nPts : Nat) (uPrime : List ℝ)
    (a : QVector2D × QVector2D) : Except StrokeFault NormalSums :=
  (List.range nPts).foldlM (fun s i => do
    let u ← itemAt uPrime i
    let c1 := s.c1 + dot a.1 a.2
    let c0 := c1
    let add1 := b0 u • (← itemAt d first)
    let add2 := b1 u • (← itemAt d first)
    let add3 := b2 u • (← itemAt d last)
    let add4 := b3 u • (← itemAt d last)
    let tmp := (← itemAt d (first + i)) - (add1 + add2 + add3 + add4)
    return { c0 := c0, c1 := c1 + dot a.2 a.2, x0 := s.x0 + dot a.1 tmp, x1 := s.x1 + dot a.2 tmp })
    ⟨0, 0, 0, 0⟩

/-- A handle length by Cramer's rule. -/
noncomputable def alpha (determinant det_C0_C1 : ℝ) : Except StrokeFault ℝ :=
  if IsDoubleZero det_C0_C1 then .ok 0 else divided determinant det_C0_C1

/-- `GenerateBezier`. -/
noncomputable def generateBezier (d : List QVector2D) (first last : Nat) (uPrime : List ℝ)
    (tHat1 tHat2 : QVector2D) : Except StrokeFault CubicSegment := do
  let nPts := last - first + 1
  let a ← precomputed nPts uPrime tHat1 tHat2
  let s ← normalSums d first last nPts uPrime a
  let det_C0_C1 := s.c0 * s.c1 - s.c0 * s.c1
  let det_C0_X := s.c0 * s.x1 - s.c0 * s.x0
  let det_X_C1 := s.x0 * s.c1 - s.x1 * s.c1
  let alpha_l ← alpha det_X_C1 det_C0_C1
  let alpha_r ← alpha det_C0_X det_C0_C1
  let p0 ← itemAt d first
  let p3 ← itemAt d last
  let segLength := length (p0 - p3)
  let epsilon := 1.0e-6 * segLength
  if alpha_l < epsilon ∨ alpha_r < epsilon then
    return standardSegment ⟨p0, p3, tHat1, tHat2⟩
  else
    return (⟨p0, p3, tHat1, tHat2⟩ : Frame).segment alpha_l alpha_r

/-- `NewtonRaphsonRootFind`. -/
noncomputable def newtonRaphsonRootFind (q : CubicSegment) (p : QVector2D) (u : ℝ) :
    Except StrokeFault ℝ := do
  let q_u ← bezierII 3 [q.p0, q.p1, q.p2, q.p3] u
  let q1 := [(3 : ℝ) • (q.p1 - q.p0), (3 : ℝ) • (q.p2 - q.p1), (3 : ℝ) • (q.p3 - q.p2)]
  let q2 := List.zipWith (fun v w => (2 : ℝ) • (w - v)) q1 q1.tail
  let q1_u ← bezierII 2 q1 u
  let q2_u ← bezierII 1 q2 u
  let numerator := (q_u.1 - p.1) * q1_u.1 + (q_u.2 - p.2) * q1_u.2
  let denominator := q1_u.1 * q1_u.1 + q1_u.2 * q1_u.2 +
    (q_u.1 - p.1) * q2_u.1 + (q_u.2 - p.2) * q2_u.2
  if IsDoubleZero denominator then return u
  return u - (← divided numerator denominator)

/-- `Reparameterize`. -/
noncomputable def reparameterize (d : List QVector2D) (first last : Nat) (u : List ℝ)
    (bezCurve : CubicSegment) : Except StrokeFault (List ℝ) :=
  (List.range' first (last - first + 1)).mapM fun i => do
    newtonRaphsonRootFind bezCurve (← itemAt d i) (← itemAt u (i - first))

/-- `ComputeMaxError`: the greatest squared distance and the point that has it. -/
noncomputable def computeMaxError (d : List QVector2D) (first last : Nat) (bezCurve : CubicSegment)
    (u : List ℝ) : Except StrokeFault (ℝ × Nat) :=
  (List.range' (first + 1) (last - (first + 1))).foldlM (fun best i => do
    let p ← bezierII 3 [bezCurve.p0, bezCurve.p1, bezCurve.p2, bezCurve.p3] (← itemAt u (i - first))
    let v := p - (← itemAt d i)
    let dist := length v * length v
    return if dist ≥ best.1 then (dist, i) else best) (0, (last - first + 1) / 2)

/-- How the attempt on a range ends. -/
inductive Fit where
  | accepted (bezCurve : CubicSegment)
  | split (splitPoint : Nat)

/-- The iterations of `FitCubic`, with the split point of the last measurement. -/
noncomputable def iterate (d : List QVector2D) (first last : Nat) (tHat1 tHat2 : QVector2D)
    (error : ℝ) : Nat → List ℝ → CubicSegment → Nat → Except StrokeFault Fit
  | 0, _, _, splitPoint => return .split splitPoint
  | iterations + 1, u, bezCurve, _ => do
    let uPrime ← reparameterize d first last u bezCurve
    let bezCurve ← generateBezier d first last uPrime tHat1 tHat2
    let (maxError, splitPoint) ← computeMaxError d first last bezCurve uPrime
    if maxError < error then return .accepted bezCurve
    iterate d first last tHat1 tHat2 error iterations uPrime bezCurve splitPoint

/-- The attempt of `FitCubic` on a range of more than two points. -/
noncomputable def fitRange (d : List QVector2D) (first last : Nat) (tHat1 tHat2 : QVector2D)
    (error : ℝ) : Except StrokeFault Fit := do
  let iterationError := error * error
  let maxIterations := 4
  let u ← chordLengthParameterize d first last
  let bezCurve ← generateBezier d first last u tHat1 tHat2
  let (maxError, splitPoint) ← computeMaxError d first last bezCurve u
  if maxError < error then return .accepted bezCurve
  if maxError < iterationError then
    iterate d first last tHat1 tHat2 error maxIterations u bezCurve splitPoint
  else return .split splitPoint

/-- `FitCubic`, which puts control points behind those of the result. -/
noncomputable def fitCubic : Nat → List QVector2D → Nat → Nat → QVector2D → QVector2D → ℝ →
    List QVector2D → Except StrokeFault (List QVector2D)
  | 0, _, _, _, _, _, _, _ => .error .outOfFuel
  | fuel + 1, d, first, last, tHat1, tHat2, error, result => do
    let nPts := last - first + 1
    if nPts = 2 then
      let p0 ← itemAt d first
      let p3 ← itemAt d last
      let bezCurve := standardSegment ⟨p0, p3, tHat1, tHat2⟩
      return result ++ [bezCurve.p1, bezCurve.p2, bezCurve.p3]
    match ← fitRange d first last tHat1 tHat2 error with
    | .accepted bezCurve => return result ++ [bezCurve.p1, bezCurve.p2, bezCurve.p3]
    | .split splitPoint =>
      let tHatCenter ← computeCenterTangent d splitPoint
      let result ← fitCubic fuel d first splitPoint tHat1 tHatCenter error result
      fitCubic fuel d splitPoint last ((-1 : ℝ) • tHatCenter) tHat2 error result

/-- `FitCurve`. -/
noncomputable def fitCurve (fuel : Nat) (d : List QVector2D) (error : ℝ) :
    Except StrokeFault (List QVector2D) := do
  let tHat1 ← computeLeftTangent d 0
  let tHat2 ← computeRightTangent d (d.length - 1)
  fitCubic fuel d 0 (d.length - 1) tHat1 tHat2 error []

/-! ## Strokes and paths -/

/-- `toVector`. -/
noncomputable def toVector (fuel : Nat) (inputPoints : List QVector2D) (tolerance error : ℝ) :
    Except StrokeFault (List QVector2D) := do
  let vectorPoints := inputPoints.destutter (· ≠ ·)
  let simplified ← if tolerance > 0 then douglasPeuckerReduction fuel vectorPoints tolerance
    else pure vectorPoints
  let result ← if simplified.length > 2 then
      (do return (← itemAt simplified 0) :: (← fitCurve fuel simplified error))
    else pure simplified
  return if result.length ≤ 1 then [] else result

/-- A part of a `QPainterPath`. -/
inductive PainterPathElement where
  | moveTo (p : QVector2D)
  | lineTo (p : QVector2D)
  | cubicTo (c1 c2 p : QVector2D)

/-- `toPath`. -/
def toPath (inputPoints : List QVector2D) : Except StrokeFault (List PainterPathElement) := do
  if inputPoints.length = 2 then
    return [.moveTo (← itemAt inputPoints 0), .lineTo (← itemAt inputPoints 1)]
  let loop := (inputPoints.length - 1) / 3
  if loop = 0 then return []
  let start ← itemAt inputPoints 0
  (List.range loop).foldlM (fun path i => do
    let controlPoint1 ← itemAt inputPoints (i * 3 + 1)
    let controlPoint2 ← itemAt inputPoints (i * 3 + 2)
    let endPoint ← itemAt inputPoints (i * 3 + 3)
    return path ++ [.cubicTo controlPoint1 controlPoint2 endPoint]) [.moveTo start]

end Liangshi
