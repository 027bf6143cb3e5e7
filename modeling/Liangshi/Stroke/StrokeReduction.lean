import Liangshi.Stroke.Douglas
import Mathlib.Logic.Relation

/-!
# What a simplified stroke keeps

The reduction ends without a fault and keeps the points at strictly increasing indices from the first
to the last (`douglasPeuckerReduction_gives`): the split index lies strictly inside its range, and is
so far off the chord that its point differs from both ends.

The points between two neighbouring indices are near the line through these, except at the end of
a closed stroke.  There the chords are drawn to the last point that differs from the first one, which
is then not kept itself.  The points behind the last split so have to be near the line to another
point than the one they were measured against (`reduction_near_iff`).
-/

namespace Liangshi

open Plane Ordered Transition

variable {points : List QVector2D} {tolerance : ℝ} {first last fuel : Nat}

/-- The indices that a range is split at, in increasing order. -/
inductive Splits (points : List QVector2D) (tolerance : ℝ) : Nat → Nat → List Nat → Prop
  | straight {first last : Nat} (h : Straight points tolerance first last) :
    Splits points tolerance first last []
  | split {first last index : Nat} {left right : List Nat}
    (h : Farthest points tolerance first last index)
    (hleft : Splits points tolerance first index left)
    (hright : Splits points tolerance index last right) :
    Splits points tolerance first last (left ++ index :: right)

/-- The recursion on a chord ends, and finds the indices that the range is split at. -/
lemma reduceRange_gives (htolerance : 0 < tolerance) {kept : List Nat}
    (hchord : Chord points first last) (hfuel : last - first ≤ fuel) :
    Gives (reduceRange points tolerance fuel first last kept) fun kept' =>
      ∃ l, Splits points tolerance first last l ∧ kept'.Perm (kept ++ l) := by
  induction fuel generalizing first last kept with
  | zero =>
    have := hchord.first_lt_last
    omega
  | succ fuel ih =>
    rw [reduceRange]
    refine (farthestFromChord_gives hchord htolerance).bind fun r hr => ?_
    obtain ⟨hfarthest, hfar⟩ | ⟨hstraight, hnot⟩ := hr
    · dsimp only
      rw [if_pos hfar]
      have hlt := hfarthest.first_lt
      have hlt' := hfarthest.lt_last
      obtain ⟨hleft, hright⟩ := hfarthest.chords htolerance hchord
      refine (ih hleft (by omega)).bind fun kept₁ ⟨left, hsplits₁, hperm₁⟩ => ?_
      refine (ih hright (by omega)).mono fun kept₂ ⟨right, hsplits₂, hperm₂⟩ => ?_
      refine ⟨_, .split hfarthest hsplits₁ hsplits₂, ?_⟩
      calc kept₂.Perm (kept₁ ++ right) := hperm₂
        List.Perm _ (kept ++ [r.2] ++ left ++ right) := hperm₁.append_right right
        List.Perm _ (kept ++ (r.2 :: (left ++ right))) := by simp
        List.Perm _ (kept ++ (left ++ r.2 :: right)) := List.perm_middle.symm.append_left kept
    · dsimp only
      rw [if_neg hnot]
      exact .ok ⟨[], .straight hstraight, by simp⟩

namespace Splits

variable {l : List Nat}

/-- The split indices are strictly inside the range, in increasing order. -/
lemma pairwise (h : Splits points tolerance first last l) (hlt : first < last) :
    (first :: l ++ [last]).Pairwise (· < ·) := by
  rw [← List.isChain_iff_pairwise]
  induction h with
  | straight => simpa using hlt
  | @split first last index left right hfarthest hleft hright ihl ihr =>
    have hassoc : first :: (left ++ index :: right) ++ [last] =
        first :: left ++ index :: (right ++ [last]) := by simp
    rw [hassoc, List.isChain_split]
    exact ⟨ihl hfarthest.first_lt, ihr hfarthest.lt_last⟩

/-- The range between two neighbouring split indices is straight. -/
lemma straight_chain (h : Splits points tolerance first last l) :
    (first :: l ++ [last]).IsChain (Straight points tolerance) := by
  induction h with
  | straight h => simpa using h
  | @split first last index left right hfarthest hleft hright ihl ihr =>
    have hassoc : first :: (left ++ index :: right) ++ [last] =
        first :: left ++ index :: (right ++ [last]) := by simp
    rw [hassoc, List.isChain_split]
    exact ⟨ihl, ihr⟩

/-- The last split index is reached from the first one by going on to the farthest point of the rest
of the range, until the rest is straight. -/
lemma corners (h : Splits points tolerance first last l) (htolerance : 0 < tolerance)
    (hchord : Chord points first last) :
    Relation.ReflTransGen (fun i j => Farthest points tolerance i last j) first
        (l.getLastD first) ∧
      Chord points (l.getLastD first) last ∧ Straight points tolerance (l.getLastD first) last := by
  induction h with
  | straight h => exact ⟨.refl, hchord, h⟩
  | @split first last index left right hfarthest hleft hright ihl ihr =>
    have hlast : (left ++ index :: right).getLastD first = right.getLastD index := by
      simp [List.getLastD_eq_getLast?, List.getLast?_append, List.getLast?_cons]
    rw [hlast]
    have hrest := ihr (hfarthest.chords htolerance hchord).2
    exact ⟨.head hfarthest hrest.1, hrest.2⟩

end Splits

/-! ## The whole stroke -/

/-- The stroke ends where it starts. -/
def Closed (points : List QVector2D) : Prop := points.head? = points.getLast?

/-- A stroke is closed when it ends where it begins. -/
lemma closed_iff (h : points ≠ []) :
    Closed points ↔ points.getD 0 0 = points.getD (points.length - 1) 0 := by
  have hpos : 0 < points.length := List.length_pos_iff.mpr h
  simp [Closed, List.head?_eq_getElem?, List.getLast?_eq_getElem?, hpos]

/-- The last index that differs from the first: the last one, and in a closed stroke the one before
it. -/
lemma lastDistinct_gives (hlength : 3 ≤ points.length) (hne : points.IsChain (· ≠ ·)) :
    Gives (lastDistinct points 0 (points.length - 1)) fun last => Chord points 0 last ∧
      (¬ Closed points ∧ last = points.length - 1 ∨ Closed points ∧ last = points.length - 2) := by
  obtain ⟨n, hn⟩ : ∃ n, points.length = n + 3 := ⟨points.length - 3, by omega⟩
  have hne' : points.getD (n + 1) 0 ≠ points.getD (n + 2) 0 := by
    simpa [hn] using List.isChain_iff_getElem.mp hne (n + 1) (by omega)
  have hclosed_iff : Closed points ↔ points.getD 0 0 = points.getD (n + 2) 0 := by
    rw [closed_iff (by rintro rfl; simp at hn), hn]
    rfl
  have hindex : points.length - 1 = n + 1 + 1 := by omega
  rw [hindex, lastDistinct, itemAt_of_lt (by omega), itemAt_of_lt (by omega)]
  dsimp only [bind, Except.bind]
  by_cases hclosed : points.getD 0 0 = points.getD (n + 2) 0
  · have hopen : points.getD 0 0 ≠ points.getD (n + 1) 0 := fun h => hne' (h.symm.trans hclosed)
    rw [if_pos hclosed, lastDistinct, itemAt_of_lt (by omega), itemAt_of_lt (by omega)]
    dsimp only [bind, Except.bind]
    rw [if_neg hopen]
    exact .ok ⟨⟨by omega, by omega, hopen⟩, .inr ⟨hclosed_iff.mpr hclosed, by omega⟩⟩
  · rw [if_neg hclosed]
    exact .ok ⟨⟨by omega, by omega, hclosed⟩, .inl ⟨mt hclosed_iff.mp hclosed, by omega⟩⟩

/-- The kept indices: those that the range up to the last distinct point is split at, between the
first index and the last one. -/
lemma pointIndexsToKeep_gives (hlength : 3 ≤ points.length) (hne : points.IsChain (· ≠ ·))
    (htolerance : 0 < tolerance) (hfuel : points.length ≤ fuel) :
    Gives (pointIndexsToKeep fuel points tolerance) fun kept => ∃ last l,
      (¬ Closed points ∧ last = points.length - 1 ∨ Closed points ∧ last = points.length - 2) ∧
      Chord points 0 last ∧ Splits points tolerance 0 last l ∧
      kept = 0 :: l ++ [points.length - 1] := by
  refine (lastDistinct_gives hlength hne).bind fun last ⟨hchord, hcases⟩ => ?_
  have hlt := hchord.last_lt
  refine (reduceRange_gives htolerance hchord (by omega)).bind fun kept ⟨l, hsplits, hperm⟩ => ?_
  refine .ok ⟨last, l, hcases, hchord, hsplits, ?_⟩
  have hsorted : (0 :: l ++ [points.length - 1]).Pairwise (· ≤ ·) := by
    have hpairwise := hsplits.pairwise hchord.first_lt_last
    rw [List.pairwise_append] at hpairwise ⊢
    refine ⟨hpairwise.1.imp Nat.le_of_lt, by simp, fun i hi j hj => ?_⟩
    have := hpairwise.2.2 i hi last (by simp)
    simp only [List.mem_singleton] at hj
    omega
  have hperm' : kept.Perm (0 :: l ++ [points.length - 1]) := by
    refine hperm.trans ?_
    simpa using (List.perm_append_singleton (points.length - 1) l).symm.cons 0
  exact ((List.mergeSort_perm _ _).trans hperm').eq_of_pairwise'
    (List.pairwise_mergeSort' (· ≤ ·) kept) hsorted

/-- The points at indices of the list. -/
lemma mapM_itemAt {indices : List Nat} (h : ∀ i ∈ indices, i < points.length) :
    indices.mapM (itemAt points) = .ok (indices.map (points.getD · 0)) := by
  induction indices with
  | nil => rfl
  | cons i indices ih =>
    rw [List.mapM_cons, itemAt_of_lt (h i List.mem_cons_self),
      ih fun j hj => h j (List.mem_cons_of_mem _ hj)]
    rfl

/-- What the reduction returns: the points at some indices of the stroke. -/
structure Keeps (fuel : Nat) (points : List QVector2D) (tolerance : ℝ) (kept : List Nat) : Prop where
  indices : pointIndexsToKeep fuel points tolerance = .ok kept
  result : douglasPeuckerReduction fuel points tolerance = .ok (kept.map (points.getD · 0))

/-- The kept indices and the splits that they come from. -/
lemma keeps_of_splits (hlength : 3 ≤ points.length) (hne : points.IsChain (· ≠ ·))
    (htolerance : 0 < tolerance) (hfuel : points.length ≤ fuel) :
    ∃ last l, (¬ Closed points ∧ last = points.length - 1 ∨ Closed points ∧ last = points.length - 2) ∧
      Chord points 0 last ∧ Splits points tolerance 0 last l ∧
      (0 :: l ++ [points.length - 1]).Pairwise (· < ·) ∧
      Keeps fuel points tolerance (0 :: l ++ [points.length - 1]) := by
  obtain ⟨kept, hkept, last, l, hcases, hchord, hsplits, rfl⟩ :=
    pointIndexsToKeep_gives hlength hne htolerance hfuel
  have hlast : 0 < last ∧ last ≤ points.length - 1 := by omega
  have hincreasing : (0 :: l ++ [points.length - 1]).Pairwise (· < ·) := by
    have hpairwise := hsplits.pairwise hlast.1
    rw [List.pairwise_append] at hpairwise ⊢
    refine ⟨hpairwise.1, by simp, fun i hi j hj => ?_⟩
    have := hpairwise.2.2 i hi last (by simp)
    simp only [List.mem_singleton] at hj
    omega
  have hlt : ∀ i ∈ 0 :: l ++ [points.length - 1], i < points.length := by
    intro i hi
    obtain hi | hi := List.mem_append.mp hi
    · have := (List.pairwise_append.mp hincreasing).2.2 i hi (points.length - 1) (by simp)
      omega
    · simp only [List.mem_singleton] at hi
      omega
  refine ⟨last, l, hcases, hchord, hsplits, hincreasing, hkept, ?_⟩
  rw [douglasPeuckerReduction, if_neg (by omega), hkept]
  exact mapM_itemAt hlt

/-- The reduction of a stroke without repeated neighbours ends without a fault, and keeps the points
at strictly increasing indices, from the first one to the last. -/
theorem douglasPeuckerReduction_gives (hlength : 3 ≤ points.length) (hne : points.IsChain (· ≠ ·))
    (htolerance : 0 < tolerance) (hfuel : points.length ≤ fuel) :
    ∃ kept, Keeps fuel points tolerance kept ∧ kept.Pairwise (· < ·) ∧ kept.head? = some 0 ∧
      kept.getLast? = some (points.length - 1) := by
  obtain ⟨last, l, -, -, -, hincreasing, hkeeps⟩ := keeps_of_splits hlength hne htolerance hfuel
  exact ⟨_, hkeeps, hincreasing, rfl, List.getLast?_concat⟩

/-- A corner. -/
theorem douglasPeuckerReduction_corner :
    ∃ kept, Keeps 3 [(0, 0), (2, 0), (2, 2)] 1 kept ∧ kept.Pairwise (· < ·) ∧
      kept.head? = some 0 ∧ kept.getLast? = some 2 :=
  douglasPeuckerReduction_gives (by simp) (by simp) (by simp)
    (by simp)

/-! ## How far the dropped points are -/

/-- In a closed stroke, the points behind the last corner on the way to the next-to-last point are
near the line through that corner and the end point.  The way goes from the first point on to the
first farthest point from the chord to the next-to-last point, as long as it is farther than the
tolerance. -/
def ClosesNear (points : List QVector2D) (tolerance : ℝ) : Prop :=
  ∃ i, Relation.ReflTransGen (fun i j => Farthest points tolerance i (points.length - 2) j) 0 i ∧
    (∀ j, ¬ Farthest points tolerance i (points.length - 2) j) ∧
    Straight points tolerance i (points.length - 1)

/-- Every dropped point of a stroke is near the line through the kept points next to it, exactly if
the stroke is open or its points behind the last corner are near the line to its end. -/
theorem reduction_near_iff (hlength : 3 ≤ points.length) (hne : points.IsChain (· ≠ ·))
    (htolerance : 0 < tolerance) (hfuel : points.length ≤ fuel) :
    (∃ kept, Keeps fuel points tolerance kept ∧ kept.Pairwise (· < ·) ∧ kept.head? = some 0 ∧
      kept.getLast? = some (points.length - 1) ∧ kept.IsChain (Straight points tolerance)) ↔
    (Closed points → ClosesNear points tolerance) := by
  obtain ⟨last, l, hcases, hchord, hsplits, hincreasing, hkeeps⟩ :=
    keeps_of_splits hlength hne htolerance hfuel
  obtain ⟨hway, hrest, hstraight⟩ := hsplits.corners htolerance hchord
  have hnone : ∀ j, ¬ Farthest points tolerance (l.getLastD 0) last j :=
    fun j hj => hj.not_straight hrest hstraight
  have hgetLast : (0 :: l).getLast? = some (l.getLastD 0) := by
    rw [List.getLast?_cons, List.getLastD_eq_getLast?]
  constructor
  · rintro ⟨kept, hkeeps', -, -, -, hchain⟩ hclosed
    obtain rfl := Except.ok.inj (hkeeps.indices.symm.trans hkeeps'.indices)
    obtain rfl : last = points.length - 2 := by
      obtain ⟨hopen, -⟩ | ⟨-, h⟩ := hcases
      · exact absurd hclosed hopen
      · exact h
    refine ⟨l.getLastD 0, hway, hnone, ?_⟩
    exact (List.isChain_append.mp hchain).2.2 _ hgetLast _ rfl
  · intro hcloses
    refine ⟨_, hkeeps, hincreasing, rfl, List.getLast?_concat, ?_⟩
    have hchain := hsplits.straight_chain
    obtain ⟨-, rfl⟩ | ⟨hclosed, rfl⟩ := hcases
    · exact hchain
    · obtain ⟨i, hway', hnone', hstraight'⟩ := hcloses hclosed
      -- both ways go on as long as there is a farthest point, and there is only one
      have hi : i = l.getLastD 0 := by
        have hunique : Relator.RightUnique
            fun i j => Farthest points tolerance i (points.length - 2) j :=
          fun _ _ _ h h' => h.unique h'
        obtain h | h := hway'.total_of_right_unique hunique hway
        · obtain hi | ⟨j, hj, -⟩ := h.cases_head
          · exact hi
          · exact absurd hj (hnone' j)
        · obtain hi | ⟨j, hj, -⟩ := h.cases_head
          · exact hi.symm
          · exact absurd hj (hnone j)
      rw [List.isChain_append] at hchain ⊢
      refine ⟨hchain.1, by simp, fun x hx y hy => ?_⟩
      rw [hgetLast] at hx
      obtain rfl := Option.mem_some_iff.mp hx
      obtain rfl := Option.mem_some_iff.mp hy
      rw [← hi]
      exact hstraight'

/-- Three sides of a square. -/
def openSquare : List QVector2D := [(0, 0), (4, 0), (4, 4), (0, 4)]

/-- What is kept of three sides of a square passes near all four corners. -/
theorem reduction_near_iff_openSquare :
    ∃ kept, Keeps 4 openSquare 1 kept ∧ kept.Pairwise (· < ·) ∧ kept.head? = some 0 ∧
      kept.getLast? = some (openSquare.length - 1) ∧ kept.IsChain (Straight openSquare 1) :=
  (reduction_near_iff (by simp [openSquare]) (by simp [openSquare]) one_pos
    (by simp [openSquare])).mpr fun hclosed => absurd hclosed (by simp [Closed, openSquare])

/-- A square, drawn from one of its corners and back to it. -/
def closedSquare : List QVector2D := [(0, 0), (4, 0), (4, 4), (0, 4), (0, 0)]

/-- The fourth corner of a square is dropped, and is far from the line between the third and the
first. -/
theorem not_reduction_near_closedSquare :
    3 ≤ closedSquare.length ∧ closedSquare.IsChain (· ≠ ·) ∧
      ¬ ∃ kept, Keeps 5 closedSquare 1 kept ∧ kept.Pairwise (· < ·) ∧ kept.head? = some 0 ∧
        kept.getLast? = some (closedSquare.length - 1) ∧ kept.IsChain (Straight closedSquare 1) := by
  have hne : closedSquare.IsChain (· ≠ ·) := by simp [closedSquare]
  refine ⟨by simp [closedSquare], hne, ?_⟩
  rintro ⟨kept, hkept, -, -, -, hchain⟩
  obtain ⟨last, l, hcases, hchord, hsplits, -, hkeeps⟩ :=
    @keeps_of_splits closedSquare 1 5 (by simp [closedSquare]) hne one_pos (by simp [closedSquare])
  obtain rfl := Except.ok.inj (hkeeps.indices.symm.trans hkept.indices)
  obtain rfl : last = 3 := by
    obtain ⟨hopen, -⟩ | ⟨-, h⟩ := hcases
    · exact absurd rfl hopen
    · exact h
  obtain ⟨-, hrest, -⟩ := hsplits.corners one_pos hchord
  have hcorner := hrest.first_lt_last
  have hstraight : Straight closedSquare 1 (l.getLastD 0) 4 :=
    (List.isChain_append.mp hchain).2.2 _ (by rw [List.getLast?_cons, List.getLastD_eq_getLast?]; rfl)
      _ rfl
  obtain ⟨t, ht⟩ := hstraight 3 hcorner (by decide)
  generalize l.getLastD 0 = i at hcorner ht
  rw [length, Real.sqrt_le_iff] at ht
  obtain ⟨-, ht⟩ := ht
  obtain rfl | rfl | rfl : i = 0 ∨ i = 1 ∨ i = 2 := by omega
  · norm_num [closedSquare] at ht
  · norm_num [closedSquare] at ht
    nlinarith
  · simp [closedSquare] at ht
    nlinarith [ht, sq_nonneg (2 * t - 1)]

end Liangshi
