import Liangshi.Stroke.FitCurves
import Mathlib.Data.List.GetD
import Mathlib.Tactic.Module

/-!
# Attempts to fit a curve to a range

What `FitCubic` tries on a range of more than two points: a segment with handles of a third of its
chord, measured at the parameters of the points.  These are the fractions of the stroke's length at
first; if the error is not too large, every one is moved by a step of Newton's method, and the segment
is measured again, up to four times.

A range is accepted exactly when one of these measurements stays below the error
(`fitRange_gives`).  Nothing keeps the moved parameters between zero and one, so a point may be
measured against the curve behind the end of the segment, which is never painted
(`AcceptedAt.passes_iff`).
-/

namespace Liangshi

open Plane Ordered Transition

variable {d : List QVector2D} {first last : Nat} {error : ℝ} {tHat1 tHat2 : QVector2D}

/-! ## The functions that the attempts consist of -/

/-- The point of a curve that is kept as the array of its control points. -/
lemma bezierII_three (c : CubicSegment) (t : ℝ) :
    bezierII 3 [c.p0, c.p1, c.p2, c.p3] t = .ok (c.eval t) := by
  simp only [bezierII, List.tail_cons, List.zipWith_cons_cons, List.zipWith_nil_right, itemAt,
    List.getElem?_cons_zero]
  refine congrArg Except.ok (Prod.ext ?_ ?_)
  · simp only [CubicSegment.eval, bernstein0, bernstein1, bernstein2, bernstein3, Prod.fst_add,
      Prod.smul_fst, smul_eq_mul]
    ring
  · simp only [CubicSegment.eval, bernstein0, bernstein1, bernstein2, bernstein3, Prod.snd_add,
      Prod.smul_snd, smul_eq_mul]
    ring

/-- The point of a quadratic curve. -/
lemma bezierII_two (p q r : QVector2D) (t : ℝ) :
    bezierII 2 [p, q, r] t = .ok ((1 - t) ^ 2 • p + (2 * t * (1 - t)) • q + t ^ 2 • r) := by
  simp only [bezierII, List.tail_cons, List.zipWith_cons_cons, List.zipWith_nil_right, itemAt,
    List.getElem?_cons_zero]
  refine congrArg Except.ok ?_
  module

/-- The point of a line. -/
lemma bezierII_one (p q : QVector2D) (t : ℝ) :
    bezierII 1 [p, q] t = .ok ((1 - t) • p + t • q) := rfl

/-- An item of the list can be read. -/
lemma gives_itemAt {α : Type} [Zero α] {items : List α} {i : Nat} (h : i < items.length) :
    Gives (itemAt items i) (· = items.getD i 0) := by
  rw [itemAt_of_lt h]
  exact .ok rfl

/-- The item before an index that is not zero. -/
lemma itemBefore_succ {α : Type} [Zero α] {items : List α} {i : Nat} (h : i < items.length) :
    itemBefore items (i + 1) = .ok (items.getD i 0) := itemAt_of_lt h

/-- A number outside the interval around zero can be divided by. -/
lemma ne_zero_of_not_isDoubleZero {x : ℝ} (h : ¬ IsDoubleZero x) : x ≠ 0 := by
  rintro rfl
  exact h (by norm_num [IsDoubleZero])

/-- A step of Newton's method towards the parameter at which a curve is nearest to a point, where the
denominator is not close to zero. -/
noncomputable def newtonStep (c : CubicSegment) (p : QVector2D) (u : ℝ) : ℝ :=
  let denominator := dot (c.velocity u) (c.velocity u) + dot (c.eval u - p) (c.acceleration u)
  if IsDoubleZero denominator then u else u - dot (c.eval u - p) (c.velocity u) / denominator

/-- The code makes such a step. -/
lemma newtonRaphsonRootFind_eq (c : CubicSegment) (p : QVector2D) (u : ℝ) :
    newtonRaphsonRootFind c p u = .ok (newtonStep c p u) := by
  have hvelocity : bezierII 2 [(3 : ℝ) • (c.p1 - c.p0), (3 : ℝ) • (c.p2 - c.p1),
      (3 : ℝ) • (c.p3 - c.p2)] u = .ok (c.velocity u) := by
    rw [bezierII_two, CubicSegment.velocity]
    refine congrArg Except.ok ?_
    module
  have hacceleration : bezierII 1 [(2 : ℝ) • ((3 : ℝ) • (c.p2 - c.p1) - (3 : ℝ) • (c.p1 - c.p0)),
      (2 : ℝ) • ((3 : ℝ) • (c.p3 - c.p2) - (3 : ℝ) • (c.p2 - c.p1))] u =
        .ok (c.acceleration u) := by
    rw [bezierII_one, CubicSegment.acceleration]
    refine congrArg Except.ok ?_
    module
  have hsum : (c.velocity u).1 * (c.velocity u).1 + (c.velocity u).2 * (c.velocity u).2 +
      ((c.eval u).1 - p.1) * (c.acceleration u).1 + ((c.eval u).2 - p.2) * (c.acceleration u).2 =
        dot (c.velocity u) (c.velocity u) + dot (c.eval u - p) (c.acceleration u) := by
    simp only [dot, Prod.fst_sub, Prod.snd_sub]
    ring
  simp only [newtonRaphsonRootFind, List.zipWith_cons_cons, List.tail_cons, List.zipWith_nil_right,
    bezierII_three, hvelocity, hacceleration, bind, Except.bind, pure, Except.pure, hsum, newtonStep]
  split_ifs with hzero
  · rfl
  · rw [divided_of_ne_zero (ne_zero_of_not_isDoubleZero hzero)]
    rfl

/-- A range of the list with at least two points. -/
structure Range (d : List QVector2D) (first last : Nat) : Prop where
  first_lt_last : first < last
  last_lt : last < d.length

/-- The handles of a fit have a third of its chord: the determinant that the code computes is zero,
whatever the points and the parameters. -/
lemma generateBezier_gives (hrange : Range d first last) {u : List ℝ}
    (hu : u.length = last - first + 1) :
    Gives (generateBezier d first last u tHat1 tHat2)
      (· = standardSegment ⟨d.getD first 0, d.getD last 0, tHat1, tHat2⟩) := by
  have hlast := hrange.last_lt
  have hfirst : first < d.length := hrange.first_lt_last.trans hlast
  have hread : ∀ i ∈ List.range (last - first + 1), i < u.length ∧ first + i < d.length := by
    intro i hi
    rw [List.mem_range] at hi
    omega
  have hprecomputed : Gives (precomputed (last - first + 1) u tHat1 tHat2) fun _ => True :=
    .foldlM trivial fun _ i hi _ => (gives_itemAt (hread i hi).1).bind fun _ _ => .ok trivial
  refine hprecomputed.bind fun a _ => ?_
  have hsums : Gives (normalSums d first last (last - first + 1) u a) fun _ => True := by
    refine .foldlM trivial fun _ i hi _ => (gives_itemAt (hread i hi).1).bind fun _ _ => ?_
    refine (gives_itemAt hfirst).bind fun _ _ => (gives_itemAt hfirst).bind fun _ _ => ?_
    refine (gives_itemAt hlast).bind fun _ _ => (gives_itemAt hlast).bind fun _ _ => ?_
    exact (gives_itemAt (hread i hi).2).bind fun _ _ => .ok trivial
  refine hsums.bind fun s _ => ?_
  have halpha : ∀ x, Gives (alpha x (s.c0 * s.c1 - s.c0 * s.c1)) (· = 0) := by
    intro x
    rw [sub_self, alpha, if_pos (by norm_num [IsDoubleZero])]
    exact .ok rfl
  refine (halpha _).bind ?_
  rintro _ rfl
  refine (halpha _).bind ?_
  rintro _ rfl
  refine (gives_itemAt hfirst).bind ?_
  rintro _ rfl
  refine (gives_itemAt hlast).bind ?_
  rintro _ rfl
  refine .ite (fun _ => .ok rfl) fun hnot => .ok ?_
  -- the ends coincide, and handles of length zero are a third of the chord
  have hle := not_lt.mp (not_or.mp hnot).1
  have hzero : length (d.getD first 0 - d.getD last 0) = 0 :=
    le_antisymm (nonpos_of_mul_nonpos_right hle (by norm_num)) (length_nonneg _)
  dsimp only [standardSegment]
  rw [hzero, zero_div]

/-! ## Parameters along the stroke -/

/-- The length of the stroke from a point of it over the next ones. -/
noncomputable def arcLength (d : List QVector2D) (first : Nat) : Nat → ℝ
  | 0 => 0
  | n + 1 => arcLength d first n + length (d.getD (first + n) 0 - d.getD (first + n + 1) 0)

/-- The stroke is longer up to a later point. -/
lemma arcLength_mono {m n : Nat} (h : m ≤ n) : arcLength d first m ≤ arcLength d first n := by
  induction h with
  | refl => exact le_refl _
  | step h ih => exact ih.trans (le_add_of_nonneg_right (length_nonneg _))

/-- No three points in a row coincide. -/
def NoTriple (d : List QVector2D) : Prop :=
  ∀ i, i + 2 < d.length → ¬ (d.getD i 0 = d.getD (i + 1) 0 ∧ d.getD (i + 1) 0 = d.getD (i + 2) 0)

/-- A stroke over more than two points has a length. -/
lemma arcLength_pos (hd : NoTriple d) {n : Nat} (hn : 2 ≤ n) (hlast : first + n < d.length) :
    0 < arcLength d first n := by
  refine lt_of_lt_of_le ?_ (arcLength_mono hn)
  simp only [arcLength, zero_add, add_zero]
  have h1 := length_nonneg (d.getD first 0 - d.getD (first + 1) 0)
  have h2 := length_nonneg (d.getD (first + 1) 0 - d.getD (first + 1 + 1) 0)
  refine lt_of_le_of_ne (add_nonneg h1 h2) fun hzero => hd first (by omega) ⟨?_, ?_⟩
  · exact sub_eq_zero.mp (length_eq_zero.mp (by linarith))
  · exact sub_eq_zero.mp (length_eq_zero.mp (by linarith))

/-- The lengths that the parameters are proportional to. -/
lemma chordLengths_eq (n : Nat) (hlast : first + n < d.length) :
    chordLengths d first (first + n) = .ok ((List.range (n + 1)).map (arcLength d first)) := by
  rw [chordLengths, Nat.add_sub_cancel_left]
  induction n with
  | zero => rfl
  | succ n ih =>
    have hindex : first + 1 + n = first + n + 1 := by omega
    have hdiff : first + n + 1 - first = n + 1 := by omega
    have hget : ((List.range (n + 1)).map (arcLength d first)).getD n 0 = arcLength d first n := by
      simp
    rw [List.range'_1_concat, List.foldlM_append, ih (by omega), List.range_succ (n := n + 1),
      List.map_append, hindex]
    simp only [List.foldlM_cons, List.foldlM_nil, bind, Except.bind]
    rw [itemBefore_succ (by omega), itemAt_of_lt (by omega)]
    dsimp only
    rw [hdiff, itemBefore_succ (by simp), hget]
    rfl

/-- The parameters at which a segment is measured against the points of a range: the fractions of the
length of the stroke at first, and each time a step further. -/
noncomputable def parameter (d : List QVector2D) (first last : Nat) (c : CubicSegment) :
    Nat → Nat → ℝ
  | 0, i => arcLength d first (i - first) / arcLength d first (last - first)
  | k + 1, i => newtonStep c (d.getD i 0) (parameter d first last c k i)

/-- The parameters of all points of a range. -/
noncomputable def parameters (d : List QVector2D) (first last : Nat) (c : CubicSegment) (k : Nat) :
    List ℝ :=
  (List.range (last - first + 1)).map fun j => parameter d first last c k (first + j)

variable {c : CubicSegment} {k : Nat}

/-- There is a parameter for every point of the range. -/
lemma length_parameters : (parameters d first last c k).length = last - first + 1 := by
  simp [parameters]

/-- The parameter of a point of the range. -/
lemma getD_parameters {j : Nat} (h : j < last - first + 1) :
    (parameters d first last c k).getD j 0 = parameter d first last c k (first + j) := by
  rw [parameters, List.getD_eq_getElem _ _ (by simpa using h)]
  simp

/-- The fractions of the length are between zero and one. -/
lemma parameter_zero_mem {i : Nat} (h : i ≤ last) :
    0 ≤ parameter d first last c 0 i ∧ parameter d first last c 0 i ≤ 1 := by
  have hnonneg : ∀ n, 0 ≤ arcLength d first n := fun n => arcLength_mono (Nat.zero_le n)
  exact ⟨div_nonneg (hnonneg _) (hnonneg _),
    div_le_one_of_le₀ (arcLength_mono (by omega)) (hnonneg _)⟩

/-- The first parameters of a range of more than two points. -/
lemma chordLengthParameterize_eq (hd : NoTriple d) (hmore : first + 1 < last)
    (hlast : last < d.length) (c : CubicSegment) :
    chordLengthParameterize d first last = .ok (parameters d first last c 0) := by
  obtain ⟨n, rfl⟩ : ∃ n, last = first + n := ⟨last - first, by omega⟩
  have hdiff : first + n - first = n := by omega
  have htotal : ((List.range (n + 1)).map (arcLength d first)).getD n 0 = arcLength d first n := by
    simp
  have hpos := arcLength_pos hd (by omega) hlast
  have hrest : ((List.range (n + 1)).map (arcLength d first)).tail.mapM
      (fun x => divided x (arcLength d first n)) =
        .ok (((List.range (n + 1)).map (arcLength d first)).tail.map (· / arcLength d first n)) :=
    mapM_eq_ok_map fun x _ => divided_of_ne_zero hpos.ne'
  rw [chordLengthParameterize, chordLengths_eq n hlast, hdiff]
  change (itemAt _ n >>= _ : Except StrokeFault (List ℝ)) = _
  rw [itemAt_of_lt (by simp), htotal]
  change (List.mapM _ _ >>= _ : Except StrokeFault (List ℝ)) = _
  rw [hrest]
  refine congrArg Except.ok ?_
  rw [parameters, hdiff, List.range_succ_eq_map]
  simp [parameter, arcLength, Function.comp_def]

/-- The parameters a step further. -/
lemma reparameterize_eq (hrange : Range d first last) :
    reparameterize d first last (parameters d first last c k) c =
      .ok (parameters d first last c (k + 1)) := by
  have hlast := hrange.last_lt
  have hfirst := hrange.first_lt_last
  have hstep : ∀ i ∈ List.range' first (last - first + 1), (do
      newtonRaphsonRootFind c (← itemAt d i)
        (← itemAt (parameters d first last c k) (i - first))) =
        (.ok (parameter d first last c (k + 1) i) : Except StrokeFault ℝ) := by
    intro i hi
    rw [List.mem_range'_1] at hi
    have hindex : first + (i - first) = i := by omega
    rw [itemAt_of_lt (by omega), itemAt_of_lt (by rw [length_parameters]; omega),
      getD_parameters (by omega), hindex]
    exact newtonRaphsonRootFind_eq _ _ _
  rw [reparameterize, mapM_eq_ok_map hstep, List.range'_eq_map_range, List.map_map]
  rfl

/-! ## Attempts on a range -/

/-- A segment from one point of the stroke to another passes every point in between within the
error. -/
def Passes (d : List QVector2D) (error : ℝ) (first last : Nat) (c : CubicSegment) : Prop :=
  c.p0 = d.getD first 0 ∧ c.p3 = d.getD last 0 ∧
    ∀ i, first ≤ i → i ≤ last → c.Near error (d.getD i 0)

/-- The points between the ends of a range are within a bound of a curve, each measured at its
parameter. -/
def MeasuredBelow (d : List QVector2D) (bound : ℝ) (first last : Nat) (c : CubicSegment) (k : Nat) :
    Prop :=
  ∀ i, first < i → i < last →
    length (c.eval (parameter d first last c k i) - d.getD i 0) ^ 2 < bound

/-- The measurement of a curve: its greatest squared distance at the parameters of the points
between the ends, and one of these points. -/
lemma computeMaxError_gives (hmore : first + 1 < last) (hlast : last < d.length) :
    Gives (computeMaxError d first last c (parameters d first last c k)) fun r =>
      (first < r.2 ∧ r.2 < last) ∧ ∀ bound, r.1 < bound ↔ MeasuredBelow d bound first last c k := by
  let value := fun i => length (c.eval (parameter d first last c k i) - d.getD i 0) ^ 2
  have hmem : ∀ i, i ∈ List.range' (first + 1) (last - (first + 1)) ↔ first < i ∧ i < last := by
    intro i
    rw [List.mem_range'_1]
    omega
  have hloop : computeMaxError d first last c (parameters d first last c k) =
      .ok ((List.range' (first + 1) (last - (first + 1))).foldl (keepBest (· ≥ ·) value)
        (0, (last - first + 1) / 2)) := by
    refine foldlM_eq_ok_foldl fun best i hi => ?_
    have hi := (hmem i).mp hi
    have hindex : first + (i - first) = i := by omega
    rw [itemAt_of_lt (by rw [length_parameters]; omega), itemAt_of_lt (by omega),
      getD_parameters (by omega), hindex]
    dsimp only [bind, Except.bind]
    rw [bezierII_three]
    simp only [keepBest, value, pow_two]
    rfl
  rw [hloop]
  refine .ok ?_
  obtain ⟨-, hnone⟩ | ⟨i, hi, hpicked⟩ := foldl_keepBest_ge value
    (List.range' (first + 1) (last - (first + 1))) (0, (last - first + 1) / 2)
  · exact absurd (sq_nonneg _) (hnone (first + 1) ((hmem _).mpr ⟨by omega, hmore⟩))
  · have hbetween := (hmem i).mp hpicked.mem
    rw [hi]
    refine ⟨hbetween, fun bound => ⟨fun hlt j hj hj' => ?_, fun hbelow => ?_⟩⟩
    · exact (hpicked.le_of_ge j ((hmem j).mpr ⟨hj, hj'⟩)).trans_lt hlt
    · exact hbelow i hbetween.1 hbetween.2

/-- A range is accepted at a measurement: the first one below the error, among the first and, if that
is below the square of the error, the next four. -/
structure AcceptedAt (d : List QVector2D) (error : ℝ) (first last : Nat) (c : CubicSegment)
    (k : Nat) : Prop where
  le_four : k ≤ 4
  below : MeasuredBelow d error first last c k
  not_before : ∀ j < k, ¬ MeasuredBelow d error first last c j
  iterated : k ≠ 0 → MeasuredBelow d (error * error) first last c 0

/-- The points that are measured behind an end of the segment that their range is accepted with are
near the segment all the same. -/
def BehindEndsNear (d : List QVector2D) (error : ℝ) (first last : Nat) (c : CubicSegment) : Prop :=
  ∀ k, AcceptedAt d error first last c k → ∀ i, first < i → i < last →
    (parameter d first last c k i < 0 ∨ 1 < parameter d first last c k i) →
      c.Near error (d.getD i 0)

/-- A range is accepted with a segment that passes its points exactly when the points that are
measured behind the ends are near. -/
lemma AcceptedAt.passes_iff (h : AcceptedAt d error first last c k) (herror : 0 < error)
    (hc : c.p0 = d.getD first 0 ∧ c.p3 = d.getD last 0) :
    Passes d error first last c ↔ BehindEndsNear d error first last c := by
  constructor
  · exact fun hpasses j _ i hfirst hlast _ => hpasses.2.2 i hfirst.le hlast.le
  · intro hbehind
    refine ⟨hc.1, hc.2, fun i hfirst hlast => ?_⟩
    obtain rfl | hfirst := hfirst.eq_or_lt
    · exact hc.1 ▸ c.near_start herror
    obtain rfl | hlast := hlast.eq_or_lt
    · exact hc.2 ▸ c.near_end herror
    by_cases houtside : parameter d first last c k i < 0 ∨ 1 < parameter d first last c k i
    · exact hbehind k h i hfirst hlast houtside
    · obtain ⟨hzero, hone⟩ := not_or.mp houtside
      exact ⟨_, not_lt.mp hzero, not_lt.mp hone, h.below i hfirst hlast⟩

/-- With an error of one or less the parameters are never moved. -/
lemma behindEndsNear_of_error_le_one (herror : 0 < error) (hone : error ≤ 1) :
    BehindEndsNear d error first last c := by
  intro k hk i hfirst hlast houtside
  have hzero : k = 0 := by
    by_contra hne
    refine hk.not_before 0 (Nat.pos_of_ne_zero hne) fun j hj hj' => ?_
    exact (hk.iterated hne j hj hj').trans_le (mul_le_of_le_one_right herror.le hone)
  subst hzero
  obtain ⟨hlo, hhi⟩ : 0 ≤ parameter d first last c 0 i ∧ parameter d first last c 0 i ≤ 1 :=
    parameter_zero_mem hlast.le
  exact absurd houtside (not_or.mpr ⟨not_lt.mpr hlo, not_lt.mpr hhi⟩)

/-- The segment that is tried on a range. -/
noncomputable abbrev triedSegment (d : List QVector2D) (first last : Nat)
    (tHat1 tHat2 : QVector2D) : CubicSegment :=
  standardSegment ⟨d.getD first 0, d.getD last 0, tHat1, tHat2⟩

/-- How an attempt ends: with the segment, when some measurement accepts it, and else with a point
between the ends. -/
def FitSound (d : List QVector2D) (error : ℝ) (first last : Nat) (tried : CubicSegment) : Fit → Prop
  | .accepted c => c = tried ∧ ∃ k, AcceptedAt d error first last tried k
  | .split splitPoint =>
    (first < splitPoint ∧ splitPoint < last) ∧ ∀ k, ¬ AcceptedAt d error first last tried k

/-- The iterations after a measurement: each of them measures the segment at the next parameters. -/
lemma iterate_gives (hmore : first + 1 < last) (hlast : last < d.length) {iterations splitPoint : Nat}
    (hk : k + iterations = 4) (hsplit : first < splitPoint ∧ splitPoint < last)
    (hiterated : MeasuredBelow d (error * error) first last
      (triedSegment d first last tHat1 tHat2) 0)
    (hnot : ∀ j ≤ k, ¬ MeasuredBelow d error first last (triedSegment d first last tHat1 tHat2) j) :
    Gives (iterate d first last tHat1 tHat2 error iterations
        (parameters d first last (triedSegment d first last tHat1 tHat2) k)
        (triedSegment d first last tHat1 tHat2) splitPoint)
      (FitSound d error first last (triedSegment d first last tHat1 tHat2)) := by
  have hrange : Range d first last := ⟨by omega, hlast⟩
  induction iterations generalizing k splitPoint with
  | zero => exact .ok ⟨hsplit, fun j hj => hnot j (hj.le_four.trans (by omega)) hj.below⟩
  | succ iterations ih =>
    rw [iterate, reparameterize_eq hrange]
    refine (generateBezier_gives hrange length_parameters).bind ?_
    rintro _ rfl
    refine (computeMaxError_gives hmore hlast).bind fun r hr => ?_
    refine .ite (fun hlt => .ok ⟨rfl, k + 1, ⟨by omega, (hr.2 error).mp hlt, fun j hj => ?_,
      fun _ => hiterated⟩⟩) fun hge => ih (by omega) hr.1 fun j hj => ?_
    · exact hnot j (Nat.lt_succ_iff.mp hj)
    · obtain hj | rfl := Nat.le_succ_iff.mp hj
      · exact hnot j hj
      · exact mt (hr.2 error).mpr hge

/-- An attempt on a range of more than two points. -/
lemma fitRange_gives (hd : NoTriple d) (hmore : first + 1 < last) (hlast : last < d.length) :
    Gives (fitRange d first last tHat1 tHat2 error)
      (FitSound d error first last (triedSegment d first last tHat1 tHat2)) := by
  have hrange : Range d first last := ⟨by omega, hlast⟩
  rw [fitRange, chordLengthParameterize_eq hd hmore hlast (triedSegment d first last tHat1 tHat2)]
  refine (generateBezier_gives hrange length_parameters).bind ?_
  rintro _ rfl
  refine (computeMaxError_gives hmore hlast).bind fun r hr => ?_
  refine .ite (fun hlt => .ok ⟨rfl, 0, ⟨Nat.zero_le 4, (hr.2 error).mp hlt, ?_, ?_⟩⟩) fun hge => ?_
  · exact fun j hj => absurd hj (Nat.not_lt_zero j)
  · exact fun hne => absurd rfl hne
  have hnot : ¬ MeasuredBelow d error first last (triedSegment d first last tHat1 tHat2) 0 :=
    mt (hr.2 error).mpr hge
  refine .ite (fun hlt => ?_) fun hge' => .ok ⟨hr.1, fun k hk => ?_⟩
  · refine iterate_gives hmore hlast rfl hr.1 ((hr.2 (error * error)).mp hlt) fun j hj => ?_
    obtain rfl := Nat.le_zero.mp hj
    exact hnot
  · obtain rfl | hne := Nat.eq_zero_or_pos k
    · exact hnot hk.below
    · exact hge' ((hr.2 (error * error)).mpr (hk.iterated hne.ne'))

end Liangshi
