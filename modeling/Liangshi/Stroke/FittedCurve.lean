import Liangshi.Stroke.FitAttempt
import Mathlib.Logic.Relation

/-!
# The fitted curve

`FitCurve` ends without a fault on every stroke of at least two points in which no three points in a
row coincide, and the control points that it returns are those of cubic segments from one input point
to a later one, the first of which starts at the first point and the last of which ends at the last.
A segment that covers more than two points comes from an accepted attempt.  All of them pass the points
that they cover exactly when the points that an attempt measured behind the ends of its segment are
near the segment all the same (`fitCurve_passes_iff`), as they are with an error of one or less; with
the error of ten that a drawing is fitted with, a stroke that turns back on a line is lost
(`not_passes_turnedBack`).
-/

namespace Liangshi

open Plane Ordered Transition

variable {d : List QVector2D} {first last : Nat} {error : ℝ} {tHat1 tHat2 : QVector2D}

/-! ## The calls -/

/-- What `FitCubic` is called with on a stroke. -/
structure Call where
  first : Nat
  last : Nat
  tHat1 : QVector2D
  tHat2 : QVector2D

namespace Call

/-- The calls that a call makes, where its attempt ends with a point to split the range at. -/
inductive Makes (d : List QVector2D) (error : ℝ) : Call → Call → Prop
  | left {call : Call} {splitPoint : Nat} {tHatCenter : QVector2D}
    (hmore : call.first + 1 < call.last)
    (hsplit : fitRange d call.first call.last call.tHat1 call.tHat2 error = .ok (.split splitPoint))
    (hcenter : computeCenterTangent d splitPoint = .ok tHatCenter) :
    Makes d error call ⟨call.first, splitPoint, call.tHat1, tHatCenter⟩
  | right {call : Call} {splitPoint : Nat} {tHatCenter : QVector2D}
    (hmore : call.first + 1 < call.last)
    (hsplit : fitRange d call.first call.last call.tHat1 call.tHat2 error = .ok (.split splitPoint))
    (hcenter : computeCenterTangent d splitPoint = .ok tHatCenter) :
    Makes d error call ⟨splitPoint, call.last, (-1 : ℝ) • tHatCenter, call.tHat2⟩

/-- The points that an attempt of a call, or of one that it leads to, measures behind the ends of the
segment that it accepts are near the segment all the same. -/
def NoneLost (d : List QVector2D) (error : ℝ) (call : Call) : Prop :=
  ∀ call', Relation.ReflTransGen (Makes d error) call call' → call'.first + 1 < call'.last →
    BehindEndsNear d error call'.first call'.last
      (triedSegment d call'.first call'.last call'.tHat1 call'.tHat2)

variable {call : Call}

/-- A call that makes no other answers for itself. -/
lemma noneLost_iff_of_ends (h : ∀ call', ¬ Makes d error call call') :
    call.NoneLost d error ↔ (call.first + 1 < call.last →
      BehindEndsNear d error call.first call.last
        (triedSegment d call.first call.last call.tHat1 call.tHat2)) := by
  constructor
  · exact fun hnone => hnone call .refl
  · intro hself call' hreach
    obtain rfl | ⟨next, hmakes, -⟩ := hreach.cases_head
    · exact hself
    · exact absurd hmakes (h next)

/-- A call that splits its range answers for both halves. -/
lemma noneLost_iff_of_split (call : Call) {splitPoint : Nat} {tHatCenter : QVector2D}
    (hmore : call.first + 1 < call.last)
    (hsplit : fitRange d call.first call.last call.tHat1 call.tHat2 error = .ok (.split splitPoint))
    (hcenter : computeCenterTangent d splitPoint = .ok tHatCenter)
    (hnot : ∀ k, ¬ AcceptedAt d error call.first call.last
      (triedSegment d call.first call.last call.tHat1 call.tHat2) k) :
    call.NoneLost d error ↔
      NoneLost d error ⟨call.first, splitPoint, call.tHat1, tHatCenter⟩ ∧
        NoneLost d error ⟨splitPoint, call.last, (-1 : ℝ) • tHatCenter, call.tHat2⟩ := by
  constructor
  · exact fun h => ⟨fun call' hreach => h call' (.head (.left hmore hsplit hcenter) hreach),
      fun call' hreach => h call' (.head (.right hmore hsplit hcenter) hreach)⟩
  · rintro ⟨hleft, hright⟩ call' hreach
    obtain rfl | ⟨next, hmakes, hreach⟩ := hreach.cases_head
    · exact fun _ k hk => absurd hk (hnot k)
    · cases hmakes with
      | left _ hsplit' hcenter' =>
        obtain rfl := Fit.split.inj (Except.ok.inj (hsplit.symm.trans hsplit'))
        obtain rfl := Except.ok.inj (hcenter.symm.trans hcenter')
        exact hleft call' hreach
      | right _ hsplit' hcenter' =>
        obtain rfl := Fit.split.inj (Except.ok.inj (hsplit.symm.trans hsplit'))
        obtain rfl := Except.ok.inj (hcenter.symm.trans hcenter')
        exact hright call' hreach

end Call

/-! ## The chain of segments -/

/-- A segment from one point of the stroke to another, by its handles. -/
structure Piece where
  start : Nat
  stop : Nat
  c1 : QVector2D
  c2 : QVector2D

namespace Piece

/-- The segment as a curve. -/
def curve (d : List QVector2D) (p : Piece) : CubicSegment :=
  ⟨d.getD p.start 0, p.c1, p.c2, d.getD p.stop 0⟩

/-- The control points of a segment without the first. -/
def controls (d : List QVector2D) (p : Piece) : List QVector2D := [p.c1, p.c2, d.getD p.stop 0]

/-- The segment as a part of a path. -/
def element (d : List QVector2D) (p : Piece) : PainterPathElement := .cubicTo p.c1 p.c2 (d.getD p.stop 0)

/-- The segment goes forward along the stroke. -/
structure Fits (d : List QVector2D) (p : Piece) : Prop where
  start_lt_stop : p.start < p.stop
  stop_lt : p.stop < d.length

/-- The segment passes every point that it covers within the error, if these are more than two. -/
def Covers (d : List QVector2D) (error : ℝ) (p : Piece) : Prop :=
  p.start + 1 < p.stop → Passes d error p.start p.stop (p.curve d)

end Piece

/-- The segments lead from one point of the stroke to another. -/
structure Covering (d : List QVector2D) (first last : Nat) (pieces : List Piece) : Prop where
  first : pieces.head?.map Piece.start = some first
  last : pieces.getLast?.map Piece.stop = some last
  chain : pieces.IsChain fun p q => p.stop = q.start
  fits : ∀ p ∈ pieces, p.Fits d

namespace Covering

variable {pieces : List Piece}

/-- There is a segment. -/
lemma ne_nil (h : Covering d first last pieces) : pieces ≠ [] := by
  rintro rfl
  simpa using h.first

/-- One segment covers its own range. -/
lemma singleton {p : Piece} (h : p.Fits d) : Covering d p.start p.stop [p] :=
  ⟨rfl, rfl, by simp, by simpa using h⟩

/-- Segments up to a point and on from it. -/
lemma append {index : Nat} {pieces' : List Piece} (h : Covering d first index pieces)
    (h' : Covering d index last pieces') : Covering d first last (pieces ++ pieces') := by
  refine ⟨?_, ?_, List.isChain_append.mpr ⟨h.chain, h'.chain, fun p hp q hq => ?_⟩, fun p hp => ?_⟩
  · rw [List.head?_append_of_ne_nil _ h.ne_nil]
    exact h.first
  · rw [List.getLast?_append_of_ne_nil _ h'.ne_nil]
    exact h'.last
  · have hstop := h.last
    have hstart := h'.first
    rw [Option.mem_def.mp hp] at hstop
    rw [Option.mem_def.mp hq] at hstart
    exact (Option.some.inj hstop).trans (Option.some.inj hstart).symm
  · obtain hp | hp := List.mem_append.mp hp
    · exact h.fits p hp
    · exact h'.fits p hp

end Covering

/-- There is a tangent at a point between the ends. -/
lemma computeCenterTangent_gives {center : Nat} (hpos : 0 < center) (hlt : center + 1 < d.length) :
    Gives (computeCenterTangent d center) fun _ => True := by
  obtain ⟨n, rfl⟩ : ∃ n, center = n + 1 := ⟨center - 1, by omega⟩
  rw [computeCenterTangent, itemBefore_succ (by omega), itemAt_of_lt (by omega),
    itemAt_of_lt (by omega)]
  exact .ok trivial

/-- The recursion on a range of at least two points puts the control points of segments that cover
the range behind the result. -/
lemma fitCubic_gives (hd : NoTriple d) (herror : 0 < error) {fuel : Nat} {result : List QVector2D}
    (hrange : Range d first last) (hfuel : last - first ≤ fuel) :
    Gives (fitCubic fuel d first last tHat1 tHat2 error result) fun r => ∃ pieces,
      Covering d first last pieces ∧ r = result ++ pieces.flatMap (Piece.controls d) ∧
        ((∀ p ∈ pieces, p.Covers d error) ↔ Call.NoneLost d error ⟨first, last, tHat1, tHat2⟩) := by
  induction fuel generalizing first last tHat1 tHat2 result with
  | zero =>
    have := hrange.first_lt_last
    omega
  | succ fuel ih =>
    have hfirst := hrange.first_lt_last
    have hlast := hrange.last_lt
    let tried := triedSegment d first last tHat1 tHat2
    have hfits : Piece.Fits d ⟨first, last, tried.p1, tried.p2⟩ := ⟨hfirst, hlast⟩
    have hcontrols : result ++ [tried.p1, tried.p2, tried.p3] =
        result ++ [(⟨first, last, tried.p1, tried.p2⟩ : Piece)].flatMap (Piece.controls d) := rfl
    rw [fitCubic]
    refine .ite (fun htwo => ?_) fun hmore => ?_
    · -- two points
      refine (gives_itemAt (hfirst.trans hlast)).bind ?_
      rintro _ rfl
      refine (gives_itemAt hlast).bind ?_
      rintro _ rfl
      refine .ok ⟨_, .singleton hfits, hcontrols, ?_⟩
      have hnone : ∀ call', ¬ Call.Makes d error ⟨first, last, tHat1, tHat2⟩ call' := by
        intro call' hmakes
        cases hmakes <;> grind
      rw [Call.noneLost_iff_of_ends hnone, List.forall_mem_singleton]
      exact iff_of_true (fun hmore => by grind) fun hmore => by grind
    · have hmore : first + 1 < last := by omega
      obtain ⟨fit, hfit, hsound⟩ : Gives (fitRange d first last tHat1 tHat2 error)
          (FitSound d error first last (triedSegment d first last tHat1 tHat2)) :=
        fitRange_gives hd hmore hlast
      rw [hfit]
      cases fit with
      | accepted c =>
        obtain ⟨rfl, k, hk⟩ := hsound
        refine .ok ⟨_, .singleton hfits, hcontrols, ?_⟩
        have hnone : ∀ call', ¬ Call.Makes d error ⟨first, last, tHat1, tHat2⟩ call' := by
          intro call' hmakes
          cases hmakes <;> grind
        rw [Call.noneLost_iff_of_ends hnone, List.forall_mem_singleton]
        exact imp_congr_right fun _ => hk.passes_iff herror ⟨rfl, rfl⟩
      | split splitPoint =>
        obtain ⟨hsplit, hnot⟩ := hsound
        obtain ⟨tHatCenter, hcenter, -⟩ : Gives (computeCenterTangent d splitPoint) fun _ => True :=
          computeCenterTangent_gives (by omega) (by omega)
        change Gives (computeCenterTangent d splitPoint >>= _) _
        rw [hcenter]
        refine (ih ⟨hsplit.1, by omega⟩ (by omega)).bind ?_
        rintro _ ⟨left, hleft, rfl, hleft'⟩
        refine (ih ⟨hsplit.2, hlast⟩ (by omega)).mono ?_
        rintro _ ⟨right, hright, rfl, hright'⟩
        refine ⟨_, hleft.append hright, by simp, ?_⟩
        have hhalves := Call.noneLost_iff_of_split ⟨first, last, tHat1, tHat2⟩ hmore hfit hcenter hnot
        rw [hhalves, List.forall_mem_append]
        exact and_congr hleft' hright'

/-! ## The path -/

/-- The control points of the segment at an index of a list. -/
lemma getElem?_flatMap_controls (pieces : List Piece) (i : Nat) :
    (pieces.flatMap (Piece.controls d))[i * 3]? = pieces[i]?.map Piece.c1 ∧
      (pieces.flatMap (Piece.controls d))[i * 3 + 1]? = pieces[i]?.map Piece.c2 ∧
      (pieces.flatMap (Piece.controls d))[i * 3 + 2]? =
        pieces[i]?.map fun p => d.getD p.stop 0 := by
  induction pieces generalizing i with
  | nil => simp
  | cons p pieces ih =>
    cases i with
    | zero => simp [Piece.controls]
    | succ i => simpa [Piece.controls, Nat.succ_mul] using ih i

/-- There are three control points for every segment. -/
lemma length_flatMap_controls (pieces : List Piece) :
    (pieces.flatMap (Piece.controls d)).length = 3 * pieces.length := by
  induction pieces with
  | nil => rfl
  | cons p pieces ih =>
    simp only [List.flatMap_cons, List.length_append, ih, Piece.controls, List.length_cons,
      List.length_nil]
    omega

/-- The path through the control points of segments has these segments. -/
lemma toPath_controls {pieces : List Piece} (hne : pieces ≠ []) (start : QVector2D) :
    toPath (start :: pieces.flatMap (Piece.controls d)) =
      .ok (.moveTo start :: pieces.map (Piece.element d)) := by
  have hpos : 0 < pieces.length := List.length_pos_iff.mpr hne
  have hlength := length_flatMap_controls (d := d) pieces
  have hloop : ((start :: pieces.flatMap (Piece.controls d)).length - 1) / 3 = pieces.length := by
    rw [List.length_cons, hlength]
    omega
  have hfront : ∀ n, n ≤ pieces.length → (List.range n).foldlM (fun path i => do
      let controlPoint1 ← itemAt (start :: pieces.flatMap (Piece.controls d)) (i * 3 + 1)
      let controlPoint2 ← itemAt (start :: pieces.flatMap (Piece.controls d)) (i * 3 + 2)
      let endPoint ← itemAt (start :: pieces.flatMap (Piece.controls d)) (i * 3 + 3)
      return path ++ [PainterPathElement.cubicTo controlPoint1 controlPoint2 endPoint])
        [.moveTo start] =
        (.ok (.moveTo start :: (pieces.take n).map (Piece.element d)) :
          Except StrokeFault (List PainterPathElement)) := by
    intro n hn
    induction n with
    | zero => rfl
    | succ n ih =>
      have hcontrols := getElem?_flatMap_controls (d := d) pieces n
      have hpiece : pieces[n]? = some pieces[n] := List.getElem?_eq_getElem hn
      rw [hpiece] at hcontrols
      rw [List.range_succ, List.foldlM_append, ih (by omega), List.take_succ_eq_append_getElem hn]
      simp only [List.foldlM_cons, List.foldlM_nil, itemAt, List.getElem?_cons_succ, hcontrols,
        Option.map_some, bind, Except.bind, pure, Except.pure]
      rw [List.map_append]
      rfl
  rw [toPath, if_neg (by rw [List.length_cons, hlength]; omega), hloop]
  dsimp only
  rw [if_neg (by omega)]
  change (List.range pieces.length).foldlM _ [PainterPathElement.moveTo start] = _
  rw [hfront pieces.length (le_refl _), List.take_length]

/-- The call for a whole stroke. -/
noncomputable def Call.whole (d : List QVector2D) : Call :=
  ⟨0, d.length - 1, normalized (d.getD 1 0 - d.getD 0 0),
    normalized (d.getD (d.length - 2) 0 - d.getD (d.length - 1) 0)⟩

/-- The control points of a fitted stroke are those of segments that cover it. -/
lemma fitCurve_covers {fuel : Nat} (htwo : 2 ≤ d.length) (hd : NoTriple d) (herror : 0 < error)
    (hfuel : d.length ≤ fuel) :
    Gives (fitCurve fuel d error) fun r => ∃ pieces, Covering d 0 (d.length - 1) pieces ∧
      r = pieces.flatMap (Piece.controls d) ∧
        ((∀ p ∈ pieces, p.Covers d error) ↔ (Call.whole d).NoneLost d error) := by
  have hcall : fitCurve fuel d error =
      fitCubic fuel d 0 (d.length - 1) (Call.whole d).tHat1 (Call.whole d).tHat2 error [] := by
    have hindex : d.length - 1 = d.length - 2 + 1 := by omega
    rw [fitCurve, computeLeftTangent, itemAt_of_lt (by omega), itemAt_of_lt (by omega),
      computeRightTangent, hindex, itemBefore_succ (by omega), itemAt_of_lt (by omega), ← hindex]
    rfl
  rw [hcall]
  exact fitCubic_gives hd herror ⟨by omega, by omega⟩ (by omega)

/-- The fit of a stroke of at least two points, no three of which coincide in a row, ends without a
fault.  Its control points are those of segments that lead from the first point to the last, and the
path through them has these segments.  The segments that cover more than two points pass them within
the error exactly when no point that is measured behind the end of an accepted segment is lost. -/
theorem fitCurve_passes_iff (htwo : 2 ≤ d.length) (hd : NoTriple d) (herror : 0 < error) :
    (∀ first last tHat1 tHat2 splitPoint, first + 1 < last → last < d.length →
      fitRange d first last tHat1 tHat2 error = .ok (.split splitPoint) →
        first < splitPoint ∧ splitPoint < last) ∧
    ∀ fuel, d.length ≤ fuel → ∃ pieces, Covering d 0 (d.length - 1) pieces ∧
      1 ≤ pieces.length ∧ (pieces.flatMap (Piece.controls d)).length = 3 * pieces.length ∧
      fitCurve fuel d error = .ok (pieces.flatMap (Piece.controls d)) ∧
      toPath (d.getD 0 0 :: pieces.flatMap (Piece.controls d)) =
        .ok (.moveTo (d.getD 0 0) :: pieces.map (Piece.element d)) ∧
      ((∀ p ∈ pieces, p.Covers d error) ↔ (Call.whole d).NoneLost d error) := by
  constructor
  · intro first last tHat1 tHat2 splitPoint hmore hlast hsplit
    exact ((fitRange_gives hd hmore hlast).of_eq hsplit).1
  · intro fuel hfuel
    obtain ⟨r, hr, pieces, hcovering, rfl, hcovers⟩ := fitCurve_covers htwo hd herror hfuel
    exact ⟨pieces, hcovering, List.length_pos_iff.mpr hcovering.ne_nil,
      length_flatMap_controls pieces, hr, toPath_controls hcovering.ne_nil _, hcovers⟩

/-- With an error of one or less nothing is measured behind an end. -/
lemma Call.noneLost_of_error_le_one (call : Call) (herror : 0 < error) (hone : error ≤ 1) :
    call.NoneLost d error :=
  fun _ _ _ => behindEndsNear_of_error_le_one herror hone

/-- A right-angled stroke. -/
def corner : List QVector2D := [(0, 0), (0, 3), (3, 3)]

/-- No three of its points coincide. -/
lemma corner_noTriple : NoTriple corner := by
  intro i hi
  obtain rfl : i = 0 := by
    simp [corner] at hi
    omega
  simp [corner]

/-- The segments of the right-angled stroke pass its points. -/
theorem fitCurve_passes_iff_corner : ∃ pieces, Covering corner 0 2 pieces ∧
    fitCurve 3 corner 1 = .ok (pieces.flatMap (Piece.controls corner)) ∧
    toPath ((0, 0) :: pieces.flatMap (Piece.controls corner)) =
      .ok (.moveTo (0, 0) :: pieces.map (Piece.element corner)) ∧
    ∀ p ∈ pieces, p.Covers corner 1 := by
  obtain ⟨pieces, hcovering, -, -, hfit, hpath, hcovers⟩ :=
    (fitCurve_passes_iff (d := corner) (by simp [corner]) corner_noTriple one_pos).2 3
      (by simp [corner])
  exact ⟨pieces, hcovering, hfit, hpath,
    hcovers.mpr ((Call.whole corner).noneLost_of_error_le_one one_pos le_rfl)⟩

/-- A stroke that turns back on a line twice. -/
def turnedBack : List QVector2D := [(0, 0), (-10.0, 0), (4.0, 0), (-1, 0)]

/-- The segment from its first point to its last. -/
noncomputable def turnedBackSegment : CubicSegment := ⟨(0, 0), (-1 / 3, 0), (-2 / 3, 0), (-1, 0)⟩

/-- No three points of the stroke coincide. -/
lemma turnedBack_noTriple : NoTriple turnedBack := by
  intro i hi
  have hlt : i + 2 < 4 := hi
  obtain rfl | rfl : i = 0 ∨ i = 1 := by omega
  · norm_num [turnedBack]
  · norm_num [turnedBack]

/-- The second point of the stroke. -/
lemma turnedBack_second : turnedBack.getD 1 0 = (-10, 0) := by
  norm_num [turnedBack]

/-- The third point of the stroke. -/
lemma turnedBack_third : turnedBack.getD 2 0 = (4, 0) := by
  norm_num [turnedBack]

/-- The length of a horizontal vector. -/
lemma length_horizontal (x : ℝ) : length (x, 0) = |x| := by
  simp [length, Real.sqrt_sq_eq_abs]

/-- A point of the segment. -/
lemma eval_turnedBackSegment (t : ℝ) : turnedBackSegment.eval t = (-t, 0) := by
  ext <;> simp only [turnedBackSegment, CubicSegment.eval, bernstein0, bernstein1, bernstein2,
    bernstein3, Prod.fst_add, Prod.snd_add, Prod.smul_fst, Prod.smul_snd, smul_eq_mul] <;> ring

/-- A step of Newton's method finds the parameter of a point of the line at once. -/
lemma newtonStep_turnedBackSegment (x u : ℝ) : newtonStep turnedBackSegment (x, 0) u = -x := by
  have hvelocity : turnedBackSegment.velocity u = (-1, 0) := by
    ext <;> simp only [turnedBackSegment, CubicSegment.velocity, Prod.fst_add, Prod.snd_add,
      Prod.smul_fst, Prod.smul_snd, Prod.fst_sub, Prod.snd_sub, smul_eq_mul] <;> ring
  have hacceleration : turnedBackSegment.acceleration u = (0, 0) := by
    ext <;> simp only [turnedBackSegment, CubicSegment.acceleration, Prod.fst_add, Prod.snd_add,
      Prod.smul_fst, Prod.smul_snd, Prod.fst_sub, Prod.snd_sub, smul_eq_mul] <;> ring
  rw [newtonStep, hvelocity, hacceleration, eval_turnedBackSegment]
  norm_num [dot, IsDoubleZero]

/-- The segment is what is tried on the whole stroke. -/
lemma triedSegment_turnedBack :
    triedSegment turnedBack 0 3 (-1, 0) (1, 0) = turnedBackSegment := by
  have hlength : length (1, 0) = 1 := by
    rw [length_horizontal, abs_one]
  ext <;> norm_num [standardSegment, Frame.segment, turnedBack, turnedBackSegment, hlength]

/-- The squared distance of a point of the line from the curve at a parameter. -/
lemma sq_length_turnedBackSegment (t x : ℝ) :
    length (turnedBackSegment.eval t - (x, 0)) ^ 2 = (t + x) ^ 2 := by
  rw [eval_turnedBackSegment, length_sq]
  simp
  ring

/-- The whole stroke is accepted when its points have been measured again, behind both ends of the
segment. -/
lemma acceptedAt_turnedBack : AcceptedAt turnedBack 10 0 3 turnedBackSegment 1 := by
  have harc1 : arcLength turnedBack 0 1 = 10 := by
    norm_num [arcLength, turnedBack, length_horizontal]
  have harc2 : arcLength turnedBack 0 2 = 24 := by
    rw [arcLength, harc1]
    norm_num [turnedBack, length_horizontal]
  have harc3 : arcLength turnedBack 0 3 = 29 := by
    rw [arcLength, harc2]
    norm_num [turnedBack, length_horizontal]
  have hfirst : ∀ bound, MeasuredBelow turnedBack bound 0 3 turnedBackSegment 0 ↔
      (10 / 29 + -10 : ℝ) ^ 2 < bound ∧ (24 / 29 + 4 : ℝ) ^ 2 < bound := by
    intro bound
    constructor
    · intro h
      have h1 := h 1 (by decide) (by decide)
      have h2 := h 2 (by decide) (by decide)
      rw [parameter, harc1, harc3, turnedBack_second, sq_length_turnedBackSegment] at h1
      rw [parameter, harc2, harc3, turnedBack_third, sq_length_turnedBackSegment] at h2
      exact ⟨h1, h2⟩
    · rintro ⟨h1, h2⟩ i hi hi'
      obtain rfl | rfl : i = 1 ∨ i = 2 := by omega
      · rwa [parameter, harc1, harc3, turnedBack_second, sq_length_turnedBackSegment]
      · rwa [parameter, harc2, harc3, turnedBack_third, sq_length_turnedBackSegment]
  refine ⟨by decide, fun i hi hi' => ?_, fun j hj => ?_, fun _ => (hfirst _).mpr (by norm_num)⟩
  · have hpoint : turnedBack.getD i 0 = ((turnedBack.getD i 0).1, 0) := by
      obtain rfl | rfl : i = 1 ∨ i = 2 := by omega
      · rfl
      · rfl
    rw [parameter, hpoint, newtonStep_turnedBackSegment, sq_length_turnedBackSegment,
      neg_add_cancel]
    norm_num
  · obtain rfl := Nat.lt_one_iff.mp hj
    rw [hfirst]
    norm_num

/-- The stroke that turns back is fitted with one segment, and its second and third points are nine
and four away from it. -/
theorem not_passes_turnedBack :
    2 ≤ turnedBack.length ∧ NoTriple turnedBack ∧
      fitCurve 4 turnedBack 10 = .ok [(-1 / 3, 0), (-2 / 3, 0), (-1, 0)] ∧
      (∀ t, 0 ≤ t → t ≤ 1 →
        9 ^ 2 ≤ length (turnedBackSegment.eval t - turnedBack.getD 1 0) ^ 2 ∧
          4 ^ 2 ≤ length (turnedBackSegment.eval t - turnedBack.getD 2 0) ^ 2) ∧
      ¬ Passes turnedBack 10 0 3 turnedBackSegment := by
  have hfar : ∀ t, 0 ≤ t → t ≤ 1 →
      (9 : ℝ) ^ 2 ≤ length (turnedBackSegment.eval t - turnedBack.getD 1 0) ^ 2 ∧
        (4 : ℝ) ^ 2 ≤ length (turnedBackSegment.eval t - turnedBack.getD 2 0) ^ 2 := by
    intro t hzero hone
    rw [turnedBack_second, turnedBack_third, sq_length_turnedBackSegment,
      sq_length_turnedBackSegment]
    constructor <;> nlinarith only [hzero, hone]
  have hleft : computeLeftTangent turnedBack 0 = .ok (-1, 0) := by
    have hnormalized : normalized ((-10.0, 0) - (0, 0)) = (-1, 0) := by
      norm_num [normalized, length_horizontal]
    exact congrArg Except.ok hnormalized
  have hright : computeRightTangent turnedBack 3 = .ok (1, 0) := by
    have hnormalized : normalized ((4.0, 0) - (-1, 0)) = (1, 0) := by
      norm_num [normalized, length_horizontal]
    exact congrArg Except.ok hnormalized
  have hfit : fitRange turnedBack 0 3 (-1, 0) (1, 0) 10 = .ok (.accepted turnedBackSegment) := by
    obtain ⟨fit, hfit, hsound⟩ : Gives (fitRange turnedBack 0 3 (-1, 0) (1, 0) 10)
        (FitSound turnedBack 10 0 3 (triedSegment turnedBack 0 3 (-1, 0) (1, 0))) :=
      fitRange_gives turnedBack_noTriple (by decide) (by simp [turnedBack])
    rw [triedSegment_turnedBack] at hsound
    rw [hfit]
    cases fit with
    | accepted c => rw [hsound.1]
    | split splitPoint => exact absurd acceptedAt_turnedBack (hsound.2 1)
  refine ⟨by simp [turnedBack], turnedBack_noTriple, ?_, hfar, fun hpasses => ?_⟩
  · have hlast : turnedBack.length - 1 = 3 := rfl
    rw [fitCurve, hleft, hlast, hright]
    change fitCubic 4 turnedBack 0 3 (-1, 0) (1, 0) 10 [] = _
    rw [fitCubic, hfit]
    rfl
  · obtain ⟨t, hzero, hone, hnear⟩ := hpasses.2.2 1 (by decide) (by decide)
    have hfar1 := (hfar t hzero hone).1
    linarith

end Liangshi
