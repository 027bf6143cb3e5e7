import Liangshi.Live.MousePage
import Liangshi.Ordered.Thinning
import Liangshi.Stroke.FittedCurve
import Liangshi.Stroke.StrokeReduction

/-!
# The path of a stroke

`UpdatePoints` of a `DrawElement` makes a path of the points of a gesture: repeated points are dropped,
the rest is simplified and fitted, and the control points are cut off to whole numbers, which is how
they are saved.  Fitting moves the handles anywhere, but the joints are points of the stroke and whole
already, so that the painted path runs through them (`DrawElement.updatePoints_gives`).  All that is over
exact arithmetic: what the floats of a `QVector2D` round is left out.
-/

namespace Liangshi

open Plane Ordered Transition

/-! ## The element -/

/-- `DrawElement`, with the path that it paints. -/
structure DrawElement where
  points : List SPoint
  path : List PainterPathElement

/-- A number as a cast to `int` cuts it off. -/
noncomputable def truncated (x : ℝ) : ℤ := if 0 ≤ x then ⌊x⌋ else ⌈x⌉

/-- `SPoint` of a `QVector2D`. -/
noncomputable def vector2D2Point (p : QVector2D) : SPoint :=
  ⟨.ofInt (truncated p.1), .ofInt (truncated p.2)⟩

/-- `QVector2D` of an `SPoint`. -/
def point2Vector2D (p : SPoint) : QVector2D := (p.x.toInt, p.y.toInt)

namespace DrawElement

/-- `UpdateDataFromMsgPack`: the path of the points that have been read. -/
def updateDataFromMsgPack (points : List SPoint) : Except StrokeFault DrawElement := do
  return ⟨points, ← toPath (points.map point2Vector2D)⟩

/-- `UpdatePoints` of a new element; nothing where it returns `false`. -/
noncomputable def updatePoints (fuel : Nat) (points : List SPoint) :
    Except StrokeFault (Option DrawElement) := do
  let generatePointVector ← toVector fuel (points.map point2Vector2D) 4.0 10
  if generatePointVector = [] then return none
  return some (← updateDataFromMsgPack (generatePointVector.map vector2D2Point))

end DrawElement

/-- The points of the element, as the mouse takes them: none where it is not added. -/
noncomputable def DrawElement.pointsOf (fuel : Nat) (points : List SPoint) : List SPoint :=
  match updatePoints fuel points with
  | .ok (some e) => e.points
  | _ => []

/-! ## Whole numbers -/

/-- A whole number is not cut off. -/
lemma truncated_intCast (n : ℤ) : truncated n = n := by
  rw [truncated]
  split_ifs
  · exact Int.floor_intCast n
  · exact Int.ceil_intCast n

/-- A point that is whole is not moved by cutting it off. -/
lemma vector2D2Point_point2Vector2D (p : SPoint) : vector2D2Point (point2Vector2D p) = p := by
  simp [vector2D2Point, point2Vector2D, truncated_intCast]

/-- Different points are different vectors. -/
lemma point2Vector2D_injective : Function.Injective point2Vector2D :=
  Function.LeftInverse.injective vector2D2Point_point2Vector2D

/-- The control point that is painted. -/
noncomputable def cutOff (p : QVector2D) : QVector2D := point2Vector2D (vector2D2Point p)

/-- A point of the stroke is not cut off. -/
lemma cutOff_of_mem {points : List SPoint} {p : QVector2D} (h : p ∈ points.map point2Vector2D) :
    cutOff p = p := by
  obtain ⟨q, -, rfl⟩ := List.mem_map.mp h
  rw [cutOff, vector2D2Point_point2Vector2D]

/-! ## The stages -/

variable {fuel : Nat}

/-- Neighbours that a range is split at differ, and the last of them from the end of the range. -/
lemma Splits.chain_ne {points : List QVector2D} {tolerance : ℝ} {first last : Nat} {l : List Nat}
    (h : Splits points tolerance first last l) (htolerance : 0 < tolerance)
    (hchord : Chord points first last) :
    (first :: l ++ [last]).IsChain fun i j => points.getD i 0 ≠ points.getD j 0 := by
  induction h with
  | straight => simpa using hchord.ne
  | @split first last index left right hfarthest hleft hright ihl ihr =>
    have hassoc : first :: (left ++ index :: right) ++ [last] =
        first :: left ++ index :: (right ++ [last]) := by simp
    obtain ⟨hbefore, hbehind⟩ := hfarthest.chords htolerance hchord
    rw [hassoc, List.isChain_split]
    exact ⟨ihl hbefore, ihr hbehind⟩

/-- Points whose neighbours differ, up to the last one. -/
lemma noTriple_of_isChain {d : List QVector2D} (h : d.dropLast.IsChain (· ≠ ·)) : NoTriple d := by
  rintro i hi ⟨hfirst, -⟩
  have hne := List.isChain_iff_getElem.mp h i (by rw [List.length_dropLast]; omega)
  rw [List.getElem_dropLast, List.getElem_dropLast] at hne
  rw [List.getD_eq_getElem _ _ (by omega), List.getD_eq_getElem _ _ (by omega)] at hfirst
  exact hne hfirst

/-- The simplified stroke keeps the ends, and two points at least if there are two. -/
lemma simplified_gives {v : List QVector2D} {tolerance : ℝ} (hne : v.IsChain (· ≠ ·))
    (htolerance : 0 < tolerance) (hfuel : v.length ≤ fuel) :
    Gives (douglasPeuckerReduction fuel v tolerance) fun d => Thins v d ∧ NoTriple d ∧
      (d.length ≤ 1 ↔ v.length ≤ 1) := by
  by_cases hlength : 3 ≤ v.length
  · obtain ⟨last, l, -, hchord, hsplits, hincreasing, hkeeps⟩ :=
      keeps_of_splits hlength hne htolerance hfuel
    refine ⟨_, hkeeps.result, ?_, noTriple_of_isChain ?_, ?_⟩
    · exact thins_map_getD hincreasing rfl List.getLast?_concat
        (List.ne_nil_of_length_pos (by omega))
    · rw [List.map_append, List.map_singleton, List.dropLast_concat, List.isChain_map]
      exact (hsplits.chain_ne htolerance hchord).left_of_append
    · simp only [List.length_map, List.length_append, List.length_cons, List.length_nil]
      omega
  · rw [douglasPeuckerReduction, if_pos (by omega)]
    exact .ok ⟨.refl v, fun i hi => by omega, Iff.rfl⟩

/-- The joints of a covering, from the first to the last. -/
lemma Covering.joints {d : List QVector2D} {first last : Nat} {pieces : List Piece}
    (h : Covering d first last pieces) :
    (first :: pieces.map Piece.stop).Pairwise (· < ·) ∧
      (first :: pieces.map Piece.stop).getLast? = some last := by
  have hchain : ∀ (pieces : List Piece) (first : Nat), pieces.head?.map Piece.start = some first →
      pieces.IsChain (fun p q => p.stop = q.start) → (∀ p ∈ pieces, p.start < p.stop) →
        (first :: pieces.map Piece.stop).IsChain (· < ·) := by
    intro pieces
    induction pieces with
    | nil => exact fun _ hfirst => by simp at hfirst
    | cons p pieces ih =>
      intro first hfirst hpieces hforward
      obtain rfl : p.start = first := by simpa using hfirst
      rw [List.map_cons, List.isChain_cons_cons]
      refine ⟨hforward p List.mem_cons_self, ?_⟩
      cases pieces with
      | nil => simp
      | cons q pieces =>
        obtain ⟨hstop, hrest⟩ := List.isChain_cons_cons.mp hpieces
        exact ih p.stop (by simp [hstop]) hrest fun r hr => hforward r (List.mem_cons_of_mem p hr)
  refine ⟨List.isChain_iff_pairwise.mp (hchain pieces first h.first h.chain fun p hp =>
    (h.fits p hp).start_lt_stop), ?_⟩
  have hne : pieces.map Piece.stop ≠ [] := by simpa using h.ne_nil
  rw [List.getLast?_cons_of_ne_nil hne, List.getLast?_map, h.last]

/-! ## The path -/

/-- Where a part of a path ends. -/
def PainterPathElement.stop : PainterPathElement → QVector2D
  | .moveTo p | .lineTo p | .cubicTo _ _ p => p

/-- Whether a part of a path goes on from the part before. -/
def PainterPathElement.Continues : PainterPathElement → Prop
  | .moveTo _ => False
  | _ => True

/-- A path follows a stroke: it begins where the stroke does, goes on without a gap, and its joints are
points of the stroke in the order of the stroke, the last one being the end of the stroke. -/
structure Follows (points : List QVector2D) (path : List PainterPathElement) : Prop where
  begins : path.head? = points.head?.map PainterPathElement.moveTo
  connected : ∀ part ∈ path.tail, part.Continues
  joints : Thins points (path.map PainterPathElement.stop)

/-- A segment with the handles that are painted. -/
noncomputable def Piece.cutOff (p : Piece) : Piece :=
  { p with c1 := Liangshi.cutOff p.c1, c2 := Liangshi.cutOff p.c2 }

/-- Cutting off the control points of segments of whole points moves the handles only. -/
lemma map_cutOff_controls {d : List QVector2D} {pieces : List Piece}
    (hwhole : ∀ p ∈ d, cutOff p = p) (h : ∀ p ∈ pieces, p.stop < d.length) :
    (pieces.flatMap (Piece.controls d)).map cutOff =
      (pieces.map Piece.cutOff).flatMap (Piece.controls d) := by
  rw [List.map_flatMap, List.flatMap_map]
  refine List.flatMap_congr fun p hp => ?_
  have hstop : cutOff (d.getD p.stop 0) = d.getD p.stop 0 := by
    rw [List.getD_eq_getElem _ _ (h p hp)]
    exact hwhole _ (List.getElem_mem _)
  simp only [Piece.controls, Piece.cutOff, List.map_cons, List.map_nil, hstop]

/-- The points of a path are read back as they were cut off. -/
lemma map_points (result : List QVector2D) :
    (result.map vector2D2Point).map point2Vector2D = result.map cutOff := by
  rw [List.map_map]
  rfl

/-- A stroke of two points is a line. -/
lemma follows_line {d : List QVector2D} (hlength : d.length = 2) (hwhole : ∀ p ∈ d, cutOff p = p) :
    Gives (toPath (d.map cutOff)) (Follows d) := by
  obtain ⟨a, b, rfl⟩ := List.length_eq_two.mp hlength
  have ha : cutOff a = a := hwhole a (by simp)
  have hb : cutOff b = b := hwhole b (by simp)
  refine ⟨[.moveTo a, .lineTo b], ?_, rfl, ?_, .refl _⟩
  · rw [List.map_cons, List.map_singleton, ha, hb]
    rfl
  · simp [PainterPathElement.Continues]

/-- A stroke of more points is a chain of curves. -/
lemma follows_curves {d : List QVector2D} {pieces : List Piece} (hne : d ≠ [])
    (hwhole : ∀ p ∈ d, cutOff p = p) (h : Covering d 0 (d.length - 1) pieces) :
    Gives (toPath ((d.getD 0 0 :: pieces.flatMap (Piece.controls d)).map cutOff)) (Follows d) := by
  have hpos : 0 < d.length := List.length_pos_iff.mpr hne
  have hstart : cutOff (d.getD 0 0) = d.getD 0 0 := by
    rw [List.getD_eq_getElem _ _ hpos]
    exact hwhole _ (List.getElem_mem _)
  have hpieces : pieces.map Piece.cutOff ≠ [] := by simpa using h.ne_nil
  rw [List.map_cons, hstart, map_cutOff_controls hwhole fun p hp => (h.fits p hp).stop_lt,
    toPath_controls hpieces]
  have hstops : (.moveTo (d.getD 0 0) :: (pieces.map Piece.cutOff).map (Piece.element d)).map
      PainterPathElement.stop = (0 :: pieces.map Piece.stop).map (d.getD · 0) := by
    simp [PainterPathElement.stop, Piece.element, Piece.cutOff, Function.comp_def]
  refine .ok ⟨?_, ?_, ?_⟩
  · have hhead : d.head? = some (d.getD 0 0) := by
      rw [List.getD_eq_getElem _ _ hpos, List.head?_eq_getElem?, List.getElem?_eq_getElem hpos]
    rw [hhead]
    rfl
  · simp [PainterPathElement.Continues, Piece.element]
  · rw [hstops]
    exact thins_map_getD h.joints.1 rfl h.joints.2 hne

/-- A path that follows a part of a stroke with its ends follows the stroke. -/
lemma Follows.of_thins {points points' : List QVector2D} {path : List PainterPathElement}
    (h : Follows points' path) (hthins : Thins points points') : Follows points path :=
  ⟨h.begins.trans (by rw [hthins.head]), h.connected, hthins.trans h.joints⟩

/-- The vector of a stroke of whole points: nothing, or control points whose path follows it. -/
lemma toVector_gives {points : List QVector2D} {tolerance error : ℝ} (htolerance : 0 < tolerance)
    (herror : 0 < error) (hwhole : ∀ p ∈ points, cutOff p = p) (hfuel : points.length ≤ fuel) :
    Gives (toVector fuel points tolerance error) fun result =>
      (result = [] ↔ ∀ p ∈ points, ∀ q ∈ points, p = q) ∧
        (result ≠ [] → Gives (toPath (result.map cutOff)) (Follows points)) := by
  have hthin := thins_destutter points
  have hlength := hthin.sublist.length_le
  rw [toVector]
  dsimp only
  rw [if_pos htolerance]
  refine (simplified_gives (points.isChain_destutter _) htolerance (hlength.trans hfuel)).bind ?_
  rintro d ⟨hd, htriple, hone⟩
  rw [length_destutter_le_one_iff] at hone
  have hstroke : Thins points d := hthin.trans hd
  have hwhole' : ∀ p ∈ d, cutOff p = p := fun p hp => hwhole p (hstroke.sublist.subset hp)
  by_cases hmore : d.length > 2
  · have hne : d ≠ [] := List.ne_nil_of_length_pos (by omega)
    rw [if_pos hmore]
    have hlengths := hstroke.sublist.length_le
    have hfuel' : d.length ≤ fuel := by omega
    obtain ⟨r, hr, pieces, hcovering, rfl, -⟩ := fitCurve_covers (by omega) htriple herror hfuel'
    have hcontrols := length_flatMap_controls (d := d) pieces
    have hpieces : 0 < pieces.length := List.length_pos_iff.mpr hcovering.ne_nil
    rw [itemAt_of_lt (by omega), hr]
    have hlong : ¬ (d.getD 0 0 :: pieces.flatMap (Piece.controls d)).length ≤ 1 := by
      rw [List.length_cons]
      omega
    refine ⟨d.getD 0 0 :: pieces.flatMap (Piece.controls d), congrArg Except.ok (if_neg hlong),
      iff_of_false (List.cons_ne_nil _ _) fun hsame => ?_, fun _ =>
        (follows_curves hne hwhole' hcovering).mono fun _ h => h.of_thins hstroke⟩
    have := hone.mpr hsame
    omega
  · rw [if_neg hmore]
    refine .ok ?_
    by_cases hshort : d.length ≤ 1
    · rw [if_pos hshort]
      exact ⟨iff_of_true rfl (hone.mp hshort), fun hne => absurd rfl hne⟩
    · rw [if_neg hshort]
      have hne : d ≠ [] := List.ne_nil_of_length_pos (by omega)
      exact ⟨iff_of_false hne fun hsame => hshort (hone.mpr hsame),
        fun _ => (follows_line (by omega) hwhole').mono fun _ h => h.of_thins hstroke⟩

namespace DrawElement

/-- A gesture makes an element without a fault, unless all its points are the same; its path follows the
gesture, also when the element has been saved and opened. -/
theorem updatePoints_gives {points : List SPoint} (hfuel : points.length ≤ fuel) :
    Gives (updatePoints fuel points) fun drawn =>
      ElementBody.drawUpdatePoints (pointsOf fuel) points = drawn.map (.draw ·.points) ∧
        (drawn = none ↔ ∀ p ∈ points, ∀ q ∈ points, p = q) ∧
        ∀ e ∈ drawn, Follows (points.map point2Vector2D) e.path ∧
          updateDataFromMsgPack e.points = .ok e := by
  have hsame : (∀ p ∈ points.map point2Vector2D, ∀ q ∈ points.map point2Vector2D, p = q) ↔
      ∀ p ∈ points, ∀ q ∈ points, p = q := by
    simp only [List.forall_mem_map, point2Vector2D_injective.eq_iff]
  have hfuel' : (points.map point2Vector2D).length ≤ fuel := by rwa [List.length_map]
  obtain ⟨result, hresult, hempty, hpath⟩ := toVector_gives (show (0 : ℝ) < 4.0 by norm_num)
    (show (0 : ℝ) < 10 by norm_num) (fun p hp => cutOff_of_mem hp) hfuel'
  rw [hsame] at hempty
  by_cases hnone : result = []
  · have hdrawn : updatePoints fuel points = .ok none := by
      rw [updatePoints, hresult]
      dsimp only [bind, Except.bind]
      rw [if_pos hnone]
      rfl
    have hpoints : pointsOf fuel points = [] := by rw [pointsOf, hdrawn]
    refine ⟨none, hdrawn, ?_, iff_of_true rfl (hempty.mp hnone), fun e he => by cases he⟩
    rw [ElementBody.drawUpdatePoints, hpoints]
    rfl
  · obtain ⟨path, htoPath, hfollows⟩ := hpath hnone
    let e : DrawElement := ⟨result.map vector2D2Point, path⟩
    have hread : updateDataFromMsgPack e.points = .ok e := by
      rw [updateDataFromMsgPack, map_points, htoPath]
      rfl
    have hdrawn : updatePoints fuel points = .ok (some e) := by
      rw [updatePoints, hresult]
      dsimp only [bind, Except.bind]
      rw [if_neg hnone, hread]
      rfl
    have hpoints : pointsOf fuel points = e.points := by rw [pointsOf, hdrawn]
    have hpresent : e.points.isEmpty = false := by simpa [e] using hnone
    refine ⟨some e, hdrawn, ?_, iff_of_false (Option.some_ne_none e) (mt hempty.mpr hnone), ?_⟩
    · rw [ElementBody.drawUpdatePoints, hpoints, hpresent]
      rfl
    · intro e' he'
      obtain rfl := Option.some.inj he'
      exact ⟨hfollows, hread⟩

/-- A gesture around a corner. -/
theorem updatePoints_gives_corner :
    Gives (updatePoints 3 [⟨0, 0⟩, ⟨0, 30⟩, ⟨30, 30⟩]) fun drawn =>
      ElementBody.drawUpdatePoints (pointsOf 3) [⟨0, 0⟩, ⟨0, 30⟩, ⟨30, 30⟩] =
          drawn.map (.draw ·.points) ∧
        (drawn = none ↔ ∀ p ∈ [(⟨0, 0⟩ : SPoint), ⟨0, 30⟩, ⟨30, 30⟩],
          ∀ q ∈ [(⟨0, 0⟩ : SPoint), ⟨0, 30⟩, ⟨30, 30⟩], p = q) ∧
        ∀ e ∈ drawn, Follows ([⟨0, 0⟩, ⟨0, 30⟩, ⟨30, 30⟩].map point2Vector2D) e.path ∧
          updateDataFromMsgPack e.points = .ok e :=
  updatePoints_gives (by simp)

end DrawElement

end Liangshi
