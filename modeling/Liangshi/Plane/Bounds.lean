import Liangshi.Plane.Affine
import Mathlib.Algebra.Order.Field.Basic
import Mathlib.Data.Set.Lattice.Image
import Mathlib.Order.Bounds.Basic
import Mathlib.Tactic.Linarith
import Mathlib.Tactic.LinearCombination

/-!
# Bounding rectangles

The smallest rectangle with sides along the axes that holds a set of points, and what an affine map
does with it.  The rectangle around the image of a rectangle holds the image of every set in that
rectangle, and is the smallest one exactly if the set reaches the corners that the map takes furthest
(`bounds_image_iff`).  A map that mixes no coordinates takes a whole side furthest, which every such
set reaches.
-/

namespace Plane

variable {K : Type} [Field K]

/-- A rectangle with sides along the axes. -/
@[ext] structure Rect (K : Type) where
  left : K
  top : K
  width : K
  height : K
deriving DecidableEq

namespace Rect

/-- The right side. -/
def right (r : Rect K) : K := r.left + r.width

/-- The bottom side. -/
def bottom (r : Rect K) : K := r.top + r.height

variable [LinearOrder K]

/-- The points of a rectangle. -/
def points (r : Rect K) : Set (Point K) :=
  {p | (r.left ≤ p.1 ∧ p.1 ≤ r.right) ∧ r.top ≤ p.2 ∧ p.2 ≤ r.bottom}

/-- The corner at which an affine form with given coefficients is greatest. -/
def corner (r : Rect K) (a b : K) : Point K :=
  (if 0 < a then r.right else r.left, if 0 < b then r.bottom else r.top)

end Rect

/-- An affine form: a coordinate of an affine map. -/
def form (a b c : K) (p : Point K) : K := a * p.1 + b * p.2 + c

/-- A form with the other sign. -/
lemma form_neg (a b c : K) (p : Point K) : form (-a) (-b) (-c) p = -form a b c p := by
  simp only [form]
  ring

variable [LinearOrder K]

/-- The rectangle is the smallest one that holds a set. -/
structure Bounds (S : Set (Point K)) (r : Rect K) : Prop where
  left : IsLeast (Prod.fst '' S) r.left
  right : IsGreatest (Prod.fst '' S) r.right
  top : IsLeast (Prod.snd '' S) r.top
  bottom : IsGreatest (Prod.snd '' S) r.bottom

variable {S : Set (Point K)} {r r' : Rect K} {a b c : K} {m : Affine K}

/-- The rectangle is the smallest one that holds the rectangles of a list. -/
structure Encloses (rects : List (Rect K)) (r : Rect K) : Prop where
  left : IsLeast (Rect.left '' {s | s ∈ rects}) r.left
  right : IsGreatest (Rect.right '' {s | s ∈ rects}) r.right
  top : IsLeast (Rect.top '' {s | s ∈ rects}) r.top
  bottom : IsGreatest (Rect.bottom '' {s | s ∈ rects}) r.bottom

namespace Bounds

/-- The set lies in its bounding rectangle. -/
lemma subset (h : Bounds S r) : S ⊆ r.points := fun p hp =>
  ⟨⟨h.left.2 ⟨p, hp, rfl⟩, h.right.2 ⟨p, hp, rfl⟩⟩, h.top.2 ⟨p, hp, rfl⟩, h.bottom.2 ⟨p, hp, rfl⟩⟩

/-- A point of the set is at the extreme of one coordinate, on the side of a coefficient. -/
lemma exists_fst (h : Bounds S r) (a b : K) : ∃ p ∈ S, p.1 = (r.corner a b).1 := by
  simp only [Rect.corner]
  split_ifs
  · exact h.right.1
  · exact h.left.1

/-- The same for the other coordinate. -/
lemma exists_snd (h : Bounds S r) (a b : K) : ∃ p ∈ S, p.2 = (r.corner a b).2 := by
  simp only [Rect.corner]
  split_ifs
  · exact h.bottom.1
  · exact h.top.1

variable [IsStrictOrderedRing K]

/-- A set has one bounding rectangle. -/
lemma unique (h : Bounds S r) (h' : Bounds S r') : r = r' := by
  have hleft := h.left.unique h'.left
  have htop := h.top.unique h'.top
  have hright := h.right.unique h'.right
  have hbottom := h.bottom.unique h'.bottom
  simp only [Rect.right, Rect.bottom] at hright hbottom
  exact Rect.ext hleft htop (by linarith) (by linarith)

end Bounds

/-! ## Unions -/

/-- The least element of a union is the least of the least elements. -/
lemma isLeast_biUnion_iff {ι α : Type} [PartialOrder α] {items : List ι} {S : ι → Set α}
    {least : ι → α} {x : α} (h : ∀ i ∈ items, IsLeast (S i) (least i)) :
    IsLeast (⋃ i ∈ items, S i) x ↔ IsLeast (least '' {i | i ∈ items}) x := by
  simp only [IsLeast, mem_lowerBounds, Set.mem_iUnion, Set.mem_image, exists_prop]
  constructor
  · rintro ⟨⟨i, hi, hx⟩, hle⟩
    have heq : least i = x := le_antisymm ((h i hi).2 hx) (hle _ ⟨i, hi, (h i hi).1⟩)
    refine ⟨⟨i, hi, heq⟩, ?_⟩
    rintro _ ⟨j, hj, rfl⟩
    exact hle _ ⟨j, hj, (h j hj).1⟩
  · rintro ⟨⟨i, hi, rfl⟩, hle⟩
    refine ⟨⟨i, hi, (h i hi).1⟩, ?_⟩
    rintro y ⟨j, hj, hy⟩
    exact (hle _ ⟨j, hj, rfl⟩).trans ((h j hj).2 hy)

/-- The greatest element of a union is the greatest of the greatest elements. -/
lemma isGreatest_biUnion_iff {ι α : Type} [PartialOrder α] {items : List ι} {S : ι → Set α}
    {greatest : ι → α} {x : α} (h : ∀ i ∈ items, IsGreatest (S i) (greatest i)) :
    IsGreatest (⋃ i ∈ items, S i) x ↔ IsGreatest (greatest '' {i | i ∈ items}) x :=
  isLeast_biUnion_iff (α := αᵒᵈ) h

/-- What bounds the union of sets is what encloses their bounding rectangles. -/
lemma bounds_biUnion_iff {ι : Type} {items : List ι} {S : ι → Set (Point K)} {rect : ι → Rect K}
    (h : ∀ i ∈ items, Bounds (S i) (rect i)) :
    Bounds (⋃ i ∈ items, S i) r ↔ Encloses (items.map rect) r := by
  have hleft := isLeast_biUnion_iff (x := r.left) fun i hi => (h i hi).left
  have hright := isGreatest_biUnion_iff (x := r.right) fun i hi => (h i hi).right
  have htop := isLeast_biUnion_iff (x := r.top) fun i hi => (h i hi).top
  have hbottom := isGreatest_biUnion_iff (x := r.bottom) fun i hi => (h i hi).bottom
  have hrects : {s | s ∈ items.map rect} = rect '' {i | i ∈ items} := by
    ext s
    simp
  rw [← Set.image_iUnion₂] at hleft hright htop hbottom
  constructor
  · intro hbounds
    constructor <;> rw [hrects, Set.image_image]
    · exact hleft.mp hbounds.left
    · exact hright.mp hbounds.right
    · exact htop.mp hbounds.top
    · exact hbottom.mp hbounds.bottom
  · rintro ⟨h1, h2, h3, h4⟩
    rw [hrects, Set.image_image] at h1 h2 h3 h4
    exact ⟨hleft.mpr h1, hright.mpr h2, htop.mpr h3, hbottom.mpr h4⟩

/-- One rectangle encloses itself. -/
lemma encloses_singleton (r : Rect K) : Encloses [r] r := by
  constructor <;> simp [IsLeast, IsGreatest, lowerBounds, upperBounds]

/-- The smallest rectangle that holds two rectangles. -/
def Rect.hull (r s : Rect K) : Rect K where
  left := min r.left s.left
  top := min r.top s.top
  width := max r.right s.right - min r.left s.left
  height := max r.bottom s.bottom - min r.top s.top

/-- What holds a rectangle with a width or a height has one too. -/
lemma Rect.hull_not_null [IsStrictOrderedRing K] {r : Rect K} (s : Rect K)
    (hr : 0 ≤ r.width ∧ 0 ≤ r.height ∧ ¬ (r.width = 0 ∧ r.height = 0)) :
    0 ≤ (r.hull s).width ∧ 0 ≤ (r.hull s).height ∧
      ¬ ((r.hull s).width = 0 ∧ (r.hull s).height = 0) := by
  have hwidth : r.width ≤ (r.hull s).width := by
    have h1 := le_max_left r.right s.right
    have h2 := min_le_left r.left s.left
    simp only [Rect.hull, Rect.right] at h1 ⊢
    linarith
  have hheight : r.height ≤ (r.hull s).height := by
    have h1 := le_max_left r.bottom s.bottom
    have h2 := min_le_left r.top s.top
    simp only [Rect.hull, Rect.bottom] at h1 ⊢
    linarith
  refine ⟨hr.1.trans hwidth, hr.2.1.trans hheight, fun hnull => hr.2.2 ?_⟩
  exact ⟨le_antisymm (hnull.1 ▸ hwidth) hr.1, le_antisymm (hnull.2 ▸ hheight) hr.2.1⟩

/-- One rectangle more is enclosed by the smallest rectangle that holds it too. -/
lemma Encloses.concat {rects : List (Rect K)} (h : Encloses rects r) (s : Rect K) :
    Encloses (rects ++ [s]) (r.hull s) := by
  have himage : ∀ f : Rect K → K,
      f '' {t | t ∈ rects ++ [s]} = f '' {t | t ∈ rects} ∪ {f s} := by
    intro f
    ext x
    simp [or_and_right, exists_or, eq_comm, or_comm]
  have hright : (r.hull s).right = max r.right s.right := add_sub_cancel _ _
  have hbottom : (r.hull s).bottom = max r.bottom s.bottom := add_sub_cancel _ _
  constructor
  · rw [himage]
    exact h.left.union isLeast_singleton
  · rw [himage, hright]
    exact h.right.union isGreatest_singleton
  · rw [himage]
    exact h.top.union isLeast_singleton
  · rw [himage, hbottom]
    exact h.bottom.union isGreatest_singleton

/-- A rectangle that grows to hold one rectangle after another encloses all of them. -/
lemma Encloses.foldl {rects : List (Rect K)} (h : Encloses rects r) (more : List (Rect K)) :
    Encloses (rects ++ more) (more.foldl Rect.hull r) := by
  induction more generalizing rects r with
  | nil => simpa using h
  | cons s more ih =>
    rw [List.append_cons]
    exact ih (h.concat s)

/-! ## Affine maps -/

namespace Affine

/-- The rectangle around the image of a rectangle. -/
def mapBox (m : Affine K) (r : Rect K) : Rect K where
  left := form m.m11 m.m21 m.dx (r.corner (-m.m11) (-m.m21))
  top := form m.m12 m.m22 m.dy (r.corner (-m.m12) (-m.m22))
  width := form m.m11 m.m21 m.dx (r.corner m.m11 m.m21) -
    form m.m11 m.m21 m.dx (r.corner (-m.m11) (-m.m21))
  height := form m.m12 m.m22 m.dy (r.corner m.m12 m.m22) -
    form m.m12 m.m22 m.dy (r.corner (-m.m12) (-m.m22))

/-- The map mixes no coordinates: it turns by right angles at most. -/
def AxisParallel (m : Affine K) : Prop := (m.m11 = 0 ∨ m.m21 = 0) ∧ (m.m12 = 0 ∨ m.m22 = 0)

end Affine

/-- The set reaches the two corners at which a form with both coordinates is extreme. -/
def ReachesEnds (a b : K) (S : Set (Point K)) (r : Rect K) : Prop :=
  a = 0 ∨ b = 0 ∨ r.corner a b ∈ S ∧ r.corner (-a) (-b) ∈ S

/-- The set reaches the corners of the rectangle that the map takes furthest. -/
def Reaches (m : Affine K) (S : Set (Point K)) (r : Rect K) : Prop :=
  ReachesEnds m.m11 m.m21 S r ∧ ReachesEnds m.m12 m.m22 S r

/-- A map that mixes no coordinates needs no corners. -/
lemma reaches_of_axisParallel (h : m.AxisParallel) (S : Set (Point K)) (r : Rect K) :
    Reaches m S r := by
  obtain ⟨hx, hy⟩ := h
  exact ⟨hx.elim .inl fun h => .inr (.inl h), hy.elim .inl fun h => .inr (.inl h)⟩

/-! ## The points of a rectangle -/

variable [IsStrictOrderedRing K]

/-- A rectangle bounds its points. -/
lemma bounds_points (hwidth : 0 ≤ r.width) (hheight : 0 ≤ r.height) : Bounds r.points r := by
  have hx : r.left ≤ r.right := le_add_of_nonneg_right hwidth
  have hy : r.top ≤ r.bottom := le_add_of_nonneg_right hheight
  refine ⟨⟨⟨(r.left, r.top), ?_, rfl⟩, ?_⟩, ⟨⟨(r.right, r.top), ?_, rfl⟩, ?_⟩,
    ⟨⟨(r.left, r.top), ?_, rfl⟩, ?_⟩, ⟨⟨(r.left, r.bottom), ?_, rfl⟩, ?_⟩⟩
  · exact ⟨⟨le_refl _, hx⟩, le_refl _, hy⟩
  · rintro _ ⟨p, hp, rfl⟩
    exact hp.1.1
  · exact ⟨⟨hx, le_refl _⟩, le_refl _, hy⟩
  · rintro _ ⟨p, hp, rfl⟩
    exact hp.1.2
  · exact ⟨⟨le_refl _, hx⟩, le_refl _, hy⟩
  · rintro _ ⟨p, hp, rfl⟩
    exact hp.2.1
  · exact ⟨⟨le_refl _, hx⟩, hy, le_refl _⟩
  · rintro _ ⟨p, hp, rfl⟩
    exact hp.2.2

/-! ## Affine forms on a rectangle -/

/-- A product is largest at one of the two bounds. -/
lemma mul_le_corner {x lo hi : K} (hlo : lo ≤ x) (hhi : x ≤ hi) :
    a * x ≤ a * (if 0 < a then hi else lo) := by
  split_ifs with h
  · exact mul_le_mul_of_nonneg_left hhi h.le
  · exact mul_le_mul_of_nonpos_left hlo (not_lt.mp h)

/-- An affine form is nowhere greater than at its corner. -/
lemma form_le_corner {p : Point K} (hp : p ∈ r.points) :
    form a b c p ≤ form a b c (r.corner a b) := by
  have hx := mul_le_corner (a := a) hp.1.1 hp.1.2
  have hy := mul_le_corner (a := b) hp.2.1 hp.2.2
  simp only [form, Rect.corner]
  linarith

/-- The corner is a point of the rectangle. -/
lemma corner_mem (hwidth : 0 ≤ r.width) (hheight : 0 ≤ r.height) : r.corner a b ∈ r.points := by
  have hx : r.left ≤ r.right := le_add_of_nonneg_right hwidth
  have hy : r.top ≤ r.bottom := le_add_of_nonneg_right hheight
  simp only [Rect.corner, Rect.points, Set.mem_ofPred_eq]
  split_ifs <;> simp [hx, hy]

/-- The opposite corners of a form: the middle of the rectangle, twice. -/
lemma form_corner_add (a b c : K) (r : Rect K) :
    form a b c (r.corner a b) + form a b c (r.corner (-a) (-b)) =
      a * (2 * r.left + r.width) + b * (2 * r.top + r.height) + 2 * c := by
  have hx : a * (r.corner a b).1 + a * (r.corner (-a) (-b)).1 = a * (2 * r.left + r.width) := by
    simp only [Rect.corner, Rect.right]
    obtain h | rfl | h := lt_trichotomy a 0
    · rw [if_neg h.not_gt, if_pos (neg_pos.mpr h)]
      ring
    · simp
    · rw [if_pos h, if_neg (neg_neg_of_pos h).not_gt]
      ring
  have hy : b * (r.corner a b).2 + b * (r.corner (-a) (-b)).2 = b * (2 * r.top + r.height) := by
    simp only [Rect.corner, Rect.bottom]
    obtain h | rfl | h := lt_trichotomy b 0
    · rw [if_neg h.not_gt, if_pos (neg_pos.mpr h)]
      ring
    · simp
    · rw [if_pos h, if_neg (neg_neg_of_pos h).not_gt]
      ring
  simp only [form]
  linear_combination hx + hy

/-- A form on a set is as great as on its rectangle exactly if it leaves out a coordinate or the set
reaches the corner. -/
lemma isGreatest_form_iff (h : Bounds S r) : IsGreatest (form a b c '' S)
    (form a b c (r.corner a b)) ↔ a = 0 ∨ b = 0 ∨ r.corner a b ∈ S := by
  have hle : form a b c (r.corner a b) ∈ upperBounds (form a b c '' S) := by
    rintro _ ⟨p, hp, rfl⟩
    exact form_le_corner (h.subset hp)
  constructor
  · rintro ⟨⟨p, hp, heq⟩, -⟩
    by_cases ha : a = 0
    · exact .inl ha
    by_cases hb : b = 0
    · exact .inr (.inl hb)
    have hrange := h.subset hp
    have hx : a * p.1 ≤ a * (r.corner a b).1 := mul_le_corner hrange.1.1 hrange.1.2
    have hy : b * p.2 ≤ b * (r.corner a b).2 := mul_le_corner hrange.2.1 hrange.2.2
    simp only [form] at heq
    have hfst : p.1 = (r.corner a b).1 := mul_left_cancel₀ ha (le_antisymm hx (by linarith))
    have hsnd : p.2 = (r.corner a b).2 := mul_left_cancel₀ hb (le_antisymm hy (by linarith))
    exact .inr (.inr (Prod.ext hfst hsnd ▸ hp))
  · rintro (rfl | rfl | hmem)
    · obtain ⟨p, hp, hsnd⟩ := h.exists_snd 0 b
      exact ⟨⟨p, hp, by simp only [form, zero_mul, hsnd]⟩, hle⟩
    · obtain ⟨p, hp, hfst⟩ := h.exists_fst a 0
      exact ⟨⟨p, hp, by simp only [form, zero_mul, hfst]⟩, hle⟩
    · exact ⟨⟨_, hmem, rfl⟩, hle⟩

/-- The same for the least value. -/
lemma isLeast_form_iff (h : Bounds S r) : IsLeast (form a b c '' S)
    (form a b c (r.corner (-a) (-b))) ↔ a = 0 ∨ b = 0 ∨ r.corner (-a) (-b) ∈ S := by
  have hgreatest := isGreatest_form_iff (a := -a) (b := -b) (c := -c) h
  rw [neg_eq_zero, neg_eq_zero] at hgreatest
  rw [← hgreatest, form_neg]
  constructor
  · rintro ⟨⟨p, hp, heq⟩, hle⟩
    refine ⟨⟨p, hp, by rw [form_neg, heq]⟩, ?_⟩
    rintro _ ⟨q, hq, rfl⟩
    rw [form_neg]
    exact neg_le_neg (hle ⟨q, hq, rfl⟩)
  · rintro ⟨⟨p, hp, heq⟩, hle⟩
    rw [form_neg] at heq
    refine ⟨⟨p, hp, neg_injective heq⟩, ?_⟩
    rintro _ ⟨q, hq, rfl⟩
    have hle' := hle ⟨q, hq, rfl⟩
    rw [form_neg] at hle'
    exact neg_le_neg_iff.mp hle'

/-- The extreme values of a form on a set are those on its rectangle exactly if the set reaches the
ends of the form. -/
lemma isLeast_and_isGreatest_form_iff (h : Bounds S r) :
    (IsLeast (form a b c '' S) (form a b c (r.corner (-a) (-b))) ∧
      IsGreatest (form a b c '' S) (form a b c (r.corner a b))) ↔ ReachesEnds a b S r := by
  rw [isLeast_form_iff h, isGreatest_form_iff h, ReachesEnds]
  constructor
  · rintro ⟨ha | hb | hleast, ha' | hb' | hgreatest⟩
    all_goals simp only [*, true_or, or_true, and_self]
  · rintro (ha | hb | ⟨hgreatest, hleast⟩)
    · exact ⟨.inl ha, .inl ha⟩
    · exact ⟨.inr (.inl hb), .inr (.inl hb)⟩
    · exact ⟨.inr (.inr hleast), .inr (.inr hgreatest)⟩

/-! ## Images -/

/-- The rectangle around the image of a rectangle bounds the image of a set exactly if the set reaches
the corners that the map takes furthest. -/
theorem bounds_image_iff (h : Bounds S r) : Bounds (m.map '' S) (m.mapBox r) ↔ Reaches m S r := by
  have hfst : Prod.fst '' (m.map '' S) = form m.m11 m.m21 m.dx '' S := by
    rw [Set.image_image]
    rfl
  have hsnd : Prod.snd '' (m.map '' S) = form m.m12 m.m22 m.dy '' S := by
    rw [Set.image_image]
    rfl
  have hright : (m.mapBox r).right = form m.m11 m.m21 m.dx (r.corner m.m11 m.m21) :=
    add_sub_cancel _ _
  have hbottom : (m.mapBox r).bottom = form m.m12 m.m22 m.dy (r.corner m.m12 m.m22) :=
    add_sub_cancel _ _
  rw [Reaches, ← isLeast_and_isGreatest_form_iff h, ← isLeast_and_isGreatest_form_iff h,
    ← hfst, ← hsnd, ← hright, ← hbottom]
  exact ⟨fun hbounds => ⟨⟨hbounds.left, hbounds.right⟩, hbounds.top, hbounds.bottom⟩,
    fun hends => ⟨hends.1.1, hends.1.2, hends.2.1, hends.2.2⟩⟩

/-- A rectangle reaches its own corners. -/
lemma reaches_points (hwidth : 0 ≤ r.width) (hheight : 0 ≤ r.height) : Reaches m r.points r :=
  ⟨.inr (.inr ⟨corner_mem hwidth hheight, corner_mem hwidth hheight⟩),
    .inr (.inr ⟨corner_mem hwidth hheight, corner_mem hwidth hheight⟩)⟩

/-- Rectangles with the same left top corner are the same if an invertible map takes them to the same
rectangle. -/
lemma eq_of_mapBox_eq (hdet : m.det ≠ 0) (hleft : r.left = r'.left) (htop : r.top = r'.top)
    (h : m.mapBox r = m.mapBox r') : r.width = r'.width ∧ r.height = r'.height := by
  have hx := congrArg Rect.left h
  have hy := congrArg Rect.top h
  have hw := congrArg Rect.width h
  have hh := congrArg Rect.height h
  simp only [Affine.mapBox] at hx hy hw hh
  have h1 := form_corner_add m.m11 m.m21 m.dx r
  have h1' := form_corner_add m.m11 m.m21 m.dx r'
  have h2 := form_corner_add m.m12 m.m22 m.dy r
  have h2' := form_corner_add m.m12 m.m22 m.dy r'
  rw [← hleft, ← htop] at h1' h2'
  have hu : m.m11 * (r.width - r'.width) + m.m21 * (r.height - r'.height) = 0 := by
    linear_combination h1' - h1 + hw + 2 * hx
  have hv : m.m12 * (r.width - r'.width) + m.m22 * (r.height - r'.height) = 0 := by
    linear_combination h2' - h2 + hh + 2 * hy
  constructor
  · have hprod : m.det * (r.width - r'.width) = 0 := by
      rw [Affine.det]
      linear_combination m.m22 * hu - m.m21 * hv
    exact sub_eq_zero.mp ((mul_eq_zero.mp hprod).resolve_left hdet)
  · have hprod : m.det * (r.height - r'.height) = 0 := by
      rw [Affine.det]
      linear_combination m.m11 * hv - m.m12 * hu
    exact sub_eq_zero.mp ((mul_eq_zero.mp hprod).resolve_left hdet)

end Plane
