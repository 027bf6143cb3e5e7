import Liangshi.Board.PaintedRect

/-!
# Painted where they are hit

An element is painted in the rectangle that it is hit in if its own matrix is applied to what the
rectangle is made of.  For a path this is its bounding rectangle, so that it has to reach the corners
that the matrix takes furthest; an image fills its rectangle.  A `BanElement` with a matrix leaves out
its zoom, and one without a matrix paints by zoom factors that need not be those of its size; besides,
it relies on the rectangles of the elements in its viewer, so that these have to be painted where they
are hit too (`paintedWhereHit_iff`).
-/

namespace Liangshi

open Plane

variable {K : Type} [Field K] [LinearOrder K]

/-! ## Where the viewer of a `BanElement` is painted -/

section Ban

variable {e : BanElement K}

namespace BanElement

/-- The sizes of the element are those that `InitViewer` took from its viewer, whose elements have the
given rectangles. -/
def Taken (e : BanElement K) (rects : List (Rect K)) : Prop :=
  e.viewerRect = (e.initViewer (getUnitedRect rects)).viewerRect

instance instDecidableTaken (e : BanElement K) (rects : List (Rect K)) : Decidable (e.Taken rects) :=
  inferInstanceAs (Decidable (_ = _))

/-- The matrix that the viewer is painted with. -/
def viewerMatrix (e : BanElement K) : Affine K := (e.viewerPainter .exact .untransformed).worldMatrix

/-- The rectangle that the matrix of the element is applied to. -/
def zoomedRect (e : BanElement K) : Rect K := ⟨e.leftTop.1, e.leftTop.2, e.zoomWidth, e.zoomHeight⟩

/-- The element paints a drawing of its viewer with the zoom of its rectangle: without a matrix, its
zoom factors are those of its size; with one it has no zoom, and the drawing reaches the corners that
the matrix takes furthest. -/
def Agrees (e : BanElement K) (V : Set (Point K)) : Prop :=
  if e.matrix = .identity then
    e.xZoom * e.width = e.zoomWidth ∧ e.yZoom * e.height = e.zoomHeight
  else e.width = e.zoomWidth ∧ e.height = e.zoomHeight ∧ Reaches e.matrix V e.viewerRect

/-- The element does not fail in two ways at once, which might make up for each other: under a matrix it
has no zoom or its drawing reaches the corners. -/
def Ordinary (e : BanElement K) (V : Set (Point K)) : Prop :=
  e.matrix = .identity ∨ (e.width = e.zoomWidth ∧ e.height = e.zoomHeight) ∨
    Reaches e.matrix V e.viewerRect

/-- The viewer is painted by scaling where there is no matrix. -/
lemma viewerMatrix_of_identity (h : e.matrix = .identity) : e.viewerMatrix =
    ⟨e.xZoom, 0, 0, e.yZoom, e.leftTop.1 - e.leftTopInSc.1 * e.xZoom,
      e.leftTop.2 - e.leftTopInSc.2 * e.yZoom⟩ := by
  simp [viewerMatrix, viewerPainter, h, Painter.scale, Painter.translate, Painter.untransformed,
    Affine.mul, Affine.scaling, Affine.translation, Affine.identity, Rounding.exact]

/-- With a matrix, the viewer is moved and painted by it. -/
lemma viewerMatrix_of_ne (h : e.matrix ≠ .identity) : e.viewerMatrix =
    { e.matrix with
      dx := e.matrix.m11 * (e.leftTop.1 - e.leftTopInSc.1) +
        e.matrix.m21 * (e.leftTop.2 - e.leftTopInSc.2) + e.matrix.dx
      dy := e.matrix.m12 * (e.leftTop.1 - e.leftTopInSc.1) +
        e.matrix.m22 * (e.leftTop.2 - e.leftTopInSc.2) + e.matrix.dy } := by
  rw [viewerMatrix, viewerPainter, if_neg h]
  simp only [Painter.setWorldMatrix, Painter.translate, Painter.untransformed, Affine.mul,
    Affine.translation, Affine.identity, Prod.fst_neg, Prod.snd_neg, Affine.mk.injEq]
  refine ⟨?_, ?_, ?_, ?_, ?_, ?_⟩ <;> ring

/-- Under a matrix that is not the identity, the rectangle of the viewer is painted as that of an
element without zoom. -/
lemma mapBox_viewerMatrix (h : e.matrix ≠ .identity) : e.viewerMatrix.mapBox e.viewerRect =
    e.matrix.mapBox ⟨e.leftTop.1, e.leftTop.2, e.width, e.height⟩ := by
  have hform : ∀ a b c : K, ∀ a' b' : K,
      form a b (a * (e.leftTop.1 - e.leftTopInSc.1) + b * (e.leftTop.2 - e.leftTopInSc.2) + c)
        (e.viewerRect.corner a' b') =
      form a b c ((⟨e.leftTop.1, e.leftTop.2, e.width, e.height⟩ : Rect K).corner a' b') := by
    intro a b c a' b'
    simp only [form, Rect.corner, viewerRect, Rect.right, Rect.bottom]
    split_ifs <;> ring
  rw [viewerMatrix_of_ne h]
  simp only [Affine.mapBox, hform]

/-- The transforms for the viewer are made before those of the painter. -/
lemma viewerPainter_eq (ρ : Rounding K) (e : BanElement K) (painter : Painter K) :
    e.viewerPainter ρ painter =
      painter.setWorldMatrix (e.viewerPainter ρ .untransformed).worldMatrix := by
  unfold viewerPainter
  split_ifs <;>
  · simp only [Painter.translate, Painter.scale, Painter.setWorldMatrix, Painter.untransformed,
      Affine.mul, Affine.identity, Affine.scaling, Affine.translation, Painter.mk.injEq,
      Affine.mk.injEq]
    refine ⟨?_, ?_, ?_, ?_, ?_, ?_⟩ <;> ring

variable [IsStrictOrderedRing K]

/-- An element has a width and a height. -/
lemma Taken.pos {rects : List (Rect K)} (h : e.Taken rects) : 0 < e.width ∧ 0 < e.height := by
  have hpos : ∀ x : K, 0 < (if x ≤ 0 then 1 else x) := by
    intro x
    split_ifs with hx
    · exact one_pos
    · exact not_le.mp hx
  have hwidth : e.width = _ := congrArg Rect.width h
  have hheight : e.height = _ := congrArg Rect.height h
  rw [hwidth, hheight]
  exact ⟨hpos _, hpos _⟩

/-- The rectangle that was taken is the smallest one around the elements, if each of these has a width
or a height and all together have both. -/
lemma Taken.encloses {rects : List (Rect K)} (h : e.Taken rects)
    (hrects : ∀ r ∈ rects, 0 ≤ r.width ∧ 0 ≤ r.height ∧ ¬ (r.width = 0 ∧ r.height = 0))
    (hwidth : 0 < (getUnitedRect rects).width) (hheight : 0 < (getUnitedRect rects).height) :
    Encloses rects e.viewerRect := by
  have hne : rects ≠ [] := by
    rintro rfl
    exact lt_irrefl _ hwidth
  have htaken : e.viewerRect = getUnitedRect rects := by
    rw [h]
    refine Rect.ext rfl rfl ?_ ?_
    · exact if_neg hwidth.not_ge
    · exact if_neg hheight.not_ge
  rw [htaken]
  exact encloses_getUnitedRect hne hrects

/-- The rectangle of the element, without rounding. -/
lemma getActualRect_exact (hwidth : 0 < e.zoomWidth) (hheight : 0 < e.zoomHeight) :
    e.getActualRect .exact = e.matrix.mapBox e.zoomedRect :=
  mapRect_exact e.matrix hwidth.le hheight.le

/-- Without a matrix, a drawing is painted in the rectangle of the element exactly if the zoom factors
are those of its size. -/
lemma painted_iff_of_identity (hidentity : e.matrix = .identity) (hpos : 0 < e.width ∧ 0 < e.height)
    (hzoomWidth : 0 < e.zoomWidth) (hzoomHeight : 0 < e.zoomHeight) {V : Set (Point K)}
    (hV : Bounds V e.viewerRect) :
    Bounds (e.viewerMatrix.map '' V) (e.getActualRect .exact) ↔
      e.xZoom * e.width = e.zoomWidth ∧ e.yZoom * e.height = e.zoomHeight := by
  have hactual : e.getActualRect .exact = e.zoomedRect := by
    rw [getActualRect, hidentity, Affine.identity, zoomedRect]
    refine (mapRect_scaling 1 1 0 0 _ _ _ _).trans ?_
    simp [Rounding.exact, hzoomWidth.le.not_gt, hzoomHeight.le.not_gt]
  have hmatrix := viewerMatrix_of_identity hidentity
  have hparallel : e.viewerMatrix.AxisParallel := by
    rw [hmatrix]
    exact ⟨.inr rfl, .inl rfl⟩
  have himage : Bounds (e.viewerMatrix.map '' V) (e.viewerMatrix.mapBox e.viewerRect) :=
    (bounds_image_iff hV).mpr (reaches_of_axisParallel hparallel V _)
  have hbox := mapRect_exact e.viewerMatrix hpos.1.le hpos.2.le (r := e.viewerRect)
  rw [hmatrix, viewerRect, mapRect_scaling, ← hmatrix, ← viewerRect] at hbox
  rw [hactual]
  constructor
  · intro hbounds
    have heq := himage.unique hbounds
    rw [← hbox, zoomedRect, Rect.mk.injEq] at heq
    obtain ⟨hleft, htop, hwidth, hheight⟩ := heq
    constructor
    · by_cases hneg : e.xZoom * e.width < 0
      · rw [if_pos hneg] at hleft
        exact absurd hneg (by linarith)
      · rwa [if_neg hneg] at hwidth
    · by_cases hneg : e.yZoom * e.height < 0
      · rw [if_pos hneg] at htop
        exact absurd hneg (by linarith)
      · rwa [if_neg hneg] at hheight
  · rintro ⟨hwidth, hheight⟩
    have heq : e.viewerMatrix.mapBox e.viewerRect = e.zoomedRect := by
      rw [← hbox, zoomedRect, Rect.mk.injEq, hwidth, hheight, if_neg hzoomWidth.le.not_gt,
        if_neg hzoomHeight.le.not_gt, if_neg hzoomWidth.le.not_gt, if_neg hzoomHeight.le.not_gt]
      exact ⟨by ring, by ring, rfl, rfl⟩
    rwa [← heq]

/-- With a matrix, a drawing is painted in the rectangle of the element if there is no zoom and it
reaches the corners that the matrix takes furthest, and only then if there is one of the two. -/
lemma painted_iff_of_ne (hne : e.matrix ≠ .identity) (hdet : e.matrix.det ≠ 0)
    (hzoomWidth : 0 < e.zoomWidth) (hzoomHeight : 0 < e.zoomHeight) {V : Set (Point K)}
    (hV : Bounds V e.viewerRect)
    (hone : (e.width = e.zoomWidth ∧ e.height = e.zoomHeight) ∨ Reaches e.matrix V e.viewerRect) :
    Bounds (e.viewerMatrix.map '' V) (e.getActualRect .exact) ↔
      e.width = e.zoomWidth ∧ e.height = e.zoomHeight ∧ Reaches e.matrix V e.viewerRect := by
  have hreaches : Reaches e.viewerMatrix V e.viewerRect ↔ Reaches e.matrix V e.viewerRect := by
    rw [viewerMatrix_of_ne hne]
    rfl
  have himage := bounds_image_iff (m := e.viewerMatrix) hV
  rw [hreaches] at himage
  have hbox := mapBox_viewerMatrix hne
  have hsame : e.width = e.zoomWidth ∧ e.height = e.zoomHeight →
      e.getActualRect .exact = e.viewerMatrix.mapBox e.viewerRect := by
    rintro ⟨hwidth, hheight⟩
    rw [getActualRect_exact hzoomWidth hzoomHeight, hbox, zoomedRect, hwidth, hheight]
  constructor
  · intro hbounds
    obtain hsizes | hcorners := hone
    · rw [hsame hsizes] at hbounds
      exact ⟨hsizes.1, hsizes.2, himage.mp hbounds⟩
    · have heq := (himage.mpr hcorners).unique hbounds
      rw [hbox, getActualRect_exact hzoomWidth hzoomHeight] at heq
      obtain ⟨hwidth, hheight⟩ := eq_of_mapBox_eq hdet (by rfl) (by rfl) heq
      exact ⟨hwidth, hheight, hcorners⟩
  · rintro ⟨hwidth, hheight, hcorners⟩
    rw [hsame ⟨hwidth, hheight⟩]
    exact himage.mpr hcorners

/-- An element that paints a drawing with the zoom of its rectangle paints it there. -/
lemma Agrees.painted {V : Set (Point K)} (h : e.Agrees V) (hpos : 0 < e.width ∧ 0 < e.height)
    (hzoomWidth : 0 < e.zoomWidth) (hzoomHeight : 0 < e.zoomHeight) (hdet : e.matrix.det ≠ 0)
    (hV : Bounds V e.viewerRect) : Bounds (e.viewerMatrix.map '' V) (e.getActualRect .exact) := by
  unfold Agrees at h
  split_ifs at h with hidentity
  · exact (painted_iff_of_identity hidentity hpos hzoomWidth hzoomHeight hV).mpr h
  · exact (painted_iff_of_ne hidentity hdet hzoomWidth hzoomHeight hV (.inr h.2.2)).mpr h

/-- Where two failures cannot make up for each other, it paints a drawing there only then. -/
lemma Ordinary.agrees {V : Set (Point K)} (h : e.Ordinary V) (hpos : 0 < e.width ∧ 0 < e.height)
    (hzoomWidth : 0 < e.zoomWidth) (hzoomHeight : 0 < e.zoomHeight) (hdet : e.matrix.det ≠ 0)
    (hV : Bounds V e.viewerRect)
    (hpainted : Bounds (e.viewerMatrix.map '' V) (e.getActualRect .exact)) : e.Agrees V := by
  unfold Agrees
  split_ifs with hidentity
  · exact (painted_iff_of_identity hidentity hpos hzoomWidth hzoomHeight hV).mp hpainted
  · exact (painted_iff_of_ne hidentity hdet hzoomWidth hzoomHeight hV
      (h.resolve_left hidentity)).mp hpainted

end BanElement

end Ban

/-! ## All elements -/

namespace PaintedElement

/-- The elements in the viewer of an element. -/
def viewer : PaintedElement K → List (PaintedElement K)
  | ban _ viewer => viewer
  | banState _ _ viewer => viewer
  | path _ | image _ | imageState _ _ | other _ _ => []

/-- Something holds of an element, of the elements in its viewer, of those in theirs, and so on. -/
inductive Everywhere (P : PaintedElement K → Prop) : PaintedElement K → Prop
  | intro {e : PaintedElement K} (self : P e) (nested : ∀ n ∈ e.viewer, Everywhere P n) :
    Everywhere P e

/-- What holds everywhere holds of the element. -/
lemma Everywhere.here {K : Type} {P : PaintedElement K → Prop} {e : PaintedElement K}
    (h : Everywhere P e) : P e := by
  cases h with
  | intro self nested => exact self

/-- What holds everywhere holds everywhere in the elements of the viewer. -/
lemma Everywhere.inside {K : Type} {P : PaintedElement K → Prop} {e : PaintedElement K}
    (h : Everywhere P e) : ∀ n ∈ e.viewer, Everywhere P n := by
  cases h with
  | intro self nested => exact nested

/-- `GetActualRect`, without rounding. -/
def actualRect (e : PaintedElement K) : Rect K := e.getActualRect .exact

/-- What `DrawOnQtPainter` paints on an untransformed painter. -/
def painted (e : PaintedElement K) : Set (Point K) := e.drawOnQtPainter .exact .untransformed

/-- What the viewer of an element paints on an untransformed painter. -/
def drawing (e : PaintedElement K) : Set (Point K) :=
  drawAllOnQtPainter .exact e.viewer .untransformed

/-- The rectangles of the elements in the viewer. -/
def viewerRects (e : PaintedElement K) : List (Rect K) := e.viewer.map actualRect

/-- The sizes of an element and an invertible matrix. -/
def WellFormed (e : PaintedElement K) : Prop :=
  match e with
  | path e => Bounds e.path e.boundingRect ∧ e.matrix.det ≠ 0
  | image e => 0 < e.width ∧ 0 < e.height ∧ e.matrix.det ≠ 0
  | ban b _ => b.Taken e.viewerRects ∧ 0 < b.zoomWidth ∧ 0 < b.zoomHeight ∧ b.matrix.det ≠ 0
  | imageState e _ => 0 < e.width ∧ 0 < e.height ∧ e.matrix.det ≠ 0
  | banState s source _ =>
    source.Taken e.viewerRects ∧ 0 < s.width ∧ 0 < s.height ∧ s.matrix.det ≠ 0
  | other _ _ => True

/-- The element is painted in the rectangle that it is hit in. -/
def PaintedWhereHit (e : PaintedElement K) : Prop := Bounds e.painted e.actualRect

/-- The elements that are, as long as those in their viewers are: a path that reaches the corners that
its matrix takes furthest, an image, and a `BanElement` whose elements fill the rectangle it has taken
and that has no matrix and the zoom factors of its size, or a matrix, no zoom and a drawing that reaches
the corners.  An image and a `BanElement` that are highlighted are not painted. -/
def Agrees (e : PaintedElement K) : Prop :=
  match e with
  | path e => Reaches e.matrix e.path e.boundingRect
  | image e => e.highlight = false
  | ban b _ => b.highlight = false ∧ Encloses e.viewerRects b.viewerRect ∧ b.Agrees e.drawing
  | imageState _ source => source.highlight = false
  | banState s source _ => source.highlight = false ∧ Encloses e.viewerRects source.viewerRect ∧
    (s.matrix = .identity ∨ source.width = s.width ∧ source.height = s.height ∧
      Reaches s.matrix e.drawing source.viewerRect)
  | other painted rect => Bounds painted rect

/-- The elements of which this is the only way: those whose failures cannot make up for each other. -/
def Ordinary (e : PaintedElement K) : Prop :=
  match e with
  | ban b _ => Encloses e.viewerRects b.viewerRect ∧ b.Ordinary e.drawing
  | banState s source _ => Encloses e.viewerRects source.viewerRect ∧
    (s.matrix = .identity ∨ (source.width = s.width ∧ source.height = s.height) ∨
      Reaches s.matrix e.drawing source.viewerRect)
  | path _ | image _ | imageState _ _ | other _ _ => True

end PaintedElement

/-! ## Painters -/

/-- A combined matrix is applied before those of the painter. -/
lemma Painter.paint_setWorldMatrix {K : Type} [Field K] (painter : Painter K) (m : Affine K)
    (S : Set (Point K)) :
    (painter.setWorldMatrix m).paint S = painter.paint (m.map '' S) := by
  rw [Painter.paint, Painter.paint, Set.image_image]
  simp [Painter.setWorldMatrix]

/-- An untransformed painter paints points where they are. -/
lemma Painter.paint_untransformed {K : Type} [Field K] (S : Set (Point K)) :
    (Painter.untransformed : Painter K).paint S = S := by
  simp [Painter.paint, Painter.untransformed]

/-- What a `BanElement` paints of a viewer that follows the transforms of its painter. -/
lemma BanElement.drawOnQtPainter_eq (ρ : Rounding K) (e : BanElement K)
    {viewer : Painter K → Set (Point K)}
    (hviewer : ∀ painter, viewer painter = painter.paint (viewer .untransformed))
    (painter : Painter K) : e.drawOnQtPainter ρ viewer painter =
      painter.paint (e.drawOnQtPainter ρ viewer .untransformed) := by
  unfold drawOnQtPainter
  split_ifs
  · exact (Set.image_empty _).symm
  · rw [hviewer, viewerPainter_eq, Painter.paint_setWorldMatrix,
      hviewer (e.viewerPainter ρ .untransformed)]
    rfl

namespace PaintedElement

mutual

/-- On a painter, what is painted is what would be painted without its transforms. -/
lemma drawOnQtPainter_eq (ρ : Rounding K) : ∀ (e : PaintedElement K) (painter : Painter K),
    drawOnQtPainter ρ e painter = painter.paint (drawOnQtPainter ρ e .untransformed)
  | path e, painter => by
    simp only [drawOnQtPainter, PathElement.drawOnQtPainter, Painter.paint_setWorldMatrix,
      Painter.paint_untransformed]
  | image e, painter => by
    simp only [drawOnQtPainter, ImageBaseElement.drawOnQtPainter, Painter.paint_setWorldMatrix,
      Painter.paint_untransformed]
    split_ifs
    · exact (Set.image_empty _).symm
    · rfl
  | ban e viewer, painter => by
    simp only [drawOnQtPainter]
    exact e.drawOnQtPainter_eq ρ (drawAllOnQtPainter_eq ρ viewer) painter
  | imageState e source, painter => by
    simp only [drawOnQtPainter, imageStateDraw, ImageBaseElement.drawOnQtPainter,
      Painter.paint_setWorldMatrix, Painter.paint_untransformed]
    split_ifs
    · exact (Set.image_empty _).symm
    · rfl
  | banState e source viewer, painter => by
    simp only [drawOnQtPainter, banStateDraw]
    exact BanElement.drawOnQtPainter_eq ρ _ (drawAllOnQtPainter_eq ρ viewer) painter
  | other painted rect, painter => by
    simp only [drawOnQtPainter, Painter.paint_untransformed]

/-- The same for the elements of a viewer. -/
lemma drawAllOnQtPainter_eq (ρ : Rounding K) :
    ∀ (elements : List (PaintedElement K)) (painter : Painter K),
      drawAllOnQtPainter ρ elements painter =
        painter.paint (drawAllOnQtPainter ρ elements .untransformed)
  | [], painter => by
    simp only [drawAllOnQtPainter, Painter.paint, Set.image_empty]
  | e :: elements, painter => by
    simp only [drawAllOnQtPainter]
    rw [drawOnQtPainter_eq ρ e painter, drawAllOnQtPainter_eq ρ elements painter]
    exact (Set.image_union _ _ _).symm

end

/-- A viewer paints what its elements paint. -/
lemma drawAllOnQtPainter_eq_iUnion (ρ : Rounding K) (elements : List (PaintedElement K))
    (painter : Painter K) :
    drawAllOnQtPainter ρ elements painter = ⋃ n ∈ elements, n.drawOnQtPainter ρ painter := by
  induction elements with
  | nil => simp [drawAllOnQtPainter]
  | cons e elements ih =>
    rw [drawAllOnQtPainter, ih]
    ext p
    simp

/-- An element with an element in its viewer is painted as its drawing is by the matrix for it. -/
lemma painted_ban (b : BanElement K) (elements : List (PaintedElement K)) :
    (ban b elements).painted =
      if b.highlight then ∅ else b.viewerMatrix.map '' (ban b elements).drawing := by
  simp only [painted, drawOnQtPainter, BanElement.drawOnQtPainter]
  split_ifs
  · rfl
  · exact drawAllOnQtPainter_eq .exact elements (b.viewerPainter .exact .untransformed)

end PaintedElement

/-! ## Each class -/

/-- Nothing has no bounding rectangle. -/
lemma not_bounds_empty (r : Rect K) : ¬ Bounds ∅ r := by
  intro h
  obtain ⟨⟨p, hp, -⟩, -⟩ := h.left
  exact hp

section PaintedWhereHit

variable [IsStrictOrderedRing K]

/-- An image is painted in its rectangle unless it is highlighted. -/
lemma ImageBaseElement.painted_iff {e : ImageBaseElement K} (hwidth : 0 < e.width)
    (hheight : 0 < e.height) :
    Bounds (e.drawOnQtPainter .untransformed) (e.getActualRect .exact) ↔ e.highlight = false := by
  have hactual : e.getActualRect .exact =
      e.matrix.mapBox ⟨e.leftTop.1, e.leftTop.2, e.width, e.height⟩ :=
    mapRect_exact e.matrix hwidth.le hheight.le
  rw [hactual, drawOnQtPainter]
  cases hhighlight : e.highlight with
  | true =>
    rw [if_pos rfl]
    exact iff_of_false (not_bounds_empty _) Bool.false_ne_true.symm
  | false =>
    rw [if_neg Bool.false_ne_true, Painter.paint_setWorldMatrix, Painter.paint_untransformed]
    refine ⟨fun _ => rfl, fun _ => ?_⟩
    exact (bounds_image_iff (bounds_points hwidth.le hheight.le)).mpr
      (reaches_points hwidth.le hheight.le)

/-- A path is painted in its rectangle exactly if it reaches its furthest corners. -/
lemma PathElement.painted_iff {e : PathElement K} (h : Bounds e.path e.boundingRect) :
    Bounds (e.drawOnQtPainter .untransformed) (e.getActualRect .exact) ↔
      Reaches e.matrix e.path e.boundingRect := by
  have hx : e.boundingRect.left ≤ e.boundingRect.right := by
    obtain ⟨p, hp, hfst⟩ := h.left.1
    exact hfst ▸ (h.subset hp).1.2
  have hy : e.boundingRect.top ≤ e.boundingRect.bottom := by
    obtain ⟨p, hp, hsnd⟩ := h.top.1
    exact hsnd ▸ (h.subset hp).2.2
  have hactual : e.getActualRect .exact = e.matrix.mapBox e.boundingRect :=
    mapRect_exact e.matrix (le_add_iff_nonneg_right _ |>.mp hx) (le_add_iff_nonneg_right _ |>.mp hy)
  rw [hactual, drawOnQtPainter, Painter.paint_setWorldMatrix,
    Painter.paint_untransformed]
  exact bounds_image_iff h

namespace PaintedElement

variable {e : PaintedElement K}

omit [IsStrictOrderedRing K] in
/-- The drawing of a viewer is bounded by what encloses the rectangles of its elements, if these are
painted there. -/
lemma bounds_drawing_iff {r : Rect K} (h : ∀ n ∈ e.viewer, n.PaintedWhereHit) :
    Bounds e.drawing r ↔ Encloses e.viewerRects r := by
  rw [drawing, drawAllOnQtPainter_eq_iUnion]
  exact bounds_biUnion_iff h

/-- A `BanElement` whose elements are painted where they are hit: it is if it agrees, and only then if it
is ordinary. -/
lemma paintedWhereHit_ban {b : BanElement K} {elements : List (PaintedElement K)}
    (h : (ban b elements).WellFormed) (hnested : ∀ n ∈ elements, n.PaintedWhereHit) :
    ((ban b elements).Agrees → (ban b elements).PaintedWhereHit) ∧
      ((ban b elements).Ordinary → (ban b elements).PaintedWhereHit → (ban b elements).Agrees) := by
  obtain ⟨htaken, hzoomWidth, hzoomHeight, hdet⟩ := h
  have hdrawing := bounds_drawing_iff (e := ban b elements) (r := b.viewerRect) hnested
  rw [PaintedWhereHit, painted_ban]
  constructor
  · rintro ⟨hshown, hencloses, hagrees⟩
    rw [if_neg (by simp [hshown])]
    exact hagrees.painted htaken.pos hzoomWidth hzoomHeight hdet (hdrawing.mpr hencloses)
  · rintro ⟨hencloses, hordinary⟩ hpainted
    cases hhighlight : b.highlight with
    | true =>
      rw [if_pos hhighlight] at hpainted
      exact absurd hpainted (not_bounds_empty _)
    | false =>
      rw [if_neg (by simp [hhighlight])] at hpainted
      exact ⟨hhighlight, hencloses, hordinary.agrees htaken.pos hzoomWidth hzoomHeight hdet
        (hdrawing.mpr hencloses) hpainted⟩

/-- A state element is painted and hit as its source in the state of the state element. -/
lemma banState_iff {s : StateElement K} {source : BanElement K}
    {elements : List (PaintedElement K)} (h : (banState s source elements).WellFormed) :
    (ban (source.getState.2.setState s) elements).WellFormed ∧
      ((ban (source.getState.2.setState s) elements).PaintedWhereHit ↔
        (banState s source elements).PaintedWhereHit) ∧
      ((ban (source.getState.2.setState s) elements).Agrees ↔
        (banState s source elements).Agrees) ∧
      ((ban (source.getState.2.setState s) elements).Ordinary ↔
        (banState s source elements).Ordinary) := by
  obtain ⟨htaken, hwidth, hheight, hdet⟩ := h
  let placed := source.getState.2.setState s
  have hzoomWidth : placed.zoomWidth = s.width := if_pos (by linarith)
  have hzoomHeight : placed.zoomHeight = s.height := if_pos (by linarith)
  have hplaced : (ban placed elements).WellFormed :=
    ⟨htaken, hzoomWidth.symm ▸ hwidth, hzoomHeight.symm ▸ hheight, hdet⟩
  have hzooms : placed.xZoom * placed.width = placed.zoomWidth ∧
      placed.yZoom * placed.height = placed.zoomHeight :=
    ⟨div_mul_cancel₀ _ htaken.pos.1.ne', div_mul_cancel₀ _ htaken.pos.2.ne'⟩
  refine ⟨hplaced, ?_, and_congr Iff.rfl (and_congr Iff.rfl ?_), and_congr Iff.rfl ?_⟩
  · simp only [PaintedWhereHit, painted, actualRect, drawOnQtPainter, banStateDraw, getActualRect,
      banStateActualRect]
  · change placed.Agrees _ ↔ _
    rw [BanElement.Agrees, hzoomWidth, hzoomHeight]
    split_ifs with hidentity
    · rw [hzoomWidth, hzoomHeight] at hzooms
      exact iff_of_true hzooms (.inl hidentity)
    · exact (or_iff_right hidentity).symm
  · change placed.Ordinary _ ↔ _
    rw [BanElement.Ordinary, hzoomWidth, hzoomHeight]
    rfl

/-- An element whose viewer's elements are painted where they are hit: it is if it agrees, and only then
if it is ordinary. -/
lemma paintedWhereHit_of_nested (h : e.WellFormed) (hnested : ∀ n ∈ e.viewer, n.PaintedWhereHit) :
    (e.Agrees → e.PaintedWhereHit) ∧ (e.Ordinary → e.PaintedWhereHit → e.Agrees) := by
  cases e with
  | path e =>
    have hiff := PathElement.painted_iff h.1
    exact ⟨hiff.mpr, fun _ => hiff.mp⟩
  | image e =>
    have hiff := ImageBaseElement.painted_iff h.1 h.2.1
    exact ⟨hiff.mpr, fun _ => hiff.mp⟩
  | ban b elements => exact paintedWhereHit_ban h hnested
  | imageState s source =>
    let placed := source.getState.2.setState s
    have hwidth : placed.width = s.width := if_pos (by linarith [h.1])
    have hheight : placed.height = s.height := if_pos (by linarith [h.2.1])
    have hiff : Bounds (placed.drawOnQtPainter .untransformed) (placed.getActualRect .exact) ↔
        placed.highlight = false :=
      ImageBaseElement.painted_iff (hwidth ▸ h.1) (hheight ▸ h.2.1)
    exact ⟨hiff.mpr, fun _ => hiff.mp⟩
  | banState s source elements =>
    obtain ⟨hplaced, hpainted, hagrees, hordinary⟩ := banState_iff h
    rw [← hpainted, ← hagrees, ← hordinary]
    exact paintedWhereHit_ban hplaced hnested
  | other painted rect =>
    have hiff : (other painted rect).PaintedWhereHit ↔ (other painted rect).Agrees := by
      simp only [PaintedWhereHit, PaintedElement.painted, drawOnQtPainter, Painter.paint_untransformed]
      rfl
    exact ⟨hiff.mpr, fun _ => hiff.mp⟩

end PaintedElement

open PaintedElement

/-- An element and the elements in its viewer, at every depth, are painted in the rectangles that they
are hit in if all of them agree, and exactly then if none of them fails in two ways at once. -/
theorem paintedWhereHit_iff {e : PaintedElement K} (h : Everywhere PaintedElement.WellFormed e) :
    (Everywhere Agrees e → Everywhere PaintedWhereHit e) ∧
      (Everywhere PaintedElement.Ordinary e →
        (Everywhere PaintedWhereHit e ↔ Everywhere Agrees e)) := by
  have hagrees : Everywhere Agrees e → Everywhere PaintedWhereHit e := by
    induction h with
    | intro self nested ih =>
      intro hall
      have hnested := fun n hn => ih n hn (hall.inside n hn)
      exact .intro ((paintedWhereHit_of_nested self fun n hn => (hnested n hn).here).1 hall.here)
        hnested
  refine ⟨hagrees, fun hordinary => ⟨fun hall => ?_, hagrees⟩⟩
  clear hagrees
  induction h with
  | intro self nested ih =>
    refine .intro ?_ fun n hn => ih n hn (hordinary.inside n hn) (hall.inside n hn)
    exact (paintedWhereHit_of_nested self fun n hn => (hall.inside n hn).here).2 hordinary.here
      hall.here

end PaintedWhereHit

/-! ## Two elements -/

/-- A picture of ten by ten pixels. -/
def picture : ImageBaseElement ℚ :=
  ⟨(0, 0), 10, 10, .identity, false, ⟨(0, 0), 10, 10, .identity⟩, ⟨(0, 0), 10, 10, .identity⟩⟩

/-- A `BanElement` around the picture, without zoom, that a matrix turns and enlarges. -/
def turnedBan : BanElement ℚ where
  leftTop := (0, 0)
  leftTopInSc := (0, 0)
  width := 10
  height := 10
  xZoom := 1
  yZoom := 1
  zoomWidth := 10
  zoomHeight := 10
  matrix := ⟨1, 1, -1, 1, 0, 0⟩
  highlight := false
  initState := ⟨(0, 0), 10, 10, .identity⟩
  currentState := ⟨(0, 0), 10, 10, .identity⟩

/-- A `BanElement` around the turned one, shown at twice its size. -/
def frameBan : BanElement ℚ where
  leftTop := (0, 0)
  leftTopInSc := (-10, 0)
  width := 20
  height := 20
  xZoom := 2
  yZoom := 2
  zoomWidth := 40
  zoomHeight := 40
  matrix := .identity
  highlight := false
  initState := ⟨(0, 0), 40, 40, .identity⟩
  currentState := ⟨(0, 0), 40, 40, .identity⟩

/-- The picture in the turned element in the one around it. -/
def framed : PaintedElement ℚ := .ban frameBan [.ban turnedBan [.image picture]]

/-- A `BanElement` around the picture, shown at twice its size and moved by a matrix. -/
def movedBan : BanElement ℚ :=
  { turnedBan with
    xZoom := 2
    yZoom := 2
    zoomWidth := 20
    zoomHeight := 20
    matrix := ⟨1, 0, 0, 1, 5, 0⟩ }

/-- The picture is all that is drawn around it. -/
lemma drawing_picture (b : BanElement ℚ) : (PaintedElement.ban b [.image picture]).drawing =
    (⟨0, 0, 10, 10⟩ : Rect ℚ).points := by
  have hidentity : ∀ S : Set (Point ℚ), (Affine.identity : Affine ℚ).map '' S = S := by
    intro S
    simp
  rw [PaintedElement.drawing, PaintedElement.viewer, PaintedElement.drawAllOnQtPainter,
    PaintedElement.drawAllOnQtPainter, Set.union_empty, PaintedElement.drawOnQtPainter,
    ImageBaseElement.drawOnQtPainter, Painter.paint_setWorldMatrix, Painter.paint_untransformed]
  exact hidentity _

/-- The picture has what it needs. -/
lemma picture_wellFormed :
    PaintedElement.Everywhere PaintedElement.WellFormed (.image picture) :=
  .intro (by norm_num [PaintedElement.WellFormed, picture, Affine.identity, Affine.det])
    fun n hn => absurd hn List.not_mem_nil

/-- So do the elements around it. -/
lemma framed_wellFormed : PaintedElement.Everywhere PaintedElement.WellFormed framed := by
  refine .intro ⟨by decide +kernel, by decide, by decide, by decide +kernel⟩ ?_
  refine List.forall_mem_singleton.mpr (.intro ⟨by decide +kernel, by decide, by decide,
    by decide +kernel⟩ ?_)
  exact List.forall_mem_singleton.mpr picture_wellFormed

/-- The elements around the picture, at both depths, are painted where they are hit. -/
theorem paintedWhereHit_iff_framed :
    PaintedElement.Everywhere PaintedElement.PaintedWhereHit framed := by
  refine (paintedWhereHit_iff framed_wellFormed).1 (.intro ⟨rfl, ?_, ?_⟩ ?_)
  · exact framed_wellFormed.here.1.encloses (by decide +kernel) (by decide +kernel)
      (by decide +kernel)
  · rw [BanElement.Agrees, if_pos (show frameBan.matrix = .identity from rfl)]
    norm_num [frameBan]
  refine List.forall_mem_singleton.mpr (.intro ⟨rfl, ?_, ?_⟩ ?_)
  · have hturned := framed_wellFormed.inside _ (List.mem_singleton_self _)
    exact hturned.here.1.encloses (by decide +kernel) (by decide +kernel) (by decide +kernel)
  · rw [BanElement.Agrees, if_neg (by decide +kernel), drawing_picture]
    exact ⟨rfl, rfl, reaches_points (by decide) (by decide)⟩
  · exact List.forall_mem_singleton.mpr (.intro rfl fun n hn => absurd hn List.not_mem_nil)

/-- The moved element is painted at half the size that it is hit at. -/
theorem not_paintedWhereHit_movedBan :
    PaintedElement.Everywhere PaintedElement.WellFormed (.ban movedBan [.image picture]) ∧
      PaintedElement.PaintedWhereHit (.image picture) ∧
      ¬ PaintedElement.PaintedWhereHit (.ban movedBan [.image picture]) := by
  have hwell : PaintedElement.Everywhere PaintedElement.WellFormed
      (.ban movedBan [.image picture]) :=
    .intro ⟨by decide +kernel, by decide, by decide, by decide +kernel⟩
      (List.forall_mem_singleton.mpr picture_wellFormed)
  have hpicture : PaintedElement.PaintedWhereHit (.image picture) :=
    (PaintedElement.paintedWhereHit_of_nested picture_wellFormed.here
      fun n hn => absurd hn List.not_mem_nil).1 rfl
  refine ⟨hwell, hpicture, fun hpainted => ?_⟩
  have hordinary : PaintedElement.Ordinary (.ban movedBan [.image picture]) := by
    refine ⟨hwell.here.1.encloses (by decide +kernel) (by decide +kernel) (by decide +kernel),
      .inr (.inr ?_)⟩
    rw [drawing_picture]
    exact reaches_points (by decide) (by decide)
  have hagrees := (PaintedElement.paintedWhereHit_of_nested hwell.here
    (List.forall_mem_singleton.mpr hpicture)).2 hordinary hpainted
  have hzoom := hagrees.2.2
  rw [BanElement.Agrees, if_neg (by decide +kernel)] at hzoom
  exact absurd hzoom.1 (by decide +kernel)

end Liangshi
