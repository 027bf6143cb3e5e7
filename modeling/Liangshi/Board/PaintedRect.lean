import Liangshi.Plane.Bounds
import Mathlib.Algebra.Order.Group.MinMax

/-!
# Where elements are painted and where they are hit

What `DrawOnQtPainter` paints of a path, an image, a `BanElement` and the state elements of the
last two, and the rectangle `GetActualRect` that hit tests, previews and the size of an enclosing
`BanElement` go by.  Numbers are exact; how they become whole pixels is a parameter, and
`Rounding.exact` leaves them as they are.  Pens have no width.

A `BanElement` paints the elements of its viewer by two sequences of transforms, one of which has no
zoom, and its size is the one of the rectangle around theirs.  A state element puts its source in its
own state for as long as it is painted or hit.

Left out of a viewer are the elements that are neither painted nor previewed, which are the sources of
state elements.
-/

namespace Liangshi

open Plane

variable {K : Type} [Field K] [LinearOrder K]

/-! ## Rectangles of whole pixels -/

/-- `floor` and `qRound`. -/
structure Rounding (K : Type) where
  floor : K → K
  round : K → K

/-- Nothing is rounded. -/
def Rounding.exact : Rounding K := ⟨id, id⟩

/-- `QRectF::toRect`. -/
def toRect (ρ : Rounding K) (r : Rect K) : Rect K :=
  ⟨ρ.round r.left, ρ.round r.top, ρ.round r.width, ρ.round r.height⟩

/-- `QMatrix::mapRect` for a `QRect`. -/
def mapRect (ρ : Rounding K) (m : Affine K) (r : Rect K) : Rect K :=
  if m.m12 = 0 ∧ m.m21 = 0 then
    let x := ρ.round (m.m11 * r.left + m.dx)
    let y := ρ.round (m.m22 * r.top + m.dy)
    let w := ρ.round (m.m11 * r.width)
    let h := ρ.round (m.m22 * r.height)
    { left := if w < 0 then x + w else x
      top := if h < 0 then y + h else y
      width := if w < 0 then -w else w
      height := if h < 0 then -h else h }
  else
    let p0 := m.map (r.left, r.top)
    let p1 := m.map (r.right, r.top)
    let p2 := m.map (r.right, r.bottom)
    let p3 := m.map (r.left, r.bottom)
    let xmin := min (min (min p0.1 p1.1) p2.1) p3.1
    let ymin := min (min (min p0.2 p1.2) p2.2) p3.2
    let xmax := max (max (max p0.1 p1.1) p2.1) p3.1
    let ymax := max (max (max p0.2 p1.2) p2.2) p3.2
    { left := ρ.round xmin
      top := ρ.round ymin
      width := ρ.round xmax - ρ.round xmin
      height := ρ.round ymax - ρ.round ymin }

/-- A rectangle under a map that only multiplies and adds to the coordinates. -/
lemma mapRect_scaling (sx sy dx dy left top width height : K) :
    mapRect .exact ⟨sx, 0, 0, sy, dx, dy⟩ ⟨left, top, width, height⟩ =
      { left := if sx * width < 0 then sx * left + dx + sx * width else sx * left + dx
        top := if sy * height < 0 then sy * top + dy + sy * height else sy * top + dy
        width := if sx * width < 0 then -(sx * width) else sx * width
        height := if sy * height < 0 then -(sy * height) else sy * height } :=
  if_pos ⟨rfl, rfl⟩

section MapRect

variable [IsStrictOrderedRing K] {m : Affine K} {r : Rect K}

/-- One coordinate of a rectangle under a map that multiplies it. -/
lemma scaled_eq (a c lo : K) {width : K} (hwidth : 0 ≤ width) :
    (if a * width < 0 then a * lo + c + a * width else a * lo + c) =
        a * (if 0 < -a then lo + width else lo) + c ∧
      (if a * width < 0 then -(a * width) else a * width) =
        a * (if 0 < a then lo + width else lo) - a * (if 0 < -a then lo + width else lo) := by
  obtain ha | rfl | ha := lt_trichotomy a 0
  · rw [if_pos (neg_pos.mpr ha), if_neg ha.not_gt]
    split_ifs with h
    · constructor <;> ring
    · have hzero : a * width = 0 :=
        le_antisymm (mul_nonpos_of_nonpos_of_nonneg ha.le hwidth) (not_lt.mp h)
      exact ⟨by linear_combination (-1) * hzero, by linear_combination 2 * hzero⟩
  · simp
  · rw [if_neg (neg_neg_of_pos ha).not_gt, if_pos ha, if_neg (mul_nonneg ha.le hwidth).not_gt,
      if_neg (mul_nonneg ha.le hwidth).not_gt]
    constructor <;> ring

/-- The greatest value of a form at the four corners. -/
lemma max_corners (a b c : K) (hwidth : 0 ≤ r.width) (hheight : 0 ≤ r.height) :
    max (max (max (form a b c (r.left, r.top)) (form a b c (r.right, r.top)))
      (form a b c (r.right, r.bottom))) (form a b c (r.left, r.bottom)) =
        form a b c (r.corner a b) := by
  have hx : r.left ≤ r.right := le_add_of_nonneg_right hwidth
  have hy : r.top ≤ r.bottom := le_add_of_nonneg_right hheight
  refine le_antisymm (max_le (max_le (max_le ?_ ?_) ?_) ?_) ?_
  · exact form_le_corner ⟨⟨le_refl _, hx⟩, le_refl _, hy⟩
  · exact form_le_corner ⟨⟨hx, le_refl _⟩, le_refl _, hy⟩
  · exact form_le_corner ⟨⟨hx, le_refl _⟩, hy, le_refl _⟩
  · exact form_le_corner ⟨⟨le_refl _, hx⟩, hy, le_refl _⟩
  · simp only [Rect.corner]
    split_ifs <;> simp only [le_max_iff, le_refl, true_or, or_true]

/-- The least value of a form at the four corners. -/
lemma min_corners (a b c : K) (hwidth : 0 ≤ r.width) (hheight : 0 ≤ r.height) :
    min (min (min (form a b c (r.left, r.top)) (form a b c (r.right, r.top)))
      (form a b c (r.right, r.bottom))) (form a b c (r.left, r.bottom)) =
        form a b c (r.corner (-a) (-b)) := by
  have hmax := max_corners (-a) (-b) (-c) hwidth hheight
  simp only [form_neg, max_neg_neg] at hmax
  exact neg_injective hmax

/-- Without rounding, the rectangle is the one around the image. -/
lemma mapRect_exact (m : Affine K) (hwidth : 0 ≤ r.width) (hheight : 0 ≤ r.height) :
    mapRect .exact m r = m.mapBox r := by
  unfold mapRect
  split_ifs with h
  · obtain ⟨hleft, hwidth'⟩ := scaled_eq m.m11 m.dx r.left hwidth
    obtain ⟨htop, hheight'⟩ := scaled_eq m.m22 m.dy r.top hheight
    refine Rect.ext (hleft.trans ?_) (htop.trans ?_) (hwidth'.trans ?_) (hheight'.trans ?_)
    all_goals simp [Affine.mapBox, form, Rect.corner, Rect.right, Rect.bottom, h.1, h.2]
  · have hmin := min_corners m.m11 m.m21 m.dx hwidth hheight
    have hmin' := min_corners m.m12 m.m22 m.dy hwidth hheight
    have hmax := max_corners m.m11 m.m21 m.dx hwidth hheight
    have hmax' := max_corners m.m12 m.m22 m.dy hwidth hheight
    simp only [form] at hmin hmin' hmax hmax'
    simp only [Rounding.exact, id, Affine.map, Affine.mapBox, form]
    rw [hmin, hmin', hmax, hmax']

end MapRect

/-! ## Painters -/

/-- The transform of a `QPainter`. -/
structure Painter (K : Type) where
  worldMatrix : Affine K

namespace Painter

/-- A painter that has not been transformed. -/
def untransformed : Painter K := ⟨.identity⟩

/-- `translate`. -/
def translate (painter : Painter K) (d : Point K) : Painter K :=
  ⟨(Affine.translation d).mul painter.worldMatrix⟩

/-- `scale`. -/
def scale (painter : Painter K) (sx sy : K) : Painter K :=
  ⟨(Affine.scaling (sx, sy)).mul painter.worldMatrix⟩

/-- `setWorldMatrix`, combined with the present one. -/
def setWorldMatrix (painter : Painter K) (m : Affine K) : Painter K := ⟨m.mul painter.worldMatrix⟩

/-- The points that are painted for points in the coordinates of the painter. -/
def paint (painter : Painter K) (S : Set (Point K)) : Set (Point K) := painter.worldMatrix.map '' S

end Painter

/-! ## Elements -/

/-- `PathElement`: the points of its path and their `boundingRect`. -/
structure PathElement (K : Type) where
  path : Set (Point K)
  boundingRect : Rect K
  matrix : Affine K

/-- `PathElement::GetActualRect`. -/
def PathElement.getActualRect (ρ : Rounding K) (e : PathElement K) : Rect K :=
  mapRect ρ e.matrix (toRect ρ e.boundingRect)

/-- `PathElement::DrawOnQtPainter`. -/
def PathElement.drawOnQtPainter (e : PathElement K) (painter : Painter K) : Set (Point K) :=
  (painter.setWorldMatrix e.matrix).paint e.path

/-- `State` of an image and of a `BanElement`. -/
structure PlacedState (K : Type) where
  leftTop : Point K
  width : K
  height : K
  matrix : Affine K

/-- `ImageBaseElement`. -/
structure ImageBaseElement (K : Type) where
  leftTop : Point K
  width : K
  height : K
  matrix : Affine K
  highlight : Bool
  initState : PlacedState K
  currentState : PlacedState K

namespace ImageBaseElement

/-- `UpdateSize`. -/
def updateSize (e : ImageBaseElement K) (point : Point K) (width height : K) :
    ImageBaseElement K :=
  { e with
    leftTop := point
    width := if width ≠ -1 then width else e.width
    height := if height ≠ -1 then height else e.height }

/-- `SetState`. -/
def setState (e : ImageBaseElement K) (state : PlacedState K) : ImageBaseElement K :=
  { e.updateSize state.leftTop state.width state.height with matrix := state.matrix }

/-- `ToInitState`. -/
def toInitState (e : ImageBaseElement K) : ImageBaseElement K :=
  { e with currentState := ⟨e.leftTop, e.width, e.height, e.matrix⟩ }.setState e.initState

/-- `ToCurrentState`. -/
def toCurrentState (e : ImageBaseElement K) : ImageBaseElement K := e.setState e.currentState

/-- `GetState`, which goes to the init state and back. -/
def getState (e : ImageBaseElement K) : PlacedState K × ImageBaseElement K :=
  let e := e.toInitState.toCurrentState
  (e.currentState, e)

/-- `GetActualRect`. -/
def getActualRect (ρ : Rounding K) (e : ImageBaseElement K) : Rect K :=
  mapRect ρ e.matrix (toRect ρ ⟨e.leftTop.1, e.leftTop.2, e.width, e.height⟩)

/-- `DrawOnQtPainter`: the pixmap is scaled to the size of the element. -/
def drawOnQtPainter (e : ImageBaseElement K) (painter : Painter K) : Set (Point K) :=
  if e.highlight then ∅
  else (painter.setWorldMatrix e.matrix).paint
    (⟨e.leftTop.1, e.leftTop.2, e.width, e.height⟩ : Rect K).points

end ImageBaseElement

/-- `BanElement`, apart from its viewer. -/
structure BanElement (K : Type) where
  leftTop : Point K
  leftTopInSc : Point K
  width : K
  height : K
  xZoom : K
  yZoom : K
  zoomWidth : K
  zoomHeight : K
  matrix : Affine K
  highlight : Bool
  initState : PlacedState K
  currentState : PlacedState K

namespace BanElement

/-- `SetWidthHeight`. -/
def setWidthHeight (e : BanElement K) (width height : K) : BanElement K :=
  { e with
    width := if width ≤ 0 then 1 else width
    height := if height ≤ 0 then 1 else height }

/-- `InitViewer`, for the `GetUnitedRect` of the viewer. -/
def initViewer (e : BanElement K) (rect : Rect K) : BanElement K :=
  let e := { e with leftTopInSc := (rect.left, rect.top) }.setWidthHeight rect.width rect.height
  { e with
    zoomWidth := e.width * e.xZoom
    zoomHeight := e.height * e.yZoom }

/-- `UpdateSize`. -/
def updateSize (e : BanElement K) (point : Point K) (width height : K) : BanElement K :=
  let zoomWidth := if width ≠ -1 then width else e.zoomWidth
  let zoomHeight := if height ≠ -1 then height else e.zoomHeight
  { e with
    leftTop := point
    zoomWidth := zoomWidth
    zoomHeight := zoomHeight
    xZoom := zoomWidth / e.width
    yZoom := zoomHeight / e.height }

/-- `SetState`. -/
def setState (e : BanElement K) (state : PlacedState K) : BanElement K :=
  { e.updateSize state.leftTop state.width state.height with matrix := state.matrix }

/-- `ToInitState`. -/
def toInitState (e : BanElement K) : BanElement K :=
  { e with currentState := ⟨e.leftTop, e.zoomWidth, e.zoomHeight, e.matrix⟩ }.setState e.initState

/-- `ToCurrentState`. -/
def toCurrentState (e : BanElement K) : BanElement K := e.setState e.currentState

/-- `GetState`, which goes to the init state and back. -/
def getState (e : BanElement K) : PlacedState K × BanElement K :=
  let e := e.toInitState.toCurrentState
  (e.currentState, e)

/-- `GetActualRect`. -/
def getActualRect (ρ : Rounding K) (e : BanElement K) : Rect K :=
  mapRect ρ e.matrix (toRect ρ ⟨e.leftTop.1, e.leftTop.2, e.zoomWidth, e.zoomHeight⟩)

/-- The painter that the viewer paints on. -/
def viewerPainter (ρ : Rounding K) (e : BanElement K) (painter : Painter K) : Painter K :=
  if e.matrix = .identity then
    let inX := e.leftTopInSc.1 * e.xZoom
    let inY := e.leftTopInSc.2 * e.yZoom
    let x := e.leftTop.1 - ρ.floor inX
    let y := e.leftTop.2 - ρ.floor inY
    (painter.translate (x, y)).scale e.xZoom e.yZoom
  else
    ((painter.setWorldMatrix e.matrix).translate (-e.leftTopInSc)).translate e.leftTop

/-- `DrawOnQtPainter`, with that of the viewer. -/
def drawOnQtPainter (ρ : Rounding K) (e : BanElement K) (viewer : Painter K → Set (Point K))
    (painter : Painter K) : Set (Point K) :=
  if e.highlight then ∅ else viewer (e.viewerPainter ρ painter)

/-- The rectangle of its viewer that `InitViewer` has taken. -/
def viewerRect (e : BanElement K) : Rect K :=
  ⟨e.leftTopInSc.1, e.leftTopInSc.2, e.width, e.height⟩

end BanElement

/-- `ImageStateElement` and `BanStateElement`, apart from their sources. -/
abbrev StateElement := PlacedState

/-- `ImageStateElement::GetActualRect`, with the source it leaves. -/
def imageStateActualRect (ρ : Rounding K) (e : StateElement K) (source : ImageBaseElement K) :
    Rect K × ImageBaseElement K :=
  let (oldState, source) := source.getState
  let source := source.setState e
  let rect := source.getActualRect ρ
  (rect, source.setState oldState)

/-- `ImageStateElement::DrawOnQtPainter`, with the source it leaves. -/
def imageStateDraw (e : StateElement K) (source : ImageBaseElement K) (painter : Painter K) :
    Set (Point K) × ImageBaseElement K :=
  let (oldState, source) := source.getState
  let source := source.setState e
  let painted := source.drawOnQtPainter painter
  (painted, source.setState oldState)

/-- `BanStateElement::GetActualRect`, with the source it leaves. -/
def banStateActualRect (ρ : Rounding K) (e : StateElement K) (source : BanElement K) :
    Rect K × BanElement K :=
  let (oldState, source) := source.getState
  let source := source.setState e
  let rect := source.getActualRect ρ
  (rect, source.setState oldState)

/-- `BanStateElement::DrawOnQtPainter`, with the source it leaves. -/
def banStateDraw (ρ : Rounding K) (e : StateElement K) (source : BanElement K)
    (viewer : Painter K → Set (Point K)) (painter : Painter K) : Set (Point K) × BanElement K :=
  let (oldState, source) := source.getState
  let source := source.setState e
  let painted := source.drawOnQtPainter ρ viewer painter
  (painted, source.setState oldState)

/-! ## Elements in elements -/

/-- The elements that are painted where a matrix puts them, with those in their viewers.  Of an element
of another class, which may be in a viewer, there is what it paints and its `GetActualRect`. -/
inductive PaintedElement (K : Type) where
  | path (e : PathElement K)
  | image (e : ImageBaseElement K)
  | ban (e : BanElement K) (viewer : List (PaintedElement K))
  | imageState (e : StateElement K) (source : ImageBaseElement K)
  | banState (e : StateElement K) (source : BanElement K) (viewer : List (PaintedElement K))
  | other (painted : Set (Point K)) (rect : Rect K)

namespace PaintedElement

/-- `GetActualRect` of the class of the element. -/
def getActualRect (ρ : Rounding K) : PaintedElement K → Rect K
  | path e => e.getActualRect ρ
  | image e => e.getActualRect ρ
  | ban e _ => e.getActualRect ρ
  | imageState e source => (imageStateActualRect ρ e source).1
  | banState e source _ => (banStateActualRect ρ e source).1
  | other _ rect => rect

mutual

/-- `DrawOnQtPainter` of the class of the element. -/
def drawOnQtPainter (ρ : Rounding K) : PaintedElement K → Painter K → Set (Point K)
  | path e, painter => e.drawOnQtPainter painter
  | image e, painter => e.drawOnQtPainter painter
  | ban e viewer, painter => e.drawOnQtPainter ρ (fun p => drawAllOnQtPainter ρ viewer p) painter
  | imageState e source, painter => (imageStateDraw e source painter).1
  | banState e source viewer, painter =>
    (banStateDraw ρ e source (fun p => drawAllOnQtPainter ρ viewer p) painter).1
  | other painted _, painter => painter.paint painted

/-- `DrawOnQtPainter` of a viewer. -/
def drawAllOnQtPainter (ρ : Rounding K) : List (PaintedElement K) → Painter K → Set (Point K)
  | [], _ => ∅
  | e :: elements, painter => drawOnQtPainter ρ e painter ∪ drawAllOnQtPainter ρ elements painter

end

end PaintedElement

/-- `QRect::united`: a rectangle without width and height adds nothing. -/
def united (r s : Rect K) : Rect K :=
  if r.width = 0 ∧ r.height = 0 then s
  else if s.width = 0 ∧ s.height = 0 then r
  else r.hull s

/-- `GetUnitedRect` of a viewer, by the rectangles of its elements. -/
def getUnitedRect : List (Rect K) → Rect K
  | [] => ⟨0, 0, 0, 0⟩
  | rect :: rects => rects.foldl (fun rect r => united r rect) rect

/-- Rectangles that each have a width or a height are enclosed by their united rectangle. -/
lemma encloses_getUnitedRect [IsStrictOrderedRing K] {rects : List (Rect K)} (hne : rects ≠ [])
    (h : ∀ r ∈ rects, 0 ≤ r.width ∧ 0 ≤ r.height ∧ ¬ (r.width = 0 ∧ r.height = 0)) :
    Encloses rects (getUnitedRect rects) := by
  cases rects with
  | nil => exact absurd rfl hne
  | cons rect rects =>
    obtain ⟨hrect, hrects⟩ := List.forall_mem_cons.mp h
    have hfold : ∀ rects : List (Rect K), ∀ rect : Rect K,
        (0 ≤ rect.width ∧ 0 ≤ rect.height ∧ ¬ (rect.width = 0 ∧ rect.height = 0)) →
        (∀ r ∈ rects, 0 ≤ r.width ∧ 0 ≤ r.height ∧ ¬ (r.width = 0 ∧ r.height = 0)) →
          rects.foldl (fun rect r => united r rect) rect = rects.foldl Rect.hull rect := by
      intro rects
      induction rects with
      | nil => exact fun _ _ _ => rfl
      | cons r rects ih =>
        intro rect hrect hrects
        obtain ⟨hr, hrest⟩ := List.forall_mem_cons.mp hrects
        have hunited : united r rect = rect.hull r := by
          rw [united, if_neg hr.2.2, if_neg hrect.2.2, Rect.hull, Rect.hull, min_comm r.left,
            min_comm r.top, max_comm r.right, max_comm r.bottom]
        rw [List.foldl_cons, List.foldl_cons, hunited]
        exact ih _ (Rect.hull_not_null r hrect) hrest
    rw [getUnitedRect, hfold rects rect hrect hrects]
    exact (encloses_singleton rect).foldl rects

end Liangshi
