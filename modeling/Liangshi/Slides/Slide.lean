import Liangshi.Board.Page

/-!
# Slides

`Slide` of `Client/src/hera`: a background and shapes as images, the actions that show and move the
shapes one after the other, and how many of them have been played.  A slide puts a copy of an image on
a board the first time it needs it there and from then on shows and hides it by its uuid.

An action names its shape by an id.  Reading an action that is not there and following a shape that is
not there are faults; that every action has its shape is part of a slide, as the analyser of
presentations makes one.  What is painted on the presenter's own pixmap and the actions that the board
emits are left out.
-/

namespace Liangshi

open Wire Ordered

/-- What ends an operation on slides without a result. -/
inductive SlideFault where
  | nullPointer
  | outsideActions
  | outsideSlides
  | endless
deriving DecidableEq

/-- `QSize`. -/
structure SSize where
  width : Int32
  height : Int32
deriving DecidableEq

/-- `ShapeAction`, with the members of its `SizeAction`. -/
structure ShapeAction where
  id : Int
  leftTop : SPoint
  width : Int32
  height : Int32
deriving DecidableEq

/-- The images of a slide. -/
inductive SlideImage where
  | background
  | shape (id : Int)
deriving DecidableEq

/-- Where new elements are put. -/
structure Allocator where
  fresh : Page → Pointer
  free : ∀ page : Page, page.element (fresh page) = none

/-- Addresses behind all that have been used. -/
def Allocator.ascending : Allocator where
  fresh page := (page.heap.entries.map (·.1)).foldr max 0 + 1
  free page := by
    have hle : ∀ (entries : List (Pointer × Element)) (p : Pointer) (e : Element),
        (p, e) ∈ entries → p ≤ (entries.map (·.1)).foldr max 0 := by
      intro entries p e hmem
      induction entries with
      | nil => cases hmem
      | cons first others ih =>
        rw [List.map_cons, List.foldr_cons]
        rcases List.mem_cons.mp hmem with rfl | hother
        · exact le_max_left _ _
        · exact (ih hother).trans (le_max_right _ _)
    by_contra hsome
    obtain ⟨e, he⟩ := Option.ne_none_iff_exists'.mp hsome
    exact Nat.not_succ_le_self _ (hle _ _ _ (OrderedMap.find_eq_some.mp he))

/-- `Slide`.  `_hasAddedToBanBase` tells by the uuid of a board which images have a copy there. -/
structure Slide where
  backgroundImage : Element
  shapes : OrderedMap Int Element
  shapeActions : List ShapeAction
  shaped : ∀ action ∈ shapeActions, (shapes.find action.id).isSome
  actionIndex : Int
  hasAddedToBanBase : List (Bytes × SlideImage)
  leftTop : SPoint
  originalSize : SSize
  currentSize : SSize

namespace Element

/-- `ImageElement::UpdateSize`. -/
def updateSize (d : DoubleArithmetic) (leftTop : SPoint) (width height : Int32) (e : Element) :
    Element :=
  { e with body := e.body.updateSize d leftTop width height }

/-- `CreateFromCopyableData` of `GetCopyableData` of an image, not to be painted. -/
def boardCopy (e : Element) : Element :=
  { new e.objUuid e.body with matrix := e.matrix, canPaint := false }

/-- The place of an image. -/
def imageLeftTop (e : Element) : SPoint :=
  match e.body with
  | .image leftTop _ _ _ => leftTop
  | _ => ⟨0, 0⟩

/-- The size of an image. -/
def imageSize (e : Element) : SSize :=
  match e.body with
  | .image _ width height _ => ⟨width, height⟩
  | _ => ⟨0, 0⟩

end Element

namespace Slide

/-- An image of a slide. -/
def image (slide : Slide) : SlideImage → Option Element
  | .background => some slide.backgroundImage
  | .shape id => slide.shapes.find id

/-- `ClearActions`. -/
def clearActions (slide : Slide) : Slide := { slide with actionIndex := -1 }

/-- The first actions of a slide, if there are as many. -/
def firstActions (slide : Slide) (count : Int) : Except SlideFault (List ShapeAction) :=
  if count ≤ slide.shapeActions.length then .ok (slide.shapeActions.take count.toNat)
  else .error .outsideActions

/-- `UpdateSize` of the shape of an action, which keeps its original place and size. -/
def updateShape (d : DoubleArithmetic) (slide : Slide) (action : ShapeAction) : Slide :=
  match slide.shapes.find action.id with
  | none => slide
  | some e =>
    { slide with
      shapes := slide.shapes.insert action.id
        (e.updateSize d action.leftTop action.width action.height)
      shaped := fun other hother => by
        rw [OrderedMap.find_insert]
        split_ifs
        · rfl
        · exact slide.shaped other hother }

/-- `GetCurrentShapeSize`: the place and size of a shape at the current size of the slide. -/
def getCurrentShapeSize (d : DoubleArithmetic) (slide : Slide) (e : Element) : SPoint × SSize :=
  let xZoom := d.quotient slide.currentSize.width slide.originalSize.width
  let yZoom := d.quotient slide.currentSize.height slide.originalSize.height
  (⟨d.product e.imageLeftTop.x xZoom, d.product e.imageLeftTop.y yZoom⟩,
    ⟨d.product e.imageSize.width xZoom, d.product e.imageSize.height yZoom⟩)

/-- The place of a shape on the board. -/
def onBoard (slide : Slide) (leftTop : SPoint) : SPoint :=
  ⟨leftTop.x + slide.leftTop.x, leftTop.y + slide.leftTop.y⟩

/-! ## One image on the board -/

/-- `AddToBanBase`. -/
def addToBanBase (alloc : Allocator) (slide : Slide) (board : Page) (image : SlideImage) :
    Except SlideFault (Slide × Page) :=
  match slide.image image with
  | none => .error .nullPointer
  | some e =>
    if (board.uuid, image) ∈ slide.hasAddedToBanBase then
      .ok (slide, board.addToDrawing e.objUuid)
    else
      .ok ({ slide with hasAddedToBanBase := (board.uuid, image) :: slide.hasAddedToBanBase },
        board.addNew (alloc.fresh board) e.boardCopy false false)

/-- `ChangeImageElementSize` of an image of the slide. -/
def changeSize (d : DoubleArithmetic) (slide : Slide) (board : Page) (image : SlideImage)
    (leftTop : SPoint) (size : SSize) : Except SlideFault (Slide × Page) :=
  match slide.image image with
  | none => .error .nullPointer
  | some e => .ok (slide, board.changeImageElementSize d e.objUuid leftTop size.width size.height)

/-- `AddShowAction`. -/
def addShowAction (alloc : Allocator) (slide : Slide) (board : Page) (image : SlideImage) :
    Except SlideFault (Slide × Page) :=
  slide.addToBanBase alloc board image

/-- `AddSizeAction`. -/
def addSizeAction (alloc : Allocator) (d : DoubleArithmetic) (slide : Slide) (board : Page)
    (image : SlideImage) (leftTop : SPoint) (size : SSize) : Except SlideFault (Slide × Page) := do
  let (slide, board) ← slide.addToBanBase alloc board image
  slide.changeSize d board image leftTop size

/-- `HideImageElement`. -/
def hideImageElement (alloc : Allocator) (slide : Slide) (board : Page) (image : SlideImage) :
    Except SlideFault (Slide × Page) := do
  let (slide, board) ← slide.addToBanBase alloc board image
  match slide.image image with
  | none => .error .nullPointer
  | some e => return (slide, board.removeFromDrawing e.objUuid)

/-- The place and size of a shape on the board. -/
def currentShape (d : DoubleArithmetic) (slide : Slide) (id : Int) :
    Except SlideFault (SPoint × SSize) :=
  match slide.shapes.find id with
  | none => .error .nullPointer
  | some e =>
    let (leftTop, size) := slide.getCurrentShapeSize d e
    .ok (slide.onBoard leftTop, size)

/-! ## The images of a slide -/

/-- `Hide`: the background and the shapes of the actions that have been played. -/
def hide (alloc : Allocator) (slide : Slide) (board : Page) : Except SlideFault (Slide × Page) := do
  let (slide, board) ← slide.hideImageElement alloc board .background
  let actions ← slide.firstActions slide.actionIndex
  actions.foldlM (fun (slide, board) action =>
    slide.hideImageElement alloc board (.shape action.id)) (slide, board)

/-- `AddShowAction` where `withShow` asks for it. -/
def addShowActionWhen (alloc : Allocator) (withShow : Bool) (slide : Slide) (board : Page)
    (image : SlideImage) : Except SlideFault (Slide × Page) :=
  if withShow then slide.addShowAction alloc board image else .ok (slide, board)

/-- What `SetNewSize` does for an image where `withAction` asks for it. -/
def addActionsWhen (alloc : Allocator) (d : DoubleArithmetic) (withAction withShow : Bool)
    (slide : Slide) (board : Page) (image : SlideImage) (leftTop : SPoint) (size : SSize) :
    Except SlideFault (Slide × Page) :=
  if withAction then do
    let (slide, board) ← slide.addShowActionWhen alloc withShow board image
    slide.addSizeAction alloc d board image leftTop size
  else
    .ok (slide, board)

/-- One turn of the loop of `SetNewSize`. -/
def resizeShape (alloc : Allocator) (d : DoubleArithmetic) (withAction withShow : Bool)
    (s : Slide × Page) (action : ShapeAction) : Except SlideFault (Slide × Page) := do
  let (leftTop, size) ← s.1.currentShape d action.id
  let (slide, board) ← s.1.changeSize d s.2 (.shape action.id) leftTop size
  slide.addActionsWhen alloc d withAction withShow board (.shape action.id) leftTop size

/-- `SetNewSize`. -/
def setNewSize (alloc : Allocator) (d : DoubleArithmetic) (slide : Slide) (board : Page)
    (leftTop : SPoint) (size : SSize) (withAction withShow : Bool) :
    Except SlideFault (Slide × Page) := do
  let slide := { slide with leftTop, currentSize := size }
  let (slide, board) ← slide.addActionsWhen alloc d withAction withShow board .background leftTop size
  let actions ← slide.firstActions slide.actionIndex
  actions.foldlM (resizeShape alloc d withAction withShow) (slide, board)

/-- `UpdateBanBase`. -/
def updateBanBase (alloc : Allocator) (d : DoubleArithmetic) (slide : Slide) (board : Page) :
    Except SlideFault (Slide × Page) :=
  slide.setNewSize alloc d board slide.leftTop slide.currentSize true true

/-- What `NextAction` does for an action. -/
def showShape (alloc : Allocator) (d : DoubleArithmetic) (slide : Slide) (board : Page)
    (action : ShapeAction) : Except SlideFault (Slide × Page) := do
  let slide := slide.updateShape d action
  let (leftTop, size) ← slide.currentShape d action.id
  let (slide, board) ← slide.addShowAction alloc board (.shape action.id)
  slide.addSizeAction alloc d board (.shape action.id) leftTop size

/-- The loop of `NextAction`: an action whose shape is moved again later is passed over. -/
def showShapes (alloc : Allocator) (d : DoubleArithmetic) :
    List ShapeAction → Slide × Page → Except SlideFault (Slide × Page)
  | [], s => .ok s
  | action :: later, s =>
    if later.any (·.id = action.id) then showShapes alloc d later s
    else (s.1.showShape alloc d s.2 action).bind (showShapes alloc d later)

/-- `NextAction`, and whether there was one. -/
def nextAction (alloc : Allocator) (d : DoubleArithmetic) (slide : Slide) (board : Page) :
    Except SlideFault (Slide × Page × Bool) :=
  if slide.actionIndex = slide.shapeActions.length then
    .ok (slide, board, false)
  else if slide.actionIndex = -1 then do
    let (slide, board) ← slide.addShowAction alloc board .background
    let (slide, board) ← slide.addSizeAction alloc d board .background slide.leftTop
      slide.currentSize
    return ({ slide with actionIndex := slide.actionIndex + 1 }, board, true)
  else do
    let actions ← slide.firstActions (slide.actionIndex + 1)
    let (slide, board) ← showShapes alloc d actions (slide, board)
    return ({ slide with actionIndex := slide.actionIndex + 1 }, board, true)

/-- `ToCurrentAction`. -/
def toCurrentAction (alloc : Allocator) (d : DoubleArithmetic) (slide : Slide) (board : Page) :
    Except SlideFault (Slide × Page) := do
  let (slide, board, _) ← { slide with actionIndex := slide.actionIndex - 1 }.nextAction alloc d board
  return (slide, board)

end Slide

end Liangshi
