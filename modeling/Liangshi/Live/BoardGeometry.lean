import Liangshi.Plane.Affine
import Liangshi.Transition.System
import Liangshi.Wire.BigEndian

/-!
# Where elements are painted

The geometry of a live board over exact rationals: the matrices that `LiveWidget::OnPageSizeChange`
makes, what `AddElement` and the helpers do to the place of an element on the controller's board, what
the actions they send do to the copy on another participant's board, and where both paint it.

A page is painted through its world matrix, an element through its own matrix before it.  Lengths of
texts and the sizes of images are taken as they come; the border of a helper is part of the corner it
reports.
-/

namespace Liangshi

open Wire Plane Transition

/-! ## Screens -/

/-- `STANDRAD_WIDTH` and `STANDRAD_HEIGHT`. -/
def standardSize : Point ℚ := (1278, 732)

/-- A participant's board: the size of its pages, which is not zero, the two matrices that were made for
it, and whether it is compiled for Android. -/
structure Screen where
  pageSize : ℤ × ℤ
  elementMatrix : Affine ℚ
  worldMatrix : Affine ℚ
  android : Bool
  width_ne : (pageSize.1 : ℚ) ≠ 0
  height_ne : (pageSize.2 : ℚ) ≠ 0
  elementMatrix_eq :
    elementMatrix = .scaling (standardSize.1 / pageSize.1, standardSize.2 / pageSize.2)
  worldMatrix_eq : worldMatrix = .scaling (pageSize.1 / standardSize.1, pageSize.2 / standardSize.2)

namespace Screen

/-- `OnPageSizeChange`: a size with a zero is ignored. -/
def onPageSizeChange (screen : Screen) (size : ℤ × ℤ) : Screen :=
  if h : size.1 = 0 ∨ size.2 = 0 then screen
  else
    { pageSize := size
      elementMatrix := .scaling (standardSize.1 / size.1, standardSize.2 / size.2)
      worldMatrix := .scaling (size.1 / standardSize.1, size.2 / standardSize.2)
      android := screen.android
      width_ne := Int.cast_ne_zero.mpr fun hw => h (.inl hw)
      height_ne := Int.cast_ne_zero.mpr fun hh => h (.inr hh)
      elementMatrix_eq := rfl
      worldMatrix_eq := rfl }

/-- A point of the page, in parts of its width and height. -/
def relative (screen : Screen) (p : Point ℚ) : Point ℚ :=
  (p.1 / screen.pageSize.1, p.2 / screen.pageSize.2)

end Screen

/-! ## Elements -/

/-- The class of an element, with the members that place it: a path has points, an image and a text a
corner and a size, and the page in a `BanElement` has points of its own. -/
inductive Shape where
  | path (points : List (Point ℚ))
  | image (leftTop size : Point ℚ)
  | text (leftTop size : Point ℚ)
  | htmlText (leftTop size : Point ℚ)
  | ban (leftTop leftTopInSc size zoom : Point ℚ) (content : List (Point ℚ))
deriving DecidableEq

/-- An element as far as it has a place. -/
structure Placed where
  uuid : Bytes
  shape : Shape
  matrix : Affine ℚ
deriving DecidableEq

/-- What a helper reports: the corner and the size of what it shows. -/
structure HelperEvent where
  corner : Point ℚ
  size : Point ℚ

/-- `SizeAction`. -/
structure SizeAction where
  targetElementUuid : Bytes
  leftTop : Point ℚ
  size : Point ℚ

namespace Shape

/-- The points that show where an element is painted, and how large an image is. -/
def points : Shape → List (Point ℚ)
  | path points => points
  | image leftTop size => [leftTop, (leftTop.1 + size.1, leftTop.2 + size.2)]
  | text leftTop _ => [leftTop]
  | htmlText leftTop _ => [leftTop]
  | ban _ _ _ _ content => content

/-- `UpdateSize`; the size of a helper is never the -1 that is skipped. -/
def updateSize (leftTop size : Point ℚ) : Shape → Shape
  | image _ _ => image leftTop size
  | text _ _ => text leftTop size
  | htmlText _ _ => htmlText leftTop size
  | ban _ leftTopInSc inner _ content =>
    ban leftTop leftTopInSc inner (size.1 / inner.1, size.2 / inner.2) content
  | path points => path points

/-- Whether a helper moves it: images and texts. -/
def isMoved : Shape → Bool
  | image _ _ | text _ _ | htmlText _ _ => true
  | path _ | ban _ _ _ _ _ => false

/-- Whether it is a `TextElement`. -/
def isText : Shape → Bool
  | text _ _ => true
  | _ => false

end Shape

namespace Placed

/-- The painter's matrix in `DrawOnQtPainter`, which starts as the world matrix.  A `TextElement` on
Android sets its matrix twice. -/
def painter (android : Bool) (e : Placed) (world : Affine ℚ) : Affine ℚ :=
  match e.shape with
  | .path _ | .image _ _ | .htmlText _ _ => e.matrix.mul world
  | .text _ _ => if android then e.matrix.mul (e.matrix.mul world) else e.matrix.mul world
  | .ban leftTop leftTopInSc _ zoom _ =>
    if e.matrix = .identity then
      (Affine.scaling zoom).mul ((Affine.translation
        (leftTop.1 - leftTopInSc.1 * zoom.1, leftTop.2 - leftTopInSc.2 * zoom.2)).mul world)
    else
      (Affine.translation leftTop).mul
        ((Affine.translation (-leftTopInSc.1, -leftTopInSc.2)).mul (e.matrix.mul world))

/-- `SendSizeAnimation` of the element's helper, with the actions it sends.  The helper of a
`TextElement` maps its corner back through the matrix, once before it clears the matrix and once after
that. -/
def sendSizeAnimation (e : Placed) (event : HelperEvent) : Placed × List SizeAction :=
  match e.shape with
  | .path _ => (e, [])
  | .image _ _ | .htmlText _ _ =>
    ({ e with shape := e.shape.updateSize event.corner event.size, matrix := .identity },
      [⟨e.uuid, event.corner, event.size⟩])
  | .text _ _ =>
    let e' := { e with
      shape := .text (e.matrix.inverted.map event.corner) event.size, matrix := .identity }
    (e', [⟨e.uuid, e'.matrix.inverted.map event.corner, event.size⟩])
  | .ban _ leftTopInSc size zoom content =>
    ({ e with shape := .ban event.corner leftTopInSc size zoom content },
      [⟨e.uuid, event.corner, event.size⟩])

/-- The events of a helper that is shown. -/
def showHelper : Placed → List HelperEvent → Placed × List SizeAction
  | e, [] => (e, [])
  | e, event :: events =>
    let (e', actions) := e.sendSizeAnimation event
    let (e'', others) := e'.showHelper events
    (e'', actions ++ others)

end Placed

/-- Where a screen paints an element. -/
def Screen.paint (screen : Screen) (e : Placed) : List (Point ℚ) :=
  e.shape.points.map fun p =>
    screen.relative ((e.painter screen.android screen.worldMatrix).map p)

/-! ## The boards -/

/-- Change the first one that passes a test. -/
def onFirst {α : Type} (test : α → Bool) (change : α → α) : List α → List α
  | [] => []
  | a :: l => if test a then change a :: l else a :: onFirst test change l

/-- An element of the other participant's page, and whether it is in the drawing. -/
structure PeerCopy where
  element : Placed
  drawn : Bool

/-- The board of the controller with its drawing and its undo stack, and the board of another
participant with all the elements of its page in the order of their addresses. -/
structure SharedBoard where
  controller : Screen
  drawing : List Placed
  undos : List Placed
  peer : Screen
  copies : List PeerCopy

/-- `UpdateSize` of a copy. -/
def PeerCopy.updateSize (action : SizeAction) (c : PeerCopy) : PeerCopy :=
  { c with
    element := { c.element with shape := c.element.shape.updateSize action.leftTop action.size } }

/-- A copy that is taken out of the drawing. -/
def PeerCopy.hide (c : PeerCopy) : PeerCopy := { c with drawn := false }

/-- `PlaySizeAction`. -/
def playSize (copies : List PeerCopy) (action : SizeAction) : List PeerCopy :=
  onFirst (fun c => c.element.uuid == action.targetElementUuid) (·.updateSize action) copies

/-- `PlayHideAction`. -/
def playHide (copies : List PeerCopy) (uuid : Bytes) : List PeerCopy :=
  onFirst (fun c => c.element.uuid == uuid) PeerCopy.hide copies

/-- `PlayNetworkShowAction` with a new element at a place in the order of the addresses. -/
def playShow (copies : List PeerCopy) (place : Nat) (e : Placed) : List PeerCopy :=
  copies.take place ++ ⟨e, true⟩ :: copies.drop place

/-- What the controller does, and what the helper and the page do on their own: `shown` are the events
of a helper when it is shown. -/
inductive BoardEvent where
  | add (e : Placed) (shown : List HelperEvent) (place : Nat)
  | delete (uuid : Bytes)
  | undo
  | redo (shown : List HelperEvent) (place : Nat)
  | move (uuid : Bytes) (event : HelperEvent)
  | controllerResized (size : ℤ × ℤ)
  | peerResized (size : ℤ × ℤ)

namespace SharedBoard

/-- A board of a size, not compiled for Android. -/
def desktop (size : ℤ × ℤ) (hw : (size.1 : ℚ) ≠ 0) (hh : (size.2 : ℚ) ≠ 0) : Screen :=
  ⟨size, _, _, false, hw, hh, rfl, rfl⟩

/-- `AddElement`, and the other board after its actions. -/
def addElement (board : SharedBoard) (e : Placed) (shown : List HelperEvent) (place : Nat) :
    SharedBoard :=
  let (e, actions) := { e with matrix := board.controller.elementMatrix }.showHelper shown
  { board with
    drawing := board.drawing ++ [e]
    copies := playShow (actions.foldl playSize board.copies) place e }

/-- `RemoveDrawingElementTriggered`, and the other board after its action. -/
def removeElement (board : SharedBoard) (e : Placed) : SharedBoard :=
  { board with
    drawing := board.drawing.erase e
    undos := board.undos ++ [e]
    copies := playHide board.copies e.uuid }

/-- An event of the helper of an element, and the other board after its actions. -/
def moveElement (board : SharedBoard) (e : Placed) (event : HelperEvent) : SharedBoard :=
  { board with
    drawing := board.drawing.map fun x => if x = e then (e.sendSizeAnimation event).1 else x
    copies := (e.sendSizeAnimation event).2.foldl playSize board.copies }

/-- The drawn element with a uuid. -/
def drawn (board : SharedBoard) (uuid : Bytes) : Option Placed :=
  board.drawing.find? fun e => e.uuid == uuid

/-- The boards after an event. -/
def next (board : SharedBoard) : BoardEvent → SharedBoard
  | .add e shown place => { board.addElement e shown place with undos := [] }
  | .delete uuid =>
    match board.drawn uuid with
    | some e => board.removeElement e
    | none => board
  | .undo =>
    match board.drawing.getLast? with
    | some e => board.removeElement e
    | none => board
  | .redo shown place =>
    match board.undos.getLast? with
    | some e => { board with undos := board.undos.dropLast }.addElement e shown place
    | none => board
  | .move uuid event =>
    match board.drawn uuid with
    | some e => board.moveElement e event
    | none => board
  | .controllerResized size => { board with controller := board.controller.onPageSizeChange size }
  | .peerResized size => { board with peer := board.peer.onPageSizeChange size }

/-- An added element has a uuid of its own, and it is images and texts that a helper moves. -/
def Enabled (board : SharedBoard) : BoardEvent → Prop
  | .add e _ _ => (∀ x ∈ board.drawing ++ board.undos, x.uuid ≠ e.uuid) ∧
      ∀ c ∈ board.copies, c.element.uuid ≠ e.uuid
  | .move uuid _ => ∀ e ∈ board.drawn uuid, e.shape.isMoved
  | _ => True

/-- Boards without elements, of any two participants. -/
def start (controller peer : Screen) : SharedBoard := ⟨controller, [], [], peer, []⟩

/-- The runs of two boards. -/
def sharing : System SharedBoard BoardEvent where
  init board := ∃ controller peer, board = start controller peer
  step board event board' := board.Enabled event ∧ board' = board.next event

end SharedBoard

end Liangshi
