import Liangshi.Live.PageLock

/-!
# Drawing on a page with the mouse

The mouse events of `BanBaseWidget` and the operations they meet: the change of the drawing mode, and
the lock of the page by `LiveWidget`.

A press stores the mode's beginnings, a move adds to them and a release makes an element of what is
stored.  The release looks at the lock and at the mode of its own time, and not at whether something is
being drawn.  Turning points into a smooth curve is a function of the surroundings.
-/

namespace Liangshi

open Wire Ordered Transition

/-- `DrawMode`. -/
inductive DrawMode where
  | draw
  | line
  | rect
  | perfectRect
  | ellipse
  | perfectEllipse
  | select
deriving DecidableEq

/-! ## Points and elements -/

/-- `sgn`. -/
def sgn (val : Int32) : Int32 := if 0 < val then 1 else if val < 0 then -1 else 0

/-- `GetPerfectPoint`: the corner of the square that is as large as the longer side. -/
def getPerfectPoint (start stop : SPoint) : SPoint :=
  let xDiff := stop.x - start.x
  let yDiff := stop.y - start.y
  let length := if xDiff.abs < yDiff.abs then yDiff.abs else xDiff.abs
  ⟨start.x + sgn xDiff * length, start.y + sgn yDiff * length⟩

namespace ElementBody

/-- `UpdatePoints` of a new `DrawElement`. -/
def drawUpdatePoints (toVector : List SPoint → List SPoint) (points : List SPoint) :
    Option ElementBody :=
  if (toVector points).isEmpty then none else some (.draw (toVector points))

/-- `UpdatePoints` of a new `OrigialDrawElement`. -/
def originalDrawUpdatePoints (points : List SPoint) : Option ElementBody :=
  some (.originalDraw points)

/-- `UpdatePoints` of a new `LineElement`. -/
def lineUpdatePoints (start stop : SPoint) : Option ElementBody :=
  if start = stop then none else some (.line start stop)

/-- `UpdatePoints` of a new `RectElement`. -/
def rectUpdatePoints (start stop : SPoint) : Option ElementBody :=
  if start = stop then none else some (.rect start stop)

/-- `UpdatePoints` of a new `EllipseElement`. -/
def ellipseUpdatePoints (start stop : SPoint) : Option ElementBody :=
  if start = stop then none else some (.ellipse start stop)

end ElementBody

/-! ## The widget -/

/-- `BanBaseWidget` with what it keeps for the mouse. -/
structure MousePage where
  page : Page
  reviseDraw : Bool
  isDrawing : Bool
  mode : DrawMode
  clickPoint : SPoint
  movingPoints : List SPoint

/-- What the mouse and the title bar do: a press, a move, a release and a double click, each at a
position, and changes of the mode, of the kind of strokes and of the lock.  A position also tells what
is under it, and an event that may make an element has its address and its uuid. -/
inductive MouseEvent where
  | press (left : Bool) (pos : SPoint) (hit : Element → Bool)
  | move (control : Bool) (pos : SPoint) (hit : Element → Bool)
  | release (left : Bool) (pos : SPoint) (p : Pointer) (uuid : Bytes)
  | doubleClick (left control : Bool) (pos : SPoint) (p : Pointer) (uuid : Bytes)
  | setMode (mode : DrawMode)
  | reviseDraw (ok : Bool)
  | setEnable (enable : Bool)

namespace MousePage

/-- The constructor. -/
def new (uuid : Bytes) : MousePage := ⟨.new uuid, false, false, .draw, ⟨0, 0⟩, []⟩

/-- `SetMode`. -/
def setMode (s : MousePage) (mode : DrawMode) : MousePage :=
  if s.page.disableDraw then s else { s with mode, page := s.page.setMode }

/-- `mousePressEvent`. -/
def mousePressEvent (s : MousePage) (left : Bool) (pos : SPoint) (hit : Element → Bool) :
    MousePage :=
  if !left then s
  else
    let s := if s.mode = .select ∧ !s.page.disableDraw then
        { s with page := s.page.highlightElementAt hit }
      else s
    if s.page.disableDraw then s
    else if s.mode = .select then s
    else { s.setMode s.mode with isDrawing := true, clickPoint := pos, movingPoints := [pos] }

/-- `mouseMoveEvent`. -/
def mouseMoveEvent (s : MousePage) (control : Bool) (pos : SPoint) (hit : Element → Bool) :
    MousePage :=
  if s.isDrawing then
    if s.mode = .draw then { s with movingPoints := s.movingPoints ++ [pos], clickPoint := pos } else s
  else if control ∧ s.mode = .select ∧ !s.page.disableDraw then
    { s with page := s.page.highlightElementAt hit }
  else s

/-- The element that `mouseReleaseEvent` makes in the mode it finds. -/
def released (toVector : List SPoint → List SPoint) (s : MousePage) (pos : SPoint) :
    Option ElementBody :=
  match s.mode with
  | .draw =>
    if s.reviseDraw then ElementBody.drawUpdatePoints toVector s.movingPoints
    else ElementBody.originalDrawUpdatePoints s.movingPoints
  | .line => ElementBody.lineUpdatePoints s.clickPoint pos
  | .rect => ElementBody.rectUpdatePoints s.clickPoint pos
  | .perfectRect => ElementBody.rectUpdatePoints s.clickPoint (getPerfectPoint s.clickPoint pos)
  | .ellipse => ElementBody.ellipseUpdatePoints s.clickPoint pos
  | .perfectEllipse =>
    ElementBody.ellipseUpdatePoints s.clickPoint (getPerfectPoint s.clickPoint pos)
  | .select => none

/-- `mouseReleaseEvent`. -/
def mouseReleaseEvent (toVector : List SPoint → List SPoint) (s : MousePage) (left : Bool)
    (pos : SPoint) (p : Pointer) (uuid : Bytes) : MousePage :=
  if !left then s
  else
    let s := { s with isDrawing := false }
    if s.page.disableDraw then s
    else
      match s.released toVector pos with
      | some body => { s with page := s.page.addNew p (.new uuid body) true true }
      | none => s

/-- `mouseDoubleClickEvent` of a desktop. -/
def mouseDoubleClickEvent (s : MousePage) (left control : Bool) (pos : SPoint) (p : Pointer)
    (uuid : Bytes) : MousePage :=
  if !left then s
  else if s.mode ≠ .select then s
  else if !s.page.disableDraw then
    let body := if control then .htmlText pos 0 0 20 0 [] else .text pos 0 0 20 0 []
    { s with page := s.page.addNew p (.new uuid body) true true }
  else s

/-- What an event does. -/
def next (toVector : List SPoint → List SPoint) (s : MousePage) : MouseEvent → MousePage
  | .press left pos hit => s.mousePressEvent left pos hit
  | .move control pos hit => s.mouseMoveEvent control pos hit
  | .release left pos p uuid => s.mouseReleaseEvent toVector left pos p uuid
  | .doubleClick left control pos p uuid => s.mouseDoubleClickEvent left control pos p uuid
  | .setMode mode => s.setMode mode
  | .reviseDraw ok => { s with reviseDraw := ok }
  | .setEnable enable => { s with page := s.page.setEnable enable }

/-- An allocation yields an address that no element of the page has. -/
def Allocates (s : MousePage) : MouseEvent → Prop
  | .release _ _ p _ | .doubleClick _ _ _ p _ => p ∉ s.page.allElements
  | _ => True

instance (s : MousePage) (e : MouseEvent) : Decidable (s.Allocates e) :=
  match e with
  | .release _ _ p _ | .doubleClick _ _ _ p _ => inferInstanceAs (Decidable (p ∉ s.page.allElements))
  | .press _ _ _ | .move _ _ _ | .setMode _ | .reviseDraw _ | .setEnable _ =>
    inferInstanceAs (Decidable True)

end MousePage

end Liangshi
