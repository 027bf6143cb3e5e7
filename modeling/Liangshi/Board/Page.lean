import Liangshi.Board.Element
import Liangshi.Ordered.OrderedMap
import Liangshi.Ordered.OrderedSet

/-!
# Pages

`BanBaseWidget` of `Client/src/hera`: the elements of a page, the list of those it draws, the stack
of those undone, the highlighted element, and what the operations of the title bar, the mouse, the
slides and the network do to them.  A set of element pointers is ordered by address.

Highlighting an element shows its helper.  Hiding the helper of a text writes what was typed back to
the element, and an element left without text asks to be removed, unless its deletion is switched
off.

What a page emits and what it paints are left out, and so is what a helper does to the place and the
size of its element.
-/

namespace Liangshi

open Wire Ordered

/-- The address of an element. -/
abbrev Pointer := Nat

/-! ## Highlighting an element -/

/-- A width or height of `-1` keeps the old one. -/
def resized (old new : Int32) : Int32 := if new ≠ -1 then new else old

/-- `UpdateSize` of a `BanElement`, whose zooms follow its size. -/
def BanMembers.updateSize (d : DoubleArithmetic) (leftTop : SPoint)
    (width height : Int32) (b : BanMembers) : BanMembers :=
  let zoomWidth := resized b.zoomWidth width
  let zoomHeight := resized b.zoomHeight height
  { b with
    leftTop, zoomWidth, zoomHeight
    xZoom := d.quotient zoomWidth b.width
    yZoom := d.quotient zoomHeight b.height }

namespace ElementBody

/-- The text of a text element. -/
def text? : ElementBody → Option Bytes
  | text _ _ _ _ _ t | htmlText _ _ _ _ _ t => some t
  | _ => none

/-- `UpdateSize`. -/
def updateSize (d : DoubleArithmetic) (leftTop : SPoint) (width height : Int32) :
    ElementBody → ElementBody
  | text _ w h fontSize fontWeight t =>
    .text leftTop (resized w width) (resized h height) fontSize fontWeight t
  | htmlText _ w h fontSize fontWeight t =>
    .htmlText leftTop (resized w width) (resized h height) fontSize fontWeight t
  | image _ w h imageBuffer => .image leftTop (resized w width) (resized h height) imageBuffer
  | compressedImage _ w h imageBuffer =>
    .compressedImage leftTop (resized w width) (resized h height) imageBuffer
  | ban members => .ban (members.updateSize d leftTop width height)
  | banWithLabel members label => .banWithLabel (members.updateSize d leftTop width height) label
  | testBan members => .testBan (members.updateSize d leftTop width height)
  | testBanWithLabel members label =>
    .testBanWithLabel (members.updateSize d leftTop width height) label
  | banState _ w h uuid => .banState leftTop (resized w width) (resized h height) uuid
  | imageState _ w h uuid => .imageState leftTop (resized w width) (resized h height) uuid
  | body => body

/-- What `PlayTextChangedAction` sets. -/
def updateText (newText : Bytes) (newSize : Int32) : ElementBody → ElementBody
  | text leftTop width height _ fontWeight _ => .text leftTop width height newSize fontWeight newText
  | htmlText leftTop width height _ fontWeight _ =>
    .htmlText leftTop width height newSize fontWeight newText
  | body => body

/-- The text of a `TextElement` after its helper is hidden. -/
def typed (plainText : Bytes) : ElementBody → ElementBody
  | text leftTop width height fontSize fontWeight _ =>
    .text leftTop width height fontSize fontWeight plainText
  | body => body

end ElementBody

namespace Element

/-- `Highlight` with `high` set: the helper is made on the first occasion.  Only paths and states
have none. -/
def highlight (e : Element) : Element :=
  let e := { e with highlighting := true }
  if e.body.isText || e.body.isImage || e.body.isBan then
    let plainText := match e.helper with
      | some helper => helper.plainText
      | none => e.body.text?.getD []
    { e with helper := some ⟨true, plainText⟩ }
  else
    e

/-- `Highlight` with `high` unset, and whether hiding the helper asks for the element's removal. -/
def hide (e : Element) : Element × Bool :=
  let e := { e with highlighting := false }
  match e.helper with
  | some ⟨true, plainText⟩ =>
    let e := { e with helper := some ⟨false, plainText⟩, body := e.body.typed plainText }
    (e, e.canDelete && e.body.text? == some [])
  | _ => (e, false)

/-- `SetCanDelete`. -/
def setCanDelete (can : Bool) (e : Element) : Element := { e with canDelete := can }

/-- `SetCanPaint` and `SetCanPreview`, which are set together. -/
def setCanPaint (can : Bool) (e : Element) : Element := { e with canPaint := can, canPreview := can }

/-- `SetLineWidth`. -/
def setLineWidth (width : Int32) (e : Element) : Element :=
  if e.body.isBan then e else { e with lineWidth := width }

/-- `SetLineStyle`. -/
def setLineStyle (style : Int32) (e : Element) : Element :=
  if e.body.isBan then e else { e with lineStyle := style }

/-- `SetLineColor`: of the classes of `BanElement` only the labelled ones have a colour. -/
def setLineColor (color : SColor) (e : Element) : Element :=
  match e.body with
  | .ban _ | .testBan _ => e
  | _ => { e with lineColor := color }

/-- What is typed while the helper is shown: a `TextElement` keeps it in the helper, the editor of an
`HtmlTextElement` writes it to the element. -/
def typeText (newText : Bytes) (e : Element) : Element :=
  match e.body, e.helper with
  | .text .., some ⟨true, _⟩ => { e with helper := some ⟨true, newText⟩ }
  | .htmlText leftTop width height fontSize fontWeight _, some ⟨true, _⟩ =>
    { e with body := .htmlText leftTop width height fontSize fontWeight newText }
  | _, _ => e

end Element

/-! ## The widget -/

/-- `BanBaseWidget`, with the elements its pointers point to. -/
structure Page where
  uuid : Bytes
  zipCode : LokiBuffer
  backgroundImage : ImageBuffer
  heap : OrderedMap Pointer Element
  allElements : OrderedSet Pointer
  drawingElements : List Pointer
  undos : List Pointer
  highlightElement : Option Pointer
  redoing : Bool
  disableDraw : Bool
  lineWidth : Int32
  lineStyle : Int32
  lineColor : SColor
  elementMatrix : SMatrix
deriving DecidableEq

namespace Page

/-- The constructor, with the uuid that was made for the page. -/
def new (uuid : Bytes) : Page :=
  ⟨uuid, ⟨[]⟩, .null, .empty, .empty, [], [], none, false, false, 2, 1, 0xffffffff, .identity⟩

/-- The element at an address. -/
def element (page : Page) (p : Pointer) : Option Element := page.heap.find p

/-- Put an element at an address. -/
def setElement (page : Page) (p : Pointer) (e : Element) : Page :=
  { page with heap := page.heap.insert p e }

/-- Change the element at an address. -/
def modify (page : Page) (p : Pointer) (f : Element → Element) : Page :=
  match page.element p with
  | some e => page.setElement p (f e)
  | none => page

/-- Whether the element at an address has a uuid. -/
def hasUuid (page : Page) (uuid : Bytes) (p : Pointer) : Bool :=
  (page.element p).any fun e => e.objUuid == uuid

/-- `FindElementByUuid`. -/
def findElementByUuid (page : Page) (uuid : Bytes) : Option Pointer :=
  page.allElements.elems.find? (page.hasUuid uuid)

/-! ## Highlighting and removing -/

/-- What `RemoveDrawingElementTriggered` does when nothing is highlighted. -/
def takeOut (page : Page) (p : Pointer) : Page :=
  if p ∈ page.drawingElements then
    { page with drawingElements := page.drawingElements.erase p, undos := page.undos ++ [p] }
  else
    page

/-- `Highlight` with `high` unset on an element of the page, up to the removal it may ask for. -/
def hide (page : Page) (p : Pointer) : Page × Bool :=
  match page.element p with
  | some e => (page.setElement p e.hide.1, e.hide.2)
  | none => (page, false)

/-- `DeHighlightElement`.  The removal that hiding may ask for finds the element highlighted and
hidden: it takes it out of the drawing. -/
def deHighlightElement (page : Page) : Page :=
  match page.highlightElement with
  | none => page
  | some h =>
    let (page, delete) := page.hide h
    let page := { page with highlightElement := none }
    if delete then (page.modify h (·.setCanDelete false)).takeOut h else page

/-- `RemoveDrawingElementTriggered`. -/
def removeDrawingElementTriggered (page : Page) (p : Pointer) : Page :=
  page.deHighlightElement.takeOut p

/-- `Highlight` with `high` unset on an element of the page. -/
def unhighlight (page : Page) (p : Pointer) : Page :=
  let (page, delete) := page.hide p
  if delete then
    (page.modify p (·.setCanDelete false)).removeDrawingElementTriggered p
  else
    page

/-- One turn of the loop of `HighlightElement`: the first element that is painted under the position
is highlighted, the others are not. -/
def highlightNext (hit : Element → Bool) (s : Page × Bool) (p : Pointer) : Page × Bool :=
  if (s.1.element p).any (·.canPaint) then
    if (s.1.element p).any hit && !s.2 then
      ({ s.1.modify p Element.highlight with highlightElement := some p }, true)
    else
      (s.1.unhighlight p, s.2)
  else
    s

/-- `HighlightElement` at a position, given by the test `IsPointIn` makes of an element. -/
def highlightElementAt (page : Page) (hit : Element → Bool) : Page :=
  let page := { page.deHighlightElement with highlightElement := none }
  (page.drawingElements.reverse.foldl (highlightNext hit) (page, false)).1

/-- `SetMode`. -/
def setMode (page : Page) : Page :=
  if page.disableDraw then page else page.deHighlightElement

/-- `LiveWidget::SetEnableCurrentPage`, as far as the page goes. -/
def setEnable (page : Page) (enable : Bool) : Page :=
  { page with disableDraw := !enable }.deHighlightElement

/-- Text is typed in the helper of the highlighted element. -/
def typeText (page : Page) (text : Bytes) : Page :=
  match page.highlightElement with
  | some p => page.modify p (·.typeText text)
  | none => page

/-! ## Adding, undoing and redoing -/

/-- The line attributes of the page on an element that is added. -/
def addProperty (page : Page) (updateProperty : Bool) (e : Element) : Element :=
  let e := if !e.body.isBan && updateProperty then
      let e := if e.body.isText then e else e.setLineWidth page.lineWidth
      (e.setLineStyle page.lineStyle).setLineColor page.lineColor
    else e
  { e with matrix := page.elementMatrix }

/-- `AddElement`. -/
def addElement (page : Page) (p : Pointer) (updateProperty highlight addToDrawing : Bool) : Page :=
  let page := page.deHighlightElement
  let page := page.modify p (page.addProperty updateProperty)
  let page := if highlight then
      { page.modify p Element.highlight with highlightElement := some p }
    else page
  let page := { page with allElements := page.allElements.insert p }
  if addToDrawing then
    { page with
      drawingElements := page.drawingElements ++ [p]
      undos := if page.redoing then page.undos else []
      redoing := false }
  else
    page

/-- A new element is added: by the mouse, from the clipboard, from a file or from a slide. -/
def addNew (page : Page) (p : Pointer) (e : Element) (updateProperty highlight : Bool) : Page :=
  (page.setElement p e).addElement p updateProperty highlight true

/-- `OnUndoTriggered`. -/
def onUndoTriggered (page : Page) : Page :=
  if page.disableDraw then page
  else match page.drawingElements.getLast? with
    | some p => page.removeDrawingElementTriggered p
    | none => page

/-- `OnRedoTriggered`. -/
def onRedoTriggered (page : Page) : Page :=
  if page.disableDraw then page
  else match page.undos.getLast? with
    | some p =>
      { page with undos := page.undos.dropLast, redoing := true }.addElement p false true true
    | none => page

/-- `OnCopyTriggered`: `none` where the element is gone once its helper is hidden and the pointer to
it is null. -/
def onCopyTriggered (page : Page) : Option Page :=
  match page.highlightElement with
  | none => some page
  | some h =>
    let page := page.unhighlight h
    page.highlightElement.map fun h => page.modify h Element.highlight

/-- `OnTopMostElementTriggered`. -/
def onTopMostElementTriggered (page : Page) (p : Pointer) : Page :=
  if p ∈ page.drawingElements then
    { page with drawingElements := page.drawingElements.erase p ++ [p] }
  else
    page

/-- `OnBottomMostElementTriggered`. -/
def onBottomMostElementTriggered (page : Page) (p : Pointer) : Page :=
  if p ∈ page.drawingElements then
    { page with drawingElements := p :: page.drawingElements.erase p }
  else
    page

/-! ## Line attributes -/

/-- What the three changes of a line attribute have in common: the highlighted element, unless it is
a path, is changed with its deletion switched off, and then, with `all`, those of the drawing. -/
def lineChanged (page : Page) (change : Element → Element) (all : Bool) : Page :=
  let page := match page.highlightElement with
    | none => page
    | some h =>
      if (page.element h).any (·.body.isPath) then page
      else
        ((page.modify h fun e => change (e.setCanDelete false)).unhighlight h).modify h
          fun e => e.highlight.setCanDelete true
  if all then
    page.drawingElements.foldl (fun page p => page.modify p fun e =>
      if !e.body.isBan && e.canPaint then change e else e) page
  else
    page

/-- `LineWidthChanged`. -/
def lineWidthChanged (page : Page) (width : Int32) (all : Bool) : Page :=
  { page with lineWidth := width }.lineChanged (·.setLineWidth width) all

/-- `LineStyleChanged`. -/
def lineStyleChanged (page : Page) (style : Int32) (all : Bool) : Page :=
  { page with lineStyle := style }.lineChanged (·.setLineStyle style) all

/-- `LineColorChanged`. -/
def lineColorChanged (page : Page) (color : SColor) (all : Bool) : Page :=
  { page with lineColor := color }.lineChanged (·.setLineColor color) all

/-! ## Clearing, and showing and hiding by uuid -/

/-- `ClearAll`. -/
def clearAll (page : Page) : Page :=
  { page with
    heap := page.allElements.elems.foldl OrderedMap.erase page.heap
    highlightElement := none
    allElements := .empty
    drawingElements := []
    undos := [] }

/-- `AddToDrawing`. -/
def addToDrawing (page : Page) (uuid : Bytes) : Page :=
  if page.drawingElements.any (page.hasUuid uuid) then page
  else match page.findElementByUuid uuid with
    | some p => { page with drawingElements := page.drawingElements ++ [p] }
    | none => page

/-- `RemoveFromDrawing`. -/
def removeFromDrawing (page : Page) (uuid : Bytes) : Page :=
  { page with drawingElements := page.drawingElements.eraseP (page.hasUuid uuid) }

/-- `ChangeImageElementSize`: the first element with the uuid that is an `ImageElement`. -/
def changeImageElementSize (d : DoubleArithmetic) (page : Page) (uuid : Bytes) (leftTop : SPoint)
    (width height : Int32) : Page :=
  match page.allElements.elems.find? fun p =>
      page.hasUuid uuid p && (page.element p).any fun e => e.getType == .image with
  | some p => page.modify p fun e => { e with body := e.body.updateSize d leftTop width height }
  | none => page

end Page

end Liangshi
