import Liangshi.Board.Page

/-!
# Init states of elements

An element remembers the state it had when it was made or added to a page, so that a recorded lesson
can start from it: `SaveInitState` copies the attributes of the class's `State`, `ToInitState` puts
them back and keeps the present ones in a second state, from which `ToCurrentState` puts those back.
A path keeps its pen, a text its colour, place, font size and text, an image and a `BanElement` their
place, size and matrix, and the two classes of state elements keep nothing.

A page is saved for a lesson with all its elements in their init states.  A state element is drawn
and tested for a hit by its source element, which is put in the state of the state element for that
long.
-/

namespace Liangshi

open Wire Ordered

/-- What Qt and the machine work out for an element: besides quotients and products, whether two
zooms are more than a hundredth apart, the bytes of a text that has been a `QString`, and the size of
a text laid out as html. -/
structure ElementToolkit extends DoubleArithmetic where
  apart : UInt64 → UInt64 → Bool
  recode : Bytes → Bytes
  textSize : Bytes → Int32 → Int32 × Int32

/-- `State` of an element's class. -/
inductive ElementState where
  | path (color : SColor) (width style : Int32)
  | text (color : SColor) (leftTop : SPoint) (size : Int32) (text : Bytes)
  | placed (leftTop : SPoint) (width height : Int32) (matrix : SMatrix)
  | none
deriving DecidableEq

namespace ElementBody

/-- Whether the class is the state of the other element's class. -/
def isStateOf : ElementBody → ElementBody → Bool
  | banState .., source => source.isBan
  | imageState .., source => source.isImage
  | _, _ => false

/-- The width and the height that `UpdateSize` changes. -/
def size : ElementBody → Int32 × Int32
  | text _ w h _ _ _ | htmlText _ w h _ _ _ => (w, h)
  | image _ w h _ | compressedImage _ w h _ => (w, h)
  | ban b | banWithLabel b _ | testBan b | testBanWithLabel b _ => (b.zoomWidth, b.zoomHeight)
  | banState _ w h _ | imageState _ w h _ => (w, h)
  | _ => (0, 0)

/-- The font size and the text of a state on a text; an `HtmlTextElement` is laid out again, which
gives it its size. -/
def setText (k : ElementToolkit) (newSize : Int32) (newText : Bytes) : ElementBody → ElementBody
  | text leftTop width height _ fontWeight _ =>
    .text leftTop width height newSize fontWeight newText
  | htmlText leftTop _ _ _ fontWeight _ =>
    let size := k.textSize newText newSize
    .htmlText leftTop size.1 size.2 newSize fontWeight newText
  | body => body

end ElementBody

namespace Element

/-- What `SaveInitState` copies. -/
def state (k : ElementToolkit) (e : Element) : ElementState :=
  match e.body with
  | .draw _ | .line _ _ | .rect _ _ | .ellipse _ _ | .originalDraw _ =>
    .path e.lineColor e.lineWidth e.lineStyle
  | .text leftTop _ _ fontSize _ text => .text e.lineColor leftTop fontSize text
  | .htmlText leftTop _ _ fontSize _ text => .text e.lineColor leftTop fontSize (k.recode text)
  | .image leftTop width height _ | .compressedImage leftTop width height _ =>
    .placed leftTop width height e.matrix
  | .ban b | .banWithLabel b _ | .testBan b | .testBanWithLabel b _ =>
    .placed b.leftTop b.zoomWidth b.zoomHeight e.matrix
  | .banState .. | .imageState .. => .none

/-- `SetState`, and what the classes without one do with a state. -/
def setState (k : ElementToolkit) (e : Element) : ElementState → Element
  | .path color width style => ((e.setLineColor color).setLineWidth width).setLineStyle style
  | .text color leftTop size text =>
    let e := e.setLineColor color
    { e with
      body := (e.body.updateSize k.toDoubleArithmetic leftTop (-1) (-1)).setText k size text }
  | .placed leftTop width height matrix =>
    { e with body := e.body.updateSize k.toDoubleArithmetic leftTop width height, matrix }
  | .none => e

/-- The state that a state element puts its source in. -/
def ownState (e : Element) : Option ElementState :=
  match e.body with
  | .banState leftTop width height _ | .imageState leftTop width height _ =>
    some (.placed leftTop width height e.matrix)
  | _ => Option.none

end Element

/-! ## Changes of an element -/

/-- A change of the size, the line attributes or the text of an element. -/
inductive AttributeChange where
  /-- `UpdateSize`. -/
  | updateSize (leftTop : SPoint) (width height : Int32)
  /-- `SendSizeAnimation` of the helper, which has been moved or resized. -/
  | resizeHelper (leftTop : SPoint) (width height : Int32)
  /-- `hideEvent` of a `BanElementHelper`, with the size of its label. -/
  | hideHelper (width height : Int32)
  /-- `SetLineWidth`. -/
  | lineWidth (width : Int32)
  /-- `SetLineStyle`. -/
  | lineStyle (style : Int32)
  /-- `SetLineColor`. -/
  | lineColor (color : SColor)
  /-- `PlayTextChangedAction`. -/
  | playText (text : Bytes) (fontSize : Int32)
  /-- What `TextElementHelper` writes back when it is hidden. -/
  | typed (plainText : Bytes)
  /-- `wheelEvent` of the helper of a text, with the font size it comes to. -/
  | wheel (fontSize : Int32)
  /-- `UpdateText` of an `HtmlTextElement`. -/
  | updateText (text : Bytes)

namespace BanMembers

/-- What `SendSizeAnimation` of the helper sets: the zooms stay. -/
def resizeHelper (leftTop : SPoint) (zoomWidth zoomHeight : Int32) (b : BanMembers) : BanMembers :=
  { b with leftTop, zoomWidth, zoomHeight }

/-- `hideEvent` of the helper: the zooms follow its label unless they are close. -/
def hideHelper (k : ElementToolkit) (width height : Int32) (b : BanMembers) : BanMembers :=
  let xZoom := k.quotient width b.width
  let yZoom := k.quotient height b.height
  let far := k.apart b.xZoom xZoom || k.apart b.yZoom yZoom
  { b with xZoom := if far then xZoom else b.xZoom, yZoom := if far then yZoom else b.yZoom }

end BanMembers

namespace ElementBody

/-- What `SendSizeAnimation` of the helper does to the place and the size. -/
def resizeHelper (k : ElementToolkit) (leftTop : SPoint) (width height : Int32) :
    ElementBody → ElementBody
  | text _ _ _ fontSize fontWeight t => .text leftTop width height fontSize fontWeight t
  | htmlText _ _ _ fontSize fontWeight t => .htmlText leftTop width height fontSize fontWeight t
  | ban b => .ban (b.resizeHelper leftTop width height)
  | banWithLabel b label => .banWithLabel (b.resizeHelper leftTop width height) label
  | testBan b => .testBan (b.resizeHelper leftTop width height)
  | testBanWithLabel b label => .testBanWithLabel (b.resizeHelper leftTop width height) label
  | body => if body.isImage then body.updateSize k.toDoubleArithmetic leftTop width height else body

/-- `hideEvent` of a `BanElementHelper`. -/
def hideHelper (k : ElementToolkit) (width height : Int32) : ElementBody → ElementBody
  | ban b => .ban (b.hideHelper k width height)
  | banWithLabel b label => .banWithLabel (b.hideHelper k width height) label
  | testBan b => .testBan (b.hideHelper k width height)
  | testBanWithLabel b label => .testBanWithLabel (b.hideHelper k width height) label
  | body => body

/-- The font size of a text alone. -/
def updateFontSize (newSize : Int32) : ElementBody → ElementBody
  | text leftTop width height _ fontWeight t => .text leftTop width height newSize fontWeight t
  | htmlText leftTop width height _ fontWeight t =>
    .htmlText leftTop width height newSize fontWeight t
  | body => body

/-- `UpdateText` of an `HtmlTextElement`. -/
def updateHtml (k : ElementToolkit) (newText : Bytes) : ElementBody → ElementBody
  | htmlText leftTop _ _ fontSize fontWeight _ =>
    let size := k.textSize newText fontSize
    .htmlText leftTop size.1 size.2 fontSize fontWeight newText
  | body => body

end ElementBody

namespace Element

/-- What a change does.  The helpers of texts and of images clear the matrix when they are moved. -/
def change (k : ElementToolkit) (e : Element) : AttributeChange → Element
  | .updateSize leftTop width height =>
    { e with body := e.body.updateSize k.toDoubleArithmetic leftTop width height }
  | .resizeHelper leftTop width height =>
    { e with
      body := e.body.resizeHelper k leftTop width height
      matrix := if e.body.isText || e.body.isImage then .identity else e.matrix }
  | .hideHelper width height => { e with body := e.body.hideHelper k width height }
  | .lineWidth width => e.setLineWidth width
  | .lineStyle style => e.setLineStyle style
  | .lineColor color => e.setLineColor color
  | .playText text fontSize => { e with body := e.body.updateText text fontSize }
  | .typed plainText => { e with body := e.body.typed plainText }
  | .wheel fontSize => { e with body := e.body.updateFontSize fontSize }
  | .updateText text => { e with body := e.body.updateHtml k text }

end Element

/-! ## Elements with their states -/

/-- An element with `_initState` and `_currentState`, and, of a state element, the pointer to its
source. -/
structure StatedElement where
  element : Element
  initState : ElementState
  currentState : ElementState
  source : Option Pointer

namespace StatedElement

/-- `ToInitState`. -/
def toInitState (k : ElementToolkit) (s : StatedElement) : StatedElement :=
  { s with element := s.element.setState k s.initState, currentState := s.element.state k }

/-- `ToCurrentState`. -/
def toCurrentState (k : ElementToolkit) (s : StatedElement) : StatedElement :=
  { s with element := s.element.setState k s.currentState }

/-- What a state element does to its source: `GetState`, `SetState` to its own state, and, when the
source has been used, `SetState` back. -/
def lend (k : ElementToolkit) (own : ElementState) (s : StatedElement) : StatedElement :=
  let s := (s.toInitState k).toCurrentState k
  let oldState := s.currentState
  { s with element := (s.element.setState k own).setState k oldState }

end StatedElement

/-- The elements of a page with their states, and the list of those it draws. -/
structure Canvas where
  elements : OrderedMap Pointer StatedElement
  drawingElements : List Pointer

namespace Canvas

/-- The element at an address. -/
def element (c : Canvas) (p : Pointer) : Option Element :=
  (c.elements.find p).map (·.element)

/-- `ToInitState` of all elements. -/
def toInitState (k : ElementToolkit) (c : Canvas) : Canvas :=
  { c with elements := c.elements.mapValues (·.toInitState k) }

/-- `ToCurrentState` of all elements. -/
def toCurrentState (k : ElementToolkit) (c : Canvas) : Canvas :=
  { c with elements := c.elements.mapValues (·.toCurrentState k) }

/-- `ResetElementToInit`. -/
def resetElementToInit (k : ElementToolkit) (c : Canvas) : Canvas :=
  { c.toInitState k with drawingElements := [] }

/-- The source of a state element: the element its pointer points to, of the class it is cast to. -/
def sourceOf (c : Canvas) (s : StatedElement) : Option (Pointer × StatedElement) := do
  let q ← s.source
  let t ← c.elements.find q
  if s.element.body.isStateOf t.element.body then some (q, t) else none

/-- What drawing or hitting an element does to the elements: `none` where a state element has no
source. -/
def visit (k : ElementToolkit) (c : Canvas) (p : Pointer) : Option Canvas :=
  match c.elements.find p with
  | none => some c
  | some s =>
    match s.element.ownState with
    | none => some c
    | some own =>
      if s.element.canPaint then
        (c.sourceOf s).map fun (q, t) => { c with elements := c.elements.insert q (t.lend k own) }
      else
        some c

/-- `DrawOnQtPainter` of the page, as far as its elements go: a state element without a source draws
nothing. -/
def drawOnQtPainter (k : ElementToolkit) (c : Canvas) : Canvas :=
  c.drawingElements.foldl (fun c p => (c.visit k p).getD c) c

/-- The calls of `IsPointIn` by `HighlightElement`: `none` where a state element follows a null
pointer. -/
def hitTest (k : ElementToolkit) (c : Canvas) : Option Canvas :=
  c.drawingElements.reverse.foldlM (·.visit k) c

end Canvas

end Liangshi
