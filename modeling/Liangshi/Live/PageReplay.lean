import Liangshi.Board.PageData

/-!
# Replaying actions on a page

What `LiveWidget` does to its current page for an action from the network.  An element that comes
with an action is created from its record and drawn last; every other action finds its element by
uuid, among all elements of the page or, where the order of the drawing changes, in the drawing.
-/

namespace Liangshi

open Wire MessagePack Ordered

namespace Page

/-- `PlayNetworkShowAction` with the element it creates. -/
def playShow (page : Page) (p : Pointer) (e : Element) : Page :=
  page.append p (e.setCanDelete false)

/-- `PlayNetworkShowAction` with the type and the record of the element. -/
def playNetworkShowAction (env : Surroundings) (page : Page) (type : Int32) (bytes : Bytes) :
    Except LoadFault Page :=
  match Element.createFromType env bytes.length [] type bytes with
  | .error fault => .error fault
  | .ok none => .ok page
  | .ok (some e) => .ok (page.playShow (env.address []) e)

/-- `PlayHideAction`. -/
def playHideAction (page : Page) (uuid : Bytes) : Page :=
  match page.findElementByUuid uuid with
  | some p => { page with drawingElements := page.drawingElements.filter (· ≠ p) }
  | none => page

/-- What the actions that change an element have in common. -/
def playChange (page : Page) (uuid : Bytes) (change : Element → Element) : Page :=
  match page.findElementByUuid uuid with
  | some p => page.modify p change
  | none => page

/-- `PlaySizeAction`. -/
def playSizeAction (d : DoubleArithmetic) (page : Page) (uuid : Bytes) (leftTop : SPoint)
    (width height : Int32) : Page :=
  page.playChange uuid fun e => { e with body := e.body.updateSize d leftTop width height }

/-- `PlayLineWidthAction`. -/
def playLineWidthAction (page : Page) (uuid : Bytes) (width : Int32) : Page :=
  page.playChange uuid (·.setLineWidth width)

/-- `PlayLineStyleAction`. -/
def playLineStyleAction (page : Page) (uuid : Bytes) (style : Int32) : Page :=
  page.playChange uuid (·.setLineStyle style)

/-- `PlayLineColorAction`: the colour comes as a number, and the alpha of such a one is ignored. -/
def playLineColorAction (page : Page) (uuid : Bytes) (color : SColor) : Page :=
  page.playChange uuid (·.setLineColor color.ofRgb)

/-- `PlayTextChangedAction`. -/
def playTextChangedAction (page : Page) (uuid : Bytes) (text : Bytes) (fontSize : Int32) : Page :=
  page.playChange uuid fun e => { e with body := e.body.updateText text fontSize }

/-- `PlayTopMostAction`. -/
def playTopMostAction (page : Page) (uuid : Bytes) : Page :=
  match page.drawingElements.find? (page.hasUuid uuid) with
  | some p => page.onTopMostElementTriggered p
  | none => page

/-- `PlayBottomMostAction`. -/
def playBottomMostAction (page : Page) (uuid : Bytes) : Page :=
  match page.drawingElements.find? (page.hasUuid uuid) with
  | some p => page.onBottomMostElementTriggered p
  | none => page

/-- `PlayNetworkSwitchPageAction` on the page it finds, with the line attributes of the widget and
the data of the page. -/
def playNetworkSwitchPageAction (env : Surroundings) (page : Page) (cachedWidth : Int32)
    (cachedColor : SColor) (bytes : Bytes) : Except LoadFault Page :=
  let page := page.setMode.lineWidthChanged cachedWidth false
  ((page.lineColorChanged cachedColor false).setMsgPackData env bytes).map (·.setEnable false)

end Page

end Liangshi
