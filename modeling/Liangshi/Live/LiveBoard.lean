import Liangshi.Live.PageReplay
import Liangshi.Live.LiveWidget

/-!
# The board of a live widget

`LiveWidget` as far as its pages go: the pages with the one that is shown, the line attributes that
are kept for the pages, and what `OnBoardDataTriggered` does with the data of an action.  The data of
an element and of a page comes as an archive; unpacking it is a function of the surroundings, which
gives nothing for what is no archive.
-/

namespace Liangshi

open Wire MessagePack

/-- `LiveWidget`, as far as its pages go: `_currentPage` is a place in `_allPages`. -/
structure LiveBoard where
  allPages : List Page
  currentPage : Fin allPages.length
  currentPageIndex : Nat
  controlingBoard : Bool
  elementMatrix : SMatrix
  cachedWidth : Int32
  cachedStyle : Int32
  cachedColor : SColor

namespace LiveBoard

/-- The page that is shown. -/
def current (board : LiveBoard) : Page := board.allPages.get board.currentPage

/-- Put a page in the place of another one and show it. -/
def showPage (board : LiveBoard) (i : Nat) (page : Page) (hi : i < board.allPages.length) :
    LiveBoard :=
  { board with
    allPages := board.allPages.set i page
    currentPage := ⟨i, by rwa [List.length_set]⟩ }

/-- Change the page that is shown. -/
def setCurrent (board : LiveBoard) (page : Page) : LiveBoard :=
  board.showPage board.currentPage page board.currentPage.isLt

/-- The page that is made for a uuid that no page has. -/
def newPage (env : Surroundings) (board : LiveBoard) : Page :=
  let page := { Page.new (env.newUuid []) with elementMatrix := board.elementMatrix }
  let page := page.setMode.lineWidthChanged board.cachedWidth false
  (page.lineStyleChanged board.cachedStyle false).lineColorChanged board.cachedColor false

/-- Put a page behind the others and show it. -/
def appendPage (board : LiveBoard) (page : Page) : LiveBoard :=
  { board with
    allPages := board.allPages ++ [page]
    currentPage := ⟨board.allPages.length, by simp⟩
    currentPageIndex := board.allPages.length }

/-- The bytes that `c_str` shows a `QString`: those before the first zero. -/
def cStr (uuid : Bytes) : Bytes := uuid.takeWhile (· ≠ 0)

/-- Where the first page with a uuid is.  The uuids of pages are plain text, which is that of no other
C string. -/
def findPage (board : LiveBoard) (uuid : Bytes) : Option (Fin board.allPages.length) :=
  board.allPages.findFinIdx? fun page => page.uuid == cStr uuid

/-- `PlayNetworkSwitchPageAction`. -/
def playNetworkSwitchPageAction (env : Surroundings) (board : LiveBoard) (uuid : Bytes)
    (bytes : Bytes) : Except LoadFault LiveBoard :=
  let board := { board with controlingBoard := false }
  match board.findPage uuid with
  | some i =>
    ((board.allPages.get i).playNetworkSwitchPageAction env board.cachedWidth board.cachedColor
      bytes).map fun page => board.showPage i page i.isLt
  | none =>
    ((board.newPage env).setMsgPackData env bytes).map fun page =>
      board.appendPage (page.setEnable false)

/-- `PlayAction`. -/
def playAction (env : Surroundings) (unzip : Bytes → Bytes) (board : LiveBoard)
    (action : AnimationAction) : Except LoadFault LiveBoard :=
  let page := board.current
  let uuid := action.targetElementUuid
  match action.kind with
  | .networkShow elementType elementData =>
    (page.playNetworkShowAction env elementType (unzip elementData.data)).map board.setCurrent
  | .networkSwitchPage pageData =>
    board.playNetworkSwitchPageAction env action.targetScUuid (unzip pageData.data)
  | .size leftTop width height =>
    .ok (board.setCurrent (page.playSizeAction env.doubles uuid leftTop width height))
  | .hide => .ok (board.setCurrent (page.playHideAction uuid))
  | .lineWidth width => .ok (board.setCurrent (page.playLineWidthAction uuid width))
  | .lineStyle style => .ok (board.setCurrent (page.playLineStyleAction uuid style))
  | .lineColor color => .ok (board.setCurrent (page.playLineColorAction uuid color))
  | .topMost => .ok (board.setCurrent (page.playTopMostAction uuid))
  | .bottomMost => .ok (board.setCurrent (page.playBottomMostAction uuid))
  | .textChanged text fontSize =>
    .ok (board.setCurrent (page.playTextChangedAction uuid text fontSize))
  | .show | .switchPage => .ok board

/-- `OnBoardDataTriggered`: nothing is caught, and an action of an unknown type is a null pointer that
`PlayAction` dereferences. -/
def onBoardDataTriggered (env : Surroundings) (unzip : Bytes → Bytes) (board : LiveBoard)
    (data : LokiBuffer) : Except LoadFault LiveBoard :=
  match unpackOne data.data with
  | none => .error (.throws .unpackError)
  | some msg =>
    match (BoardData.codec env.uninitialised).convert msg with
    | none => .error (.throws .typeError)
    | some boardData =>
      match AnimationAction.createFromType env.uninitialised boardData.type boardData.data.data with
      | .error exception => .error (.throws exception)
      | .ok none => .error .nullDereference
      | .ok (some action) => board.playAction env unzip action

end LiveBoard

end Liangshi
