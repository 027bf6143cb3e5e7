import Liangshi.Client.LokiClient
import Liangshi.Live.BoardRobustness
import Liangshi.Live.PageLock

/-!
# The pages of a live widget

`LiveWidget` with its pages: the slots of the buttons and of the client's signals, as far as they
change who controls the board, which page is shown and which pages there are.

A page is locked and unlocked when control changes, and only the page that is shown then.  The page
that is shown is kept twice, as a pointer and as an index.  `Standing` is the part of a widget that
both are about, and there is one lemma on it for each way to change the pages.
-/

namespace Liangshi

open Wire MessagePack Transition

namespace LiveBoard

/-! ## Slots -/

/-- The page that `NewFirstPage` makes. -/
def firstPage (env : Surroundings) : Page :=
  let page := (Page.new (env.newUuid [])).setMode.lineWidthChanged 2 false
  ((page.lineStyleChanged 1 false).lineColorChanged 0xffffffff false).setEnable false

/-- The constructor, with `NewFirstPage`. -/
def new (env : Surroundings) : LiveBoard :=
  ⟨[firstPage env], 0, 0, false, .identity, 2, 1, 0xffffffff⟩

/-- `SetEnableCurrentPage`. -/
def setEnableCurrentPage (board : LiveBoard) (enable : Bool) : LiveBoard :=
  { board.setCurrent (board.current.setEnable enable) with controlingBoard := enable }

/-- `SendSwitchPageAnimation`: the data of the page that is sent is made with nothing highlighted, and
only with control of the board. -/
def sendSwitchPageAnimation (board : LiveBoard) : LiveBoard :=
  if board.controlingBoard then board.setCurrent board.current.getMsgPackData.1 else board

/-- `OnNewPageTriggered`. -/
def onNewPageTriggered (env : Surroundings) (board : LiveBoard) : LiveBoard :=
  (board.appendPage (board.newPage env)).sendSwitchPageAnimation

/-- `OnNewPageWithBackgroundTriggered`, which does not send the page. -/
def onNewPageWithBackgroundTriggered (env : Surroundings) (image : ImageBuffer) (board : LiveBoard) :
    LiveBoard :=
  board.appendPage { board.newPage env with backgroundImage := image }

/-- The line attributes of the widget on a page that is selected. -/
def setAttributes (board : LiveBoard) (page : Page) : Page :=
  let page := page.setMode.lineWidthChanged board.cachedWidth false
  (page.lineStyleChanged board.cachedStyle false).lineColorChanged board.cachedColor false

/-- `OnSelectPageTriggered`: `none` where there is no such page. -/
def onSelectPageTriggered (board : LiveBoard) (page : Nat) : Option LiveBoard :=
  if h : page < board.allPages.length then
    let selected := board.setAttributes (board.allPages.get ⟨page, h⟩)
    some { board.showPage page selected h with currentPageIndex := page }.sendSwitchPageAnimation
  else
    none

/-- `OnPreviousPageTriggered`. -/
def onPreviousPageTriggered (board : LiveBoard) : Option LiveBoard :=
  if board.currentPageIndex = 0 then some board
  else board.onSelectPageTriggered (board.currentPageIndex - 1)

/-- `OnNextPageTriggered`; there is always a page. -/
def onNextPageTriggered (board : LiveBoard) : Option LiveBoard :=
  if board.allPages.length - 1 ≤ board.currentPageIndex then some board
  else board.onSelectPageTriggered (board.currentPageIndex + 1)

/-- `OnInsertPixmapBackgroundTriggered`. -/
def onInsertPixmapBackgroundTriggered (image : ImageBuffer) (board : LiveBoard) : LiveBoard :=
  if board.controlingBoard then
    (board.setCurrent { board.current with backgroundImage := image }).sendSwitchPageAnimation
  else
    board

/-- `OnPageSizeChange`, with the matrix it computes for the elements. -/
def onPageSizeChange (matrix : SMatrix) (board : LiveBoard) : LiveBoard :=
  { board with
    allPages := board.allPages.map fun page => { page with elementMatrix := matrix }
    currentPage := ⟨board.currentPage, by rw [List.length_map]; exact board.currentPage.isLt⟩
    elementMatrix := matrix }

/-- `OnBoardLoginTriggered`. -/
def onBoardLoginTriggered (client : LokiClient) (login : BoardLoginCommand) (board : LiveBoard) :
    LiveBoard :=
  if login.result then
    if !login.peer then
      if login.allTeachers then board.setEnableCurrentPage false
      else if login.isTeacher then board.setEnableCurrentPage true
      else board
    else if client.isTeacher && !client.allTeachers then board.sendSwitchPageAnimation
    else board
  else
    board

/-- `OnTeacherAgreeBoardTriggered`. -/
def onTeacherAgreeBoardTriggered (another agree : Bool) (board : LiveBoard) : LiveBoard :=
  if another then
    if agree then board.setEnableCurrentPage false else board
  else
    board.setEnableCurrentPage agree

/-- `OnTeacherTakeBoardTriggered`. -/
def onTeacherTakeBoardTriggered (board : LiveBoard) : LiveBoard :=
  if board.controlingBoard then board.setEnableCurrentPage false else board

/-- The slots by signal.  An application waits for an answer, and what Hades has to say is not about
the board. -/
def onSignal (env : Surroundings) (unzip : Bytes → Bytes) (client : LokiClient) (board : LiveBoard) :
    LokiSignal → Except LoadFault LiveBoard
  | .onBoardLogin login => .ok (board.onBoardLoginTriggered client login)
  | .onHadesData _ _ _ => .ok board
  | .onBoardData data => board.onBoardDataTriggered env unzip data
  | .onTeacherAgreeBoard another agree => .ok (board.onTeacherAgreeBoardTriggered another agree)
  | .onApplyBoard _ _ => .ok board
  | .onTakeBoard => .ok board.onTeacherTakeBoardTriggered

end LiveBoard

/-! ## Runs -/

/-- What happens to a widget: a command from the server, the end of the connection, the answer to a
student's application, the buttons, and an edit of the page that is shown by its user. -/
inductive LiveEvent where
  | command (env : Surroundings) (c : LokiCommand)
  | socketError
  | answerApplication (yes : Bool)
  | takeBoard
  | newPage (env : Surroundings)
  | newPageWithBackground (env : Surroundings) (image : ImageBuffer)
  | previousPage
  | nextPage
  | selectPage (page : Nat)
  | lineWidth (width : Int32)
  | lineStyle (style : Int32)
  | lineColor (color : SColor)
  | insertPixmapBackground (image : ImageBuffer)
  | pageSizeChange (matrix : SMatrix)
  | edit (e : PageEvent) (isEdit : e.IsEdit)

/-- `LiveWidget`: its client and its pages. -/
structure LivePages where
  lokiClient : LokiClient
  board : LiveBoard

namespace LivePages

/-- The constructor. -/
def new (env : Surroundings) : LivePages := ⟨.new, .new env⟩

/-- What a command from the server does. -/
def receive (env : Surroundings) (unzip : Bytes → Bytes) (s : LivePages) (c : LokiCommand) :
    Except LoadFault LivePages :=
  let (client, signal) := s.lokiClient.onCommandTriggered c
  match signal with
  | none => .ok ⟨client, s.board⟩
  | some signal => (s.board.onSignal env unzip client signal).map (⟨client, ·⟩)

/-- What an event does; `none` after a fault. -/
def next (unzip : Bytes → Bytes) (s : LivePages) : LiveEvent → Option LivePages
  | .command env c => (s.receive env unzip c).toOption
  | .socketError => some s
  | .answerApplication yes =>
    some (if yes then { s with board := s.board.setEnableCurrentPage false } else s)
  | .takeBoard => some { s with board := s.board.setEnableCurrentPage true }
  | .newPage env => some { s with board := s.board.onNewPageTriggered env }
  | .newPageWithBackground env image =>
    some { s with board := s.board.onNewPageWithBackgroundTriggered env image }
  | .previousPage => s.board.onPreviousPageTriggered.map ({ s with board := · })
  | .nextPage => s.board.onNextPageTriggered.map ({ s with board := · })
  | .selectPage page => (s.board.onSelectPageTriggered page).map ({ s with board := · })
  | .lineWidth width =>
    some { s with board := { s.board.setCurrent (s.board.current.lineWidthChanged width false) with
      cachedWidth := width } }
  | .lineStyle style =>
    some { s with board := { s.board.setCurrent (s.board.current.lineStyleChanged style false) with
      cachedStyle := style } }
  | .lineColor color =>
    some { s with board := { s.board.setCurrent (s.board.current.lineColorChanged color false) with
      cachedColor := color } }
  | .insertPixmapBackground image =>
    some { s with board := s.board.onInsertPixmapBackgroundTriggered image }
  | .pageSizeChange matrix => some { s with board := s.board.onPageSizeChange matrix }
  | .edit e _ => (s.board.current.next e).map fun page => { s with board := s.board.setCurrent page }

/-- The runs of a widget. -/
def sessions (env : Surroundings) (unzip : Bytes → Bytes) : System LivePages LiveEvent where
  init s := s = new env
  step s e t := s.next unzip e = some t

end LivePages

end Liangshi
