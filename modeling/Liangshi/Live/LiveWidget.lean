import Liangshi.Board.AnimationAction
import Liangshi.Client.LokiClient

/-!
# Who controls the board

`LiveWidget` of `Client/src/hera`, as far as it decides who controls the board: the flag
`_controlingBoard`, the slots connected to the client's signals and to the title's buttons, and
the applications that are waiting on the teacher's screen for an answer.

A slot yields the new state and the commands it sends.  The board itself is left out: what is
drawn reaches the flag only through board data that switches the page, which takes control away.
-/

namespace Liangshi

open Wire MessagePack

/-! ## Board data -/

/-- `BoardData` of `LiveWidget`: the type of an action and its record. -/
structure BoardData where
  type : Int32
  data : LokiBuffer
deriving DecidableEq

namespace BoardData

/-- Packing and converting back board data; `FromLokiBuffer` leaves the type uninitialised. -/
def codec (u : Uninitialised) : Codec BoardData where
  toObj board := .array [Codec.int32.toObj board.type, LokiBuffer.codec.toObj board.data]
  convert o := do
    let objs ← Codec.items o
    let type ← Codec.int32.field objs 0 u.int
    let data ← LokiBuffer.codec.field objs 1 ⟨[]⟩
    return ⟨type, data⟩
  convert_toObj board := by simp

/-- `GetMsgPackData`. -/
def getMsgPackData (u : Uninitialised) (board : BoardData) : LokiBuffer :=
  .ofData ((codec u).toObj board).pack

/-- `FromLokiBuffer`; `none` when it throws. -/
def fromLokiBuffer (u : Uninitialised) (buffer : LokiBuffer) : Option BoardData :=
  (unpackOne buffer.data).bind (codec u).convert

end BoardData

/-! ## The widget -/

/-- The button the title shows since the first login. -/
inductive TitleButton where
  | apply
  | take
deriving DecidableEq

/-- `LiveWidget`: its client, `_controlingBoard`, the title's button and the ids of the students
whose applications wait for an answer. -/
structure LiveWidget where
  lokiClient : LokiClient
  controlingBoard : Bool
  button : Option TitleButton
  applications : List Bytes
deriving DecidableEq

namespace LiveWidget

/-- The constructor. -/
def new : LiveWidget := ⟨LokiClient.new, false, none, []⟩

/-- `SetEnableCurrentPage`, as far as control goes. -/
def setEnableCurrentPage (widget : LiveWidget) (enable : Bool) : LiveWidget :=
  { widget with controlingBoard := enable }

/-- `OnLiveCanApplyAndTake`: the first time, `LiveTitleWidget::SetEnabled` adds a button. -/
def onLiveCanApplyAndTake (widget : LiveWidget) (student : Bool) : LiveWidget :=
  match widget.button with
  | none => { widget with button := some (if student then .apply else .take) }
  | some _ => widget

/-- `AddActionTriggered` with an action as board data: nothing is sent without control. -/
def addActionTriggered (u : Uninitialised) (widget : LiveWidget) (board : BoardData) :
    List LokiCommand :=
  if !widget.controlingBoard then []
  else [widget.lokiClient.boardData (board.getMsgPackData u)]

/-- `SendSwitchPageAnimation`: the record of the current page. -/
def sendSwitchPageAnimation (u : Uninitialised) (widget : LiveWidget) (page : LokiBuffer) :
    List LokiCommand :=
  widget.addActionTriggered u ⟨AnimationType.networkSwitchPage.toInt, page⟩

/-- `OnBoardLoginTriggered`. -/
def onBoardLoginTriggered (u : Uninitialised) (widget : LiveWidget) (page : LokiBuffer)
    (login : BoardLoginCommand) : LiveWidget × List LokiCommand :=
  if login.result then
    if !login.peer then
      if login.allTeachers then
        ((widget.onLiveCanApplyAndTake false).setEnableCurrentPage false, [])
      else if login.isTeacher then
        ((widget.onLiveCanApplyAndTake false).setEnableCurrentPage true, [])
      else
        (widget.onLiveCanApplyAndTake true, [])
    else if widget.lokiClient.isTeacher && !widget.lokiClient.allTeachers then
      (widget, widget.sendSwitchPageAnimation u page)
    else
      (widget, [])
  else
    (widget.onLiveCanApplyAndTake true, [])

/-- `OnBoardDataTriggered`: only `PlayNetworkSwitchPageAction` changes who controls the board. -/
def onBoardDataTriggered (u : Uninitialised) (widget : LiveWidget) (data : LokiBuffer) :
    LiveWidget :=
  match BoardData.fromLokiBuffer u data with
  | some board =>
    if board.type = AnimationType.networkSwitchPage.toInt then widget.setEnableCurrentPage false
    else widget
  | none => widget

/-- `OnTeacherAgreeBoardTriggered`. -/
def onTeacherAgreeBoardTriggered (widget : LiveWidget) (another agree : Bool) : LiveWidget :=
  if another then
    if agree then (widget.onLiveCanApplyAndTake true).setEnableCurrentPage false else widget
  else if agree then
    (widget.onLiveCanApplyAndTake true).setEnableCurrentPage true
  else
    (widget.onLiveCanApplyAndTake true).setEnableCurrentPage false

/-- `OnTeacherTakeBoardTriggered`. -/
def onTeacherTakeBoardTriggered (widget : LiveWidget) : LiveWidget :=
  if widget.controlingBoard then
    if widget.lokiClient.allTeachers then
      (widget.setEnableCurrentPage false).onLiveCanApplyAndTake true
    else
      (widget.setEnableCurrentPage false).onLiveCanApplyAndTake widget.lokiClient.isTeacher
  else
    widget

/-- `OnStudentApplyBoardTriggered`, up to the message box it waits for. -/
def onStudentApplyBoardTriggered (widget : LiveWidget) (studentId : Bytes) : LiveWidget :=
  { widget with applications := widget.applications ++ [studentId] }

/-- `OnStudentApplyBoardTriggered`, when the message box at a position is answered. -/
def answerApplication (widget : LiveWidget) (position : Nat) (yes : Bool) :
    LiveWidget × List LokiCommand :=
  match widget.applications[position]? with
  | none => (widget, [])
  | some studentId =>
    let widget := { widget with applications := widget.applications.eraseIdx position }
    let answer := [widget.lokiClient.agreeBoard studentId yes]
    if yes then ((widget.onLiveCanApplyAndTake false).setEnableCurrentPage false, answer)
    else (widget, answer)

/-- `OnApplyBoardTriggered`. -/
def onApplyBoardTriggered (widget : LiveWidget) : List LokiCommand :=
  [widget.lokiClient.applyBoard]

/-- `OnTakeBoardTriggered`. -/
def onTakeBoardTriggered (widget : LiveWidget) : LiveWidget × List LokiCommand :=
  ((widget.onLiveCanApplyAndTake false).setEnableCurrentPage true, [widget.lokiClient.takeBoard])

/-- The slots by signal. -/
def onSignal (u : Uninitialised) (widget : LiveWidget) (page : LokiBuffer) :
    LokiSignal → LiveWidget × List LokiCommand
  | .onBoardLogin login => widget.onBoardLoginTriggered u page login
  | .onHadesData _ _ _ => (widget, [])
  | .onBoardData data => (widget.onBoardDataTriggered u data, [])
  | .onTeacherAgreeBoard another agree => (widget.onTeacherAgreeBoardTriggered another agree, [])
  | .onApplyBoard studentId _ => (widget.onStudentApplyBoardTriggered studentId, [])
  | .onTakeBoard => (widget.onTeacherTakeBoardTriggered, [])

/-- What a command from the server does to the widget; `page` is the record of its current
page. -/
def receive (u : Uninitialised) (widget : LiveWidget) (page : LokiBuffer) (c : LokiCommand) :
    LiveWidget × List LokiCommand :=
  let (client, signal) := widget.lokiClient.onCommandTriggered c
  let widget := { widget with lokiClient := client }
  match signal with
  | some signal => widget.onSignal u page signal
  | none => (widget, [])

end LiveWidget

end Liangshi
