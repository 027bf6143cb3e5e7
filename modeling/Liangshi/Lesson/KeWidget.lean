import Liangshi.Lesson.KeTime
import Liangshi.Lesson.PlayerWidget

/-!
# The recorder of a lesson

`KeWidget` of `Client/src/hera`: its pages with the one that is shown, the actions it has recorded and
the stopwatch that gives them their times.  The stopwatch follows the audio recorder, which is named
by the time it last reported or was told to begin at.

A session begins with a new widget, with `OnReRecordTriggered` of a player, or with a lesson that is
opened.  The last two clear the pages of a new widget and then add those of the player.  A page is
named by its place in `_allPages` and stands for its uuid, which the copy of a page keeps.
-/

namespace Liangshi

open Wire Ordered

/-- `KeWidget`. -/
structure KeWidget where
  keTime : KeTime
  hades : Option Int32
  allPages : List Bytes
  currentPage : Option Nat
  currentPageIndex : Nat
  actions : List AnimationAction

namespace KeWidget

/-! ## Actions and pages -/

/-- `AddActionTriggered`. -/
def addActionTriggered (now : Instant) (widget : KeWidget) (action : AnimationAction) : KeWidget :=
  { widget with
    actions := widget.actions ++ [{ action with time := widget.keTime.getAnimatedTime now }] }

/-- `SendSwitchPageAnimation`. -/
def sendSwitchPageAnimation (now : Instant) (widget : KeWidget) (uuid : Bytes) : KeWidget :=
  widget.addActionTriggered now ⟨uuid, [], 0, .switchPage, false⟩

/-- `AddPage`, which does not set the page that is shown. -/
def addPage (now : Instant) (widget : KeWidget) (uuid : Bytes) (hasAction : Bool) : KeWidget :=
  let widget := { widget with
    allPages := widget.allPages ++ [uuid]
    currentPageIndex := widget.allPages.length }
  if hasAction then widget.sendSwitchPageAnimation now uuid else widget

/-- `OnNewPageTriggered` and `OnNewPageWithBackgroundTriggered`. -/
def onNewPageTriggered (now : Instant) (widget : KeWidget) (uuid : Bytes) : KeWidget :=
  { widget with currentPage := some widget.allPages.length }.addPage now uuid true

/-- `OnSelectPageTriggered`: `none` where there is no such page. -/
def onSelectPageTriggered (now : Instant) (widget : KeWidget) (page : Nat) : Option KeWidget :=
  widget.allPages[page]?.map fun uuid =>
    { widget with currentPageIndex := page, currentPage := some page }.sendSwitchPageAnimation now
      uuid

/-- `OnPreviousPageTriggered`. -/
def onPreviousPageTriggered (now : Instant) (widget : KeWidget) : Option KeWidget :=
  if widget.currentPageIndex = 0 then some widget
  else widget.onSelectPageTriggered now (widget.currentPageIndex - 1)

/-- `OnNextPageTriggered`; the number of pages less one is unsigned. -/
def onNextPageTriggered (now : Instant) (widget : KeWidget) : Option KeWidget :=
  if widget.allPages ≠ [] ∧ widget.allPages.length - 1 ≤ widget.currentPageIndex then some widget
  else widget.onSelectPageTriggered now (widget.currentPageIndex + 1)

/-! ## The recorder -/

/-- The constructor, with what `_hadesTime` of its stopwatch happens to be. -/
def new (now : Instant) (hadesTime : Int32) (uuid : Bytes) : KeWidget :=
  onNewPageTriggered now ⟨(KeTime.new hadesTime).disableSeltTime, none, [], none, 0, []⟩ uuid

/-- `OnRecordTriggered`. -/
def onRecordTriggered (now : Instant) (widget : KeWidget) (hasMicrophone : Bool) : KeWidget :=
  let widget := { widget with hades := some (widget.hades.getD 0) }
  if hasMicrophone then widget else { widget with keTime := widget.keTime.pause now }

/-- `OnRecordTime`. -/
def onRecordTime (widget : KeWidget) (time : Int32) : KeWidget :=
  { widget with hades := some time, keTime := widget.keTime.onHadesTime time }

/-- `InitHadesFromExistingFile`. -/
def initHadesFromExistingFile (now : Instant) (widget : KeWidget) (time : Int32) : KeWidget :=
  if widget.hades.isNone then
    { widget with
      hades := some time
      keTime := (widget.keTime.setAnimatedTime now time).pause now }
  else
    widget

/-! ## Beginning from a lesson -/

/-- The pages of a new widget are cleared. -/
def clearPages (widget : KeWidget) : KeWidget :=
  { widget with allPages := [], currentPage := none }

/-- The pages of a player are added one after the other. -/
def addPlayerPages (now : Instant) (widget : KeWidget) (player : PlayerWidget) :
    Except PlayerFault KeWidget :=
  player.allPages.entries.foldlM (fun widget entry =>
    match entry.2 with
    | none => .error .nullPage
    | some page => .ok (widget.addPage now page.uuid false)) widget

/-- The uuid of the page that a player shows. -/
def shownUuid (player : PlayerWidget) : Except PlayerFault Bytes :=
  match player.currentPage.bind player.allPages.find with
  | some (some page) => .ok page.uuid
  | _ => .error .nullPage

/-- The loop at the end of `OnReRecordTriggered`: the last page with a uuid is shown. -/
def showPage (widget : KeWidget) (uuid : Bytes) : KeWidget :=
  match ((List.range widget.allPages.length).filter fun j =>
      decide (widget.allPages[j]? = some uuid)).getLast? with
  | some j => { widget with currentPage := some j }
  | none => widget

/-- `OnReRecordTriggered` of the title of a player at a time. -/
def onReRecordTriggered (env : PlayerSurroundings) (now : Instant) (hadesTime : Int32) (uuid : Bytes)
    (player : PlayerWidget) (time : Int32) : Except PlayerFault KeWidget := do
  let widget := ((new now hadesTime uuid).initHadesFromExistingFile now time).clearPages
  let player ← player.gotoTime env time
  let widget ← widget.addPlayerPages now player
  let widget := { widget with actions := player.actions.filter fun a => a.time ≤ time }
  let uuid ← shownUuid player
  return widget.showPage uuid

/-- `KeFile::LoadKeAsKeWidget` with the player that is loaded and the length of its audio. -/
def loadKeAsKeWidget (now : Instant) (hadesTime : Int32) (uuid : Bytes)
    (player : Option PlayerWidget) (duration : Int32) : Except PlayerFault KeWidget :=
  let widget := new now hadesTime uuid
  match player with
  | none => .ok widget
  | some player => do
    let widget ← (widget.clearPages.initHadesFromExistingFile now duration).addPlayerPages now player
    return { widget with actions := player.actions }

end KeWidget

/-! ## Sessions -/

/-- What happens to a widget: the calls of the stopwatch, the recorder and the recorder's reports, the
operations on pages, and the actions of the pages. -/
inductive KeEvent where
  | start
  | pause
  | reset
  | record (hasMicrophone : Bool)
  | recordTime (time : Int32)
  | newPage (uuid : Bytes)
  | previousPage
  | nextPage
  | selectPage (page : Nat)
  | action (action : AnimationAction)

namespace KeWidget

/-- What an event does at an instant; `none` where it would read a page that is not there. -/
def next (now : Instant) (widget : KeWidget) : KeEvent → Option KeWidget
  | .start => some { widget with keTime := widget.keTime.start now }
  | .pause => some { widget with keTime := widget.keTime.pause now }
  | .reset => some { widget with keTime := widget.keTime.reset }
  | .record hasMicrophone => some (widget.onRecordTriggered now hasMicrophone)
  | .recordTime time => some (widget.onRecordTime time)
  | .newPage uuid => some (widget.onNewPageTriggered now uuid)
  | .previousPage => widget.onPreviousPageTriggered now
  | .nextPage => widget.onNextPageTriggered now
  | .selectPage page => widget.onSelectPageTriggered now page
  | .action action => some (widget.addActionTriggered now action)

/-- A recorder reports times that do not go back, and none before it has begun. -/
def Reports (widget : KeWidget) : KeEvent → Prop
  | .recordTime time => ∃ last, widget.hades = some last ∧ last ≤ time
  | _ => True

end KeWidget

/-- How a recording begins: with a new widget, or with a player that records again from a time on. -/
inductive KeStart where
  | fresh
  | reRecord (player : PlayerWidget) (time : Int32)

/-- The widget with which a recording begins. -/
def KeStart.widget (env : PlayerSurroundings) (now : Instant) (hadesTime : Int32) (uuid : Bytes) :
    KeStart → Except PlayerFault KeWidget
  | .fresh => .ok (.new now hadesTime uuid)
  | .reRecord player time => KeWidget.onReRecordTriggered env now hadesTime uuid player time

end Liangshi
