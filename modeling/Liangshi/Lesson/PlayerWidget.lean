import Liangshi.Board.PageData
import Liangshi.Lesson.ActionTrack
import Liangshi.Live.PageReplay

/-!
# The player of a lesson

`PlayerWidget` and `PlayerPage` of `Client/src/hera`, and how `KeFile` loads them.  A player keeps its
pages in a map by uuid.  Looking a page up with `operator[]` puts a null page into the map where there
is none, and going back to the beginning resets every page of the map.

The stopwatch is a module of its own; here a call is given the time that it reads.  Loading the
document of a page, going back to the initial states of a page's elements and the media are parts of
the surroundings.
-/

namespace Liangshi

open Wire MessagePack Ordered

/-- What ends loading or playing a lesson without a result. -/
inductive PlayerFault where
  | nullPlayer
  | nullPage
  | load (fault : LoadFault)
deriving DecidableEq

/-- What a lesson is loaded with: the load of a page's document, which may be none of a page, and
`ResetElementToInit`. -/
structure PlayerSurroundings where
  uninitialised : Uninitialised
  doubles : DoubleArithmetic
  loadAsScDocument : Bytes → Except LoadFault (Option Page)
  resetElementToInit : Page → Page

/-- `PlayerWidget`: a page of `_allPages` may be null, and `_currentPage` is named by its key. -/
structure PlayerWidget where
  pageWidth : Int32
  pageHeight : Int32
  totalTime : Int32
  allPages : OrderedMap Bytes (Option Page)
  actions : List AnimationAction
  currentPage : Option Bytes

namespace Page

/-- `PlayShowAction` of `PlayerPage`, which does not look whether the element is drawn. -/
def playShowAction (page : Page) (uuid : Bytes) : Page :=
  match page.findElementByUuid uuid with
  | some p => { page with drawingElements := page.drawingElements ++ [p] }
  | none => page

/-- `PlayerPage::PlayAction`. -/
def playAction (d : DoubleArithmetic) (page : Page) (action : AnimationAction) : Page :=
  let uuid := action.targetElementUuid
  match action.kind with
  | .show => page.playShowAction uuid
  | .size leftTop width height => page.playSizeAction d uuid leftTop width height
  | .hide => page.playHideAction uuid
  | .lineWidth width => page.playLineWidthAction uuid width
  | .lineStyle style => page.playLineStyleAction uuid style
  | .lineColor color => page.playLineColorAction uuid color
  | .topMost => page.playTopMostAction uuid
  | .bottomMost => page.playBottomMostAction uuid
  | .textChanged text fontSize => page.playTextChangedAction uuid text fontSize
  | .switchPage | .networkShow _ _ | .networkSwitchPage _ => page

/-- An action changes the elements of a page and what is drawn of them, and nothing else. -/
lemma playAction_eq (d : DoubleArithmetic) (page : Page) (a : AnimationAction) :
    ∃ heap drawingElements, page.playAction d a = { page with heap, drawingElements } := by
  have hchange : ∀ uuid change, ∃ heap drawingElements,
      page.playChange uuid change = { page with heap, drawingElements } := by
    intro uuid change
    unfold playChange modify
    split
    · split <;> exact ⟨_, _, rfl⟩
    · exact ⟨_, _, rfl⟩
  unfold playAction
  cases a.kind with
  | «show» =>
    dsimp only
    unfold playShowAction
    split <;> exact ⟨_, _, rfl⟩
  | hide =>
    dsimp only
    unfold playHideAction
    split <;> exact ⟨_, _, rfl⟩
  | topMost =>
    dsimp only
    unfold playTopMostAction onTopMostElementTriggered
    split
    · split_ifs <;> exact ⟨_, _, rfl⟩
    · exact ⟨_, _, rfl⟩
  | bottomMost =>
    dsimp only
    unfold playBottomMostAction onBottomMostElementTriggered
    split
    · split_ifs <;> exact ⟨_, _, rfl⟩
    · exact ⟨_, _, rfl⟩
  | switchPage => exact ⟨_, _, rfl⟩
  | networkShow type data => exact ⟨_, _, rfl⟩
  | networkSwitchPage data => exact ⟨_, _, rfl⟩
  | _ => exact hchange _ _

end Page

namespace AnimationAction

/-- The action switches the page. -/
def isSwitch (a : AnimationAction) : Bool := a.getType == .switchPage

/-- `SetPlayed`. -/
def setPlayed (played : Bool) (a : AnimationAction) : AnimationAction := { a with played }

end AnimationAction

/-- The actions that a search for those before a time comes to, before it leaves the loop. -/
def actionsBefore (time : Int32) (actions : List AnimationAction) : List AnimationAction :=
  actions.takeWhile fun a => decide (a.time < time)

/-- The place of the last page switch before a time. -/
def latestSwitch (time : Int32) (actions : List AnimationAction) : Option Nat :=
  ((List.range (actionsBefore time actions).length).filter fun i =>
    actions[i]?.any (·.isSwitch)).getLast?

namespace PlayerWidget

/-! ## Searching for actions -/

/-- The second loop of `GetLatestSwitchBoardActions` takes an action. -/
def belongsTo (uuid : Bytes) (a : AnimationAction) : Bool :=
  !a.played && (!a.isSwitch && a.targetScUuid == uuid)

/-- Actions before a time that pass a test are taken and have then been played. -/
def takeActions (time : Int32) (test : AnimationAction → Bool) (actions : List AnimationAction) :
    List AnimationAction × List AnimationAction :=
  let before := actionsBefore time actions
  (before.filter test,
    before.map (fun a => if test a then a.setPlayed true else a) ++ actions.drop before.length)

/-- `GetLatestSwitchBoardActions`: what is to be played, and the actions afterwards. -/
def getLatestSwitchBoardActions (time : Int32) (actions : List AnimationAction) :
    List AnimationAction × List AnimationAction :=
  match latestSwitch time actions with
  | none => ([], actions)
  | some i =>
    match actions[i]? with
    | none => ([], actions)
    | some switch =>
      let (taken, actions) :=
        takeActions time (belongsTo switch.targetScUuid) (actions.modify i (·.setPlayed true))
      (if switch.played then taken else switch :: taken, actions)

/-- `GetUnAnimatedActions`: what is to be played, and the actions afterwards. -/
def getUnAnimatedActions (time : Int32) (actions : List AnimationAction) :
    List AnimationAction × List AnimationAction :=
  takeActions time (fun a => !a.played) actions

/-! ## Playing -/

/-- `ResetPages`. -/
def resetPages (env : PlayerSurroundings) (player : PlayerWidget) :
    Except PlayerFault PlayerWidget :=
  if player.allPages.entries.any fun entry => entry.2.isNone then .error .nullPage
  else .ok { player with
    allPages := player.allPages.mapValues fun page => page.map env.resetElementToInit
    actions := player.actions.map (·.setPlayed false) }

/-- `_allPages[uuid]`. -/
def pageAt (player : PlayerWidget) (uuid : Bytes) : PlayerWidget × Option Page :=
  match player.allPages.find uuid with
  | some page => (player, page)
  | none => ({ player with allPages := player.allPages.insert uuid none }, none)

/-- `PlaySwitchPageAction`; `addWidget` of the layout follows the pointer it is given. -/
def playSwitchPageAction (player : PlayerWidget) (uuid : Bytes) : Except PlayerFault PlayerWidget :=
  match player.pageAt uuid with
  | (player, some _) => .ok { player with currentPage := some uuid }
  | (_, none) => .error .nullPage

/-- One turn of the loop of `PlayActions`. -/
def playAction (env : PlayerSurroundings) (player : PlayerWidget) (action : AnimationAction) :
    Except PlayerFault PlayerWidget :=
  if action.isSwitch then player.playSwitchPageAction action.targetScUuid
  else
    match player.pageAt action.targetScUuid with
    | (player, some page) =>
      .ok { player with
        allPages := player.allPages.insert action.targetScUuid
          (some (page.playAction env.doubles action)) }
    | (player, none) => .ok player

/-- `PlayActions`. -/
def playActions (env : PlayerSurroundings) (player : PlayerWidget)
    (actions : List AnimationAction) : Except PlayerFault PlayerWidget :=
  actions.foldlM (playAction env) player

/-- `_currentPage->update()`. -/
def updateCurrentPage (player : PlayerWidget) : Except PlayerFault PlayerWidget :=
  if player.currentPage.isNone then .error .nullPage else .ok player

/-- `AnimatedTriggered`. -/
def animatedTriggered (env : PlayerSurroundings) (player : PlayerWidget) (time : Int32) :
    Except PlayerFault PlayerWidget :=
  let (taken, actions) := getLatestSwitchBoardActions time player.actions
  let player := { player with actions }
  if taken.isEmpty then .ok player
  else (player.playActions env taken).bind updateCurrentPage

/-- `OnGotoPosition`: a player that is not pausing goes on playing with the next tick. -/
def onGotoPosition (env : PlayerSurroundings) (player : PlayerWidget) (pausing : Bool)
    (time : Int32) : Except PlayerFault PlayerWidget :=
  (player.resetPages env).bind fun player =>
    if pausing then player.animatedTriggered env time else .ok player

/-- `GotoTime`. -/
def gotoTime (env : PlayerSurroundings) (player : PlayerWidget) (time : Int32) :
    Except PlayerFault PlayerWidget :=
  (player.resetPages env).bind fun player =>
    let (taken, actions) := getUnAnimatedActions time player.actions
    { player with actions }.playActions env taken

end PlayerWidget

/-- What happens to a player: a tick of its timer, a seek by the user or for a conversion, and the
reset of its stopwatch. -/
inductive PlayerEvent where
  | tick (time : Int32)
  | gotoPosition (pausing : Bool) (time : Int32)
  | gotoTime (time : Int32)
  | reset

/-- What an event does. -/
def PlayerWidget.next (env : PlayerSurroundings) (player : PlayerWidget) :
    PlayerEvent → Except PlayerFault PlayerWidget
  | .tick time => player.animatedTriggered env time
  | .gotoPosition pausing time => player.onGotoPosition env pausing time
  | .gotoTime time => player.gotoTime env time
  | .reset => player.resetPages env

/-! ## Loading -/

namespace PlayerWidget

/-- `AddPage`, which resets the page; `insert` keeps a page that is there already. -/
def addPage (env : PlayerSurroundings) (player : PlayerWidget) (page : Page) : PlayerWidget :=
  match player.allPages.find page.uuid with
  | some _ => player
  | none =>
    { player with
      allPages := player.allPages.insert page.uuid (some (env.resetElementToInit page)) }

/-- `AddAction`. -/
def addAction (player : PlayerWidget) (action : AnimationAction) : PlayerWidget :=
  { player with actions := player.actions ++ [action] }

/-- Convert the record of a player. -/
def convert (u : Uninitialised) (o : Obj) : Option PlayerWidget := do
  let objs ← Codec.items o
  let pageWidth ← Codec.int32.field objs 0 u.int
  let pageHeight ← Codec.int32.field objs 1 u.int
  let totalTime ← Codec.int32.field objs 2 u.int
  return ⟨pageWidth, pageHeight, totalTime, .empty, [], none⟩

/-- `UpdateDataFromMsgPack`. -/
def updateDataFromMsgPack (player : PlayerWidget) : PlayerWidget :=
  { player with
    pageWidth := if 0 < player.pageWidth then player.pageWidth else 1
    pageHeight := if 0 < player.pageHeight then player.pageHeight else 1 }

end PlayerWidget

/-- The files of a lesson: its first two bytes, and what it holds when it is unzipped. -/
structure LessonFile where
  magic1 : UInt8
  magic2 : UInt8
  this : Bytes
  pages : List Bytes
  actions : Bytes

/-- The variables of the loop in `LoadPlayerFile`. -/
structure PlayerLoad where
  getHeader : Bool
  getVersion : Bool
  getRandom : Bool
  type : Int32
  player : Option PlayerWidget

/-- What leaves the loop in `LoadPlayerFile` early: a version that is refused, or an exception. -/
inductive LoadEnd where
  | refused
  | throws (exception : LokiCommand.MsgpackException)
deriving DecidableEq

namespace KeFile

/-- `SetMsgPackData` of a new player. -/
def loadRecord (u : Uninitialised) (bytes : Bytes) : Except LoadEnd PlayerWidget :=
  match unpackOne bytes with
  | none => .error (.throws .unpackError)
  | some msg =>
    match PlayerWidget.convert u msg with
    | none => .error (.throws .typeError)
    | some player => .ok player

/-- One turn of the loop in `LoadPlayerFile`. -/
def nextObject (u : Uninitialised) (s : PlayerLoad) (object : Obj) : Except LoadEnd PlayerLoad :=
  match object with
  | .posInt _ =>
    match Codec.int32.convert object with
    | none => .error (.throws .typeError)
    | some n =>
      if s.getVersion then .ok { s with type := n }
      else if keFileMinVersion < n then .error .refused
      else .ok { s with getVersion := true }
  | .raw bytes =>
    if !s.getHeader then .ok { s with getHeader := true }
    else if !s.getRandom && s.type = 0 then .ok { s with getRandom := true }
    else if s.type ≠ 0 then
      (loadRecord u bytes).map fun player => { s with player := some player }
    else
      .ok s
  | _ => .ok s

/-- The loop in `LoadPlayerFile`. -/
def readThis (u : Uninitialised) (objects : List Obj) : Except LoadEnd PlayerLoad :=
  objects.foldlM (nextObject u) ⟨false, false, false, 0, none⟩

/-- `LoadPlayerFile`. -/
def loadPlayerFile (u : Uninitialised) (bytes : Bytes) :
    Except PlayerFault (Option PlayerWidget) :=
  match readThis u (unpackAll bytes).1 with
  | .error .refused => .ok none
  | .error (.throws exception) => .error (.load (.throws exception))
  | .ok s =>
    if (unpackAll bytes).2 = .malformed then .error (.load (.throws .unpackError))
    else
      match s.player with
      | none => .error .nullPlayer
      | some player => .ok (some player.updateDataFromMsgPack)

/-- `LoadPlayerPage`. -/
def loadPlayerPage (env : PlayerSurroundings) (player : Option PlayerWidget) (file : Bytes) :
    Except PlayerFault (Option PlayerWidget) :=
  match env.loadAsScDocument file with
  | .error fault => .error (.load fault)
  | .ok none => .ok player
  | .ok (some page) =>
    match player with
    | none => .error .nullPlayer
    | some player => .ok (some (player.addPage env page))

/-- The `RAW` branch of `LoadPlayerActions`, on a player that may be null. -/
def loadPlayerAction (u : Uninitialised) (player : Option PlayerWidget) (entry : Entry) :
    Except PlayerFault (Option PlayerWidget) :=
  if entry.1 ≠ 0 then
    match AnimationAction.createFromType u entry.1 entry.2 with
    | .error exception => .error (.load (.throws exception))
    | .ok none => .ok player
    | .ok (some action) =>
      match player with
      | none => .error .nullPlayer
      | some player => .ok (some (player.addAction action))
  else
    .ok player

/-- `InitMedia`, as far as the player goes. -/
def initMedia (player : Option PlayerWidget) : Except PlayerFault (Option PlayerWidget) :=
  match player with
  | none => .error .nullPlayer
  | some player => .ok (some player)

/-- `LoadKeAsPlayerWidget`. -/
def loadKeAsPlayerWidget (env : PlayerSurroundings) (file : LessonFile) :
    Except PlayerFault (Option PlayerWidget) :=
  if file.magic1 ≠ 71 ∧ file.magic2 ≠ 89 then .ok none
  else do
    let player ← loadPlayerFile env.uninitialised file.this
    let player ← file.pages.foldlM (loadPlayerPage env) player
    let player ← scanTrack (loadPlayerAction env.uninitialised) (.load (.throws .typeError))
      (.load (.throws .unpackError)) player file.actions
    initMedia player

end KeFile

end Liangshi
