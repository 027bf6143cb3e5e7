import Liangshi.Live.LivePages
import Liangshi.Live.PageSwitch
import Liangshi.Live.SingleController

/-!
# A class with its boards

The class and the pages of every participant.  A command that is taken in reaches the widget and its
pages, and a switch of the page is sent with the data of the page that is shown.  What a participant
does with its pages is one event and the actions that are sent of it are others, of any kind and number.

A widget and its pages have a flag for the control of the board each.  `ClassBoards.agree_of_reachable`
says that the two never differ.
-/

namespace Liangshi

open Wire MessagePack Ordered Transition

/-! ## The class -/

/-- A class and the pages of its participants. -/
structure ClassBoards (P : Type) where
  room : Classroom P
  board : P → LiveBoard

/-- What happens: an event of the class, in surroundings that matter when pages are loaded, and what a
participant does with its pages. -/
inductive ClassBoardsEvent (P : Type) where
  | event (e : ClassEvent P) (env : Surroundings)
  | work (p : P) (e : LiveEvent)

/-- What a user does with the pages. -/
def LiveEvent.isWork : LiveEvent → Bool
  | .command _ _ | .socketError | .answerApplication _ | .takeBoard => false
  | .newPage _ | .newPageWithBackground _ _ | .previousPage | .nextPage | .selectPage _ => true
  | .lineWidth _ | .lineStyle _ | .lineColor _ | .insertPixmapBackground _ => true
  | .pageSizeChange _ | .edit _ _ => true

namespace ClassBoards

variable {P : Type}

/-- An event that can happen.  The page that is sent is the one that is shown. -/
def Enabled (machine : BoardMachine) (s : ClassBoards P) : ClassBoardsEvent P → Prop
  | .event e env => s.room.Enabled e ∧ machine.Runs env ∧
      ∀ p page, e = .deliver p page → page = (s.board p).current.switchRecord machine
  | .work _ e => e.isWork = true

/-- What an event of the class is to the pages of a participant. -/
def boardEvent (s : ClassBoards P) (env : Surroundings) : ClassEvent P → Option (P × LiveEvent)
  | .deliver p _ => do
    let a ← s.room.connection p
    let c ← (s.room.down a).head?
    return (p, .command env c)
  | .take p => some (p, .takeBoard)
  | .answer p _ yes => some (p, .answerApplication yes)
  | .connect _ _ | .disconnect _ _ | .serverRead _ | .readError _ | .close _ => none
  | .apply _ | .draw _ _ | .hades _ _ _ => none

variable [DecidableEq P]

/-- The boards after something has happened to the pages of a participant. -/
def boardsAfter (machine : BoardMachine) (s : ClassBoards P) (p : P) (e : LiveEvent) :
    Option (P → LiveBoard) :=
  (LivePages.next machine.unzip ⟨(s.room.widget p).lokiClient, s.board p⟩ e).map fun pages =>
    Function.update s.board p pages.board

/-- What an event does; `none` when it cannot happen or ends in a fault. -/
def next (room : Lecture P) (machine : BoardMachine) (s : ClassBoards P) :
    ClassBoardsEvent P → Option (ClassBoards P)
  | .event e env =>
    (s.room.next room machine.uninitialised e).bind fun after =>
      match s.boardEvent env e with
      | none => some ⟨after, s.board⟩
      | some (p, event) => (s.boardsAfter machine p event).map (⟨after, ·⟩)
  | .work p e => (s.boardsAfter machine p e).map (⟨s.room, ·⟩)

/-- A class with boards as a transition system; every participant starts with a page of its own. -/
def system (room : Lecture P) (machine : BoardMachine) :
    System (ClassBoards P) (ClassBoardsEvent P) where
  init s := s.room = Classroom.new ∧ ∀ p, ∃ env, s.board p = LiveBoard.new env
  step s e t := s.Enabled machine e ∧ s.next room machine e = some t

end ClassBoards

/-! ## Control of the board -/

/-- An action that a record converts to is of the type that was asked for. -/
lemma AnimationAction.getType_of_convert {u : Uninitialised} {o : Obj} {type : AnimationType}
    {action : AnimationAction} (h : AnimationAction.convert u o type = some action) :
    action.getType = type := by
  have hkind : ∀ {objs : List Obj} {kind : AnimationKind},
      AnimationKind.convert u objs type = some kind → kind.getType = type := by
    intro objs kind h
    cases type <;> simp only [AnimationKind.convert, Option.bind_eq_bind, Option.bind_eq_some_iff,
      Option.map_eq_some_iff, Option.some.injEq, pure] at h
    all_goals grind [AnimationKind.getType]
  simp only [AnimationAction.convert, Option.bind_eq_bind, Option.bind_eq_some_iff, pure,
    Option.some.injEq] at h
  obtain ⟨objs, -, uuid, -, target, -, time, -, kind, hconvert, rfl⟩ := h
  exact hkind hconvert

/-- The numbers of the types of actions are different. -/
lemma AnimationType.ofInt?_eq {i : Int32} {type type' : AnimationType}
    (h : AnimationType.ofInt? i = some type) : i = type'.toInt ↔ type = type' := by
  have hfound : type.toInt = i := by simpa using List.find?_some h
  constructor
  · rintro rfl
    rw [AnimationType.ofInt?_toInt] at h
    exact (Option.some.inj h).symm
  · rintro rfl
    exact hfound.symm

namespace LiveBoard

variable {env : Surroundings} {unzip : Bytes → Bytes} {board board' : LiveBoard}

/-- Sending a page leaves the control of the board. -/
@[simp] lemma controlingBoard_sendSwitchPageAnimation :
    board.sendSwitchPageAnimation.controlingBoard = board.controlingBoard := by
  have hstanding := congrArg Standing.controling board.standing_sendSwitchPageAnimation
  exact hstanding

/-- Who may draw controls the board. -/
@[simp] lemma controlingBoard_setEnableCurrentPage (enable : Bool) :
    (board.setEnableCurrentPage enable).controlingBoard = enable := rfl

/-- Board data take control away when they switch the page. -/
lemma controlingBoard_onBoardDataTriggered {data : LokiBuffer}
    (h : board.onBoardDataTriggered env unzip data = .ok board') :
    board'.controlingBoard =
      if data.switchesPage env.uninitialised then false else board.controlingBoard := by
  obtain ⟨action, haction, hplay⟩ := (onBoardDataTriggered_eq data board').mp h
  obtain ⟨boardData, hdata, msg, hmsg, type, htype, hconvert⟩ : ∃ boardData,
      BoardData.fromLokiBuffer env.uninitialised data = some boardData ∧ ∃ msg,
        unpackOne boardData.data.data = some msg ∧ ∃ type,
          AnimationType.ofInt? boardData.type = some type ∧
            AnimationAction.convert env.uninitialised msg type = some action := by
    simpa [boardAction, Option.bind_eq_some_iff] using haction
  have hswitches : data.switchesPage env.uninitialised =
      decide (action.getType = .networkSwitchPage) := by
    rw [AnimationAction.getType_of_convert hconvert, LokiBuffer.switchesPage, hdata]
    exact decide_eq_decide.mpr (AnimationType.ofInt?_eq htype)
  rw [hswitches]
  obtain ⟨uuid, target, time, kind, played⟩ := action
  have hset : ∀ page : Page, (board.setCurrent page).controlingBoard = board.controlingBoard :=
    fun _ => rfl
  cases kind with
  | networkSwitchPage pageData =>
    rcases standing_playNetworkSwitchPageAction hplay with ⟨i, -, hstanding⟩ | ⟨-, hstanding⟩
    · exact congrArg Standing.controling hstanding
    · exact congrArg Standing.controling hstanding
  | networkShow elementType elementData =>
    obtain ⟨page, -, rfl⟩ := map_eq_ok.mp hplay
    rfl
  | _ =>
    obtain rfl := Except.ok.inj hplay
    rfl

end LiveBoard

/-- A widget and its pages agree about who controls the board, whatever the server sends. -/
lemma LivePages.controlingBoard_receive {env : Surroundings} {unzip : Bytes → Bytes} {widget : LiveWidget}
    {board : LiveBoard} {t : LivePages} {c : LokiCommand} (page : LokiBuffer)
    (hflag : board.controlingBoard = widget.controlingBoard)
    (h : LivePages.receive env unzip ⟨widget.lokiClient, board⟩ c = .ok t) :
    t.board.controlingBoard = (widget.receive env.uninitialised page c).1.controlingBoard := by
  cases c with
  | boradLogin login =>
    obtain rfl := Except.ok.inj h
    simp only [LiveWidget.receive, LokiClient.onCommandTriggered, LiveWidget.onSignal,
      LiveWidget.onBoardLoginTriggered, LiveBoard.onBoardLoginTriggered,
      apply_ite LiveBoard.controlingBoard, LiveBoard.controlingBoard_setEnableCurrentPage,
      LiveBoard.controlingBoard_sendSwitchPageAnimation, hflag]
    split_ifs <;> simp <;> split_ifs <;> rfl
  | applyBoard apply =>
    have hcommand : widget.lokiClient.onCommandTriggered (.applyBoard apply) =
        (widget.lokiClient, widget.lokiClient.applyBoardTriggered apply) := rfl
    simp only [receive, LiveWidget.receive, hcommand] at h ⊢
    unfold LokiClient.applyBoardTriggered at h ⊢
    split_ifs at h ⊢ with hteacher hstudent
    · obtain rfl := Except.ok.inj h
      simp only [LiveWidget.onSignal, LiveBoard.onTeacherAgreeBoardTriggered,
        LiveWidget.onTeacherAgreeBoardTriggered, apply_ite LiveBoard.controlingBoard,
        apply_ite LiveWidget.controlingBoard]
      cases apply.agree <;> simp [hflag]
    · obtain rfl := Except.ok.inj h
      exact hflag
    · obtain rfl := Except.ok.inj h
      exact hflag
  | boardData data =>
    obtain ⟨board', hboard, rfl⟩ := receive_signal rfl h
    rw [LiveBoard.controlingBoard_onBoardDataTriggered hboard, hflag]
    exact (Lecture.controlingBoard_onBoardDataTriggered data.data).symm
  | takeBoard take =>
    obtain rfl := Except.ok.inj h
    simp only [LiveWidget.receive, LokiClient.onCommandTriggered, LiveWidget.onSignal,
      LiveWidget.onTeacherTakeBoardTriggered, LiveBoard.onTeacherTakeBoardTriggered, hflag]
    split_ifs <;> simp [*]
  | _ =>
    obtain rfl := Except.ok.inj h
    exact hflag

/-- What a user does with the pages leaves control as it is. -/
lemma LivePages.controlingBoard_of_isWork {unzip : Bytes → Bytes} {s t : LivePages} {e : LiveEvent}
    (hwork : e.isWork = true) (h : s.next unzip e = some t) :
    t.board.controlingBoard = s.board.controlingBoard := by
  have hselect : ∀ {i : Nat} {f : LiveBoard → LivePages}, (∀ board, (f board).board = board) →
      (s.board.onSelectPageTriggered i).map f = some t →
        t.board.controlingBoard = s.board.controlingBoard := by
    intro i f hf h
    obtain ⟨board', hboard, rfl⟩ := Option.map_eq_some_iff.mp h
    obtain ⟨page, -, hstanding⟩ := LiveBoard.standing_onSelectPageTriggered hboard
    rw [hf]
    exact congrArg Standing.controling hstanding
  cases e with
  | command | socketError | answerApplication | takeBoard => cases hwork
  | newPage env =>
    obtain rfl := Option.some.inj h
    exact LiveBoard.controlingBoard_sendSwitchPageAnimation
  | insertPixmapBackground image =>
    obtain rfl := Option.some.inj h
    show (s.board.onInsertPixmapBackgroundTriggered image).controlingBoard = _
    unfold LiveBoard.onInsertPixmapBackgroundTriggered
    split_ifs
    · exact LiveBoard.controlingBoard_sendSwitchPageAnimation
    · rfl
  | selectPage page => exact hselect (fun _ => rfl) h
  | previousPage =>
    unfold next LiveBoard.onPreviousPageTriggered at h
    dsimp only at h
    split_ifs at h
    · obtain rfl := Option.some.inj h
      rfl
    · exact hselect (fun _ => rfl) h
  | nextPage =>
    unfold next LiveBoard.onNextPageTriggered at h
    dsimp only at h
    split_ifs at h
    · obtain rfl := Option.some.inj h
      rfl
    · exact hselect (fun _ => rfl) h
  | edit e isEdit =>
    obtain ⟨page, -, rfl⟩ := Option.map_eq_some_iff.mp h
    rfl
  | _ =>
    obtain rfl := Option.some.inj h
    rfl

namespace Classroom

variable {P : Type} [DecidableEq P] {room : Lecture P} {u : Uninitialised} {s t : Classroom P} {p : P}
  {page : LokiBuffer}

/-- A participant that only sends something keeps its widget. -/
lemma widget_act_of_eq (p : P) (commands : List LokiCommand) :
    (s.act p (s.widget p, commands)).widget = s.widget := by
  funext q
  by_cases hq : q = p
  · subst hq
    exact widget_act_self
  · exact widget_act_of_ne hq

/-- What a participant does that takes in a command. -/
lemma of_next_deliver (h : s.next room u (.deliver p page) = some t) :
    ∃ a c rest, s.connection p = some a ∧ s.down a = c :: rest ∧
      t = ({ s with down := Function.update s.down a rest } : Classroom P).act p
        ((s.widget p).receive u page c) := by
  unfold next at h
  dsimp only at h
  split at h
  · cases h
  · rename_i a hconnection
    split at h
    · cases h
    · rename_i c rest hdown
      exact ⟨a, c, rest, hconnection, hdown, (Option.some.inj h).symm⟩

end Classroom

namespace ClassBoards

variable {P : Type} [DecidableEq P] {room : Lecture P} {machine : BoardMachine} {s t : ClassBoards P}

/-- Every widget and its pages have the same flag. -/
def Agree (s : ClassBoards P) : Prop :=
  ∀ p, (s.board p).controlingBoard = (s.room.widget p).controlingBoard

/-- What happens to one participant, whose widget and pages agree then. -/
lemma Agree.update (h : s.Agree) {p : P} (hother : ∀ q, q ≠ p → t.room.widget q = s.room.widget q)
    {board : LiveBoard} (hboard : t.board = Function.update s.board p board)
    (hflag : board.controlingBoard = (t.room.widget p).controlingBoard) : t.Agree := by
  intro q
  rw [hboard]
  by_cases hq : q = p
  · subst hq
    rw [Function.update_self]
    exact hflag
  · rw [Function.update_of_ne hq, hother q hq]
    exact h q

/-- What an event of the class does to the class and to the boards. -/
lemma of_next_event {e : ClassEvent P} {env : Surroundings}
    (h : s.next room machine (.event e env) = some t) :
    s.room.next room machine.uninitialised e = some t.room ∧
      (s.boardEvent env e = none ∧ t.board = s.board ∨ ∃ p event pages,
        s.boardEvent env e = some (p, event) ∧ LivePages.next machine.unzip
          ⟨(s.room.widget p).lokiClient, s.board p⟩ event = some pages ∧
            t.board = Function.update s.board p pages.board) := by
  obtain ⟨after, hroom, h⟩ := Option.bind_eq_some_iff.mp h
  split at h
  · rename_i hnone
    obtain rfl := Option.some.inj h
    exact ⟨hroom, .inl ⟨hnone, rfl⟩⟩
  · rename_i p event hsome
    obtain ⟨boards, hboards, rfl⟩ := Option.map_eq_some_iff.mp h
    obtain ⟨pages, hpages, rfl⟩ := Option.map_eq_some_iff.mp hboards
    exact ⟨hroom, .inr ⟨p, event, pages, hsome, hpages, rfl⟩⟩

/-- An event that is nothing to the boards changes no widget. -/
lemma widget_of_boardEvent {e : ClassEvent P} {env : Surroundings} {u : Uninitialised}
    (hnone : s.boardEvent env e = none) {after : Classroom P} (h : s.room.next room u e = some after) :
    after.widget = s.room.widget := by
  cases e with
  | connect | readError | close =>
    obtain rfl := Option.some.inj h
    rfl
  | disconnect p kept =>
    unfold Classroom.next at h
    dsimp only at h
    split at h
    · cases h
    · obtain rfl := Option.some.inj h
      rfl
  | serverRead a =>
    unfold Classroom.next at h
    dsimp only at h
    split at h
    · cases h
    · split at h
      · cases h
      · obtain rfl := Option.some.inj h
        rfl
  | deliver p page =>
    simp only [boardEvent, Option.bind_eq_bind, Option.bind_eq_none_iff] at hnone
    unfold Classroom.next at h
    dsimp only at h
    split at h
    · cases h
    · rename_i a hconnection
      split at h
      · cases h
      · rename_i c rest hdown
        have hnever := hnone a hconnection c (by rw [hdown]; rfl)
        cases hnever
  | take | answer => cases hnone
  | apply | draw | hades =>
    obtain rfl := Option.some.inj h
    exact Classroom.widget_act_of_eq _ _

/-- What the pages of a participant make of the command that it takes in. -/
lemma receive_of_deliver {env : Surroundings} {q : P} {b : Address} {c : LokiCommand}
    {record : LokiBuffer} (h : s.next room machine (.event (.deliver q record) env) = some t)
    (hconnection : s.room.connection q = some b) (hdown : (s.room.down b)[0]? = some c) :
    ∃ pages, LivePages.receive env machine.unzip ⟨(s.room.widget q).lokiClient, s.board q⟩ c =
      .ok pages ∧ t.board q = pages.board := by
  obtain ⟨-, ⟨hnone, -⟩ | ⟨p, event, pages, hsome, hpages, hboard⟩⟩ := of_next_event h
  · simp [boardEvent, hconnection, List.head?_eq_getElem?, hdown] at hnone
  · have hevent : s.boardEvent env (.deliver q record) = some (q, .command env c) := by
      simp [boardEvent, hconnection, List.head?_eq_getElem?, hdown]
    rw [hsome, Option.some.injEq, Prod.mk.injEq] at hevent
    obtain ⟨rfl, rfl⟩ := hevent
    refine ⟨pages, ?_, by rw [hboard, Function.update_self]⟩
    cases hreceive : LivePages.receive env machine.unzip
        ⟨(s.room.widget p).lokiClient, s.board p⟩ c with
    | error fault => simp [LivePages.next, hreceive, Except.toOption] at hpages
    | ok pages' => simpa [LivePages.next, hreceive, Except.toOption] using hpages

/-- Every step keeps widgets and pages in agreement. -/
lemma Agree.step (h : s.Agree) {e : ClassBoardsEvent P} (hstep : (system room machine).step s e t) :
    t.Agree := by
  obtain ⟨henabled, hnext⟩ := hstep
  cases e with
  | work p e =>
    obtain ⟨boards, hboards, rfl⟩ := Option.map_eq_some_iff.mp hnext
    obtain ⟨pages, hpages, rfl⟩ := Option.map_eq_some_iff.mp hboards
    refine h.update (fun _ _ => rfl) rfl ?_
    exact (LivePages.controlingBoard_of_isWork henabled hpages).trans (h p)
  | event e env =>
    obtain ⟨hroom, ⟨hnone, hboard⟩ | ⟨p, event, pages, hsome, hpages, hboard⟩⟩ := of_next_event hnext
    · intro q
      rw [hboard, widget_of_boardEvent hnone hroom]
      exact h q
    · cases e with
      | deliver q page =>
        obtain ⟨a, c, rest, hconnection, hdown, hafter⟩ := Classroom.of_next_deliver hroom
        obtain ⟨pages', hreceive, hpages'⟩ := receive_of_deliver hnext hconnection
          (show (s.room.down a)[0]? = some c by rw [hdown]; rfl)
        have hevent : s.boardEvent env (.deliver q page) = some (q, .command env c) := by
          simp [boardEvent, hconnection, hdown]
        rw [hsome, Option.some.injEq, Prod.mk.injEq] at hevent
        obtain ⟨rfl, rfl⟩ := hevent
        rw [hboard, Function.update_self] at hpages'
        refine h.update (fun r hr => ?_) hboard ?_
        · rw [hafter, Classroom.widget_act_of_ne hr]
        · rw [hafter, Classroom.widget_act_self, ← henabled.2.1.uninitialised, hpages']
          exact LivePages.controlingBoard_receive page (h p) hreceive
      | take q =>
        obtain ⟨rfl, rfl⟩ := Prod.mk.inj (Option.some.inj hsome)
        obtain rfl := Option.some.inj hpages
        refine h.update (fun r hr => ?_) hboard ?_
        · rw [← Option.some.inj hroom, Classroom.widget_act_of_ne hr]
        · rw [← Option.some.inj hroom, Classroom.widget_act_self]
          rfl
      | answer q position yes =>
        obtain ⟨rfl, rfl⟩ := Prod.mk.inj (Option.some.inj hsome)
        obtain rfl := Option.some.inj hpages
        refine h.update (fun r hr => ?_) hboard ?_
        · rw [← Option.some.inj hroom, Classroom.widget_act_of_ne hr]
        · have hposition : position < (s.room.widget q).applications.length := henabled.1
          rw [← Option.some.inj hroom, Classroom.widget_act_self]
          simp only [LiveWidget.answerApplication, List.getElem?_eq_getElem hposition]
          cases yes with
          | true => rfl
          | false => exact h q
      | _ => cases hsome

/-- In every class that is reached, a widget and its pages agree about who controls the board. -/
theorem agree_of_reachable (h : (system room machine).Reachable s) : s.Agree := by
  refine h.invariant ?_ fun _ _ _ hs hstep => hs.step hstep
  rintro s ⟨hroom, hboard⟩ p
  obtain ⟨env, hnew⟩ := hboard p
  rw [hnew, hroom]
  rfl

end ClassBoards

end Liangshi
