import Liangshi.Live.LivePages

/-!
# The page that a live widget shows

A widget keeps two links to its pages that every operation has to look after: the page that is shown
can be edited by a user who controls the board and by no other, and the index is the place of the page
that is shown.

A page is locked or unlocked when control changes while it is shown.  A page that is made is not
locked, and one that is selected has the lock it had when it was left, so the first link holds where
pages are made with control of the board and only pages with the right lock are selected
(`keepsLock_iff`).  A page switch from the network to a page that is there does not set the
index, so the second link holds where such a switch leads to the page at the index (`keepsPlace_iff`).
-/

namespace Liangshi

open Wire MessagePack Transition

/-- What a widget says about the page that is shown: whether it is locked, who controls the board, and
its place by the pointer and by the index. -/
structure Standing where
  locked : Bool
  controling : Bool
  shown : Nat
  index : Nat
deriving DecidableEq

namespace LiveBoard

variable {board : LiveBoard}

/-- What the board says about the page that is shown. -/
def standing (board : LiveBoard) : Standing :=
  ⟨board.current.disableDraw, board.controlingBoard, board.currentPage, board.currentPageIndex⟩

/-! ## Ways to change the pages -/

/-- A page that is put in the place of another one is shown. -/
@[simp] lemma current_showPage (i : Nat) (page : Page) (hi : i < board.allPages.length) :
    (board.showPage i page hi).current = page := by
  simp [current, showPage]

/-- A page is put in a place and shown. -/
lemma standing_showPage (i : Nat) (page : Page) (hi : i < board.allPages.length) :
    (board.showPage i page hi).standing =
      { board.standing with locked := page.disableDraw, shown := i } := by
  unfold standing
  rw [current_showPage]
  rfl

/-- The page that is shown is changed. -/
lemma standing_setCurrent (page : Page) :
    (board.setCurrent page).standing = { board.standing with locked := page.disableDraw } :=
  standing_showPage _ _ _

/-- The page that is shown is changed, but not its lock. -/
lemma standing_setCurrent_of_eq {page : Page} (h : page.disableDraw = board.current.disableDraw) :
    (board.setCurrent page).standing = board.standing := by
  rw [standing_setCurrent, h]
  rfl

/-- A page is put behind the others and shown. -/
lemma standing_appendPage (page : Page) : (board.appendPage page).standing =
    ⟨page.disableDraw, board.controlingBoard, board.allPages.length, board.allPages.length⟩ := by
  simp [standing, current, appendPage]

/-- The page that is shown is locked or unlocked, as control changes. -/
lemma standing_setEnableCurrentPage (enable : Bool) :
    (board.setEnableCurrentPage enable).standing =
      { board.standing with locked := !enable, controling := enable } := by
  have hset := board.standing_setCurrent (board.current.setEnable enable)
  rw [Page.disableDraw_setEnable] at hset
  exact congrArg (fun standing : Standing => { standing with controling := enable }) hset

/-- A page that is sent stays as it is. -/
lemma standing_sendSwitchPageAnimation : board.sendSwitchPageAnimation.standing = board.standing := by
  unfold sendSwitchPageAnimation
  split_ifs
  · exact standing_setCurrent_of_eq (Page.disableDraw_deHighlightElement _)
  · rfl

/-- A new page is not locked. -/
lemma disableDraw_newPage (env : Surroundings) : (board.newPage env).disableDraw = false := by
  simp [newPage, Page.new]

/-- A page that is selected is shown with the lock that it has. -/
lemma standing_onSelectPageTriggered {i : Nat} {board' : LiveBoard}
    (h : board.onSelectPageTriggered i = some board') : ∃ page, board.allPages[i]? = some page ∧
      board'.standing = ⟨page.disableDraw, board.controlingBoard, i, i⟩ := by
  unfold onSelectPageTriggered at h
  split_ifs at h with hi
  obtain rfl := Option.some.inj h
  refine ⟨board.allPages.get ⟨i, hi⟩, List.getElem?_eq_getElem hi, ?_⟩
  rw [standing_sendSwitchPageAnimation]
  have hshow := board.standing_showPage i (board.setAttributes (board.allPages.get ⟨i, hi⟩)) hi
  have hlock : (board.setAttributes (board.allPages.get ⟨i, hi⟩)).disableDraw =
      (board.allPages.get ⟨i, hi⟩).disableDraw := by
    simp [setAttributes]
  rw [hlock] at hshow
  exact congrArg (fun standing : Standing => { standing with index := i }) hshow

/-! ## Data from the network -/

/-- The page that a page switch in board data finds. -/
def switchedPage (env : Surroundings) (board : LiveBoard) (data : LokiBuffer) : Option Nat :=
  match boardAction env.uninitialised data with
  | some ⟨uuid, _, _, .networkSwitchPage _, _⟩ => (board.findPage uuid).map fun i => (i : Nat)
  | _ => none

/-- What board data makes of the standing: it is kept, or the page is switched to one that is found or
to a new one. -/
inductive Receives (env : Surroundings) (board : LiveBoard) (data : LokiBuffer) : Standing → Prop
  | keeps (none : board.switchedPage env data = none) : Receives env board data board.standing
  | switches (i : Nat) (some : board.switchedPage env data = some i) :
    Receives env board data ⟨true, false, i, board.currentPageIndex⟩
  | appends (none : board.switchedPage env data = none) :
    Receives env board data ⟨true, false, board.allPages.length, board.allPages.length⟩

/-- A page switch shows a locked page without control of the board. -/
lemma standing_playNetworkSwitchPageAction {env : Surroundings} {uuid bytes : Bytes}
    {board' : LiveBoard} (h : board.playNetworkSwitchPageAction env uuid bytes = .ok board') :
    (∃ i, board.findPage uuid = some i ∧
        board'.standing = ⟨true, false, i, board.currentPageIndex⟩) ∨
      board.findPage uuid = none ∧
        board'.standing = ⟨true, false, board.allPages.length, board.allPages.length⟩ := by
  unfold playNetworkSwitchPageAction at h
  dsimp only at h
  have hfindEq : { board with controlingBoard := false }.findPage uuid = board.findPage uuid := rfl
  rw [hfindEq] at h
  cases hfind : board.findPage uuid with
  | some i =>
    simp only [hfind] at h
    obtain ⟨page, hpage, rfl⟩ := map_eq_ok.mp h
    obtain ⟨loaded, -, rfl⟩ := map_eq_ok.mp hpage
    have hshow := { board with controlingBoard := false }.standing_showPage i
      (loaded.setEnable false) i.isLt
    rw [Page.disableDraw_setEnable] at hshow
    exact .inl ⟨i, rfl, hshow⟩
  | none =>
    simp only [hfind] at h
    obtain ⟨page, -, rfl⟩ := map_eq_ok.mp h
    have happend := { board with controlingBoard := false }.standing_appendPage
      (page.setEnable false)
    rw [Page.disableDraw_setEnable] at happend
    exact .inr ⟨rfl, happend⟩

/-- What board data makes of the standing. -/
lemma receives_onBoardDataTriggered {env : Surroundings} {unzip : Bytes → Bytes} {data : LokiBuffer}
    {board' : LiveBoard} (h : board.onBoardDataTriggered env unzip data = .ok board') :
    board.Receives env data board'.standing := by
  obtain ⟨action, haction, hplay⟩ := (onBoardDataTriggered_eq data board').mp h
  obtain ⟨uuid, target, time, kind, played⟩ := action
  -- every action but a page switch changes the page that is shown, if anything
  have hkeeps : ∀ page : Page, page.disableDraw = board.current.disableDraw →
      board.switchedPage env data = none →
      board.Receives env data (board.setCurrent page).standing := by
    intro page hlock hnone
    rw [standing_setCurrent_of_eq hlock]
    exact .keeps hnone
  cases kind with
  | networkSwitchPage pageData =>
    have hswitched : board.switchedPage env data = (board.findPage uuid).map fun i => (i : Nat) := by
      simp only [switchedPage, haction]
    rcases standing_playNetworkSwitchPageAction hplay with ⟨i, hfind, hstanding⟩ | ⟨hfind, hstanding⟩
    · rw [hstanding]
      exact .switches i (by rw [hswitched, hfind]; rfl)
    · rw [hstanding]
      exact .appends (by rw [hswitched, hfind]; rfl)
  | networkShow elementType elementData =>
    obtain ⟨page, hpage, rfl⟩ := map_eq_ok.mp hplay
    exact hkeeps page (board.current.disableDraw_playNetworkShowAction hpage)
      (by simp only [switchedPage, haction])
  | «show» =>
    obtain rfl := Except.ok.inj hplay
    exact .keeps (by simp only [switchedPage, haction])
  | switchPage =>
    obtain rfl := Except.ok.inj hplay
    exact .keeps (by simp only [switchedPage, haction])
  | _ =>
    obtain rfl := Except.ok.inj hplay
    exact hkeeps _ (by simp [Page.playSizeAction, Page.playLineWidthAction, Page.playLineStyleAction,
      Page.playLineColorAction, Page.playTextChangedAction]) (by simp only [switchedPage, haction])

end LiveBoard

/-! ## Steps -/

namespace LivePages

/-- The event makes a page. -/
def Opens : LiveEvent → Prop
  | .newPage _ | .newPageWithBackground _ _ => True
  | _ => False

/-- The page that an event selects. -/
def selected (board : LiveBoard) : LiveEvent → Option Nat
  | .selectPage page => some page
  | .previousPage =>
    if board.currentPageIndex = 0 then none else some (board.currentPageIndex - 1)
  | .nextPage =>
    if board.allPages.length - 1 ≤ board.currentPageIndex then none
    else some (board.currentPageIndex + 1)
  | _ => none

/-- The page that an event from the network switches to, where there is one already. -/
def switchedTo (board : LiveBoard) : LiveEvent → Option Nat
  | .command env (.boardData c) => board.switchedPage env c.data
  | _ => none

/-- What an event makes of the standing. -/
inductive Moves (board : LiveBoard) (e : LiveEvent) : Standing → Prop
  | stays (opens : ¬ Opens e) (selects : selected board e = none)
    (switches : switchedTo board e = none) : Moves board e board.standing
  | enables (enable : Bool) (opens : ¬ Opens e) (selects : selected board e = none)
    (switches : switchedTo board e = none) :
    Moves board e { board.standing with locked := !enable, controling := enable }
  | opens (opens : Opens e) (selects : selected board e = none)
    (switches : switchedTo board e = none) :
    Moves board e ⟨false, board.controlingBoard, board.allPages.length, board.allPages.length⟩
  | selects (i : Nat) (page : Page) (opens : ¬ Opens e) (selects : selected board e = some i)
    (switches : switchedTo board e = none) (get : board.allPages[i]? = some page) :
    Moves board e ⟨page.disableDraw, board.controlingBoard, i, i⟩
  | switches (i : Nat) (opens : ¬ Opens e) (selects : selected board e = none)
    (switches : switchedTo board e = some i) :
    Moves board e ⟨true, false, i, board.currentPageIndex⟩
  | appends (opens : ¬ Opens e) (selects : selected board e = none)
    (switches : switchedTo board e = none) :
    Moves board e ⟨true, false, board.allPages.length, board.allPages.length⟩

variable {env : Surroundings} {unzip : Bytes → Bytes} {s t : LivePages}

/-- A change of the page that is shown, but not of its lock. -/
lemma moves_setCurrent {board : LiveBoard} {e : LiveEvent} {page : Page} (hopens : ¬ Opens e)
    (hselects : selected board e = none) (hswitches : switchedTo board e = none)
    (hlock : page.disableDraw = board.current.disableDraw) :
    Moves board e (board.setCurrent page).standing := by
  rw [LiveBoard.standing_setCurrent_of_eq hlock]
  exact .stays hopens hselects hswitches

/-- Control changes. -/
lemma moves_setEnableCurrentPage {board : LiveBoard} {e : LiveEvent} (hopens : ¬ Opens e)
    (hselects : selected board e = none) (hswitches : switchedTo board e = none) (enable : Bool) :
    Moves board e (board.setEnableCurrentPage enable).standing := by
  rw [LiveBoard.standing_setEnableCurrentPage]
  exact .enables enable hopens hselects hswitches

/-- A page is selected. -/
lemma moves_onSelectPageTriggered {board board' : LiveBoard} {e : LiveEvent} {i : Nat}
    (hopens : ¬ Opens e) (hselects : selected board e = some i)
    (hswitches : switchedTo board e = none) (h : board.onSelectPageTriggered i = some board') :
    Moves board e board'.standing := by
  obtain ⟨page, hpage, hstanding⟩ := LiveBoard.standing_onSelectPageTriggered h
  rw [hstanding]
  exact .selects i page hopens hselects hswitches hpage

/-- What a signal that carries no board data makes of the standing. -/
lemma moves_onSignal {board board' : LiveBoard} {client : LokiClient} {c : LokiCommand}
    {signal : LokiSignal} (hdata : ∀ data, signal ≠ .onBoardData data)
    (hswitches : switchedTo board (.command env c) = none)
    (h : board.onSignal env unzip client signal = .ok board') :
    Moves board (.command env c) board'.standing := by
  have hstays : Moves board (.command env c) board.standing := .stays id rfl hswitches
  have henables := moves_setEnableCurrentPage (e := .command env c) id rfl hswitches
  cases signal with
  | onBoardData data => exact absurd rfl (hdata data)
  | onHadesData peerId nickname data =>
    obtain rfl := Except.ok.inj h
    exact hstays
  | onApplyBoard studentId nickname =>
    obtain rfl := Except.ok.inj h
    exact hstays
  | onBoardLogin login =>
    obtain rfl := Except.ok.inj h
    unfold LiveBoard.onBoardLoginTriggered
    split_ifs
    · exact henables false
    · exact henables true
    · exact hstays
    · rw [LiveBoard.standing_sendSwitchPageAnimation]
      exact hstays
    · exact hstays
    · exact hstays
  | onTeacherAgreeBoard another agree =>
    obtain rfl := Except.ok.inj h
    unfold LiveBoard.onTeacherAgreeBoardTriggered
    split_ifs
    · exact henables false
    · exact hstays
    · exact henables agree
  | onTakeBoard =>
    obtain rfl := Except.ok.inj h
    unfold LiveBoard.onTeacherTakeBoardTriggered
    split_ifs
    · exact henables false
    · exact hstays

/-- A command that makes the client signal something. -/
lemma receive_signal {c : LokiCommand} {client : LokiClient} {signal : LokiSignal}
    (hsignal : s.lokiClient.onCommandTriggered c = (client, some signal))
    (h : s.receive env unzip c = .ok t) :
    ∃ board', s.board.onSignal env unzip client signal = .ok board' ∧ t.board = board' := by
  unfold receive at h
  rw [hsignal] at h
  obtain ⟨board', hboard, rfl⟩ := map_eq_ok.mp h
  exact ⟨board', hboard, rfl⟩

/-- What a command makes of the standing. -/
lemma moves_receive {c : LokiCommand} (h : s.receive env unzip c = .ok t) :
    Moves s.board (.command env c) t.board.standing := by
  -- a signal without board data
  have hother : ∀ {client signal}, s.lokiClient.onCommandTriggered c = (client, some signal) →
      (∀ data, signal ≠ .onBoardData data) → switchedTo s.board (.command env c) = none →
      Moves s.board (.command env c) t.board.standing := by
    intro client signal hsignal hdata hswitches
    obtain ⟨board', hboard, rfl⟩ := receive_signal hsignal h
    exact moves_onSignal hdata hswitches hboard
  cases c with
  | boardData board =>
    obtain ⟨board', hboard, rfl⟩ := receive_signal rfl h
    have hreceives := LiveBoard.receives_onBoardDataTriggered hboard
    generalize t.board.standing = standing at hreceives ⊢
    cases hreceives with
    | keeps hnone => exact .stays id rfl hnone
    | switches i hsome => exact .switches i id rfl hsome
    | appends hnone => exact .appends id rfl hnone
  | applyBoard apply =>
    have hcommand : s.lokiClient.onCommandTriggered (.applyBoard apply) =
        (s.lokiClient, s.lokiClient.applyBoardTriggered apply) := rfl
    cases hsignal : s.lokiClient.applyBoardTriggered apply with
    | none =>
      unfold receive at h
      rw [hcommand, hsignal] at h
      obtain rfl := Except.ok.inj h
      exact .stays id rfl rfl
    | some signal =>
      refine hother (hcommand.trans (by rw [hsignal])) ?_ rfl
      rintro data rfl
      unfold LokiClient.applyBoardTriggered at hsignal
      split_ifs at hsignal <;> cases hsignal
  | boradLogin login => exact hother rfl nofun rfl
  | hadesData hades => exact hother rfl nofun rfl
  | takeBoard take => exact hother rfl nofun rfl
  | _ =>
    obtain rfl := Except.ok.inj h
    exact .stays id rfl rfl

/-- What an event makes of the standing. -/
lemma moves_next {e : LiveEvent} (h : s.next unzip e = some t) :
    Moves s.board e t.board.standing := by
  cases e with
  | command env c => exact moves_receive (toOption_eq_some.mp h)
  | socketError =>
    obtain rfl := Option.some.inj h
    exact .stays id rfl rfl
  | answerApplication yes =>
    obtain rfl := Option.some.inj h
    cases yes with
    | false => exact .stays id rfl rfl
    | true => exact moves_setEnableCurrentPage id rfl rfl false
  | takeBoard =>
    obtain rfl := Option.some.inj h
    exact moves_setEnableCurrentPage id rfl rfl true
  | newPage env =>
    obtain rfl := Option.some.inj h
    have hopens : Moves s.board (.newPage env) _ := .opens trivial rfl rfl
    dsimp only
    rwa [LiveBoard.onNewPageTriggered, LiveBoard.standing_sendSwitchPageAnimation,
      LiveBoard.standing_appendPage, LiveBoard.disableDraw_newPage]
  | newPageWithBackground env image =>
    obtain rfl := Option.some.inj h
    have hopens : Moves s.board (.newPageWithBackground env image) _ := .opens trivial rfl rfl
    dsimp only
    rw [LiveBoard.onNewPageWithBackgroundTriggered, LiveBoard.standing_appendPage]
    dsimp only
    rwa [LiveBoard.disableDraw_newPage]
  | previousPage =>
    obtain ⟨board, hboard, rfl⟩ := Option.map_eq_some_iff.mp h
    unfold LiveBoard.onPreviousPageTriggered at hboard
    split_ifs at hboard with hfirst
    · obtain rfl := Option.some.inj hboard
      exact .stays id (if_pos hfirst) rfl
    · exact moves_onSelectPageTriggered id (if_neg hfirst) rfl hboard
  | nextPage =>
    obtain ⟨board, hboard, rfl⟩ := Option.map_eq_some_iff.mp h
    unfold LiveBoard.onNextPageTriggered at hboard
    split_ifs at hboard with hlast
    · obtain rfl := Option.some.inj hboard
      exact .stays id (if_pos hlast) rfl
    · exact moves_onSelectPageTriggered id (if_neg hlast) rfl hboard
  | selectPage page =>
    obtain ⟨board, hboard, rfl⟩ := Option.map_eq_some_iff.mp h
    exact moves_onSelectPageTriggered id rfl rfl hboard
  | insertPixmapBackground image =>
    obtain rfl := Option.some.inj h
    dsimp only
    unfold LiveBoard.onInsertPixmapBackgroundTriggered
    split_ifs
    · rw [LiveBoard.standing_sendSwitchPageAnimation]
      exact moves_setCurrent id rfl rfl rfl
    · exact .stays id rfl rfl
  | pageSizeChange matrix =>
    obtain rfl := Option.some.inj h
    have hstanding : (s.board.onPageSizeChange matrix).standing = s.board.standing := by
      simp [LiveBoard.standing, LiveBoard.current, LiveBoard.onPageSizeChange]
    dsimp only
    rw [hstanding]
    exact .stays id rfl rfl
  | edit e hedit =>
    obtain ⟨page, hpage, rfl⟩ := Option.map_eq_some_iff.mp h
    exact moves_setCurrent id rfl rfl (Page.disableDraw_next hedit hpage)
  | lineWidth width =>
    obtain rfl := Option.some.inj h
    exact moves_setCurrent id rfl rfl (s.board.current.disableDraw_lineWidthChanged width false)
  | lineStyle style =>
    obtain rfl := Option.some.inj h
    exact moves_setCurrent id rfl rfl (s.board.current.disableDraw_lineStyleChanged style false)
  | lineColor color =>
    obtain rfl := Option.some.inj h
    exact moves_setCurrent id rfl rfl (s.board.current.disableDraw_lineColorChanged color false)

/-! ## The lock -/

/-- The page that is shown can be edited exactly by who controls the board. -/
def LockFollows (s : LivePages) : Prop := s.board.current.disableDraw = !s.board.controlingBoard

instance (s : LivePages) : Decidable s.LockFollows :=
  inferInstanceAs (Decidable (s.board.current.disableDraw = !s.board.controlingBoard))

/-- A page is made with control of the board, and a page that is selected has the lock that goes with
the control of the board. -/
def KeepsLock (s : LivePages) (e : LiveEvent) : Prop :=
  (Opens e → s.board.controlingBoard = true) ∧ ∀ i page, selected s.board e = some i →
    s.board.allPages[i]? = some page → page.disableDraw = !s.board.controlingBoard

/-- An event keeps the lock of the page that is shown with the control of the board exactly when it
makes and selects pages as it should. -/
lemma keepsLock_iff {e : LiveEvent} (h : s.LockFollows) (hstep : s.next unzip e = some t) :
    s.KeepsLock e ↔ t.LockFollows := by
  have hquiet : ¬ Opens e → selected s.board e = none → s.KeepsLock e := by
    intro hopens hselects
    refine ⟨fun hopen => absurd hopen hopens, fun i page hi => ?_⟩
    rw [hselects] at hi
    cases hi
  have hfollows : t.LockFollows ↔ t.board.standing.locked = !t.board.standing.controling := Iff.rfl
  have hmoves := moves_next hstep
  rw [hfollows]
  generalize t.board.standing = standing at hmoves ⊢
  cases hmoves with
  | stays hopens hselects _ => exact iff_of_true (hquiet hopens hselects) h
  | enables enable hopens hselects _ => exact iff_of_true (hquiet hopens hselects) rfl
  | opens hopens hselects _ =>
    have hlock : s.KeepsLock e ↔ s.board.controlingBoard = true := by
      refine ⟨fun hkeeps => hkeeps.1 hopens, fun hcontrol => ⟨fun _ => hcontrol, fun i page hi => ?_⟩⟩
      rw [hselects] at hi
      cases hi
    rw [hlock]
    cases s.board.controlingBoard <;> simp
  | selects i page hopens hselects _ hget =>
    constructor
    · intro hkeeps
      exact hkeeps.2 i page hselects hget
    · intro hlock
      refine ⟨fun hopen => absurd hopen hopens, fun j page' hj hget' => ?_⟩
      obtain rfl := Option.some.inj (hselects.symm.trans hj)
      obtain rfl := Option.some.inj (hget.symm.trans hget')
      exact hlock
  | switches i hopens hselects _ => exact iff_of_true (hquiet hopens hselects) rfl
  | appends hopens hselects _ => exact iff_of_true (hquiet hopens hselects) rfl

/-- In every state of a run the page that is shown can be edited exactly by who controls the board,
when and only when every step makes pages with control and selects pages with the right lock. -/
theorem sessions_lockFollows_iff (env : Surroundings) (unzip : Bytes → Bytes) (es : List LiveEvent) :
    (sessions env unzip).EveryState LockFollows (new env) es ↔
      (sessions env unzip).EveryStep KeepsLock (new env) es := by
  have hfirst : (new env).LockFollows :=
    Page.disableDraw_setEnable (((((Page.new (env.newUuid [])).setMode.lineWidthChanged 2
      false).lineStyleChanged 1 false).lineColorChanged 0xffffffff false)) false
  exact System.everyState_iff (I := fun _ => True) ⟨trivial, hfirst⟩
    (fun s e t _ hfollows hstep => ⟨keepsLock_iff hfollows hstep, fun _ => trivial⟩) es

/-- A lesson of a teacher who makes a second page, grants the board to a student and goes back to the
first page. -/
def pagingBack : List LiveEvent :=
  [.command LiveBoard.plainSurroundings (.boradLogin ⟨[], true, false, [], true, true, false, [], []⟩),
    .newPage LiveBoard.plainSurroundings, .answerApplication true, .previousPage]

/-- The first page was not locked when control of the board was given away. -/
theorem not_lockFollows_pagingBack : ¬ (sessions LiveBoard.plainSurroundings id).EveryState LockFollows
    (new LiveBoard.plainSurroundings) pagingBack := by
  intro h
  have hlast : ((pagingBack.foldlM (next id) (new LiveBoard.plainSurroundings)).any fun s =>
      decide (¬ s.LockFollows)) = true := by
    decide +kernel
  obtain ⟨s, hs, hnot⟩ := (Option.any_eq_true _ _).mp hlast
  exact of_decide_eq_true hnot
    (h pagingBack [] s (List.append_nil _).symm (.foldlM (fun _ _ _ hnext => hnext) hs))

/-! ## The place -/

/-- The index is the place of the page that is shown. -/
def PointsAt (s : LivePages) : Prop := s.board.currentPageIndex = s.board.currentPage

instance (s : LivePages) : Decidable s.PointsAt :=
  inferInstanceAs (Decidable (s.board.currentPageIndex = s.board.currentPage))

/-- A page switch from the network to a page that is there leads to the page at the index. -/
def KeepsPlace (s : LivePages) (e : LiveEvent) : Prop :=
  ∀ i, switchedTo s.board e = some i → i = s.board.currentPageIndex

/-- An event keeps the index at the page that is shown exactly when it switches to no other page that
is there. -/
lemma keepsPlace_iff {e : LiveEvent} (h : s.PointsAt) (hstep : s.next unzip e = some t) :
    s.KeepsPlace e ↔ t.PointsAt := by
  have hquiet : switchedTo s.board e = none → s.KeepsPlace e := by
    intro hswitches i hi
    rw [hswitches] at hi
    cases hi
  have hpoints : t.PointsAt ↔ t.board.standing.index = t.board.standing.shown := Iff.rfl
  have hmoves := moves_next hstep
  rw [hpoints]
  generalize t.board.standing = standing at hmoves ⊢
  cases hmoves with
  | stays _ _ hswitches => exact iff_of_true (hquiet hswitches) h
  | enables enable _ _ hswitches => exact iff_of_true (hquiet hswitches) h
  | opens _ _ hswitches => exact iff_of_true (hquiet hswitches) rfl
  | selects i page _ _ hswitches _ => exact iff_of_true (hquiet hswitches) rfl
  | appends _ _ hswitches => exact iff_of_true (hquiet hswitches) rfl
  | switches i _ _ hswitches =>
    constructor
    · intro hkeeps
      exact (hkeeps i hswitches).symm
    · intro heq j hj
      obtain rfl := Option.some.inj (hswitches.symm.trans hj)
      exact heq.symm

/-- In every state of a run the index is the place of the page that is shown, when and only when every
page switch from the network to a page that is there leads to the page at the index. -/
lemma sessions_pointsAt_iff (env : Surroundings) (unzip : Bytes → Bytes) (es : List LiveEvent) :
    (sessions env unzip).EveryState PointsAt (new env) es ↔
      (sessions env unzip).EveryStep KeepsPlace (new env) es := by
  have hfirst : (new env).PointsAt := rfl
  exact System.everyState_iff (I := fun _ => True) ⟨trivial, hfirst⟩
    (fun s e t _ hpoints hstep => ⟨keepsPlace_iff hpoints hstep, fun _ => trivial⟩) es

/-- A page that is selected is shown. -/
lemma shown_of_selected {e : LiveEvent} {i : Nat} (hselects : selected s.board e = some i)
    (hstep : s.next unzip e = some t) : (t.board.currentPage : Nat) = i := by
  have hshown : (t.board.currentPage : Nat) = t.board.standing.shown := rfl
  have hmoves := moves_next hstep
  rw [hshown]
  generalize t.board.standing = standing at hmoves ⊢
  cases hmoves with
  | selects j page _ hj _ _ => exact Option.some.inj (hj.symm.trans hselects)
  | stays _ hnone _ => cases hnone.symm.trans hselects
  | enables _ _ hnone _ => cases hnone.symm.trans hselects
  | opens _ hnone _ => cases hnone.symm.trans hselects
  | switches _ _ hnone _ => cases hnone.symm.trans hselects
  | appends _ hnone _ => cases hnone.symm.trans hselects

/-- Previous shows the page before the one that is shown, and next the page behind it, where there is
one. -/
def StepsToNeighbours (unzip : Bytes → Bytes) (s : LivePages) : Prop :=
  (∀ t, s.next unzip .previousPage = some t →
    (t.board.currentPage : Nat) = s.board.currentPage - 1) ∧
  ∀ t, s.next unzip .nextPage = some t →
    (t.board.currentPage : Nat) =
      min ((s.board.currentPage : Nat) + 1) (s.board.allPages.length - 1)

/-- With the index at the page that is shown, previous and next lead to its neighbours. -/
lemma PointsAt.stepsToNeighbours (h : s.PointsAt) : s.StepsToNeighbours unzip := by
  have hlt : (s.board.currentPage : Nat) < s.board.allPages.length := s.board.currentPage.isLt
  constructor
  · intro t hstep
    by_cases hfirst : s.board.currentPageIndex = 0
    · have hstays : s.next unzip .previousPage = some s := by
        simp only [next, LiveBoard.onPreviousPageTriggered, if_pos hfirst, Option.map_some]
      obtain rfl := Option.some.inj (hstays.symm.trans hstep)
      rw [← h, hfirst]
    · have hselects : selected s.board .previousPage = some (s.board.currentPageIndex - 1) :=
        if_neg hfirst
      rw [shown_of_selected hselects hstep, h]
  · intro t hstep
    by_cases hlast : s.board.allPages.length - 1 ≤ s.board.currentPageIndex
    · have hstays : s.next unzip .nextPage = some s := by
        simp only [next, LiveBoard.onNextPageTriggered, if_pos hlast, Option.map_some]
      obtain rfl := Option.some.inj (hstays.symm.trans hstep)
      rw [h] at hlast
      omega
    · have hselects : selected s.board .nextPage = some (s.board.currentPageIndex + 1) :=
        if_neg hlast
      rw [h] at hlast
      rw [shown_of_selected hselects hstep, h]
      omega

end LivePages

end Liangshi
