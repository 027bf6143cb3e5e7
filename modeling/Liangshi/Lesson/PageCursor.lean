import Liangshi.Lesson.RecordedTrack
import Liangshi.Live.ShownPage

/-!
# The page cursor of a lesson

A recorder keeps the page that is shown twice, as a pointer and as an index, like a live widget.  Its
operations on pages set both.  Where a recording begins from a lesson they are set apart: adding the
pages of a player leaves the index at the last one, and the page that is shown is then set without the
index or not at all.

`cursors_iff` is the condition for both widgets.
-/

namespace Liangshi

open Wire Ordered Transition

/-! ## The pages of a player -/

namespace PlayerWidget

variable {env : PlayerSurroundings} {p : PlayerWidget}

/-- The uuids of the pages by key. -/
def names (p : PlayerWidget) : OrderedMap Bytes (Option Bytes) :=
  p.allPages.mapValues (Option.map (·.uuid))

/-- The uuids that the pages have in their initial states. -/
def initialNames (env : PlayerSurroundings) (p : PlayerWidget) : OrderedMap Bytes (Option Bytes) :=
  p.allPages.mapValues (Option.map fun page => (env.resetElementToInit page).uuid)

/-- The page that a player shows when it has gone to a time: the one the last switch before the time
leads to. -/
def shownAt (p : PlayerWidget) (time : Int32) : Option Bytes :=
  (actionsBefore time p.actions).foldl
    (fun shown a => if a.isSwitch then some a.targetScUuid else shown) p.currentPage

/-- A page is null. -/
def HasNull (p : PlayerWidget) : Prop := ∃ key, p.allPages.find key = some none

/-- The pages have given uuids, unless one is null. -/
def Named (uuids : OrderedMap Bytes (Option Bytes)) (p : PlayerWidget) : Prop :=
  p.HasNull ∨ p.names = uuids

/-- Playing an action on a page keeps its uuid. -/
lemma uuid_playAction (d : DoubleArithmetic) (page : Page) (a : AnimationAction) :
    (page.playAction d a).uuid = page.uuid := by
  obtain ⟨heap, drawingElements, heq⟩ := page.playAction_eq d a
  rw [heq]

/-- Playing an action keeps the uuids, and shows a page that it switches to. -/
lemma ends_playAction {uuids : OrderedMap Bytes (Option Bytes)} (h : p.Named uuids)
    (a : AnimationAction) : Ends (p.playAction env a)
      (fun q => q.Named uuids ∧
        q.currentPage = if a.isSwitch then some a.targetScUuid else p.currentPage)
      (· = .nullPage) := by
  unfold playAction playSwitchPageAction pageAt
  by_cases hswitch : a.isSwitch
  · rw [if_pos hswitch, if_pos hswitch]
    cases p.allPages.find a.targetScUuid with
    | none => rfl
    | some page =>
      cases page with
      | none => rfl
      | some page => exact ⟨h, rfl⟩
  · rw [if_neg hswitch, if_neg hswitch]
    cases hfind : p.allPages.find a.targetScUuid with
    | none => exact ⟨.inl ⟨a.targetScUuid, by simp⟩, rfl⟩
    | some page =>
      cases page with
      | none => exact ⟨h, rfl⟩
      | some page =>
        refine ⟨h.imp ?_ fun hnames => ?_, rfl⟩
        · rintro ⟨key, hkey⟩
          have hne : a.targetScUuid ≠ key := by
            rintro rfl
            rw [hfind] at hkey
            cases hkey
          exact ⟨key, by rw [OrderedMap.find_insert, if_neg hne, hkey]⟩
        · have hname : p.names.find a.targetScUuid = some (some page.uuid) := by
            rw [names, OrderedMap.find_mapValues, hfind]
            rfl
          rw [← hnames]
          unfold names at hname ⊢
          dsimp only
          rw [OrderedMap.mapValues_insert, Option.map_some, uuid_playAction,
            OrderedMap.insert_of_find hname]

/-- Playing actions keeps the uuids, and shows the page that the last switch leads to. -/
lemma ends_playActions {uuids : OrderedMap Bytes (Option Bytes)} (h : p.Named uuids)
    (l : List AnimationAction) : Ends (p.playActions env l)
      (fun q => q.Named uuids ∧ q.currentPage =
        l.foldl (fun shown a => if a.isSwitch then some a.targetScUuid else shown) p.currentPage)
      (· = .nullPage) := by
  unfold playActions
  induction l generalizing p with
  | nil => exact ⟨h, rfl⟩
  | cons a l ih =>
    rw [List.foldlM_cons]
    refine (ends_playAction h a).bind fun q hq => ?_
    rw [List.foldl_cons, ← hq.2]
    exact ih hq.1

/-- A player that has gone to a time shows the page that the last switch before it leads to, and its
pages are the initial ones by uuid, unless one is null. -/
lemma ends_gotoTime (p : PlayerWidget) (time : Int32) : Ends (p.gotoTime env time)
    (fun q => q.Named (p.initialNames env) ∧ q.currentPage = p.shownAt time) (· = .nullPage) := by
  unfold gotoTime resetPages
  split_ifs
  · rfl
  · have hnames : ({ p with
        allPages := p.allPages.mapValues fun page => page.map env.resetElementToInit
        actions := (getUnAnimatedActions time (p.actions.map (·.setPlayed false))).2 } :
          PlayerWidget).Named (p.initialNames env) := by
      refine .inr ?_
      simp only [names, initialNames, OrderedMap.mapValues, List.map_map]
      congr
      funext e
      simp [Function.comp_def]
    have htaken : (getUnAnimatedActions time (p.actions.map (·.setPlayed false))).1 =
        (actionsBefore time p.actions).map (·.setPlayed false) := by
      unfold getUnAnimatedActions takeActions
      dsimp only
      rw [actionsBefore_setPlayed]
      refine List.filter_eq_self.mpr fun a ha => ?_
      obtain ⟨b, -, rfl⟩ := List.mem_map.mp ha
      rfl
    dsimp only [Except.bind]
    rw [htaken]
    refine (ends_playActions hnames _).mono fun q hq => ⟨hq.1, hq.2.trans ?_⟩
    rw [List.foldl_map]
    rfl

/-- The page that a player shows when it has gone to a time has the uuid of the last one. -/
def ShowsLast (env : PlayerSurroundings) (p : PlayerWidget) (time : Int32) : Prop :=
  ∃ key uuid, p.shownAt time = some key ∧ (p.initialNames env).find key = some (some uuid) ∧
    (p.initialNames env).entries.getLast?.map (·.2) = some (some uuid)

end PlayerWidget

/-! ## The recorder -/

namespace KeWidget

variable {widget widget' : KeWidget} {now : Instant}

/-- The page that is shown is the one at the index, whenever there is a page. -/
def PointsAt (widget : KeWidget) : Prop :=
  widget.allPages ≠ [] → widget.currentPage = some widget.currentPageIndex ∧
    widget.currentPageIndex < widget.allPages.length

/-- A page that is selected is the one at the index. -/
lemma pointsAt_onSelectPageTriggered {page : Nat}
    (h : widget.onSelectPageTriggered now page = some widget') :
    widget'.PointsAt ∧ widget'.currentPage = some page := by
  obtain ⟨uuid, hget, rfl⟩ := Option.map_eq_some_iff.mp h
  exact ⟨fun _ => ⟨rfl, (List.getElem?_eq_some_iff.mp hget).1⟩, rfl⟩

/-- A step keeps the pages and the page that is shown, or shows the page at the index. -/
lemma pointsAt_next (h : widget.PointsAt) {e : KeEvent} (hstep : widget.next now e = some widget') :
    widget'.PointsAt := by
  cases e with
  | newPage uuid =>
    obtain rfl := Option.some.inj hstep
    refine fun _ => ⟨rfl, ?_⟩
    change widget.allPages.length < (widget.allPages ++ [uuid]).length
    simp
  | previousPage =>
    replace hstep : widget.onPreviousPageTriggered now = some widget' := hstep
    unfold onPreviousPageTriggered at hstep
    split_ifs at hstep
    · obtain rfl := Option.some.inj hstep
      exact h
    · exact (pointsAt_onSelectPageTriggered hstep).1
  | nextPage =>
    replace hstep : widget.onNextPageTriggered now = some widget' := hstep
    unfold onNextPageTriggered at hstep
    split_ifs at hstep
    · obtain rfl := Option.some.inj hstep
      exact h
    · exact (pointsAt_onSelectPageTriggered hstep).1
  | selectPage page => exact (pointsAt_onSelectPageTriggered hstep).1
  | record hasMicrophone =>
    obtain rfl := Option.some.inj hstep
    unfold onRecordTriggered
    dsimp only
    split_ifs <;> exact h
  | start =>
    obtain rfl := Option.some.inj hstep
    exact h
  | pause =>
    obtain rfl := Option.some.inj hstep
    exact h
  | reset =>
    obtain rfl := Option.some.inj hstep
    exact h
  | recordTime time =>
    obtain rfl := Option.some.inj hstep
    exact h
  | action action =>
    obtain rfl := Option.some.inj hstep
    exact h

/-- Previous shows the page before the one that is shown, and next the page behind it, where there is
one. -/
def StepsToNeighbours (widget : KeWidget) : Prop :=
  ∀ i now widget', widget.allPages ≠ [] → widget.currentPage = some i →
    (widget.next now .previousPage = some widget' → widget'.currentPage = some (i - 1)) ∧
    (widget.next now .nextPage = some widget' →
      widget'.currentPage = some (min (i + 1) (widget.allPages.length - 1)))

/-- With the index at the page that is shown, previous and next lead to its neighbours. -/
lemma PointsAt.stepsToNeighbours (h : widget.PointsAt) : widget.StepsToNeighbours := by
  intro i now widget' hpages hshown
  obtain ⟨hcurrent, hlt⟩ := h hpages
  obtain rfl : widget.currentPageIndex = i := Option.some.inj (hcurrent.symm.trans hshown)
  constructor
  · intro hstep
    replace hstep : widget.onPreviousPageTriggered now = some widget' := hstep
    unfold onPreviousPageTriggered at hstep
    split_ifs at hstep with hfirst
    · obtain rfl := Option.some.inj hstep
      rw [hshown, hfirst]
    · exact (pointsAt_onSelectPageTriggered hstep).2
  · intro hstep
    replace hstep : widget.onNextPageTriggered now = some widget' := hstep
    unfold onNextPageTriggered at hstep
    split_ifs at hstep with hlast
    · obtain rfl := Option.some.inj hstep
      rw [hshown, min_eq_right (by omega)]
      congr 1
      omega
    · rw [(pointsAt_onSelectPageTriggered hstep).2, min_eq_left (by
        have := not_and.mp hlast hpages
        omega)]

/-! ## Beginnings -/

/-- The index is at the last page. -/
def AtLast (widget : KeWidget) : Prop := widget.currentPageIndex + 1 = widget.allPages.length

/-- What the pages of a player make of a widget. -/
structure HasAdded (widget : KeWidget) (uuids : List Bytes) (widget' : KeWidget) : Prop where
  allPages : widget'.allPages = widget.allPages ++ uuids
  currentPage : widget'.currentPage = widget.currentPage
  atLast : uuids ≠ [] ∨ widget.AtLast → widget'.AtLast

/-- The pages of a player are added, and none of them is null. -/
lemma ends_addPages (player : PlayerWidget) : Ends (widget.addPlayerPages now player)
    (fun widget' => ∃ uuids : List Bytes, player.names.entries.map (·.2) = uuids.map some ∧
      widget.HasAdded uuids widget') (· = .nullPage) := by
  have hnames : player.names.entries.map (·.2) =
      player.allPages.entries.map fun entry => entry.2.map (·.uuid) := List.map_map
  rw [hnames]
  unfold addPlayerPages
  generalize player.allPages.entries = entries
  induction entries generalizing widget with
  | nil => exact ⟨[], rfl, (List.append_nil _).symm, rfl, fun h => h.resolve_left (not_not.mpr rfl)⟩
  | cons entry entries ih =>
    rw [List.foldlM_cons]
    cases hpage : entry.2 with
    | none => rfl
    | some page =>
      have hlast : (widget.addPage now page.uuid false).AtLast := by
        change widget.allPages.length + 1 = (widget.allPages ++ [page.uuid]).length
        simp
      refine (@ih (widget.addPage now page.uuid false)).mono fun widget' h => ?_
      obtain ⟨uuids, huuids, hadded⟩ := h
      refine ⟨page.uuid :: uuids, ?_, ?_, hadded.currentPage, fun _ => hadded.atLast (.inr hlast)⟩
      · rw [List.map_cons, hpage, huuids]
        rfl
      · rw [hadded.allPages]
        exact List.append_assoc _ _ _

/-- The last number below a bound that passes a test is the last one of all exactly when that one passes
it. -/
lemma getLast?_filter_range (n : Nat) (test : Nat → Bool) :
    ((List.range (n + 1)).filter test).getLast? = some n ↔ test n := by
  rw [List.range_succ, List.filter_append, List.filter_singleton]
  by_cases htest : test n
  · simp [htest]
  · rw [Bool.eq_false_of_not_eq_true htest, cond_false, List.append_nil]
    refine iff_of_false (fun hlast => ?_) Bool.false_ne_true
    have hmem := (List.mem_filter.mp (List.mem_of_getLast? hlast)).1
    exact lt_irrefl n (List.mem_range.mp hmem)

/-- A page is shown that is at the index exactly when the last page has its uuid. -/
lemma pointsAt_showPage_iff (widget : KeWidget) (uuid : Bytes) (hpages : widget.allPages ≠ [])
    (hlast : widget.AtLast)
    (hnone : widget.currentPage = none) :
    (widget.showPage uuid).PointsAt ↔ widget.allPages.getLast? = some uuid := by
  have hsame : (widget.showPage uuid).allPages = widget.allPages ∧
      (widget.showPage uuid).currentPageIndex = widget.currentPageIndex := by
    unfold showPage
    split <;> exact ⟨rfl, rfl⟩
  have hshown : (widget.showPage uuid).currentPage =
      ((List.range widget.allPages.length).filter fun j =>
        decide (widget.allPages[j]? = some uuid)).getLast? := by
    unfold showPage
    split
    · rename_i j hj
      rw [hj]
    · rename_i hj
      rw [hj, hnone]
  have hindex : widget.currentPageIndex < widget.allPages.length := hlast ▸ Nat.lt_succ_self _
  unfold PointsAt
  rw [hsame.1, hsame.2, hshown, ← hlast, getLast?_filter_range, decide_eq_true_iff,
    List.getLast?_eq_getElem?, ← hlast, Nat.add_sub_cancel]
  rw [hlast]
  constructor
  · intro h
    exact (h hpages).1
  · intro h _
    exact ⟨h, hindex⟩

/-- No page is null when all of them have uuids. -/
lemma not_hasNull {player : PlayerWidget} {uuids : List Bytes}
    (h : player.names.entries.map (·.2) = uuids.map some) : ¬ player.HasNull := by
  rintro ⟨key, hkey⟩
  have hname : player.names.find key = some none := by
    rw [PlayerWidget.names, OrderedMap.find_mapValues, hkey]
    rfl
  have hmem : none ∈ player.names.entries.map (·.2) :=
    List.mem_map.mpr ⟨_, OrderedMap.find_eq_some.mp hname, rfl⟩
  rw [h] at hmem
  obtain ⟨uuid, -, hnone⟩ := List.mem_map.mp hmem
  cases hnone

/-- The uuid of the page that a player shows. -/
lemma ends_shownUuid (player : PlayerWidget) : Ends (shownUuid player)
    (fun uuid => ∃ key, player.currentPage = some key ∧ player.names.find key = some (some uuid))
    (· = .nullPage) := by
  unfold shownUuid
  split
  · rename_i page hpage
    obtain ⟨key, hkey, hfind⟩ := Option.bind_eq_some_iff.mp hpage
    refine ⟨key, hkey, ?_⟩
    rw [PlayerWidget.names, OrderedMap.find_mapValues, hfind]
    rfl
  · rfl

/-- A widget that records again shows the page at the index exactly when the player shows its last
page. -/
lemma ends_pointsAt_onReRecordTriggered (env : PlayerSurroundings) (hadesTime : Int32) (uuid : Bytes)
    (player : PlayerWidget) (time : Int32) :
    Ends (onReRecordTriggered env now hadesTime uuid player time)
      (fun widget => widget.PointsAt ↔ player.ShowsLast env time) (· = .nullPage) := by
  refine (PlayerWidget.ends_gotoTime player time).bind fun player' hplayer => ?_
  refine (ends_addPages player').bind fun widget hwidget => ?_
  refine (ends_shownUuid player').bind fun shown hshown => ?_
  obtain ⟨uuids, huuids, hadded⟩ := hwidget
  obtain ⟨key, hkey, hfind⟩ := hshown
  have hnames : player'.names = player.initialNames env :=
    hplayer.1.resolve_left (not_hasNull huuids)
  have hallPages : widget.allPages = uuids := hadded.allPages
  have hne : uuids ≠ [] := by
    rintro rfl
    have hmem := List.mem_map_of_mem (f := (·.2)) (OrderedMap.find_eq_some.mp hfind)
    rw [huuids] at hmem
    cases hmem
  have hlast : (player.initialNames env).entries.getLast?.map (·.2) = uuids.getLast?.map some := by
    rw [← hnames, ← List.getLast?_map, huuids, List.getLast?_map]
  have hpoints := pointsAt_showPage_iff
    { widget with actions := player'.actions.filter fun a => a.time ≤ time } shown
    (by rw [hallPages]; exact hne) (hadded.atLast (.inl hne)) hadded.currentPage
  refine hpoints.trans ?_
  rw [hallPages]
  rw [hnames] at hfind
  constructor
  · intro heq
    exact ⟨key, shown, hplayer.2.symm.trans hkey, hfind, by rw [hlast, heq]; rfl⟩
  · rintro ⟨key', uuid', hkey', hfind', heq⟩
    obtain rfl := Option.some.inj (hkey.symm.trans (hplayer.2.trans hkey'))
    obtain rfl := Option.some.inj (Option.some.inj (hfind.symm.trans hfind'))
    rw [hlast] at heq
    obtain ⟨uuid'', hget, hsome⟩ := Option.map_eq_some_iff.mp heq
    rwa [Option.some.inj hsome] at hget

/-- A widget that is opened with a lesson shows the page at the index exactly when the lesson has no
pages. -/
lemma ends_pointsAt_loadKeAsKeWidget (hadesTime : Int32) (uuid : Bytes)
    (player : Option PlayerWidget) (duration : Int32) :
    Ends (loadKeAsKeWidget now hadesTime uuid player duration)
      (fun widget => widget.PointsAt ↔ ∀ p, player = some p → p.allPages.entries = [])
      (· = .nullPage) := by
  cases player with
  | none => exact iff_of_true (fun _ => ⟨rfl, Nat.one_pos⟩) nofun
  | some p =>
    refine (ends_addPages p).bind fun widget hwidget => ?_
    obtain ⟨uuids, huuids, hadded⟩ := hwidget
    have hallPages : widget.allPages = uuids := hadded.allPages
    have hcurrent : widget.currentPage = none := hadded.currentPage
    have hempty : p.allPages.entries = [] ↔ uuids = [] := by
      rw [← List.map_eq_nil_iff (f := some) (l := uuids), ← huuids, List.map_eq_nil_iff]
      exact List.map_eq_nil_iff.symm
    constructor
    · intro hpoints q hq
      obtain rfl := Option.some.inj hq
      refine hempty.mpr (by_contra fun hne => ?_)
      have hshown := (hpoints (by rw [← hallPages] at hne; exact hne)).1
      rw [show _ = none from hcurrent] at hshown
      cases hshown
    · intro hpages hne
      exact absurd (hallPages.trans (hempty.mp (hpages p rfl))) hne

end KeWidget

/-! ## Runs -/

/-- How a recorder comes to be: a recording begins, or a lesson is opened with the length of its
audio. -/
inductive KeOpening where
  | begins (start : KeStart)
  | opens (player : Option PlayerWidget) (duration : Int32)

namespace KeOpening

/-- The widget that comes to be. -/
def widget (env : PlayerSurroundings) (now : Instant) (hadesTime : Int32) (uuid : Bytes) :
    KeOpening → Except PlayerFault KeWidget
  | .begins start => start.widget env now hadesTime uuid
  | .opens player duration => KeWidget.loadKeAsKeWidget now hadesTime uuid player duration

/-- The recorder is new, or it records again where the player shows its last page, or it is opened with
a lesson without pages. -/
def PointsAt (env : PlayerSurroundings) : KeOpening → Prop
  | .begins .fresh => True
  | .begins (.reRecord player time) => player.ShowsLast env time
  | .opens player _ => ∀ p, player = some p → p.allPages.entries = []

end KeOpening

/-- In every state of a recording the page at the index is shown exactly when it is so at the
beginning. -/
lemma recording_pointsAt_iff {env : PlayerSurroundings} {now : Instant} {hadesTime : Int32}
    {uuid : Bytes} {opening : KeOpening} {s : KeWidget}
    (h : opening.widget env now hadesTime uuid = .ok s) (es : List (Instant × KeEvent)) :
    (recording s).EveryState KeWidget.PointsAt s es ↔ opening.PointsAt env := by
  have hbegins : s.PointsAt ↔ opening.PointsAt env := by
    cases opening with
    | opens player duration =>
      exact (KeWidget.ends_pointsAt_loadKeAsKeWidget hadesTime uuid player duration).of_eq h
    | begins start =>
      cases start with
      | fresh =>
        obtain rfl := Except.ok.inj h
        exact iff_of_true (fun _ => ⟨rfl, Nat.one_pos⟩) trivial
      | reRecord player time =>
        exact (KeWidget.ends_pointsAt_onReRecordTriggered env hadesTime uuid player time).of_eq h
  rw [← hbegins]
  constructor
  · intro hstates
    exact hstates [] es s rfl (.nil s)
  · intro hpoints first others t _ hrun
    exact hrun.invariant (fun _ e _ hI (hstep : (recording s).step _ e _) =>
      KeWidget.pointsAt_next hI hstep.2) hpoints

/-- In every state of a live widget and of a recorder the page at the index is shown, and previous and
next lead to its neighbours, when and only when every page switch from the network to a page that is
there leads to the page at the index, and the recorder begins at the last page of its lesson. -/
theorem cursors_iff (surroundings : Surroundings) (unzip : Bytes → Bytes) (live : List LiveEvent)
    (env : PlayerSurroundings) (now : Instant) (hadesTime : Int32) (uuid : Bytes)
    (opening : KeOpening) (s : KeWidget) (h : opening.widget env now hadesTime uuid = .ok s)
    (es : List (Instant × KeEvent)) :
    ((LivePages.sessions surroundings unzip).EveryState
        (fun t => t.PointsAt ∧ t.StepsToNeighbours unzip) (.new surroundings) live ↔
      (LivePages.sessions surroundings unzip).EveryStep LivePages.KeepsPlace (.new surroundings)
        live) ∧
    ((recording s).EveryState (fun widget => widget.PointsAt ∧ widget.StepsToNeighbours) s es ↔
      opening.PointsAt env) := by
  have hlive : (fun t : LivePages => t.PointsAt ∧ t.StepsToNeighbours unzip) = LivePages.PointsAt :=
    funext fun t => propext (and_iff_left_of_imp LivePages.PointsAt.stepsToNeighbours)
  have hlesson : (fun widget : KeWidget => widget.PointsAt ∧ widget.StepsToNeighbours) =
      KeWidget.PointsAt :=
    funext fun widget => propext (and_iff_left_of_imp KeWidget.PointsAt.stepsToNeighbours)
  rw [hlive, hlesson]
  exact ⟨LivePages.sessions_pointsAt_iff surroundings unzip live, recording_pointsAt_iff h es⟩

/-- The command that switches to a page. -/
def switchTo (page : Page) : LokiCommand :=
  let action : AnimationAction :=
    ⟨page.uuid, [], 0, .networkSwitchPage (.ofData page.getMsgPackData.2), false⟩
  .boardData ⟨[], (BoardData.mk action.getType.toInt (.ofData action.getMsgPackData)).getMsgPackData
    ⟨0, false⟩⟩

/-- A teacher shows two pages and the first one again. -/
def switchingBack : List LiveEvent :=
  [.command LiveBoard.plainSurroundings (switchTo (.new [1])),
    .command LiveBoard.plainSurroundings (switchTo (.new [2])),
    .command LiveBoard.plainSurroundings (switchTo (.new [1]))]

/-- A new recorder, and a live widget to which two pages are shown. -/
theorem cursors_iff_twoPages :
    (LivePages.sessions LiveBoard.plainSurroundings id).EveryState
        (fun t => t.PointsAt ∧ t.StepsToNeighbours id) (.new LiveBoard.plainSurroundings)
        (switchingBack.take 2) ∧
    (recording (.new 0 0 [1])).EveryState
        (fun widget => widget.PointsAt ∧ widget.StepsToNeighbours) (.new 0 0 [1])
        [(0, .newPage [2])] := by
  obtain ⟨hlive, hlesson⟩ := cursors_iff LiveBoard.plainSurroundings id (switchingBack.take 2)
    noDocuments 0 0 [1] (.begins .fresh) _ rfl [(0, .newPage [2])]
  refine ⟨hlive.mpr ?_, hlesson.mpr trivial⟩
  -- neither page is there when it is shown
  have hfirst : LivePages.switchedTo (LivePages.new LiveBoard.plainSurroundings).board
      (.command LiveBoard.plainSurroundings (switchTo (.new [1]))) = none := by
    decide +kernel
  have hsecond : ((LivePages.new LiveBoard.plainSurroundings).next id
      (.command LiveBoard.plainSurroundings (switchTo (.new [1])))).all (fun t =>
        decide (LivePages.switchedTo t.board
          (.command LiveBoard.plainSurroundings (switchTo (.new [2]))) = none)) = true := by
    decide +kernel
  refine .cons (fun i hi => ?_) fun t ht => .cons (fun i hi => ?_) fun t' _ => .nil t'
  · rw [hfirst] at hi
    cases hi
  · rw [of_decide_eq_true ((Option.all_eq_true _ _).mp hsecond t ht)] at hi
    cases hi

/-- The index of a live widget stays at the second page when the first one is shown again. -/
theorem not_pointsAt_switchingBack :
    ¬ (LivePages.sessions LiveBoard.plainSurroundings id).EveryState LivePages.PointsAt
      (.new LiveBoard.plainSurroundings) switchingBack := by
  intro h
  have hlast : ((switchingBack.foldlM (LivePages.next id)
      (LivePages.new LiveBoard.plainSurroundings)).any fun s => decide (¬ s.PointsAt)) = true := by
    decide +kernel
  obtain ⟨s, hs, hnot⟩ := (Option.any_eq_true _ _).mp hlast
  exact of_decide_eq_true hnot
    (h switchingBack [] s (List.append_nil _).symm (.foldlM (fun _ _ _ hnext => hnext) hs))

end Liangshi
