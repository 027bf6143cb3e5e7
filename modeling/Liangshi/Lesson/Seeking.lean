import Liangshi.Lesson.KeTime
import Liangshi.Lesson.PlayerSafety

/-!
# Seeking in a lesson

A tick of the player plays what is left of the page that was last switched to, a seek resets the pages
and does the same, and `GotoTime` resets them and plays the actions of all pages.  What is shown at a
time is told by the actions before it alone: the page of the last switch among them, with the actions
of that page played in their order.  The three ways of getting there all show that, provided that
resetting a page gives it back as it was loaded (`seeking_agrees`).

A seek sets the stopwatch, and the title bar resets the stopwatch and with it the pages when the time is
behind the end of the media.
-/

namespace Liangshi

open Wire MessagePack Ordered Transition

/-! ## The window of a player -/

/-- A player with its stopwatch, and the total time that the title bar has been told, which is the length
of the media. -/
structure LessonWindow where
  player : PlayerWidget
  keTime : KeTime
  totalTime : Int32

namespace LessonWindow

/-- `OnTimeUpdateTriggered` of the title bar; the reset of the stopwatch resets the pages. -/
def onTimeUpdateTriggered (env : PlayerSurroundings) (now : Instant) (time : Int32) (w : LessonWindow) :
    Except PlayerFault LessonWindow :=
  if time ≤ w.totalTime then .ok w
  else (w.player.resetPages env).map fun player =>
    { w with player, keTime := (w.keTime.pause now).reset }

/-- `SetAnimatedTime` of the stopwatch, with the slot of the title bar. -/
def setAnimatedTime (env : PlayerSurroundings) (now : Instant) (time : Int32) (w : LessonWindow) :
    Except PlayerFault LessonWindow :=
  let keTime := w.keTime.setAnimatedTime now time
  { w with keTime }.onTimeUpdateTriggered env now (keTime.getAnimatedTime now)

/-- `AnimatedTriggered`. -/
def animatedTriggered (env : PlayerSurroundings) (now : Instant) (w : LessonWindow) :
    Except PlayerFault LessonWindow :=
  (w.player.animatedTriggered env (w.keTime.getAnimatedTime now)).map fun player => { w with player }

/-- `OnGotoPosition`. -/
def onGotoPosition (env : PlayerSurroundings) (now : Instant) (time : Int32) (w : LessonWindow) :
    Except PlayerFault LessonWindow := do
  let player ← w.player.resetPages env
  let w ← { w with player }.setAnimatedTime env now time
  if w.keTime.isPausing then w.animatedTriggered env now else .ok w

/-- `GotoTime`. -/
def gotoTime (env : PlayerSurroundings) (now : Instant) (time : Int32) (w : LessonWindow) :
    Except PlayerFault LessonWindow := do
  let player ← w.player.resetPages env
  let w ← { w with player }.setAnimatedTime env now time
  let (taken, actions) :=
    PlayerWidget.getUnAnimatedActions (w.keTime.getAnimatedTime now) w.player.actions
  ({ w.player with actions }.playActions env taken).map fun player => { w with player }

end LessonWindow

/-! ## What actions lead to -/

/-- An action on a page. -/
def AnimationAction.isOn (uuid : Bytes) (a : AnimationAction) : Bool :=
  !a.isSwitch && a.targetScUuid == uuid

/-- What actions make of a page. -/
def Page.drawnBy (d : DoubleArithmetic) (uuid : Bytes) (page : Page) (actions : List AnimationAction) :
    Page :=
  (actions.filter (·.isOn uuid)).foldl (Page.playAction d) page

/-- The page that is switched to last. -/
def switchedTo (actions : List AnimationAction) : Option Bytes :=
  (actions.filter (·.isSwitch)).getLast?.map (·.targetScUuid)

namespace Page

variable {d : DoubleArithmetic} {uuid : Bytes} {page : Page}

/-- What is drawn by some actions and others behind them. -/
lemma drawnBy_append (actions actions' : List AnimationAction) :
    page.drawnBy d uuid (actions ++ actions') =
      (page.drawnBy d uuid actions).drawnBy d uuid actions' := by
  unfold drawnBy
  rw [List.filter_append, List.foldl_append]

/-- Actions of other pages do nothing. -/
lemma drawnBy_of_forall {actions : List AnimationAction} (h : ∀ a ∈ actions, a.isOn uuid = false) :
    page.drawnBy d uuid actions = page := by
  have hnone : actions.filter (·.isOn uuid) = [] :=
    List.filter_eq_nil_iff.mpr fun a ha => by rw [h a ha]; exact Bool.false_ne_true
  rw [drawnBy, hnone, List.foldl_nil]

/-- Whether actions have been played does not matter to what they do. -/
lemma drawnBy_map_setPlayed (played : AnimationAction → Bool) (actions : List AnimationAction) :
    page.drawnBy d uuid (actions.map fun a => a.setPlayed (played a)) = page.drawnBy d uuid actions := by
  unfold drawnBy
  rw [List.filter_map, List.foldl_map]
  rfl

end Page

/-- The last switch is one of the later actions, if there is one. -/
lemma switchedTo_append (actions actions' : List AnimationAction) :
    switchedTo (actions ++ actions') = (switchedTo actions').or (switchedTo actions) := by
  unfold switchedTo
  rw [List.filter_append, List.getLast?_append]
  cases (actions'.filter (·.isSwitch)).getLast? <;> rfl

/-- Actions that are no switches switch to no page. -/
lemma switchedTo_of_forall {actions : List AnimationAction} (h : ∀ a ∈ actions, a.isSwitch = false) :
    switchedTo actions = none := by
  have hnone : actions.filter (·.isSwitch) = [] :=
    List.filter_eq_nil_iff.mpr fun a ha => by rw [h a ha]; exact Bool.false_ne_true
  rw [switchedTo, hnone]
  rfl

/-- Playing the actions of a page alone comes to the same. -/
lemma Page.drawnBy_filter_isOn (d : DoubleArithmetic) (uuid : Bytes) (page : Page)
    (actions : List AnimationAction) :
    page.drawnBy d uuid (actions.filter (·.isOn uuid)) = page.drawnBy d uuid actions := by
  unfold drawnBy
  rw [List.filter_filter]
  simp only [Bool.and_self]

namespace PlayerWidget

variable {env : PlayerSurroundings} {p : PlayerWidget}

/-- A page that is there. -/
lemma find_of_hasPage {uuid : Bytes} (h : p.hasPage uuid) :
    ∃ page, p.allPages.find uuid = some (some page) := by
  unfold hasPage at h
  cases hfind : p.allPages.find uuid with
  | none => rw [hfind] at h; cases h
  | some entry =>
    cases entry with
    | none => rw [hfind] at h; cases h
    | some page => exact ⟨page, rfl⟩

/-- Where pages are mapped, the same ones are there. -/
lemma hasPage_eq_of_find {q : PlayerWidget} {uuid : Bytes} {f : Page → Page}
    (h : q.allPages.find uuid = (p.allPages.find uuid).map (·.map f)) :
    q.hasPage uuid = p.hasPage uuid := by
  unfold hasPage
  rw [h]
  cases p.allPages.find uuid with
  | none => rfl
  | some entry => cases entry <;> rfl

/-- Actions of other pages leave a page alone. -/
lemma map_drawnBy_of_forall (env : PlayerSurroundings) {uuid : Bytes} {actions : List AnimationAction}
    (h : ∀ a ∈ actions, a.isOn uuid = false) (entry : Option (Option Page)) :
    entry.map (·.map fun page => page.drawnBy env.doubles uuid actions) = entry := by
  simp only [Page.drawnBy_of_forall h, Option.map_id']

/-- A player that has played actions, the pages of which it has. -/
structure HasPlayed (env : PlayerSurroundings) (actions : List AnimationAction) (p q : PlayerWidget) :
    Prop where
  actions_eq : q.actions = p.actions
  currentPage_eq : q.currentPage = (switchedTo actions).or p.currentPage
  find_eq : ∀ uuid, q.allPages.find uuid =
    (p.allPages.find uuid).map (·.map fun page => page.drawnBy env.doubles uuid actions)

/-- Playing one action. -/
lemma gives_playAction {a : AnimationAction} (h : p.hasPage a.targetScUuid) :
    Gives (p.playAction env a) (p.HasPlayed env [a]) := by
  obtain ⟨page, hpage⟩ := find_of_hasPage h
  unfold playAction playSwitchPageAction pageAt
  rw [hpage]
  by_cases hswitch : a.isSwitch = true
  · rw [if_pos hswitch]
    refine .ok ⟨rfl, ?_, fun uuid => ?_⟩
    · simp [switchedTo, hswitch]
    · have hnot : ∀ b ∈ [a], b.isOn uuid = false := fun b hb => by
        rw [List.mem_singleton.mp hb, AnimationAction.isOn, hswitch]
        rfl
      exact (map_drawnBy_of_forall env hnot _).symm
  · rw [if_neg hswitch]
    have hnot : a.isSwitch = false := Bool.eq_false_iff.mpr hswitch
    refine .ok ⟨rfl, ?_, fun uuid => ?_⟩
    · simp [switchedTo, hnot]
    · rw [OrderedMap.find_insert]
      split_ifs with heq
      · have hon : a.isOn uuid = true := by simp [AnimationAction.isOn, hnot, heq]
        rw [← heq] at hon ⊢
        simp [hpage, Page.drawnBy, hon]
      · have hother : ∀ b ∈ [a], b.isOn uuid = false := fun b hb => by
          rw [List.mem_singleton.mp hb]
          simp [AnimationAction.isOn, heq]
        exact (map_drawnBy_of_forall env hother _).symm

/-- The same pages are there after playing. -/
lemma HasPlayed.hasPage_eq {actions : List AnimationAction} {q : PlayerWidget}
    (h : p.HasPlayed env actions q) (uuid : Bytes) : q.hasPage uuid = p.hasPage uuid :=
  hasPage_eq_of_find (h.find_eq uuid)

/-- Playing actions whose pages are there. -/
lemma gives_playActions {actions : List AnimationAction}
    (h : ∀ a ∈ actions, p.hasPage a.targetScUuid) :
    Gives (p.playActions env actions) (p.HasPlayed env actions) := by
  induction actions using List.reverseRecOn with
  | nil =>
    exact .ok ⟨rfl, rfl, fun uuid => (map_drawnBy_of_forall env (fun a ha => by cases ha) _).symm⟩
  | append_singleton actions a ih =>
    have hfirst := ih fun b hb => h b (List.mem_append_left _ hb)
    have hthere := h a (List.mem_append_right _ (List.mem_singleton_self a))
    unfold playActions at hfirst ⊢
    rw [List.foldlM_append]
    refine hfirst.bind fun q hq => ?_
    have hlast : Gives (q.playAction env a) (q.HasPlayed env [a]) :=
      gives_playAction ((hq.hasPage_eq _).trans hthere)
    rw [List.foldlM_cons]
    refine hlast.bind fun r hr => .ok ⟨hr.actions_eq.trans hq.actions_eq, ?_, fun uuid => ?_⟩
    · rw [hr.currentPage_eq, hq.currentPage_eq, switchedTo_append, Option.or_assoc]
    · rw [hr.find_eq, hq.find_eq]
      cases p.allPages.find uuid with
      | none => rfl
      | some entry => cases entry <;> simp [Page.drawnBy_append]

/-! ## Searching for actions -/

/-- What is taken is among the actions, and none of them is lost. -/
lemma takeActions_spec (time : Int32) (test : AnimationAction → Bool)
    (actions : List AnimationAction) : (∀ a ∈ (takeActions time test actions).1, a ∈ actions) ∧
      (takeActions time test actions).2.map (·.setPlayed false) =
        actions.map (·.setPlayed false) := by
  have hparts : actionsBefore time actions ++ actions.drop (actionsBefore time actions).length =
      actions := List.prefix_iff_eq_append.mp (List.takeWhile_prefix _)
  refine ⟨fun a ha => ?_, ?_⟩
  · have hmem : a ∈ actionsBefore time actions := List.mem_of_mem_filter ha
    exact (List.takeWhile_prefix _).subset hmem
  · have hflags : (fun a => AnimationAction.setPlayed false a) ∘
        (fun a => if test a then a.setPlayed true else a) = AnimationAction.setPlayed false := by
      funext a
      simp only [Function.comp]
      split_ifs <;> rfl
    show ((actionsBefore time actions).map _ ++ actions.drop _).map _ = _
    rw [List.map_append, List.map_map, hflags, ← List.map_append, hparts]

/-- Marking an action loses none of them. -/
lemma map_modify_setPlayed (actions : List AnimationAction) (i : Nat) :
    (actions.modify i (·.setPlayed true)).map (·.setPlayed false) =
      actions.map (·.setPlayed false) := by
  refine List.ext_getElem? fun j => ?_
  rw [List.getElem?_map, List.getElem?_map, List.getElem?_modify]
  split_ifs <;> cases actions[j]? <;> rfl

/-! ## Lessons -/

/-- A lesson as it is loaded: no action has been played, no page is null, every action has its page, and
resetting a page undoes what actions of the lesson have made of it. -/
structure IsLesson (env : PlayerSurroundings) (lesson : PlayerWidget) : Prop where
  unplayed : ∀ a ∈ lesson.actions, a.played = false
  pages : ∀ a ∈ lesson.actions, lesson.hasPage a.targetScUuid
  present : lesson.NoNullPage
  resets : ∀ uuid page, lesson.allPages.find uuid = some (some page) →
    ∀ actions, (∀ a ∈ actions, a ∈ lesson.actions) →
      env.resetElementToInit (page.drawnBy env.doubles uuid actions) = page

/-- A player somewhere in a lesson: its actions may have been played, and its pages are what actions of
the lesson have made of them. -/
structure Within (env : PlayerSurroundings) (lesson s : PlayerWidget) : Prop where
  actions : s.actions.map (·.setPlayed false) = lesson.actions
  pages : ∀ uuid, ∃ actions, (∀ a ∈ actions, a ∈ lesson.actions) ∧ s.allPages.find uuid =
    (lesson.allPages.find uuid).map (·.map fun page => page.drawnBy env.doubles uuid actions)

/-- A player as it was loaded, but for the page that is shown. -/
structure Restored (lesson s : PlayerWidget) : Prop where
  actions : s.actions = lesson.actions
  pages : ∀ uuid, s.allPages.find uuid = lesson.allPages.find uuid

variable {lesson s : PlayerWidget}

/-- No action of a lesson has been played. -/
lemma IsLesson.map_setPlayed (h : lesson.IsLesson env) :
    lesson.actions.map (·.setPlayed false) = lesson.actions := by
  refine (List.map_congr_left fun a ha => ?_).trans (List.map_id _)
  have hflag := h.unplayed a ha
  cases a
  cases hflag
  rfl

/-- A player that has been restored is one of the lesson. -/
lemma Restored.within (h : lesson.IsLesson env) (hs : lesson.Restored s) : lesson.Within env s := by
  refine ⟨hs.actions ▸ h.map_setPlayed, fun uuid => ⟨[], fun a ha => ?_, ?_⟩⟩
  · cases ha
  · rw [hs.pages, map_drawnBy_of_forall env fun a ha => by cases ha]

/-- A player of a lesson has the pages of the lesson. -/
lemma Within.hasPage_eq (h : lesson.Within env s) (uuid : Bytes) :
    s.hasPage uuid = lesson.hasPage uuid := by
  obtain ⟨actions, -, hfind⟩ := h.pages uuid
  exact hasPage_eq_of_find hfind

/-- Every action has its page. -/
lemma Within.hasPage (h : lesson.Within env s) (hlesson : lesson.IsLesson env) {a : AnimationAction}
    (ha : a.setPlayed false ∈ lesson.actions) : s.hasPage a.targetScUuid :=
  (h.hasPage_eq a.targetScUuid).trans (hlesson.pages (a.setPlayed false) ha)

/-- An action of a player is one of the lesson. -/
lemma Within.mem (h : lesson.Within env s) {a : AnimationAction} (ha : a ∈ s.actions) :
    a.setPlayed false ∈ lesson.actions := by
  rw [← h.actions]
  exact List.mem_map_of_mem ha

/-- No page of a player in a lesson is null. -/
lemma Within.noNullPage (h : lesson.Within env s) (hlesson : lesson.IsLesson env) : s.NoNullPage := by
  rintro ⟨uuid, entry⟩ hentry
  have hfind := OrderedMap.find_eq_some.mpr hentry
  obtain ⟨actions, -, heq⟩ := h.pages uuid
  rw [heq] at hfind
  obtain ⟨entry', hentry', rfl⟩ := Option.map_eq_some_iff.mp hfind
  have hpresent := hlesson.present _ (OrderedMap.find_eq_some.mp hentry')
  rwa [Option.isSome_map]

/-- Resetting the pages restores a player. -/
lemma Within.resetPages (h : lesson.Within env s) (hlesson : lesson.IsLesson env) :
    Gives (s.resetPages env) (lesson.Restored ·) := by
  have hnull : ¬ (s.allPages.entries.any fun entry => entry.2.isNone) = true := by
    rw [List.any_eq_true]
    rintro ⟨entry, hentry, hnone⟩
    have hsome := h.noNullPage hlesson entry hentry
    rw [Option.isNone_iff_eq_none.mp hnone] at hsome
    cases hsome
  unfold PlayerWidget.resetPages
  rw [if_neg hnull]
  refine .ok ⟨h.actions, fun uuid => ?_⟩
  obtain ⟨actions, hactions, hfind⟩ := h.pages uuid
  rw [OrderedMap.find_mapValues, hfind]
  cases hpage : lesson.allPages.find uuid with
  | none => rfl
  | some entry =>
    cases entry with
    | none => rfl
    | some page =>
      simp only [Option.map_some, hlesson.resets uuid page hpage actions hactions]

/-- Playing actions of the lesson keeps a player in it. -/
lemma Within.hasPlayed (h : lesson.Within env s) {actions taken : List AnimationAction}
    (hactions : actions.map (·.setPlayed false) = s.actions.map (·.setPlayed false))
    (htaken : ∀ a ∈ taken, a.setPlayed false ∈ lesson.actions) {q : PlayerWidget}
    (hq : HasPlayed env taken { s with actions } q) : lesson.Within env q := by
  refine ⟨?_, fun uuid => ?_⟩
  · rw [hq.actions_eq]
    exact hactions.trans h.actions
  · obtain ⟨before, hbefore, hfind⟩ := h.pages uuid
    refine ⟨before ++ taken.map (·.setPlayed false), fun a ha => ?_, ?_⟩
    · rcases List.mem_append.mp ha with ha | ha
      · exact hbefore a ha
      · obtain ⟨b, hb, rfl⟩ := List.mem_map.mp ha
        exact htaken b hb
    · rw [hq.find_eq]
      show (s.allPages.find uuid).map _ = _
      rw [hfind, Option.map_map]
      refine congrArg (Option.map · _) (funext fun entry => ?_)
      cases entry with
      | none => rfl
      | some page => simp [Page.drawnBy_append, Page.drawnBy_map_setPlayed (fun _ => false)]

/-- What a tick takes is among the actions, and none of them is lost. -/
lemma getLatestSwitchBoardActions_spec (time : Int32) (actions : List AnimationAction) :
    (∀ a ∈ (getLatestSwitchBoardActions time actions).1,
      a.setPlayed false ∈ actions.map (·.setPlayed false)) ∧
      (getLatestSwitchBoardActions time actions).2.map (·.setPlayed false) =
        actions.map (·.setPlayed false) := by
  unfold getLatestSwitchBoardActions
  split
  · exact ⟨fun a ha => absurd ha List.not_mem_nil, rfl⟩
  · rename_i i _
    split
    · exact ⟨fun a ha => absurd ha List.not_mem_nil, rfl⟩
    · rename_i switch hswitch
      obtain ⟨htaken, hactions⟩ := takeActions_spec time (belongsTo switch.targetScUuid)
        (actions.modify i (·.setPlayed true))
      rw [map_modify_setPlayed] at hactions
      have hmem : ∀ a ∈ (takeActions time (belongsTo switch.targetScUuid)
          (actions.modify i (·.setPlayed true))).1,
          a.setPlayed false ∈ actions.map (·.setPlayed false) := fun a ha => by
        rw [← map_modify_setPlayed actions i]
        exact List.mem_map_of_mem (htaken a ha)
      refine ⟨fun a ha => ?_, hactions⟩
      dsimp only at ha
      split_ifs at ha
      · exact hmem a ha
      · rcases List.mem_cons.mp ha with rfl | ha
        · exact List.mem_map_of_mem (List.mem_of_getElem? hswitch)
        · exact hmem a ha

/-- A tick stays in the lesson. -/
lemma Within.animatedTriggered (h : lesson.Within env s) (hlesson : lesson.IsLesson env)
    {time : Int32} {t : PlayerWidget} (ht : s.animatedTriggered env time = .ok t) :
    lesson.Within env t := by
  obtain ⟨htaken, hactions⟩ := getLatestSwitchBoardActions_spec time s.actions
  rw [h.actions] at htaken
  unfold PlayerWidget.animatedTriggered at ht
  dsimp only at ht
  split_ifs at ht with hempty
  · obtain rfl := Except.ok.inj ht
    exact ⟨hactions.trans h.actions, h.pages⟩
  · have hplay : Gives (PlayerWidget.playActions env
        { s with actions := (getLatestSwitchBoardActions time s.actions).2 }
        (getLatestSwitchBoardActions time s.actions).1) (HasPlayed env _ _) :=
      gives_playActions fun a ha => h.hasPage hlesson (htaken a ha)
    obtain ⟨q, hq, hplayed⟩ := hplay
    rw [hq] at ht
    have hupdate : q.updateCurrentPage = .ok t := ht
    unfold updateCurrentPage at hupdate
    split_ifs at hupdate
    obtain rfl := Except.ok.inj hupdate
    exact h.hasPlayed hactions htaken hplayed

/-- `GotoTime` from a restored player, by what it plays. -/
lemma Restored.gotoTime (h : lesson.Restored s) (hlesson : lesson.IsLesson env) (time : Int32) :
    Gives ({ s with actions := (getUnAnimatedActions time s.actions).2 }.playActions env
      (getUnAnimatedActions time s.actions).1) fun q => lesson.Within env q ∧
        HasPlayed env (actionsBefore time lesson.actions)
          { s with actions := (getUnAnimatedActions time s.actions).2 } q := by
  have hwithin := h.within hlesson
  obtain ⟨htaken, hactions⟩ := takeActions_spec time (fun a => !a.played) s.actions
  have hall : (getUnAnimatedActions time s.actions).1 = actionsBefore time lesson.actions := by
    rw [h.actions]
    refine List.filter_eq_self.mpr fun a ha => ?_
    rw [hlesson.unplayed a ((List.takeWhile_prefix _).subset ha)]
    rfl
  have hmem : ∀ a ∈ (getUnAnimatedActions time s.actions).1, a.setPlayed false ∈ lesson.actions :=
    fun a ha => hwithin.mem (htaken a ha)
  have hplay : Gives ({ s with actions := (getUnAnimatedActions time s.actions).2 }.playActions env
      (getUnAnimatedActions time s.actions).1) (HasPlayed env _ _) :=
    gives_playActions fun a ha => hwithin.hasPage hlesson (hmem a ha)
  refine hplay.mono fun q hq => ?_
  exact ⟨hwithin.hasPlayed hactions hmem hq, hall ▸ hq⟩

/-- Whatever happens to a player stays in the lesson. -/
lemma Within.next (h : lesson.Within env s) (hlesson : lesson.IsLesson env) {event : PlayerEvent}
    {t : PlayerWidget} (ht : s.next env event = .ok t) : lesson.Within env t := by
  obtain ⟨r, hreset, hrestored⟩ := h.resetPages hlesson
  have hwithin := hrestored.within hlesson
  cases event with
  | tick time => exact h.animatedTriggered hlesson ht
  | gotoPosition pausing time =>
    simp only [PlayerWidget.next, onGotoPosition, hreset, Except.bind] at ht
    split_ifs at ht
    · exact hwithin.animatedTriggered hlesson ht
    · exact Except.ok.inj ht ▸ hwithin
  | gotoTime time =>
    simp only [PlayerWidget.next, PlayerWidget.gotoTime, hreset, Except.bind] at ht
    exact ((hrestored.gotoTime hlesson time).of_eq ht).1
  | reset =>
    simp only [PlayerWidget.next, hreset] at ht
    exact Except.ok.inj ht ▸ hwithin

/-! ## Ticks -/

/-- The place of the last switch among the first actions. -/
def switchBefore (n : Nat) (actions : List AnimationAction) : Option Nat :=
  ((List.range n).filter fun i => actions[i]?.any (·.isSwitch)).getLast?

/-- The latest switch is the last one before as many actions as lie before the time. -/
lemma latestSwitch_eq (time : Int32) (actions : List AnimationAction) :
    latestSwitch time actions = switchBefore (actionsBefore time actions).length actions := rfl

/-- A place more, which is that of a switch or not. -/
lemma switchBefore_succ (n : Nat) (actions : List AnimationAction) : switchBefore (n + 1) actions =
    if actions[n]?.any (·.isSwitch) = true then some n else switchBefore n actions := by
  unfold switchBefore
  rw [List.range_succ, List.filter_append, List.getLast?_append]
  split_ifs with hn
  · have hlast : [n].filter (fun i => actions[i]?.any (·.isSwitch)) = [n] :=
      List.filter_eq_self.mpr fun i hi => by rwa [List.mem_singleton.mp hi]
    rw [hlast]
    rfl
  · have hlast : [n].filter (fun i => actions[i]?.any (·.isSwitch)) = [] :=
      List.filter_eq_nil_iff.mpr fun i hi => by rwa [List.mem_singleton.mp hi]
    rw [hlast]
    rfl

/-- The last switch is a switch, and none follows it. -/
lemma switchBefore_eq_some {n i : Nat} {actions : List AnimationAction} :
    switchBefore n actions = some i ↔ i < n ∧ actions[i]?.any (·.isSwitch) = true ∧
      ∀ j, i < j → j < n → ¬ actions[j]?.any (·.isSwitch) = true := by
  induction n with
  | zero => exact iff_of_false nofun fun h => absurd h.1 (Nat.not_lt_zero i)
  | succ n ih =>
    rw [switchBefore_succ]
    split_ifs with hn
    · rw [Option.some_inj]
      constructor
      · rintro rfl
        exact ⟨Nat.lt_succ_self _, hn, fun j hij hjn => by omega⟩
      · rintro ⟨hi, -, hothers⟩
        by_contra hne
        exact hothers n (by omega) (Nat.lt_succ_self n) hn
    · rw [ih]
      constructor
      · rintro ⟨hi, hswitch, hothers⟩
        refine ⟨by omega, hswitch, fun j hij hjn => ?_⟩
        by_cases hj : j = n
        · rwa [hj]
        · exact hothers j hij (by omega)
      · rintro ⟨hi, hswitch, hothers⟩
        refine ⟨?_, hswitch, fun j hij hjn => hothers j hij (by omega)⟩
        by_contra hle
        obtain rfl : i = n := by omega
        exact hn hswitch

/-- The last switch is the one that is switched to. -/
lemma switchedTo_take {n i : Nat} {actions : List AnimationAction} {a : AnimationAction}
    (h : switchBefore n actions = some i) (ha : actions[i]? = some a) :
    switchedTo (actions.take n) = some a.targetScUuid := by
  obtain ⟨hi, hswitch, hothers⟩ := switchBefore_eq_some.mp h
  rw [ha] at hswitch
  have hlength : i < actions.length := (List.getElem?_eq_some_iff.mp ha).1
  have hparts : actions.take n = actions.take i ++ [a] ++ (actions.take n).drop (i + 1) := by
    have hfront : (actions.take n).take (i + 1) = actions.take i ++ [a] := by
      rw [List.take_take, min_eq_left (by omega), List.take_add_one, ha]
      rfl
    rw [← hfront, List.take_append_drop]
  have hrest : ∀ b ∈ (actions.take n).drop (i + 1), b.isSwitch = false := by
    intro b hb
    obtain ⟨k, hk⟩ := List.getElem?_of_mem hb
    rw [List.getElem?_drop, List.getElem?_take] at hk
    split_ifs at hk with hlt
    have hnot := hothers (i + 1 + k) (by omega) hlt
    rw [hk] at hnot
    exact Bool.eq_false_iff.mpr hnot
  rw [hparts, switchedTo_append, switchedTo_of_forall hrest, switchedTo_append]
  simp [switchedTo, show a.isSwitch = true from hswitch]

/-- The actions before a time are the first ones. -/
lemma actionsBefore_eq_take (time : Int32) (actions : List AnimationAction) :
    actionsBefore time actions = actions.take (actionsBefore time actions).length :=
  List.prefix_iff_eq_take.mp (List.takeWhile_prefix _)

/-- What taking actions leaves at a place. -/
lemma getElem?_takeActions (time : Int32) (test : AnimationAction → Bool)
    (actions : List AnimationAction) (j : Nat) : (takeActions time test actions).2[j]? =
      actions[j]?.map fun a =>
        if j < (actionsBefore time actions).length ∧ test a then a.setPlayed true else a := by
  have hbefore := actionsBefore_eq_take time actions
  show ((actionsBefore time actions).map _ ++ actions.drop _)[j]? = _
  by_cases hj : j < (actionsBefore time actions).length
  · rw [List.getElem?_append_left (by rwa [List.length_map]), List.getElem?_map, hbefore,
      List.getElem?_take_of_lt hj, ← hbefore]
    simp only [hj, true_and]
  · rw [List.getElem?_append_right (by rw [List.length_map]; omega), List.length_map,
      List.getElem?_drop, Nat.add_sub_cancel' (Nat.le_of_not_lt hj)]
    simp only [hj, false_and, if_false]
    exact Option.map_id'.symm

/-- A page is shown. -/
structure Shows (s : PlayerWidget) (uuid : Bytes) (page : Page) : Prop where
  currentPage_eq : s.currentPage = some uuid
  find_eq : s.allPages.find uuid = some (some page)

/-- A player that has played a lesson by ticks up to a place.  Of each page the actions up to a cut
have been played, and the page of the last switch is shown. -/
structure Ticked (env : PlayerSurroundings) (lesson : PlayerWidget) (n : Nat) (cut : Bytes → Nat)
    (s : PlayerWidget) : Prop where
  within : lesson.Within env s
  cut_le : ∀ uuid, cut uuid ≤ n
  played : ∀ j a, s.actions[j]? = some a → a.isSwitch = false →
    (a.played = true ↔ j < cut a.targetScUuid)
  switched : ∀ j a, s.actions[j]? = some a → a.isSwitch = true → a.played = true → j < n
  shown : ∀ i a, switchBefore n s.actions = some i → s.actions[i]? = some a →
    s.currentPage = some a.targetScUuid
  pages : ∀ uuid, s.allPages.find uuid = (lesson.allPages.find uuid).map
    (·.map fun page => page.drawnBy env.doubles uuid (lesson.actions.take (cut uuid)))

/-- A player that has been restored has played nothing. -/
lemma Restored.ticked (h : lesson.IsLesson env) (hs : lesson.Restored s) :
    lesson.Ticked env 0 (fun _ => 0) s where
  within := hs.within h
  cut_le _ := Nat.le_refl 0
  played j a ha _ := by
    rw [hs.actions] at ha
    rw [h.unplayed a (List.mem_of_getElem? ha)]
    simp
  switched j a ha _ hplayed := by
    rw [hs.actions] at ha
    rw [h.unplayed a (List.mem_of_getElem? ha)] at hplayed
    cases hplayed
  shown i a hi _ := by cases hi
  pages uuid := by 
    rw [hs.pages, List.take_zero, map_drawnBy_of_forall env fun a ha => by cases ha]

/-- What a tick takes, and what it leaves at a place. -/
lemma getLatestSwitchBoardActions_eq {time : Int32} {actions : List AnimationAction} {i : Nat}
    {switch : AnimationAction} (h : latestSwitch time actions = some i)
    (hi : actions[i]? = some switch) :
    (getLatestSwitchBoardActions time actions).1 =
        (if switch.played then [] else [switch]) ++
          (actionsBefore time (actions.modify i (·.setPlayed true))).filter
            (belongsTo switch.targetScUuid) ∧
      ∀ j, (getLatestSwitchBoardActions time actions).2[j]? = actions[j]?.map fun a =>
        if i = j ∨ j < (actionsBefore time actions).length ∧ belongsTo switch.targetScUuid a then
          a.setPlayed true
        else a := by
  have hlength : (actionsBefore time (actions.modify i (·.setPlayed true))).length =
      (actionsBefore time actions).length := by
    have hsame := congrArg (fun l => (actionsBefore time l).length) (map_modify_setPlayed actions i)
    simpa only [actionsBefore_setPlayed, List.length_map] using hsame
  unfold getLatestSwitchBoardActions
  rw [h]
  dsimp only
  rw [hi]
  dsimp only
  refine ⟨?_, fun j => ?_⟩
  · split_ifs <;> rfl
  · rw [getElem?_takeActions, hlength, List.getElem?_modify]
    cases actions[j]? with
    | none => rfl
    | some a =>
      by_cases hij : i = j
      · simp [hij, AnimationAction.setPlayed]
      · simp [hij]

/-- What a tick plays, provided that a page is shown and the pages are there. -/
lemma gives_animatedTriggered {time : Int32}
    (hpages : ∀ a ∈ (getLatestSwitchBoardActions time s.actions).1, s.hasPage a.targetScUuid)
    (hshown : ((switchedTo (getLatestSwitchBoardActions time s.actions).1).or s.currentPage).isSome) :
    Gives (s.animatedTriggered env time)
      (HasPlayed env (getLatestSwitchBoardActions time s.actions).1
        { s with actions := (getLatestSwitchBoardActions time s.actions).2 }) := by
  have hplay : Gives (PlayerWidget.playActions env
      { s with actions := (getLatestSwitchBoardActions time s.actions).2 }
      (getLatestSwitchBoardActions time s.actions).1) (HasPlayed env _ _) :=
    gives_playActions hpages
  unfold PlayerWidget.animatedTriggered
  dsimp only
  split_ifs with hempty
  · rw [List.isEmpty_iff.mp hempty] at hplay ⊢
    exact hplay
  · refine hplay.bind fun q hq => ?_
    have hsome : q.currentPage.isSome := by
      rw [hq.currentPage_eq]
      exact hshown
    unfold updateCurrentPage
    rw [if_neg fun hnone => Option.isSome_iff_ne_none.mp hsome (Option.isNone_iff_eq_none.mp hnone)]
    exact .ok hq

/-- What has been played of a page makes no difference to what it looks like when the rest has been
played as well. -/
lemma drawnBy_taken (d : DoubleArithmetic) (uuid : Bytes) (page : Page) {c : Nat}
    {actions : List AnimationAction}
    (hplayed : ∀ j a, actions[j]? = some a → a.isOn uuid = true → (a.played = true ↔ j < c)) :
    (page.drawnBy d uuid (actions.take c)).drawnBy d uuid (actions.filter (belongsTo uuid)) =
      page.drawnBy d uuid actions := by
  have hfirst : (actions.take c).filter (belongsTo uuid) = [] := by
    refine List.filter_eq_nil_iff.mpr fun a ha hbelongs => ?_
    obtain ⟨j, hj⟩ := List.getElem?_of_mem ha
    rw [List.getElem?_take] at hj
    split_ifs at hj with hlt
    obtain ⟨hnot, hon⟩ := Bool.and_eq_true_iff.mp hbelongs
    rw [(hplayed j a hj hon).mpr hlt] at hnot
    cases hnot
  have hrest : (actions.drop c).filter (belongsTo uuid) =
      (actions.drop c).filter (·.isOn uuid) := by
    refine List.filter_congr fun a ha => ?_
    obtain ⟨j, hj⟩ := List.getElem?_of_mem ha
    rw [List.getElem?_drop] at hj
    show (!a.played && a.isOn uuid) = a.isOn uuid
    cases hon : a.isOn uuid with
    | false => exact Bool.and_false _
    | true =>
      have hnot : a.played = false := by
        rw [Bool.eq_false_iff, Ne, hplayed _ a hj hon]
        omega
      rw [hnot]
      rfl
  have hall : actions.filter (belongsTo uuid) = (actions.drop c).filter (·.isOn uuid) := by
    rw [← hrest, ← List.nil_append (List.filter _ (actions.drop c)), ← hfirst, ← List.filter_append,
      List.take_append_drop]
  rw [hall, Page.drawnBy_filter_isOn, ← Page.drawnBy_append, List.take_append_drop]

/-- The actions of a player in a lesson, as far as the search goes, by those of the lesson. -/
lemma Within.actionsBefore_eq (h : lesson.Within env s) (time : Int32) :
    (actionsBefore time s.actions).map (·.setPlayed false) = actionsBefore time lesson.actions := by
  rw [← actionsBefore_setPlayed, h.actions]

/-- The last switch is that of the lesson. -/
lemma Within.switchBefore_eq (h : lesson.Within env s) (n : Nat) :
    switchBefore n s.actions = switchBefore n lesson.actions := by
  unfold switchBefore
  refine congrArg List.getLast? (List.filter_congr fun j _ => ?_)
  rw [← h.actions, List.getElem?_map, Option.any_map]
  rfl

/-- A tick that comes to no switch. -/
lemma Ticked.of_no_switch {n n' : Nat} {cut : Bytes → Nat} (h : lesson.Ticked env n cut s)
    (hn : n ≤ n') (hnone : switchBefore n' s.actions = none) : lesson.Ticked env n' cut s where
  within := h.within
  cut_le uuid := (h.cut_le uuid).trans hn
  played := h.played
  switched j a ha hswitch hplayed := (h.switched j a ha hswitch hplayed).trans_le hn
  shown i a hi _ := by rw [hnone] at hi; cases hi
  pages := h.pages

/-- With the rest of the actions before a time a page is as they all make it. -/
lemma Ticked.drawnBy_before {n i : Nat} {cut : Bytes → Nat} {switch : AnimationAction} {time : Int32}
    (h : lesson.Ticked env n cut s) (hi : s.actions[i]? = some switch) (hswitch : switch.isSwitch = true)
    (hn : n ≤ (actionsBefore time s.actions).length) (page : Page) :
    (page.drawnBy env.doubles switch.targetScUuid
        (lesson.actions.take (cut switch.targetScUuid))).drawnBy env.doubles switch.targetScUuid
          ((actionsBefore time (s.actions.modify i (·.setPlayed true))).filter
            (belongsTo switch.targetScUuid)) =
      page.drawnBy env.doubles switch.targetScUuid
        (lesson.actions.take (actionsBefore time s.actions).length) := by
  have hlesson : (actionsBefore time (s.actions.modify i (·.setPlayed true))).map (·.setPlayed false) =
      lesson.actions.take (actionsBefore time s.actions).length := by
    have hlength := congrArg List.length (h.within.actionsBefore_eq time)
    rw [List.length_map] at hlength
    rw [← actionsBefore_setPlayed, map_modify_setPlayed, h.within.actions, hlength]
    exact List.prefix_iff_eq_take.mp (List.takeWhile_prefix _)
  have hcut : lesson.actions.take (cut switch.targetScUuid) =
      ((actionsBefore time (s.actions.modify i (·.setPlayed true))).take
        (cut switch.targetScUuid)).map (·.setPlayed false) := by
    rw [List.map_take, hlesson, List.take_take, min_eq_left ((h.cut_le _).trans hn)]
  rw [hcut, Page.drawnBy_map_setPlayed (fun _ => false), drawnBy_taken, ← hlesson,
    Page.drawnBy_map_setPlayed (fun _ => false)]
  intro j a ha hon
  obtain ⟨others, hothers⟩ : actionsBefore time (s.actions.modify i (·.setPlayed true)) <+: _ :=
    List.takeWhile_prefix _
  have hplace : (s.actions.modify i (·.setPlayed true))[j]? = some a := by
    rw [← hothers, List.getElem?_append_left (List.getElem?_eq_some_iff.mp ha).1, ha]
  rw [List.getElem?_modify] at hplace
  obtain ⟨b, hb, rfl⟩ := Option.map_eq_some_iff.mp hplace
  by_cases hij : i = j
  · subst hij
    obtain rfl := Option.some.inj (hi.symm.trans hb)
    rw [if_pos rfl, AnimationAction.isOn,
      show (switch.setPlayed true).isSwitch = true from hswitch] at hon
    cases hon
  · rw [if_neg hij] at hon ⊢
    rw [AnimationAction.isOn, Bool.and_eq_true_iff, Bool.not_eq_true', beq_iff_eq] at hon
    rw [h.played j b hb hon.1, hon.2]

/-- A tick that comes to a switch: the actions of its page have been played up to there. -/
lemma Ticked.of_switch {n i : Nat} {cut : Bytes → Nat} {switch : AnimationAction} {time : Int32}
    (h : lesson.Ticked env n cut s) (hlesson : lesson.IsLesson env)
    (hn : n ≤ (actionsBefore time s.actions).length) (hlatest : latestSwitch time s.actions = some i)
    (hi : s.actions[i]? = some switch) :
    Gives (s.animatedTriggered env time) (lesson.Ticked env (actionsBefore time s.actions).length
      (Function.update cut switch.targetScUuid (actionsBefore time s.actions).length)) := by
  obtain ⟨htaken, hleft⟩ := getLatestSwitchBoardActions_eq hlatest hi
  obtain ⟨hin, hswitch, hothers⟩ := switchBefore_eq_some.mp hlatest
  rw [hi] at hswitch
  -- The page of the switch is shown: either it is switched to, or it has been before.
  have hcurrent : (switchedTo (getLatestSwitchBoardActions time s.actions).1).or s.currentPage =
      some switch.targetScUuid := by
    rw [htaken, switchedTo_append, switchedTo_of_forall fun a ha =>
      not_isSwitch_of_belongsTo (List.of_mem_filter ha), Option.none_or]
    split_ifs with hplayed
    · have hbefore : i < n := h.switched i switch hi hswitch hplayed
      exact h.shown i switch (switchBefore_eq_some.mpr
        ⟨hbefore, by rwa [hi], fun j hij hjn => hothers j hij (hjn.trans_le hn)⟩) hi
    · simp [switchedTo, show switch.isSwitch = true from hswitch]
  have hwithin := h.within
  have hmem : ∀ a ∈ (getLatestSwitchBoardActions time s.actions).1,
      a.setPlayed false ∈ lesson.actions := fun a ha => by
    rw [← hwithin.actions]
    exact (getLatestSwitchBoardActions_spec time s.actions).1 a ha
  have htick : Gives (s.animatedTriggered env time) (HasPlayed env _ _) :=
    gives_animatedTriggered (fun a ha => hwithin.hasPage hlesson (hmem a ha)) (hcurrent ▸ rfl)
  obtain ⟨t, ht, hplayed⟩ := htick
  have hin_t : lesson.Within env t := hwithin.animatedTriggered hlesson ht
  -- What an action of the player is after the tick.
  have hafter : ∀ j a, t.actions[j]? = some a → ∃ b, s.actions[j]? = some b ∧
      a.isSwitch = b.isSwitch ∧ a.targetScUuid = b.targetScUuid ∧ (a.played = true ↔ b.played = true ∨
        i = j ∨ j < (actionsBefore time s.actions).length ∧ belongsTo switch.targetScUuid b = true) := by
    intro j a ha
    rw [hplayed.actions_eq] at ha
    obtain ⟨b, hb, rfl⟩ := Option.map_eq_some_iff.mp ((hleft j).symm.trans ha)
    refine ⟨b, hb, ?_⟩
    split_ifs with hone
    · exact ⟨rfl, rfl, iff_of_true rfl (.inr hone)⟩
    · exact ⟨rfl, rfl, (or_iff_left hone).symm⟩
  refine ⟨t, ht, hin_t, fun uuid => ?_, fun j a ha hnot => ?_, fun j a ha hsw hpl => ?_,
    fun i' a hi' ha => ?_, fun uuid => ?_⟩
  · rw [Function.update_apply]
    split_ifs
    · exact le_refl _
    · exact (h.cut_le uuid).trans hn
  · obtain ⟨b, hb, hkind, htarget, hflag⟩ := hafter j a ha
    have hbnot : b.isSwitch = false := hkind.symm.trans hnot
    have hij : i ≠ j := by
      rintro rfl
      obtain rfl := Option.some.inj (hi.symm.trans hb)
      rw [show switch.isSwitch = true from hswitch] at hbnot
      cases hbnot
    have hold := h.played j b hb hbnot
    have hcut := (h.cut_le b.targetScUuid).trans hn
    rw [hflag, or_iff_right hij, htarget, Function.update_apply]
    unfold belongsTo
    rw [hbnot]
    split_ifs with hpage
    · cases hplay : b.played with
      | true => exact iff_of_true (.inl rfl) ((hold.mp hplay).trans_le hcut)
      | false => simp [hpage]
    · simp [hpage, hold]
  · obtain ⟨b, hb, hkind, -, hflag⟩ := hafter j a ha
    rcases hflag.mp hpl with hold | rfl | hone
    · exact (h.switched j b hb (hkind.symm.trans hsw) hold).trans_le hn
    · exact hin
    · exact hone.1
  · obtain ⟨b, hb, -, htarget, -⟩ := hafter i' a ha
    have hsame : switchBefore (actionsBefore time s.actions).length s.actions = some i' := by
      rwa [hwithin.switchBefore_eq, ← hin_t.switchBefore_eq]
    obtain rfl := Option.some.inj (hlatest.symm.trans hsame)
    obtain rfl := Option.some.inj (hi.symm.trans hb)
    rw [hplayed.currentPage_eq, htarget]
    exact hcurrent
  · rw [hplayed.find_eq]
    show (s.allPages.find uuid).map _ = _
    rw [h.pages, Option.map_map]
    refine congrArg (Option.map · _) (funext fun entry => ?_)
    cases entry with
    | none => rfl
    | some page =>
      refine congrArg some ?_
      show (page.drawnBy _ _ _).drawnBy _ _ _ = page.drawnBy _ _ _
      have hnone : ∀ a ∈ (if switch.played then [] else [switch]), a.isOn uuid = false := fun a ha => by
        have hthis : a = switch := by
          split_ifs at ha
          · cases ha
          · exact List.mem_singleton.mp ha
        rw [hthis, AnimationAction.isOn, show switch.isSwitch = true from hswitch]
        rfl
      rw [htaken, Page.drawnBy_append, Page.drawnBy_of_forall hnone, Function.update_apply]
      split_ifs with hpage
      · rw [hpage]
        exact h.drawnBy_before hi hswitch hn page
      · refine Page.drawnBy_of_forall fun a ha => ?_
        have hbelongs : belongsTo switch.targetScUuid a = true := List.of_mem_filter ha
        rw [belongsTo, Bool.and_eq_true_iff, Bool.and_eq_true_iff, beq_iff_eq] at hbelongs
        rw [AnimationAction.isOn, hbelongs.2.2, beq_eq_false_iff_ne.mpr (Ne.symm hpage), Bool.and_false]

/-- A tick up to a place that is not behind the last one.  What has been played of the page that is
shown is all that is before the time. -/
lemma Ticked.animatedTriggered {n : Nat} {cut : Bytes → Nat} {time : Int32}
    (h : lesson.Ticked env n cut s) (hlesson : lesson.IsLesson env)
    (hn : n ≤ (actionsBefore time lesson.actions).length) : Gives (s.animatedTriggered env time)
      fun t => ∃ cut', lesson.Ticked env (actionsBefore time lesson.actions).length cut' t ∧
        ∀ i switch, latestSwitch time lesson.actions = some i → lesson.actions[i]? = some switch →
          cut' switch.targetScUuid = (actionsBefore time lesson.actions).length := by
  have hlength : (actionsBefore time s.actions).length = (actionsBefore time lesson.actions).length := by
    have hsame := congrArg List.length (h.within.actionsBefore_eq time)
    rwa [List.length_map] at hsame
  have hlatest : latestSwitch time s.actions = latestSwitch time lesson.actions := by
    rw [latestSwitch_eq, hlength, h.within.switchBefore_eq, ← latestSwitch_eq]
  rw [← hlength] at hn ⊢
  rw [← hlatest]
  cases hswitch : latestSwitch time s.actions with
  | none =>
    unfold PlayerWidget.animatedTriggered
    rw [getLatestSwitchBoardActions_none hswitch]
    exact .ok ⟨cut, h.of_no_switch hn hswitch, fun i switch hi => by cases hi⟩
  | some i =>
    obtain ⟨switch, hi, -⟩ := isSwitch_of_latestSwitch hswitch
    refine (h.of_switch hlesson hn hswitch hi).mono fun t ht => ⟨_, ht, fun j other hj hother => ?_⟩
    obtain rfl := Option.some.inj hj
    have hsame : other.targetScUuid = switch.targetScUuid := by
      rw [← h.within.actions, List.getElem?_map, hi] at hother
      obtain rfl := Option.some.inj hother
      rfl
    rw [hsame, Function.update_self]

/-- Later there are no fewer actions before. -/
lemma length_actionsBefore_le {time time' : Int32} (h : time ≤ time') (actions : List AnimationAction) :
    (actionsBefore time actions).length ≤ (actionsBefore time' actions).length := by
  unfold actionsBefore
  induction actions with
  | nil => exact Nat.zero_le _
  | cons a actions ih =>
    rw [List.takeWhile_cons, List.takeWhile_cons]
    by_cases hbefore : a.time < time
    · have hlater : a.time < time' := Int32.lt_of_lt_of_le hbefore h
      rw [if_pos (decide_eq_true hbefore), if_pos (decide_eq_true hlater)]
      exact Nat.succ_le_succ ih
    · rw [if_neg (by simpa using hbefore)]
      exact Nat.zero_le _

/-- Ticks one after another, up to the last one. -/
lemma Ticked.ticks (hlesson : lesson.IsLesson env) {times : List Int32} {time : Int32} {n : Nat}
    {cut : Bytes → Nat} (h : lesson.Ticked env n cut s)
    (htimes : (times ++ [time]).Pairwise (· ≤ ·))
    (hn : ∀ t ∈ times ++ [time], n ≤ (actionsBefore t lesson.actions).length) :
    Gives ((times ++ [time]).foldlM (PlayerWidget.animatedTriggered env) s) fun t =>
      ∃ cut, lesson.Ticked env (actionsBefore time lesson.actions).length cut t ∧
        ∀ i switch, latestSwitch time lesson.actions = some i → lesson.actions[i]? = some switch →
          cut switch.targetScUuid = (actionsBefore time lesson.actions).length := by
  induction times generalizing s n cut with
  | nil =>
    rw [List.nil_append, List.foldlM_cons]
    exact (h.animatedTriggered hlesson (hn time (List.mem_singleton_self time))).bind fun t ht => .ok ht
  | cons first times ih =>
    rw [List.cons_append] at htimes hn ⊢
    rw [List.foldlM_cons]
    obtain ⟨hfirst, hothers⟩ := List.pairwise_cons.mp htimes
    refine (h.animatedTriggered hlesson (hn first List.mem_cons_self)).bind fun r hr => ?_
    obtain ⟨cut', hr, -⟩ := hr
    exact ih hr hothers fun t ht => length_actionsBefore_le (hfirst t ht) lesson.actions

/-- Ticks up to a time behind a switch show its page, as the actions before the time make it. -/
lemma Restored.gives_ticks (h : lesson.Restored s) (hlesson : lesson.IsLesson env) {i : Nat}
    {switch : AnimationAction} {page : Page} {times : List Int32} {time : Int32}
    (hlatest : latestSwitch time lesson.actions = some i) (hi : lesson.actions[i]? = some switch)
    (hpage : lesson.allPages.find switch.targetScUuid = some (some page))
    (htimes : (times ++ [time]).Pairwise (· ≤ ·)) :
    Gives ((times ++ [time]).foldlM (PlayerWidget.animatedTriggered env) s) fun t =>
      t.Shows switch.targetScUuid
        (page.drawnBy env.doubles switch.targetScUuid (actionsBefore time lesson.actions)) := by
  refine ((h.ticked hlesson).ticks hlesson htimes fun _ _ => Nat.zero_le _).mono ?_
  rintro t ⟨cut, ht, hcut⟩
  have hbefore := (actionsBefore_eq_take time lesson.actions).symm
  constructor
  · have hswitch := ht.within.switchBefore_eq (actionsBefore time lesson.actions).length
    rw [← latestSwitch_eq, hlatest] at hswitch
    rw [← ht.within.actions, List.getElem?_map] at hi
    obtain ⟨b, hb, rfl⟩ := Option.map_eq_some_iff.mp hi
    exact ht.shown i b hswitch hb
  · rw [ht.pages, hpage, hcut i switch hlatest hi, hbefore]
    rfl

/-- So does going to the time. -/
lemma Restored.gives_gotoTime (h : lesson.Restored s) (hlesson : lesson.IsLesson env) {i : Nat}
    {switch : AnimationAction} {page : Page} {time : Int32}
    (hlatest : latestSwitch time lesson.actions = some i) (hi : lesson.actions[i]? = some switch)
    (hpage : lesson.allPages.find switch.targetScUuid = some (some page)) :
    Gives (PlayerWidget.playActions env { s with actions := (getUnAnimatedActions time s.actions).2 }
      (getUnAnimatedActions time s.actions).1) fun t => t.Shows switch.targetScUuid
        (page.drawnBy env.doubles switch.targetScUuid (actionsBefore time lesson.actions)) := by
  refine (h.gotoTime hlesson time).mono fun t ht => ?_
  have hbefore := actionsBefore_eq_take time lesson.actions
  constructor
  · rw [ht.2.currentPage_eq, hbefore, switchedTo_take hlatest hi]
    rfl
  · rw [ht.2.find_eq, show PlayerWidget.allPages { s with actions := _ } = s.allPages from rfl, h.pages,
      hpage]
    rfl

/-- A seek of a pausing player and going to the time show the same from anywhere in the lesson. -/
lemma Within.gives_seek (h : lesson.Within env s) (hlesson : lesson.IsLesson env) {i : Nat}
    {switch : AnimationAction} {page : Page} {time : Int32}
    (hlatest : latestSwitch time lesson.actions = some i) (hi : lesson.actions[i]? = some switch)
    (hpage : lesson.allPages.find switch.targetScUuid = some (some page)) :
    Gives (s.onGotoPosition env true time) (fun t => t.Shows switch.targetScUuid
        (page.drawnBy env.doubles switch.targetScUuid (actionsBefore time lesson.actions))) ∧
      Gives (s.gotoTime env time) fun t => t.Shows switch.targetScUuid
        (page.drawnBy env.doubles switch.targetScUuid (actionsBefore time lesson.actions)) := by
  obtain ⟨r, hreset, hr⟩ := h.resetPages hlesson
  have hsorted : (([] : List Int32) ++ [time]).Pairwise (· ≤ ·) := List.pairwise_singleton _ _
  have htick := hr.gives_ticks hlesson hlatest hi hpage hsorted
  rw [List.nil_append, List.foldlM_cons] at htick
  simp only [List.foldlM_nil, bind_pure] at htick
  constructor
  · rw [onGotoPosition, hreset]
    exact htick
  · rw [PlayerWidget.gotoTime, hreset]
    exact hr.gives_gotoTime hlesson hlatest hi hpage

end PlayerWidget

/-! ## Loaded lessons -/

/-- A page with nothing drawn on it, whose elements have the data that they were loaded with. -/
def Page.asLoaded (page loaded : Page) : Page :=
  { page with heap := loaded.heap, drawingElements := [], highlightElement := none }

/-- Actions make no difference to that. -/
lemma Page.asLoaded_drawnBy (d : DoubleArithmetic) (uuid : Bytes) (page loaded : Page)
    (actions : List AnimationAction) :
    (page.drawnBy d uuid actions).asLoaded loaded = page.asLoaded loaded := by
  unfold drawnBy
  induction actions.filter (·.isOn uuid) generalizing page with
  | nil => rfl
  | cons a actions ih =>
    obtain ⟨heap, drawingElements, heq⟩ := page.playAction_eq d a
    rw [List.foldl_cons, ih, heq]
    rfl

/-- Resetting the pages of documents gives every element back as it was loaded, whatever is drawn or
highlighted and whatever actions have made of it. -/
def PlayerSurroundings.ResetsAsLoaded (env : PlayerSurroundings) (actions : List AnimationAction) :
    Prop :=
  ∀ bytes loaded, env.loadAsScDocument bytes = .ok (some loaded) →
    ∀ drawingElements highlightElement uuid played, (∀ a ∈ played, a ∈ actions) →
      env.resetElementToInit
          ({ loaded with drawingElements, highlightElement }.drawnBy env.doubles uuid played) =
        ({ loaded with drawingElements, highlightElement }.drawnBy env.doubles uuid played).asLoaded
          loaded

namespace PlayerWidget

/-- A player as it is loaded: the pages are those of documents, after a reset, and no action has been
played. -/
structure AsLoaded (env : PlayerSurroundings) (p : PlayerWidget) : Prop where
  unplayed : ∀ a ∈ p.actions, a.played = false
  pages : ∀ uuid entry, p.allPages.find uuid = some entry → ∃ bytes loaded,
    env.loadAsScDocument bytes = .ok (some loaded) ∧ entry = some (env.resetElementToInit loaded)

end PlayerWidget

namespace KeFile

/-- The player is as it is loaded, if there is one. -/
def IsAsLoaded (env : PlayerSurroundings) (player : Option PlayerWidget) : Prop :=
  ∀ p, player = some p → p.AsLoaded env

/-- The file of a player gives one without pages and actions. -/
lemma ends_loadPlayerFile (env : PlayerSurroundings) (bytes : Bytes) :
    Ends (loadPlayerFile env.uninitialised bytes) (IsAsLoaded env) (fun _ => True) := by
  have hread : Ends (readThis env.uninitialised (unpackAll bytes).1)
      (fun s => ∀ p, s.player = some p → p.allPages = .empty ∧ p.actions = []) (fun _ => True) := by
    refine Ends.foldlM (I := fun s : PlayerLoad => ∀ p, s.player = some p →
      p.allPages = .empty ∧ p.actions = []) (fun p hp => by cases hp) fun s o hs => ?_
    unfold nextObject
    split
    · split
      · trivial
      · split_ifs
        · exact hs
        · trivial
        · exact hs
    · rename_i record
      split_ifs
      · exact hs
      · exact hs
      · have hrecord := ends_loadRecord env.uninitialised record
        revert hrecord
        generalize loadRecord env.uninitialised record = result
        intro hrecord
        cases result with
        | error e => trivial
        | ok player =>
          rintro p hp
          obtain rfl := Option.some.inj hp
          exact hrecord
      · exact hs
    · exact hs
  unfold loadPlayerFile
  revert hread
  generalize readThis env.uninitialised (unpackAll bytes).1 = reading
  intro hread
  cases reading with
  | error e =>
    cases e with
    | refused => exact fun p hp => by cases hp
    | throws exception => trivial
  | ok s =>
    dsimp only
    split_ifs
    · trivial
    · cases hplayer : s.player with
      | none => trivial
      | some player =>
        obtain ⟨hpages, hactions⟩ := hread player hplayer
        rintro p hp
        obtain rfl := Option.some.inj hp
        refine ⟨fun a ha => ?_, fun uuid entry hentry => ?_⟩
        · rw [show player.updateDataFromMsgPack.actions = [] from hactions] at ha
          cases ha
        · rw [show player.updateDataFromMsgPack.allPages = .empty from hpages,
            OrderedMap.find_empty] at hentry
          cases hentry

/-- A page more. -/
lemma ends_loadPlayerPage (env : PlayerSurroundings) {player : Option PlayerWidget} (bytes : Bytes)
    (h : IsAsLoaded env player) :
    Ends (loadPlayerPage env player bytes) (IsAsLoaded env) (fun _ => True) := by
  unfold loadPlayerPage
  split
  · trivial
  · exact h
  · rename_i loaded hload
    cases player with
    | none => trivial
    | some player =>
      obtain ⟨hunplayed, hpages⟩ := h player rfl
      rintro p hp
      obtain rfl := Option.some.inj hp
      unfold PlayerWidget.addPage
      split
      · exact ⟨hunplayed, hpages⟩
      · refine ⟨hunplayed, fun uuid entry hentry => ?_⟩
        rw [OrderedMap.find_insert] at hentry
        split_ifs at hentry
        · exact ⟨bytes, loaded, hload, (Option.some.inj hentry).symm⟩
        · exact hpages uuid entry hentry

/-- An action more. -/
lemma ends_loadPlayerAction (env : PlayerSurroundings) {player : Option PlayerWidget} (entry : Entry)
    (h : IsAsLoaded env player) : Ends (loadPlayerAction env.uninitialised player entry)
      (IsAsLoaded env) (fun _ => True) := by
  unfold loadPlayerAction
  split_ifs
  · split
    · trivial
    · exact h
    · rename_i action hcreate
      cases player with
      | none => trivial
      | some player =>
        obtain ⟨hunplayed, hpages⟩ := h player rfl
        rintro p hp
        obtain rfl := Option.some.inj hp
        refine ⟨fun a ha => ?_, hpages⟩
        rcases List.mem_append.mp ha with ha | ha
        · exact hunplayed a ha
        · rw [List.mem_singleton.mp ha]
          exact played_of_createFromType hcreate
  · exact h

/-- A lesson that is loaded. -/
lemma asLoaded_of_load {env : PlayerSurroundings} {file : LessonFile} {lesson : PlayerWidget}
    (h : loadKeAsPlayerWidget env file = .ok (some lesson)) : lesson.AsLoaded env := by
  have hends : Ends (loadKeAsPlayerWidget env file) (IsAsLoaded env) (fun _ => True) := by
    unfold loadKeAsPlayerWidget
    split_ifs
    · exact fun p hp => by cases hp
    · refine (ends_loadPlayerFile env file.this).bind fun player hplayer => ?_
      refine (Ends.foldlM (I := IsAsLoaded env) hplayer fun player bytes hplayer =>
        ends_loadPlayerPage env bytes hplayer).bind fun player hplayer => ?_
      refine (ends_scanTrack (I := IsAsLoaded env) _ hplayer trivial trivial fun player entry hplayer =>
        ends_loadPlayerAction env entry hplayer).bind fun player hplayer => ?_
      cases player with
      | none => trivial
      | some player => exact hplayer
  exact hends.of_eq h lesson rfl

end KeFile

namespace PlayerWidget

variable {env : PlayerSurroundings} {lesson : PlayerWidget}

/-- A player as it is loaded is a lesson. -/
lemma AsLoaded.isLesson (h : lesson.AsLoaded env)
    (hpages : ∀ a ∈ lesson.actions, lesson.hasPage a.targetScUuid)
    (hresets : env.ResetsAsLoaded lesson.actions) : lesson.IsLesson env where
  unplayed := h.unplayed
  pages := hpages
  present := by
    rintro ⟨uuid, entry⟩ hentry
    obtain ⟨bytes, loaded, -, heq⟩ := h.pages uuid entry (OrderedMap.find_eq_some.mpr hentry)
    rw [heq]
    rfl
  resets uuid page hpage actions hactions := by
    obtain ⟨bytes, loaded, hload, heq⟩ := h.pages uuid (some page) hpage
    obtain rfl := Option.some.inj heq
    have hreset := hresets bytes loaded hload loaded.drawingElements loaded.highlightElement uuid [] nofun
    have hstart : env.resetElementToInit loaded = loaded.asLoaded loaded := hreset
    rw [hstart]
    exact (hresets bytes loaded hload [] none uuid actions hactions).trans
      (Page.asLoaded_drawnBy _ _ _ _ _)

end PlayerWidget

/-! ## Seeking -/

/-- A stopwatch that has been set says the time that it has been set to. -/
lemma KeTime.getAnimatedTime_setAnimatedTime (now : Instant) (t : Int32) (time : KeTime) :
    (time.setAnimatedTime now t).getAnimatedTime now = t := by
  unfold setAnimatedTime getAnimatedTime msecsTo
  dsimp only
  split_ifs
  · rw [sub_self, add_zero, Int32.ofInt_toInt]
  · rfl
  · rfl

namespace LessonWindow

variable {env : PlayerSurroundings} {now : Instant} {time : Int32}

/-- Up to the total time the pages are not reset. -/
lemma setAnimatedTime_eq {w : LessonWindow} (h : time ≤ w.totalTime) :
    w.setAnimatedTime env now time =
      .ok { w with keTime := w.keTime.setAnimatedTime now time } := by
  unfold setAnimatedTime onTimeUpdateTriggered
  dsimp only
  rw [KeTime.getAnimatedTime_setAnimatedTime, if_pos h]

/-- A seek up to the total time. -/
lemma onGotoPosition_eq {w : LessonWindow} {player : PlayerWidget}
    (hreset : w.player.resetPages env = .ok player) (h : time ≤ w.totalTime) :
    w.onGotoPosition env now time =
      if w.keTime.isPausing then
        animatedTriggered env now ⟨player, w.keTime.setAnimatedTime now time, w.totalTime⟩
      else .ok ⟨player, w.keTime.setAnimatedTime now time, w.totalTime⟩ := by
  have hset : setAnimatedTime env now time { w with player } =
      .ok ⟨player, w.keTime.setAnimatedTime now time, w.totalTime⟩ := setAnimatedTime_eq h
  unfold onGotoPosition
  rw [hreset]
  show (setAnimatedTime env now time { w with player }).bind _ = _
  rw [hset]
  rfl

/-- Going to a time up to the total time. -/
lemma gotoTime_eq {w : LessonWindow} {player : PlayerWidget}
    (hreset : w.player.resetPages env = .ok player) (h : time ≤ w.totalTime) :
    w.gotoTime env now time =
      (PlayerWidget.playActions env
          { player with actions := (PlayerWidget.getUnAnimatedActions time player.actions).2 }
          (PlayerWidget.getUnAnimatedActions time player.actions).1).map
        fun player => ⟨player, w.keTime.setAnimatedTime now time, w.totalTime⟩ := by
  have hset : setAnimatedTime env now time { w with player } =
      .ok ⟨player, w.keTime.setAnimatedTime now time, w.totalTime⟩ := setAnimatedTime_eq h
  unfold gotoTime
  rw [hreset]
  show (setAnimatedTime env now time { w with player }).bind _ = _
  rw [hset]
  show Except.map _ (PlayerWidget.playActions env _ _) = _
  rw [KeTime.getAnimatedTime_setAnimatedTime]
  rfl

/-- What a tick gives. -/
lemma gives_animatedTriggered {w : LessonWindow} {post : PlayerWidget → Prop}
    (h : Gives (w.player.animatedTriggered env time) post)
    (htime : w.keTime.getAnimatedTime now = time) :
    Gives (w.animatedTriggered env now) fun w => post w.player := by
  obtain ⟨p, hp, hpost⟩ := h
  unfold animatedTriggered
  rw [htime, hp]
  exact .ok hpost

/-- Up to the total time the window does to its player what the player does by itself: a seek of a
player that is not pausing gives with the tick that reads the time what it gives a pausing one at once. -/
lemma gives_seeks {player : PlayerWidget} {post : PlayerWidget → Prop} {totalTime : Int32}
    (hend : time ≤ totalTime) (hseek : Gives (player.onGotoPosition env true time) post)
    (hgoto : Gives (player.gotoTime env time) post) (keTime : KeTime) (now : Instant) :
    (keTime.isPausing → Gives (onGotoPosition env now time ⟨player, keTime, totalTime⟩)
      fun w => post w.player) ∧
    (¬ keTime.isPausing → ∀ position ≤ totalTime,
      Gives (onGotoPosition env now position ⟨player, keTime, totalTime⟩) fun w =>
        ∀ now', w.keTime.getAnimatedTime now' = time →
          Gives (w.animatedTriggered env now') fun w => post w.player) ∧
    Gives (gotoTime env now time ⟨player, keTime, totalTime⟩) fun w => post w.player := by
  rcases hreset : player.resetPages env with fault | p
  · rw [PlayerWidget.onGotoPosition, hreset] at hseek
    obtain ⟨_, herror, -⟩ := hseek
    cases herror
  · have htick : Gives (p.animatedTriggered env time) post := by
      rw [PlayerWidget.onGotoPosition, hreset] at hseek
      exact hseek
    refine ⟨fun hpausing => ?_, fun hplaying position hposition => ?_, ?_⟩
    · rw [onGotoPosition_eq hreset hend, if_pos hpausing]
      exact gives_animatedTriggered htick (KeTime.getAnimatedTime_setAnimatedTime _ _ _)
    · rw [onGotoPosition_eq hreset hposition, if_neg hplaying]
      exact .ok fun now' htime => gives_animatedTriggered htick htime
    · rw [PlayerWidget.gotoTime, hreset] at hgoto
      obtain ⟨q, hq, hpost⟩ := hgoto
      have hplayed : PlayerWidget.playActions env
          { p with actions := (PlayerWidget.getUnAnimatedActions time p.actions).2 }
          (PlayerWidget.getUnAnimatedActions time p.actions).1 = .ok q := hq
      rw [gotoTime_eq hreset hend, hplayed]
      exact .ok hpost

end LessonWindow

/-- A player that events have led to is in the lesson. -/
lemma PlayerWidget.Within.foldlM_next {env : PlayerSurroundings} {lesson s p : PlayerWidget}
    (h : lesson.Within env s) (hlesson : lesson.IsLesson env) {events : List PlayerEvent}
    (hrun : events.foldlM (PlayerWidget.next env) s = .ok p) : lesson.Within env p := by
  induction events generalizing s with
  | nil => exact Except.ok.inj hrun ▸ h
  | cons event events ih =>
    rw [List.foldlM_cons] at hrun
    cases hnext : s.next env event with
    | error fault => rw [hnext] at hrun; cases hrun
    | ok t =>
      rw [hnext] at hrun
      exact ih (h.next hlesson hnext) hrun

/-- Behind the switch that a lesson begins with there is a latest switch. -/
lemma exists_latestSwitch {first : AnimationAction} {actions : List AnimationAction} {time : Int32}
    (hfirst : actions.head? = some first) (hswitch : first.isSwitch) (hbehind : first.time < time) :
    ∃ i, latestSwitch time actions = some i := by
  obtain ⟨others, rfl⟩ := List.head?_eq_some_iff.mp hfirst
  rw [← Option.isSome_iff_exists, Option.isSome_iff_ne_none]
  intro hnone
  have hempty := List.getLast?_eq_none_iff.mp hnone
  have hbefore : 0 < (actionsBefore time (first :: others)).length := by
    unfold actionsBefore
    rw [List.takeWhile_cons, if_pos (decide_eq_true hbehind)]
    exact Nat.succ_pos _
  exact List.filter_eq_nil_iff.mp hempty 0 (List.mem_range.mpr hbefore) hswitch

/-- In a loaded lesson that begins with a switch and whose actions have their pages, at every time behind
the switch and not behind the end of the media, playing from the start by ticks, seeking from
wherever the player is and going to the time all show the same page in the same state.  A seek of a
player that is not pausing shows it with the tick that reads the time. -/
theorem seeking_agrees (env : PlayerSurroundings) (file : LessonFile) (lesson : PlayerWidget)
    (hload : KeFile.loadKeAsPlayerWidget env file = .ok (some lesson))
    (hpages : ∀ a ∈ lesson.actions, lesson.hasPage a.targetScUuid)
    (hresets : env.ResetsAsLoaded lesson.actions) (first : AnimationAction)
    (hfirst : lesson.actions.head? = some first) (hswitch : first.isSwitch) (time : Int32)
    (hbehind : first.time < time) (totalTime : Int32) (hend : time ≤ totalTime) :
    ∃ uuid page,
      (∀ times : List Int32, (times ++ [time]).Pairwise (· ≤ ·) →
        Gives ((times ++ [time]).foldlM (PlayerWidget.animatedTriggered env) lesson)
          (·.Shows uuid page)) ∧
      ∀ (events : List PlayerEvent) (player : PlayerWidget),
        events.foldlM (PlayerWidget.next env) lesson = .ok player → ∀ keTime now,
          (keTime.isPausing →
            Gives (LessonWindow.onGotoPosition env now time ⟨player, keTime, totalTime⟩)
              (·.player.Shows uuid page)) ∧
          (¬ keTime.isPausing → ∀ position ≤ totalTime,
            Gives (LessonWindow.onGotoPosition env now position ⟨player, keTime, totalTime⟩) fun w =>
              ∀ now', w.keTime.getAnimatedTime now' = time →
                Gives (w.animatedTriggered env now') (·.player.Shows uuid page)) ∧
          Gives (LessonWindow.gotoTime env now time ⟨player, keTime, totalTime⟩)
            (·.player.Shows uuid page) := by
  have hlesson := (KeFile.asLoaded_of_load hload).isLesson hpages hresets
  have hrestored : lesson.Restored lesson := ⟨rfl, fun _ => rfl⟩
  obtain ⟨i, switch, page, hlatest, hi, hpage⟩ : ∃ i switch page,
      latestSwitch time lesson.actions = some i ∧ lesson.actions[i]? = some switch ∧
        lesson.allPages.find switch.targetScUuid = some (some page) := by
    obtain ⟨i, hlatest⟩ := exists_latestSwitch hfirst hswitch hbehind
    obtain ⟨switch, hi, -⟩ := PlayerWidget.isSwitch_of_latestSwitch hlatest
    obtain ⟨page, hpage⟩ := PlayerWidget.find_of_hasPage (hpages switch (List.mem_of_getElem? hi))
    exact ⟨i, switch, page, hlatest, hi, hpage⟩
  refine ⟨switch.targetScUuid,
    page.drawnBy env.doubles switch.targetScUuid (actionsBefore time lesson.actions),
    fun times htimes => hrestored.gives_ticks hlesson hlatest hi hpage htimes,
    fun events player hrun keTime now => ?_⟩
  have hwithin := (hrestored.within hlesson).foldlM_next hlesson hrun
  obtain ⟨hseek, hgoto⟩ := hwithin.gives_seek hlesson hlatest hi hpage
  exact LessonWindow.gives_seeks hend hseek hgoto keTime now

/-- Shows and switches change no element. -/
lemma Page.heap_drawnBy (d : DoubleArithmetic) (uuid : Bytes) (page : Page)
    {actions : List AnimationAction} (h : ∀ a ∈ actions, a.kind = .show ∨ a.kind = .switchPage) :
    (page.drawnBy d uuid actions).heap = page.heap := by
  unfold drawnBy
  have hon : ∀ a ∈ actions.filter (·.isOn uuid), a.kind = .show ∨ a.kind = .switchPage :=
    fun a ha => h a (List.mem_of_mem_filter ha)
  revert hon
  generalize actions.filter (·.isOn uuid) = played
  intro hon
  induction played generalizing page with
  | nil => rfl
  | cons a played ih =>
    obtain ⟨hfirst, hothers⟩ := List.forall_mem_cons.mp hon
    rw [List.foldl_cons, ih _ hothers]
    unfold playAction
    rcases hfirst with hshow | hswitch
    · rw [hshow]
      dsimp only
      unfold playShowAction
      split <;> rfl
    · rw [hswitch]

/-- A lesson of a minute that switches to a page and shows its element. -/
def lineLesson : LessonFile where
  magic1 := 71
  magic2 := 89
  this := packAll [.raw [71, 89], .posInt 5, .raw [0], .posInt 1,
    .raw (Obj.array [.posInt 1278, .posInt 732, .posInt 60000]).pack]
  pages := [[]]
  actions := KeFile.saveActions [⟨[1], [], 0, .switchPage, false⟩, ⟨[1], [2], 10, .show, false⟩]

/-- Surroundings in which the file of a page holds a line.  The elements of a page that has not been
changed are reset by clearing its drawing. -/
def lineDocument : PlayerSurroundings where
  uninitialised := ⟨0, false⟩
  doubles := ⟨fun _ _ => SMatrix.one, fun n _ => n⟩
  loadAsScDocument _ := .ok (some ((Page.new [1]).addNew 0 (.new [2] (.line ⟨0, 0⟩ ⟨10, 10⟩)) true false))
  resetElementToInit page := { page with drawingElements := [], highlightElement := none }

/-- Two ticks, a seek and going to the time show the line. -/
theorem seeking_agrees_line : ∃ lesson uuid page,
    KeFile.loadKeAsPlayerWidget lineDocument lineLesson = .ok (some lesson) ∧
      Gives ([5, 20].foldlM (PlayerWidget.animatedTriggered lineDocument) lesson) (·.Shows uuid page) ∧
      Gives (LessonWindow.onGotoPosition lineDocument 0 20 ⟨lesson, .new 0, 60000⟩)
        (·.player.Shows uuid page) ∧
      Gives (LessonWindow.gotoTime lineDocument 0 20 ⟨lesson, .new 0, 60000⟩) (·.player.Shows uuid page) := by
  have hlesson : Gives (KeFile.loadKeAsPlayerWidget lineDocument lineLesson) fun r =>
      ∃ lesson ∈ r, lesson.actions = [⟨[1], [], 0, .switchPage, false⟩, ⟨[1], [2], 10, .show, false⟩] ∧
        lesson.hasPage [1] := by
    decide +kernel
  obtain ⟨r, hload, lesson, hr, hactions, hpage⟩ := hlesson
  obtain rfl := Option.mem_def.mp hr
  have hpages : ∀ a ∈ lesson.actions, lesson.hasPage a.targetScUuid := by
    rw [hactions]
    intro a ha
    rcases List.mem_cons.mp ha with rfl | ha
    · exact hpage
    · rw [List.mem_singleton.mp ha]
      exact hpage
  have hkinds : ∀ a ∈ lesson.actions, a.kind = .show ∨ a.kind = .switchPage := by
    rw [hactions]
    decide
  have hresets : lineDocument.ResetsAsLoaded lesson.actions := by
    rintro bytes loaded hloaded drawingElements highlightElement uuid played hplayed
    have hclear : ∀ page : Page, page.heap = loaded.heap →
        lineDocument.resetElementToInit page = page.asLoaded loaded := fun page hheap => by
      unfold Page.asLoaded
      rw [← hheap]
      rfl
    exact hclear _ (Page.heap_drawnBy _ _ _ fun a ha => hkinds a (hplayed a ha))
  obtain ⟨uuid, page, hticks, hseeks⟩ := seeking_agrees lineDocument lineLesson lesson hload hpages
    hresets ⟨[1], [], 0, .switchPage, false⟩ (by rw [hactions]; rfl) rfl 20 (by decide) 60000 (by decide)
  obtain ⟨hpausing, -, hgoto⟩ := hseeks [] lesson rfl (.new 0) 0
  exact ⟨lesson, uuid, page, hload, hticks [5] (by decide), hpausing rfl, hgoto⟩

/-- A millisecond behind the end a tick shows the page, and a seek resets the stopwatch and shows no
page. -/
theorem not_seeking_agrees_behindEnd : ∃ lesson,
    KeFile.loadKeAsPlayerWidget lineDocument lineLesson = .ok (some lesson) ∧
      Gives ([60001].foldlM (PlayerWidget.animatedTriggered lineDocument) lesson)
        (·.currentPage = some [1]) ∧
      Gives (LessonWindow.onGotoPosition lineDocument 0 60001 ⟨lesson, .new 0, 60000⟩)
        (·.player.currentPage = none) := by
  have hlesson : Gives (KeFile.loadKeAsPlayerWidget lineDocument lineLesson) fun r =>
      ∃ lesson ∈ r,
        Gives ([60001].foldlM (PlayerWidget.animatedTriggered lineDocument) lesson)
          (·.currentPage = some [1]) ∧
        Gives (LessonWindow.onGotoPosition lineDocument 0 60001 ⟨lesson, .new 0, 60000⟩)
          (·.player.currentPage = none) := by
    decide +kernel
  obtain ⟨r, hload, lesson, hr, hruns⟩ := hlesson
  obtain rfl := Option.mem_def.mp hr
  exact ⟨lesson, hload, hruns⟩

end Liangshi
