import Liangshi.Lesson.KeWidget
import Liangshi.Lesson.PlayerSafety

/-!
# The times of recorded actions

The searches of a player rely on actions whose times do not decrease and are not negative.  A widget
takes the times from its stopwatch, which follows the audio recorder from the recorder's first report
on.  Before that it holds what was in its memory, and the constructor records a switch to the first
page at that time: a later action is in order exactly when the stopwatch is not behind the first one.
-/

namespace Liangshi

open Wire Transition

namespace KeWidget

variable {widget widget' : KeWidget} {now : Instant}

/-- The times of the actions do not decrease and are not negative. -/
def Ordered (actions : List AnimationAction) : Prop :=
  (actions.map (·.time)).Pairwise (· ≤ ·) ∧ ∀ a ∈ actions, 0 ≤ a.time

/-- The events that record an action. -/
def Records (widget : KeWidget) : KeEvent → Prop
  | .newPage _ | .selectPage _ | .action _ => True
  | .previousPage => widget.currentPageIndex ≠ 0
  | .nextPage => ¬ (widget.allPages ≠ [] ∧ widget.allPages.length - 1 ≤ widget.currentPageIndex)
  | .start | .pause | .reset | .record _ | .recordTime _ => False

/-- An action is recorded in order: the stopwatch is neither negative nor behind the first action. -/
def InOrder (widget : KeWidget) (e : KeEvent) : Prop :=
  widget.Records e → 0 ≤ widget.keTime.hadesTime ∧
    ∀ first, widget.actions.head? = some first → first.time ≤ widget.keTime.hadesTime

/-- Where the times of the actions come from: the stopwatch is the recorder's and no action but those
at the time of the first is later, or it has not been set and all actions have the same time. -/
structure Follows (widget : KeWidget) : Prop where
  notSelfTimed : widget.keTime.selfTimeUpdate = false
  source : (widget.hades = some widget.keTime.hadesTime ∧ ∀ a ∈ widget.actions,
      a.time ≤ widget.keTime.hadesTime ∨ ∀ first, widget.actions.head? = some first →
        a.time = first.time) ∨
    ∀ a ∈ widget.actions, a.time = widget.keTime.hadesTime

/-! ## Steps -/

/-- What a step does to the times: it records an action at the time of the stopwatch, or the recorder
reports, or neither. -/
inductive Moves (widget : KeWidget) (e : KeEvent) (widget' : KeWidget) : Prop
  | records (a : AnimationAction) (records : widget.Records e)
      (actions : widget'.actions = widget.actions ++ [a]) (time : a.time = widget.keTime.hadesTime)
      (keTime : widget'.keTime = widget.keTime) (hades : widget'.hades = widget.hades)
  | reports (last : Int32) (quiet : ¬ widget.Records e) (actions : widget'.actions = widget.actions)
      (hades : widget.hades = some last) (le : last ≤ widget'.keTime.hadesTime)
      (selfTimeUpdate : widget'.keTime.selfTimeUpdate = widget.keTime.selfTimeUpdate)
      (hades' : widget'.hades = some widget'.keTime.hadesTime)
  | rests (quiet : ¬ widget.Records e) (actions : widget'.actions = widget.actions)
      (hadesTime : widget'.keTime.hadesTime = widget.keTime.hadesTime)
      (selfTimeUpdate : widget'.keTime.selfTimeUpdate = widget.keTime.selfTimeUpdate)
      (hades : widget'.hades = widget.hades ∨ widget.hades = none)

/-- A stopwatch that does not go by itself has the time of the recorder. -/
lemma getAnimatedTime_eq (h : widget.keTime.selfTimeUpdate = false) :
    widget.keTime.getAnimatedTime now = widget.keTime.hadesTime := by
  unfold KeTime.getAnimatedTime
  rw [if_neg (by rw [h]; exact Bool.false_ne_true)]

/-- Selecting a page records the switch to it. -/
lemma moves_onSelectPageTriggered {e : KeEvent} {page : Nat} (h : widget.keTime.selfTimeUpdate = false)
    (hrecords : widget.Records e) (hstep : widget.onSelectPageTriggered now page = some widget') :
    widget.Moves e widget' := by
  obtain ⟨uuid, -, rfl⟩ := Option.map_eq_some_iff.mp hstep
  exact .records _ hrecords rfl (getAnimatedTime_eq h) rfl rfl

/-- `Pause` leaves what the recorder has reported. -/
lemma hadesTime_pause (time : KeTime) : (time.pause now).hadesTime = time.hadesTime ∧
    (time.pause now).selfTimeUpdate = time.selfTimeUpdate := by
  unfold KeTime.pause
  split_ifs <;> exact ⟨rfl, rfl⟩

/-- `Start` leaves what the recorder has reported. -/
lemma hadesTime_start (time : KeTime) : (time.start now).hadesTime = time.hadesTime ∧
    (time.start now).selfTimeUpdate = time.selfTimeUpdate := by
  unfold KeTime.start
  split_ifs <;> exact ⟨rfl, rfl⟩

/-- What an event does to the times. -/
lemma moves_next {e : KeEvent} (h : widget.keTime.selfTimeUpdate = false)
    (hreports : widget.Reports e) (hstep : widget.next now e = some widget') :
    widget.Moves e widget' := by
  cases e with
  | start =>
    obtain rfl := Option.some.inj hstep
    exact .rests id rfl (hadesTime_start _).1 (hadesTime_start _).2 (.inl rfl)
  | pause =>
    obtain rfl := Option.some.inj hstep
    exact .rests id rfl (hadesTime_pause _).1 (hadesTime_pause _).2 (.inl rfl)
  | reset =>
    obtain rfl := Option.some.inj hstep
    exact .rests id rfl rfl rfl (.inl rfl)
  | record hasMicrophone =>
    obtain rfl := Option.some.inj hstep
    have hhades : some (widget.hades.getD 0) = widget.hades ∨ widget.hades = none := by
      cases widget.hades with
      | none => exact .inr rfl
      | some last => exact .inl rfl
    unfold onRecordTriggered
    dsimp only
    split_ifs
    · exact .rests id rfl rfl rfl hhades
    · exact .rests id rfl (hadesTime_pause _).1 (hadesTime_pause _).2 hhades
  | recordTime time =>
    obtain rfl := Option.some.inj hstep
    obtain ⟨last, hlast, hle⟩ := hreports
    exact .reports last id rfl hlast hle rfl rfl
  | newPage uuid =>
    obtain rfl := Option.some.inj hstep
    exact .records _ trivial rfl (getAnimatedTime_eq h) rfl rfl
  | previousPage =>
    replace hstep : widget.onPreviousPageTriggered now = some widget' := hstep
    unfold onPreviousPageTriggered at hstep
    split_ifs at hstep with hfirst
    · obtain rfl := Option.some.inj hstep
      exact .rests (not_not.mpr hfirst) rfl rfl rfl (.inl rfl)
    · exact moves_onSelectPageTriggered h hfirst hstep
  | nextPage =>
    replace hstep : widget.onNextPageTriggered now = some widget' := hstep
    unfold onNextPageTriggered at hstep
    split_ifs at hstep with hlast
    · obtain rfl := Option.some.inj hstep
      exact .rests (not_not.mpr hlast) rfl rfl rfl (.inl rfl)
    · exact moves_onSelectPageTriggered h hlast hstep
  | selectPage page => exact moves_onSelectPageTriggered h trivial hstep
  | action action =>
    obtain rfl := Option.some.inj hstep
    exact .records _ trivial rfl (getAnimatedTime_eq h) rfl rfl

/-- The head of a list with an item is the head of a longer one. -/
lemma head?_append_of_mem {a : AnimationAction} {actions others : List AnimationAction}
    (h : a ∈ actions) : (actions ++ others).head? = actions.head? :=
  List.head?_append_of_ne_nil _ (List.ne_nil_of_mem h)

/-- A step keeps where the times come from. -/
lemma Follows.moves {e : KeEvent} (h : widget.Follows) (hmoves : widget.Moves e widget') :
    widget'.Follows := by
  obtain ⟨hself, hsource⟩ := h
  cases hmoves with
  | records a _ hactions htime hkeTime hhades =>
    refine ⟨by rw [hkeTime]; exact hself, ?_⟩
    rw [hkeTime, hhades, hactions]
    refine hsource.imp (fun hset => ⟨hset.1, fun b hb => ?_⟩) fun hunset b hb => ?_
    · rcases List.mem_append.mp hb with hb | hb
      · rw [head?_append_of_mem hb]
        exact hset.2 b hb
      · rw [List.mem_singleton.mp hb, htime]
        exact .inl (Int32.le_refl _)
    · rcases List.mem_append.mp hb with hb | hb
      · exact hunset b hb
      · rw [List.mem_singleton.mp hb, htime]
  | reports last _ hactions hhades hle hsame hhades' =>
    refine ⟨hsame.trans hself, .inl ⟨hhades', fun b hb => ?_⟩⟩
    rw [hactions] at hb ⊢
    rcases hsource with ⟨hset, htimes⟩ | hunset
    · obtain rfl := Option.some.inj (hhades.symm.trans hset)
      exact (htimes b hb).imp_left fun hb => Int32.le_trans hb hle
    · refine .inr fun first hfirst => ?_
      rw [hunset b hb, hunset first (List.mem_of_head? hfirst)]
  | rests _ hactions htime hsame hhades =>
    refine ⟨hsame.trans hself, ?_⟩
    rw [htime, hactions]
    refine hsource.imp_left fun hset => ⟨?_, hset.2⟩
    rcases hhades with hhades | hnone
    · rw [hhades]
      exact hset.1
    · rw [hset.1] at hnone
      cases hnone

/-- An action more is in order when it is not before any other. -/
lemma ordered_concat {actions : List AnimationAction} {a : AnimationAction} :
    Ordered (actions ++ [a]) ↔ Ordered actions ∧ 0 ≤ a.time ∧ ∀ b ∈ actions, b.time ≤ a.time := by
  unfold Ordered
  simp only [List.map_append, List.map_cons, List.map_nil, List.pairwise_append, List.pairwise_singleton,
    List.mem_singleton, List.mem_append, List.mem_map, forall_eq, forall_exists_index, and_imp,
    forall_apply_eq_imp_iff₂, true_and, or_imp, forall_and]
  tauto

/-- A step keeps the order exactly when it records in order. -/
lemma inOrder_iff {e : KeEvent} (h : widget.Follows) (hordered : Ordered widget.actions)
    (hmoves : widget.Moves e widget') : widget.InOrder e ↔ Ordered widget'.actions := by
  cases hmoves with
  | records a hrecords hactions htime _ _ =>
    rw [hactions, ordered_concat, and_iff_right hordered, htime]
    constructor
    · intro horder
      obtain ⟨hnonneg, hfirst⟩ := horder hrecords
      refine ⟨hnonneg, fun b hb => ?_⟩
      rcases h.source with ⟨-, htimes⟩ | hunset
      · rcases htimes b hb with hle | heq
        · exact hle
        · obtain ⟨first, others, hcons⟩ := List.exists_cons_of_ne_nil (List.ne_nil_of_mem hb)
          have hhead : widget.actions.head? = some first := by
            rw [hcons]
            rfl
          rw [heq first hhead]
          exact hfirst first hhead
      · rw [hunset b hb]
        exact Int32.le_refl _
    · rintro ⟨hnonneg, hall⟩ -
      exact ⟨hnonneg, fun first hfirst => hall first (List.mem_of_head? hfirst)⟩
  | reports last hquiet hactions _ _ _ _ =>
    rw [hactions]
    exact iff_of_true (fun hrecords => absurd hrecords hquiet) hordered
  | rests hquiet hactions _ _ _ =>
    rw [hactions]
    exact iff_of_true (fun hrecords => absurd hrecords hquiet) hordered

/-! ## Beginnings -/

/-- Playing changes no times. -/
lemma times_takeActions (time : Int32) (test : AnimationAction → Bool)
    (actions : List AnimationAction) :
    (PlayerWidget.takeActions time test actions).2.map (·.time) = actions.map (·.time) := by
  obtain ⟨others, hothers⟩ : actionsBefore time actions <+: actions := List.takeWhile_prefix _
  have hdrop : others = actions.drop (actionsBefore time actions).length := by
    have hafter := congrArg (List.drop (actionsBefore time actions).length) hothers
    rwa [List.drop_left] at hafter
  have htime : ∀ a : AnimationAction, (if test a then a.setPlayed true else a).time = a.time := by
    intro a
    split_ifs <;> rfl
  have hmarked : ((actionsBefore time actions).map
      fun a => if test a then a.setPlayed true else a).map (·.time) =
      (actionsBefore time actions).map (·.time) := by
    rw [List.map_map]
    exact List.map_congr_left fun a _ => htime a
  unfold PlayerWidget.takeActions
  dsimp only
  rw [← hdrop, List.map_append, hmarked, ← List.map_append, hothers]

/-- `GotoTime` changes no times. -/
lemma ends_gotoTime {env : PlayerSurroundings} (player : PlayerWidget) (time : Int32) :
    Ends (player.gotoTime env time)
      (fun player' => player'.actions.map (·.time) = player.actions.map (·.time))
      (· = .nullPage) := by
  refine (PlayerWidget.resetPages_spec player).ends.bind fun q hq => ?_
  refine (PlayerWidget.playActions_spec _ _).ends.mono fun r hr => ?_
  rw [hr.1.actions_eq]
  refine (times_takeActions time _ q.actions).trans ?_
  rw [hq.2, List.map_map]
  rfl

/-- Whether the actions up to a time are in order depends on the times. -/
lemma ordered_filter_congr {actions actions' : List AnimationAction} (time : Int32)
    (h : actions'.map (·.time) = actions.map (·.time)) :
    Ordered (actions'.filter fun a => a.time ≤ time) ↔
      Ordered (actions.filter fun a => a.time ≤ time) := by
  have htimes : ∀ l : List AnimationAction, Ordered (l.filter fun a => a.time ≤ time) ↔
      ((l.map (·.time)).filter fun t => t ≤ time).Pairwise (· ≤ ·) ∧
        ∀ t ∈ (l.map (·.time)).filter fun t => t ≤ time, 0 ≤ t := by
    intro l
    rw [List.filter_map, List.forall_mem_map]
    exact Iff.rfl
  rw [htimes, htimes, h]

/-- Adding pages changes neither the stopwatch nor the recorder. -/
lemma ends_addPlayerPages (player : PlayerWidget) : Ends (widget.addPlayerPages now player)
    (fun widget' => widget'.keTime = widget.keTime ∧ widget'.hades = widget.hades)
    (· = .nullPage) := by
  refine .foldlM ⟨rfl, rfl⟩ fun widget' entry h => ?_
  cases entry.2 with
  | none => rfl
  | some page => exact h

/-- Showing a page changes neither the stopwatch nor the actions. -/
lemma showPage_eq (widget : KeWidget) (uuid : Bytes) : (widget.showPage uuid).keTime = widget.keTime ∧
    (widget.showPage uuid).hades = widget.hades ∧ (widget.showPage uuid).actions = widget.actions := by
  unfold showPage
  split <;> exact ⟨rfl, rfl, rfl⟩

/-- A widget that records again follows the recorder, and has the actions of the player up to its
time. -/
lemma ends_onReRecordTriggered (env : PlayerSurroundings) (hadesTime : Int32) (uuid : Bytes)
    (player : PlayerWidget) (time : Int32) :
    Ends (onReRecordTriggered env now hadesTime uuid player time) (fun widget =>
      widget.Follows ∧ (Ordered widget.actions ↔
        Ordered (player.actions.filter fun a => a.time ≤ time))) (· = .nullPage) := by
  have htime : (((new now hadesTime uuid).initHadesFromExistingFile now time).clearPages).keTime =
      ((new now hadesTime uuid).keTime.setAnimatedTime now time).pause now := rfl
  refine (ends_gotoTime player time).bind fun player' hplayer => ?_
  refine (ends_addPlayerPages player').bind fun widget hwidget => ?_
  obtain ⟨hkeTime, hhades⟩ := hwidget
  rw [htime] at hkeTime
  have hadesTime_eq : widget.keTime.hadesTime = time := by
    rw [hkeTime, (hadesTime_pause _).1]
    rfl
  have hself : widget.keTime.selfTimeUpdate = false := by
    rw [hkeTime, (hadesTime_pause _).2]
    rfl
  have hshown : Ends (shownUuid player') (fun _ => True) (· = .nullPage) := by
    unfold shownUuid
    split
    · trivial
    · rfl
  refine hshown.bind fun uuid' _ => ?_
  obtain ⟨hkeTime', hhades', hactions⟩ := showPage_eq
    { widget with actions := player'.actions.filter fun a => a.time ≤ time } uuid'
  refine ⟨⟨by rw [hkeTime']; exact hself, .inl ⟨?_, fun a ha => .inl ?_⟩⟩, ?_⟩
  · rw [hkeTime', hhades', hadesTime_eq]
    exact hhades
  · rw [hactions] at ha
    rw [hkeTime', hadesTime_eq]
    exact of_decide_eq_true (List.mem_filter.mp ha).2
  · rw [hactions]
    exact ordered_filter_congr time hplayer

end KeWidget

/-! ## Runs -/

/-- Recordings: at every instant an event may happen, with reports of the recorder that do not go
back. -/
def recording (s : KeWidget) : System KeWidget (Instant × KeEvent) where
  init t := t = s
  step s e t := s.Reports e.2 ∧ s.next e.1 e.2 = some t

/-- A recording begins in order: the memory of the stopwatch of a new widget held no negative time, or
the actions of the player up to its time are in order. -/
def KeStart.InOrder (hadesTime : Int32) : KeStart → Prop
  | .fresh => 0 ≤ hadesTime
  | .reRecord player time => KeWidget.Ordered (player.actions.filter fun a => a.time ≤ time)

/-- The actions of a recording are in order in every state exactly when it begins in order and every
step records in order. -/
theorem recording_ordered_iff (env : PlayerSurroundings) (now : Instant) (hadesTime : Int32) (uuid : Bytes)
    (start : KeStart) (s : KeWidget) (h : start.widget env now hadesTime uuid = .ok s)
    (es : List (Instant × KeEvent)) :
    (recording s).EveryState (fun widget => KeWidget.Ordered widget.actions) s es ↔
      start.InOrder hadesTime ∧
        (recording s).EveryStep (fun widget e => widget.InOrder e.2) s es := by
  have hstart : s.Follows ∧ (KeWidget.Ordered s.actions ↔ start.InOrder hadesTime) := by
    cases start with
    | fresh =>
      obtain rfl := Except.ok.inj h
      have hactions : (KeWidget.new now hadesTime uuid).actions =
          [⟨uuid, [], hadesTime, .switchPage, false⟩] := rfl
      refine ⟨⟨rfl, .inr fun a ha => ?_⟩, ?_⟩
      · rw [hactions, List.mem_singleton] at ha
        rw [ha]
        rfl
      · rw [hactions]
        simp [KeWidget.Ordered, KeStart.InOrder]
    | reRecord player time =>
      exact (KeWidget.ends_onReRecordTriggered env hadesTime uuid player time).of_eq h
  have hrun : KeWidget.Ordered s.actions →
      ((recording s).EveryState (fun widget => KeWidget.Ordered widget.actions) s es ↔
        (recording s).EveryStep (fun widget e => widget.InOrder e.2) s es) := by
    intro hordered
    refine System.everyState_iff ⟨hstart.1, hordered⟩ (fun widget e widget' hI hgood hstep => ?_) es
    have hmoves := KeWidget.moves_next hI.notSelfTimed hstep.1 hstep.2
    exact ⟨KeWidget.inOrder_iff hI hgood hmoves, fun _ => hI.moves hmoves⟩
  constructor
  · intro hstates
    have hordered := hstates [] es s rfl (.nil s)
    exact ⟨hstart.2.mp hordered, (hrun hordered).mp hstates⟩
  · rintro ⟨hbegins, hsteps⟩
    exact (hrun (hstart.2.mpr hbegins)).mpr hsteps

/-- A recording with a stopwatch whose memory held zero: the actions of two pages and of an element on the
second one are in order. -/
theorem recording_ordered_iff_fresh :
    (recording (.new 0 0 [1])).EveryState (fun widget => KeWidget.Ordered widget.actions) (.new 0 0 [1])
      [(0, .record true), (1, .recordTime 20), (1, .newPage [2]), (2, .recordTime 45),
        (3, .action ⟨[2], [7], 0, .hide, false⟩)] := by
  have hbegins : KeStart.fresh.InOrder 0 := Int32.le_refl 0
  refine (recording_ordered_iff noDocuments 0 0 [1] .fresh _ rfl _).mpr ⟨hbegins, ?_⟩
  refine .cons (fun hrecords => hrecords.elim) fun widget hstep => ?_
  obtain rfl := Option.some.inj hstep.2
  refine .cons (fun hrecords => hrecords.elim) fun widget hstep => ?_
  obtain rfl := Option.some.inj hstep.2
  refine .cons (fun _ => ⟨by decide, by decide⟩) fun widget hstep => ?_
  obtain rfl := Option.some.inj hstep.2
  refine .cons (fun hrecords => hrecords.elim) fun widget hstep => ?_
  obtain rfl := Option.some.inj hstep.2
  exact .cons (fun _ => ⟨by decide, by decide⟩) fun widget _ => .nil widget

/-- The memory of the stopwatch held the time of a minute when the first page was recorded; the second
page comes twenty milliseconds after the recorder began. -/
theorem not_recording_ordered_leftover :
    ¬ (recording (.new 0 60000 [1])).EveryState (fun widget => KeWidget.Ordered widget.actions)
      (.new 0 60000 [1]) [(0, .record true), (0, .recordTime 20), (0, .newPage [2])] := by
  intro h
  have hlast := h _ [] _ (List.append_nil _).symm
    (.cons ⟨trivial, rfl⟩ (.cons ⟨⟨0, rfl, by decide⟩, rfl⟩ (.cons ⟨trivial, rfl⟩ (.nil _))))
  revert hlast
  unfold KeWidget.Ordered
  decide +kernel

end Liangshi
