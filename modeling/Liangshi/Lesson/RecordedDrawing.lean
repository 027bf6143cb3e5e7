import Liangshi.Lesson.OpenedLesson
import Liangshi.Lesson.PageOutline
import Liangshi.Lesson.PageSignals
import Liangshi.Lesson.RecordedTrack
import Mathlib.Data.List.TakeWhile

/-!
# What is drawn in a recorded lesson

A recorder keeps what its pages tell about their drawings in one list, with the times of the stopwatch and
a switch for every page that is shown (`KeSession`).  In the list the actions on a page lead from nothing
to its drawing, and the last switch is to the page that is shown (`KeSession.Recorded`).

A page of a player with the same elements, and nothing drawn on it, comes to the same drawing when it plays
the actions on it (`Page.Stocked.drawnUuids_foldl`).  An action is found by the uuid of its element, so the
elements of a page must have different ones; the actions may stop anywhere between two steps of the
recorder, as all actions of a step have one time (`KeSession.Recorded.exists_before`).

What a presentation of slides shows and hides is no operation of a user on the page.
-/

namespace Liangshi

open Wire Ordered Transition

/-! ## Playing a log -/

namespace Page

variable {page page' : Page} {d : DoubleArithmetic}

/-- A page whose elements are there and have different uuids, and which draws none of them twice. -/
structure Stocked (page : Page) : Prop extends Drawable page where
  uuids : ∀ p ∈ page.allElements, ∀ q ∈ page.allElements, page.uuidOf p = page.uuidOf q → p = q

/-- The element of a stocked page with a uuid is found. -/
lemma Stocked.findElementByUuid (h : Stocked page) {uuid : Bytes} {p : Pointer}
    (hp : p ∈ page.allElements) (huuid : page.uuidOf p = some uuid) :
    page.findElementByUuid uuid = some p := by
  cases hfind : page.findElementByUuid uuid with
  | none => exact absurd (hasUuid_iff.mpr huuid) (List.find?_eq_none.mp hfind p hp)
  | some q =>
    obtain ⟨hq, hqu⟩ := of_findElementByUuid hfind
    rw [h.uuids q hq p hp ((hasUuid_iff.mp hqu).trans huuid.symm)]

/-- What is found by a uuid is an element with it. -/
lemma uuidOf_of_findElementByUuid {uuid : Bytes} {p : Pointer}
    (h : page.findElementByUuid uuid = some p) : p ∈ page.allElements ∧ page.uuidOf p = some uuid := by
  obtain ⟨hp, hpu⟩ := of_findElementByUuid h
  exact ⟨hp, hasUuid_iff.mp hpu⟩

/-- An element of a stocked page is alone with its uuid in the drawing. -/
lemma Stocked.alone (h : Stocked page) {p : Pointer} (hp : p ∈ page.allElements) :
    Alone page.uuidOf p page.drawingElements :=
  fun q hq huuid => h.uuids q (h.drawn q hq) p hp huuid

/-- A stocked page with another drawing. -/
lemma Stocked.redrawn (h : Stocked page) {r : Rearrangement Pointer}
    (hr : r.Fits page.drawingElements) (hp : r.subject ∈ page.allElements) :
    Stocked { page with drawingElements := r.apply page.drawingElements } where
  nodup := Rearrangement.nodup_apply h.nodup hr
  drawn q hq := by
    rcases Rearrangement.of_mem_apply hq with rfl | hq
    · exact hp
    · exact h.drawn q hq
  uuids := h.uuids
  live := h.live

/-- A similar page is stocked as well. -/
lemma Stocked.similar (h : Stocked page) (hsimilar : Similar page page') : Stocked page' where
  toDrawable := hsimilar.drawable h.toDrawable
  uuids := by rw [hsimilar.allElements_eq]; exact hsimilar.uuids h.uuids

/-- A uuid is drawn when an element with it is. -/
lemma mem_drawnUuids {uuid : Bytes} :
    uuid ∈ page.drawnUuids ↔ ∃ p ∈ page.drawingElements, page.uuidOf p = some uuid :=
  List.mem_filterMap

/-- A page follows a change of the drawing: it is stocked with the same elements and draws what the
change makes of its drawing. -/
structure Follows (page : Page) (change : Option (Rearrangement Bytes)) (page' : Page) : Prop where
  stocked : Stocked page'
  elements : ∀ uuid, page.HoldsUuid uuid → page'.HoldsUuid uuid
  drawnUuids_eq : page'.drawnUuids = change.elim page.drawnUuids (·.apply page.drawnUuids)

/-- A page follows what is done to an element with the uuid. -/
lemma Stocked.follows (h : Stocked page) {r : Rearrangement Pointer} {uuid : Bytes}
    (hp : r.subject ∈ page.allElements) (huuid : page.uuidOf r.subject = some uuid)
    (hfits : (r.of uuid).Fits page.drawnUuids) :
    Follows page (some (r.of uuid)) { page with drawingElements := r.apply page.drawingElements } where
  stocked := h.redrawn ((Rearrangement.fits_of (h.alone hp) huuid).mp hfits) hp
  elements _ := id
  drawnUuids_eq := Rearrangement.filterMap_apply (h.alone hp) huuid

/-- A page that is left alone follows a change of a uuid that it does not draw. -/
lemma Stocked.follows_of_not_mem (h : Stocked page) {r : Rearrangement Bytes}
    (hshow : ∀ uuid, r ≠ .show uuid) (hr : r.subject ∉ page.drawnUuids) : Follows page (some r) page :=
  ⟨h, fun _ => id, (Rearrangement.apply_of_not_mem hshow hr).symm⟩

/-- A player's page follows an action, if the element that the action shows is there and not drawn. -/
lemma Stocked.follows_playAction (h : Stocked page) {a : AnimationAction}
    (hshow : a.kind = .show → page.HoldsUuid a.targetElementUuid)
    (hfits : ∀ r, a.rearrangement? = some r → r.Fits page.drawnUuids) :
    Follows page a.rearrangement? (page.playAction d a) := by
  obtain ⟨sc, uuid, time, kind, played⟩ := a
  have hchange : ∀ change : Element → Element, (∀ e : Element, (change e).objUuid = e.objUuid) →
      Follows page none (page.playChange uuid change) := by
    intro change hchange
    have hsimilar := (similar_playChange page uuid hchange).1
    exact ⟨h.similar hsimilar, (Tells.quiet hsimilar (by unfold playChange; split <;> simp)).elements,
      hsimilar.drawnUuids_eq⟩
  -- What is drawn with a uuid is found by it.
  have hnone : page.drawingElements.find? (page.hasUuid uuid) = none → uuid ∉ page.drawnUuids := by
    intro hfind hmem
    obtain ⟨p, hp, huuid⟩ := mem_drawnUuids.mp hmem
    exact List.find?_eq_none.mp hfind p hp (hasUuid_iff.mpr huuid)
  have hsome : ∀ p, page.drawingElements.find? (page.hasUuid uuid) = some p →
      p ∈ page.allElements ∧ page.uuidOf p = some uuid := fun p hfind =>
    ⟨h.drawn p (List.mem_of_find?_eq_some hfind), hasUuid_iff.mp (List.find?_some hfind)⟩
  cases kind with
  | «show» =>
    obtain ⟨p, hp, huuid⟩ := hshow rfl
    have hfollows := h.follows (r := .show p) hp huuid (hfits _ rfl)
    simp only [playAction, playShowAction, h.findElementByUuid hp huuid]
    exact hfollows
  | hide =>
    have hplay : page.playAction d ⟨sc, uuid, time, .hide, played⟩ = page.playHideAction uuid := rfl
    rw [hplay, playHideAction]
    cases hfind : page.findElementByUuid uuid with
    | none =>
      refine h.follows_of_not_mem (r := .hide uuid) (by simp) fun hmem : uuid ∈ _ => ?_
      obtain ⟨p, hp, huuid⟩ := mem_drawnUuids.mp hmem
      rw [h.findElementByUuid (h.drawn p hp) huuid] at hfind
      cases hfind
    | some p =>
      obtain ⟨hp, huuid⟩ := uuidOf_of_findElementByUuid hfind
      have hfollows := h.follows (r := .hide p) hp huuid trivial
      have hfilter : page.drawingElements.filter (· ≠ p) = page.drawingElements.erase p := by
        rw [h.nodup.erase_eq_filter]
        exact List.filter_congr fun q _ => by simp [bne, beq_eq_decide]
      dsimp only
      rw [hfilter]
      exact hfollows
  | topMost =>
    simp only [playAction, playTopMostAction]
    cases hfind : page.drawingElements.find? (page.hasUuid uuid) with
    | none => exact h.follows_of_not_mem (r := .top uuid) (by simp) (hnone hfind)
    | some p =>
      obtain ⟨hp, huuid⟩ := hsome p hfind
      have hfollows := h.follows (r := .top p) hp huuid trivial
      have hdrawn := List.mem_of_find?_eq_some hfind
      simp only [Rearrangement.apply, toTop, if_pos hdrawn] at hfollows
      simp only [onTopMostElementTriggered, if_pos hdrawn]
      exact hfollows
  | bottomMost =>
    simp only [playAction, playBottomMostAction]
    cases hfind : page.drawingElements.find? (page.hasUuid uuid) with
    | none => exact h.follows_of_not_mem (r := .bottom uuid) (by simp) (hnone hfind)
    | some p =>
      obtain ⟨hp, huuid⟩ := hsome p hfind
      have hfollows := h.follows (r := .bottom p) hp huuid trivial
      have hdrawn := List.mem_of_find?_eq_some hfind
      simp only [Rearrangement.apply, toBottom, if_pos hdrawn] at hfollows
      simp only [onBottomMostElementTriggered, if_pos hdrawn]
      exact hfollows
  | size leftTop width height => exact hchange _ fun _ => rfl
  | lineWidth width => exact hchange _ (objUuid_setLineWidth width)
  | lineStyle style => exact hchange _ (objUuid_setLineStyle style)
  | lineColor color => exact hchange _ (objUuid_setLineColor color.ofRgb)
  | textChanged text fontSize => exact hchange _ fun _ => rfl
  | switchPage => exact ⟨h, fun _ => id, rfl⟩
  | networkShow elementType elementData => exact ⟨h, fun _ => id, rfl⟩
  | networkSwitchPage pageData => exact ⟨h, fun _ => id, rfl⟩

/-- A player's page that plays a log comes to the drawing that the log leads to. -/
lemma Stocked.drawnUuids_foldl (h : Stocked page) {actions : List AnimationAction}
    {drawn : List Bytes} (harranges : Arranges page.drawnUuids actions drawn)
    (hshow : ∀ a ∈ actions, a.kind = .show → page.HoldsUuid a.targetElementUuid) :
    (actions.foldl (playAction d) page).drawnUuids = drawn := by
  induction actions generalizing page with
  | nil => exact harranges.of_nil
  | cons a actions ih =>
    obtain ⟨hfirst, hothers⟩ := List.forall_mem_cons.mp hshow
    rw [List.foldl_cons]
    cases hr : a.rearrangement? with
    | none =>
      have hfollows := h.follows_playAction (d := d) hfirst (by rw [hr]; nofun)
      rw [hr] at hfollows
      refine ih hfollows.stocked ?_ fun b hb hb' => hfollows.elements _ (hothers b hb hb')
      rw [hfollows.drawnUuids_eq]
      unfold Arranges at harranges
      rwa [List.filterMap_cons_none hr] at harranges
    | some r =>
      unfold Arranges at harranges
      rw [List.filterMap_cons_some hr] at harranges
      obtain ⟨mid, ⟨hfits, rfl⟩, hrest⟩ := harranges.of_cons
      have hfollows := h.follows_playAction (d := d) hfirst (by
        rw [hr]
        rintro r' ⟨⟩
        exact hfits)
      rw [hr] at hfollows
      refine ih hfollows.stocked ?_ fun b hb hb' => hfollows.elements _ (hothers b hb hb')
      rw [hfollows.drawnUuids_eq]
      exact hrest

end Page

/-! ## Recording -/

/-- A recorder with its pages and the line attributes that it gives to a page it shows. -/
structure KeSession where
  document : KeDocument
  cachedWidth : Int32
  cachedStyle : Int32
  cachedColor : SColor

/-- What happens to a recorder: the stopwatch and the audio recorder go on, the user turns the pages, does
something on the page that is shown or changes a line attribute, and the helper of an element reports its
text or its size. -/
inductive SessionEvent where
  | clock (e : KeEvent)
  | newPage (uuid : Bytes)
  | previousPage
  | nextPage
  | selectPage (page : Nat)
  | edit (e : PageEvent)
  | report (p : Pointer) (kind : AnimationKind)
  | lineWidth (width : Int32)
  | lineStyle (style : Int32)
  | lineColor (color : SColor)

namespace KeSession

/-- The constructor, with what `_hadesTime` of its stopwatch happens to be. -/
def new (now : Instant) (hadesTime : Int32) (uuid : Bytes) : KeSession :=
  ⟨⟨.new now hadesTime uuid, [(Page.new uuid).prepared]⟩, 2, 1, 0xffffffff⟩

/-- The actions of a page are recorded. -/
def record (now : Instant) (s : KeSession) (actions : List AnimationAction) : KeSession :=
  { s with document.widget := actions.foldl (·.addActionTriggered now) s.document.widget }

/-- Events on a page. -/
def onPage (now : Instant) (s : KeSession) (i : Nat) (es : List PageEvent) : Option KeSession := do
  let page ← s.document.pages[i]?
  let (page, actions) ← page.nextAll true es
  return { s.record now actions with document.pages := s.document.pages.set i page }

/-- The page that is shown. -/
def current (s : KeSession) : Option Page :=
  s.document.widget.currentPage.bind fun i => s.document.pages[i]?

/-- Events on the page that is shown. -/
def onCurrentPage (now : Instant) (s : KeSession) (es : List PageEvent) : Option KeSession := do
  let i ← s.document.widget.currentPage
  s.onPage now i es

/-- The mode and the line attributes that a page gets when it is shown. -/
def attributes (s : KeSession) : List PageEvent :=
  PageEvent.attributes s.cachedWidth s.cachedStyle s.cachedColor

/-- `OnNewPageTriggered`. -/
def onNewPageTriggered (now : Instant) (s : KeSession) (uuid : Bytes) : Option KeSession := do
  let (page, actions) ← (Page.new uuid).nextAll true s.attributes
  let s := s.record now actions
  return { s with document := ⟨s.document.widget.onNewPageTriggered now uuid, s.document.pages ++ [page]⟩ }

/-- `OnSelectPageTriggered`. -/
def onSelectPageTriggered (now : Instant) (s : KeSession) (page : Nat) : Option KeSession := do
  let s ← s.onPage now page s.attributes
  let widget ← s.document.widget.onSelectPageTriggered now page
  return { s with document.widget := widget }

/-- What an event does at an instant; `none` where it would read a page that is not there, or after a
fault. -/
def next (now : Instant) (s : KeSession) : SessionEvent → Option KeSession
  | .clock e => do
    let widget ← s.document.widget.next now e
    return { s with document.widget := widget }
  | .newPage uuid => s.onNewPageTriggered now uuid
  | .previousPage =>
    if s.document.widget.currentPageIndex = 0 then some s
    else s.onSelectPageTriggered now (s.document.widget.currentPageIndex - 1)
  | .nextPage =>
    if s.document.widget.allPages ≠ [] ∧
        s.document.widget.allPages.length - 1 ≤ s.document.widget.currentPageIndex then some s
    else s.onSelectPageTriggered now (s.document.widget.currentPageIndex + 1)
  | .selectPage page => s.onSelectPageTriggered now page
  | .edit e => s.onCurrentPage now [e]
  | .report p kind => s.current.map fun page => s.record now (page.signal p kind)
  | .lineWidth width => do
    let s ← s.onCurrentPage now [.lineWidth width false]
    return { s with cachedWidth := width }
  | .lineStyle style => do
    let s ← s.onCurrentPage now [.lineStyle style false]
    return { s with cachedStyle := style }
  | .lineColor color => do
    let s ← s.onCurrentPage now [.lineColor color false]
    return { s with cachedColor := color }

/-- The calls of the stopwatch and of the audio recorder. -/
def IsClock : KeEvent → Prop
  | .start | .pause | .reset | .record _ | .recordTime _ => True
  | _ => False

/-- What can happen: an operation of the user is about elements of the page that is shown, an element
that is added has a uuid and an address of its own, and so has a page that is made. -/
def Admits (s : KeSession) : SessionEvent → Prop
  | .clock e => IsClock e
  | .newPage uuid => ∀ page ∈ s.document.pages, page.uuid ≠ uuid
  | .edit e => Page.IsOperation e ∧ ∀ page, s.current = some page → page.Targets e ∧ page.Allocates e ∧
      page.ProceedsWell e
  | .report _ kind => kind.IsReport
  | .previousPage | .nextPage | .selectPage _ | .lineWidth _ | .lineStyle _ | .lineColor _ => True

end KeSession

/-- Recording sessions. -/
def keSessions (s : KeSession) : System KeSession (Instant × SessionEvent) where
  init t := t = s
  step s e t := s.Admits e.2 ∧ s.next e.1 e.2 = some t

/-! ## What has been recorded -/

namespace Page

/-- The actions on a page tell its drawing, and what they show are elements of it. -/
structure Logged (page : Page) (actions : List AnimationAction) : Prop where
  arranges : Arranges [] (actions.filter (·.isOn page.uuid)) page.drawnUuids
  shows : ∀ a ∈ actions, a.isOn page.uuid = true → a.kind = .show → page.HoldsUuid a.targetElementUuid

end Page

/-- An action at a time. -/
def AnimationAction.timed (time : Int32) (a : AnimationAction) : AnimationAction := { a with time }

namespace Page

variable {page page' : Page}

/-- The times of actions do not count. -/
lemma arranges_map_timed {drawn drawn' : List Bytes} {actions : List AnimationAction} (time : Int32) :
    Arranges drawn (actions.map (·.timed time)) drawn' ↔ Arranges drawn actions drawn' := by
  unfold Arranges
  rw [List.filterMap_map]
  exact Iff.rfl

/-- A new page is logged, where no action is about it. -/
lemma logged_new (uuid : Bytes) {actions : List AnimationAction}
    (h : ∀ a ∈ actions, a.targetScUuid ≠ uuid) : Logged (.new uuid) actions := by
  have hnone : ∀ a ∈ actions, a.isOn uuid = false := fun a ha => by
    rw [AnimationAction.isOn, beq_eq_false_iff_ne.mpr (h a ha), Bool.and_false]
  refine ⟨?_, fun a ha hisOn => absurd hisOn (by rw [show (new uuid).uuid = uuid from rfl, hnone a ha]; simp)⟩
  have hempty : actions.filter (·.isOn uuid) = [] :=
    List.filter_eq_nil_iff.mpr fun a ha => by rw [hnone a ha]; exact Bool.false_ne_true
  rw [show (new uuid).uuid = uuid from rfl, hempty]
  exact .nil _

/-- A page that tells what it does stays logged when that is recorded. -/
lemma Logged.tells {actions signals : List AnimationAction} (h : Logged page actions)
    (htells : Tells page signals page') (time : Int32) :
    Logged page' (actions ++ signals.map (·.timed time)) := by
  have hon : (signals.map (·.timed time)).filter (·.isOn page.uuid) = signals.map (·.timed time) :=
    List.filter_eq_self.mpr (List.forall_mem_map.mpr htells.isOn)
  constructor
  · rw [uuid_of_own htells.own, List.filter_append, hon]
    exact h.arranges.append ((arranges_map_timed time).mpr htells.arranges)
  · intro a ha hisOn hshow
    rw [uuid_of_own htells.own] at hisOn
    rcases List.mem_append.mp ha with ha | ha
    · exact htells.elements _ (h.shows a ha hisOn hshow)
    · obtain ⟨b, hb, rfl⟩ := List.mem_map.mp ha
      exact htells.shows b hb hshow

/-- A page stays logged when actions of others are recorded. -/
lemma Logged.others {actions others : List AnimationAction} (h : Logged page actions)
    (hothers : ∀ a ∈ others, a.isOn page.uuid = false) : Logged page (actions ++ others) := by
  have hnone : others.filter (·.isOn page.uuid) = [] :=
    List.filter_eq_nil_iff.mpr fun a ha => by rw [hothers a ha]; exact Bool.false_ne_true
  constructor
  · rw [List.filter_append, hnone, List.append_nil]
    exact h.arranges
  · intro a ha hisOn
    rcases List.mem_append.mp ha with ha | ha
    · exact h.shows a ha hisOn
    · rw [hothers a ha] at hisOn
      cases hisOn

end Page

namespace KeSession

variable {s t : KeSession} {now : Instant}

/-- What a session has recorded tells what its pages draw, and which one is shown. -/
structure Recorded (s : KeSession) : Prop where
  notSelfTimed : s.document.widget.keTime.selfTimeUpdate = false
  uuids : s.document.widget.allPages = s.document.pages.map (·.uuid)
  nodup : (s.document.pages.map (·.uuid)).Nodup
  settled : ∀ page ∈ s.document.pages, page.Settled ∧ page.redoing = false
  logged : ∀ page ∈ s.document.pages, page.Logged s.document.widget.actions
  known : ∀ a ∈ s.document.widget.actions, a.targetScUuid ∈ s.document.pages.map (·.uuid)
  shown : ∃ page, s.current = some page ∧ switchedTo s.document.widget.actions = some page.uuid

/-- Recording actions gives them the time of the stopwatch. -/
lemma record_eq (s : KeSession) (actions : List AnimationAction) :
    s.record now actions = { s with
      document.widget.actions := s.document.widget.actions ++
        actions.map (·.timed (s.document.widget.keTime.getAnimatedTime now)) } := by
  have hwidget : ∀ (widget : KeWidget), actions.foldl (·.addActionTriggered now) widget = { widget with
      actions := widget.actions ++
        actions.map (·.timed (widget.keTime.getAnimatedTime now)) } := by
    induction actions with
    | nil => simp
    | cons a actions ih =>
      intro widget
      rw [List.foldl_cons, ih]
      simp [KeWidget.addActionTriggered, AnimationAction.timed]
  rw [record, hwidget]

/-- The pages are still there with their elements, and what has been recorded since has one time. -/
structure Continues (time : Int32) (s t : KeSession) : Prop where
  pages : ∀ page ∈ s.document.pages, ∃ page' ∈ t.document.pages, page'.uuid = page.uuid ∧
    ∀ uuid, page.HoldsUuid uuid → page'.HoldsUuid uuid
  actions : ∃ others, t.document.widget.actions = s.document.widget.actions ++ others ∧
    ∀ a ∈ others, a.time = time

/-- What a step at a time of the stopwatch does to a session that has recorded everything. -/
structure Proceeds (time : Int32) (s t : KeSession) : Prop where
  recorded : t.Recorded
  continues : Continues time s t

/-- A recording that proceeds twice at one time. -/
lemma Proceeds.trans {time : Int32} {s t u : KeSession} (h : Proceeds time s t)
    (h' : Proceeds time t u) : Proceeds time s u := by
  refine ⟨h'.recorded, fun page hpage => ?_, ?_⟩
  · obtain ⟨mid, hmid, huuid, helements⟩ := h.continues.pages page hpage
    obtain ⟨last, hlast, huuid', helements'⟩ := h'.continues.pages mid hmid
    exact ⟨last, hlast, huuid'.trans huuid, fun uuid => helements' uuid ∘ helements uuid⟩
  · obtain ⟨first, hfirst, htimes⟩ := h.continues.actions
    obtain ⟨others, hothers, htimes'⟩ := h'.continues.actions
    refine ⟨first ++ others, by rw [hothers, hfirst, List.append_assoc], fun a ha => ?_⟩
    rcases List.mem_append.mp ha with ha | ha
    · exact htimes a ha
    · exact htimes' a ha

/-- Nothing that is recorded depends on more than the pages, the actions and what is shown. -/
lemma Recorded.quiet (h : s.Recorded) (time : Int32)
    (hself : t.document.widget.keTime.selfTimeUpdate = false)
    (hpages : t.document.pages = s.document.pages)
    (hall : t.document.widget.allPages = s.document.widget.allPages)
    (hcurrent : t.document.widget.currentPage = s.document.widget.currentPage)
    (hactions : t.document.widget.actions = s.document.widget.actions) : Proceeds time s t where
  recorded := by
    refine ⟨hself, ?_, ?_, ?_, ?_, ?_, ?_⟩
    · rw [hall, hpages]
      exact h.uuids
    · rw [hpages]
      exact h.nodup
    · rw [hpages]
      exact h.settled
    · rw [hpages, hactions]
      exact h.logged
    · rw [hpages, hactions]
      exact h.known
    · rw [hactions, current, hcurrent, hpages]
      exact h.shown
  continues := by
    refine ⟨fun page hpage => ⟨page, hpages ▸ hpage, rfl, fun _ => id⟩, [], ?_, nofun⟩
    rw [List.append_nil]
    exact hactions

/-- No action on a page is a switch. -/
lemma not_isSwitch_of_isOn {uuid : Bytes} {a : AnimationAction} (h : a.isOn uuid = true) :
    a.isSwitch = false ∧ a.targetScUuid = uuid := by
  unfold AnimationAction.isOn at h
  simpa using h

/-- A page that takes the place of one with its uuid. -/
lemma map_uuid_set {pages : List Page} {i : Nat} {page page' : Page} (hi : pages[i]? = some page)
    (huuid : page'.uuid = page.uuid) : (pages.set i page').map (·.uuid) = pages.map (·.uuid) := by
  refine List.ext_getElem? fun j => ?_
  rw [List.getElem?_map, List.getElem?_map, List.getElem?_set]
  split_ifs with hij hlt
  · rw [← hij, hi, Option.map_some, Option.map_some, huuid]
  · rw [← hij, List.getElem?_eq_none (Nat.le_of_not_lt hlt)]
  · rfl

/-- Beside a page that takes the place of another there are the pages with other uuids. -/
lemma of_mem_set {pages : List Page} (h : (pages.map (·.uuid)).Nodup) {i : Nat} {page page' other : Page}
    (hi : pages[i]? = some page) (hother : other ∈ pages.set i page') :
    other = page' ∨ other ∈ pages ∧ other.uuid ≠ page.uuid := by
  obtain ⟨j, hj⟩ := List.mem_iff_getElem?.mp hother
  rw [List.getElem?_set] at hj
  split_ifs at hj with hij hlt
  · exact .inl (Option.some.inj hj).symm
  · refine .inr ⟨List.mem_of_getElem? hj, fun heq => hij ?_⟩
    have hbound : i < (pages.map (·.uuid)).length := by
      rw [List.length_map]
      exact (List.getElem?_eq_some_iff.mp hi).1
    refine (List.getElem?_inj hbound h).mp ?_
    rw [List.getElem?_map, List.getElem?_map, hi, hj, Option.map_some, Option.map_some, heq]

/-- A page changes and tells what it does. -/
lemma Recorded.page (now : Instant) (h : s.Recorded) {i : Nat} {page page' : Page} {actions : List AnimationAction}
    (hi : s.document.pages[i]? = some page) (htells : Page.Tells page actions page')
    (hsettled : page'.Settled ∧ page'.redoing = false) :
    Proceeds (s.document.widget.keTime.getAnimatedTime now) s
      { s.record now actions with document.pages := s.document.pages.set i page' } := by
  have hpage := List.mem_of_getElem? hi
  have huuid := Page.uuid_of_own htells.own
  have huuids := map_uuid_set hi huuid
  have hmem : page' ∈ s.document.pages.set i page' :=
    List.mem_set (List.getElem?_eq_some_iff.mp hi).1 page'
  rw [record_eq]
  generalize s.document.widget.keTime.getAnimatedTime now = time
  have hon : ∀ a ∈ actions.map (·.timed time), a.isSwitch = false ∧ a.targetScUuid = page.uuid := by
    rintro _ ha
    obtain ⟨b, hb, rfl⟩ := List.mem_map.mp ha
    exact not_isSwitch_of_isOn (htells.isOn b hb)
  constructor
  · refine ⟨h.notSelfTimed, h.uuids.trans huuids.symm, ?_, ?_, ?_, ?_, ?_⟩
    · rw [huuids]
      exact h.nodup
    · intro other hother
      rcases of_mem_set h.nodup hi hother with rfl | ⟨hother, -⟩
      · exact hsettled
      · exact h.settled other hother
    · intro other hother
      rcases of_mem_set h.nodup hi hother with rfl | ⟨hother, hne⟩
      · exact (h.logged page hpage).tells htells time
      · refine (h.logged other hother).others fun a ha => ?_
        rw [AnimationAction.isOn, (hon a ha).2, beq_eq_false_iff_ne.mpr hne.symm, Bool.and_false]
    · intro a ha
      rw [huuids]
      rcases List.mem_append.mp ha with ha | ha
      · exact h.known a ha
      · rw [(hon a ha).2]
        exact List.mem_map_of_mem hpage
    · obtain ⟨shown, hcurrent, hswitched⟩ := h.shown
      obtain ⟨c, hc, hshown⟩ := Option.bind_eq_some_iff.mp hcurrent
      rw [switchedTo_append, switchedTo_of_forall fun a ha => (hon a ha).1, Option.none_or, hswitched]
      by_cases hic : i = c
      · subst hic
        obtain rfl := Option.some.inj (hi.symm.trans hshown)
        refine ⟨page', Option.bind_eq_some_iff.mpr ⟨i, hc, ?_⟩, by rw [huuid]⟩
        exact List.getElem?_set_self (List.getElem?_eq_some_iff.mp hi).1
      · refine ⟨shown, Option.bind_eq_some_iff.mpr ⟨c, hc, ?_⟩, rfl⟩
        exact (List.getElem?_set_ne hic).trans hshown
  · refine ⟨fun other hother => ?_, _, rfl, fun a ha => ?_⟩
    · by_cases heq : other.uuid = page.uuid
      · obtain rfl : other = page := List.inj_on_of_nodup_map h.nodup hother hpage heq
        exact ⟨page', hmem, huuid, htells.elements⟩
      · obtain ⟨j, hj⟩ := List.mem_iff_getElem?.mp hother
        have hij : i ≠ j := fun hij => heq (by
          rw [← hij, hi] at hj
          rw [Option.some.inj hj])
        exact ⟨other, List.mem_of_getElem? ((List.getElem?_set_ne hij).trans hj), rfl, fun _ => id⟩
    · obtain ⟨b, -, rfl⟩ := List.mem_map.mp ha
      rfl

/-- What events on a page that tell what they do come to. -/
lemma Recorded.onPage (h : s.Recorded) {i : Nat} {es : List PageEvent}
    (htells : ∀ page page' actions, s.document.pages[i]? = some page →
      page.nextAll true es = some (page', actions) →
        Page.Tells page actions page' ∧ page'.Settled ∧ page'.redoing = false)
    (hstep : s.onPage now i es = some t) :
    Proceeds (s.document.widget.keTime.getAnimatedTime now) s t ∧
      t.document.widget.keTime = s.document.widget.keTime ∧
        t.document.pages.map (·.uuid) = s.document.pages.map (·.uuid) := by
  simp only [KeSession.onPage, Option.bind_eq_bind, Option.bind_eq_some_iff] at hstep
  obtain ⟨page, hi, ⟨page', actions⟩, hnext, heq⟩ := hstep
  obtain ⟨hpage, hsettled⟩ := htells page page' actions hi hnext
  obtain rfl := Option.some.inj heq
  refine ⟨h.page now hi hpage hsettled, ?_, map_uuid_set hi (Page.uuid_of_own hpage.own)⟩
  dsimp only
  rw [record_eq]

/-- A page is shown, and that is recorded. -/
lemma Recorded.switch (h : s.Recorded) {i : Nat} {page : Page} (hi : s.document.pages[i]? = some page)
    (time : Int32) : Proceeds time s { s with
      document.widget := { s.document.widget with
        currentPageIndex := i
        currentPage := some i
        actions := s.document.widget.actions ++ [⟨page.uuid, [], time, .switchPage, false⟩] } } where
  recorded := by
    refine ⟨h.notSelfTimed, h.uuids, h.nodup, h.settled, fun other hother => ?_, fun a ha => ?_,
      page, hi, ?_⟩
    · refine (h.logged other hother).others fun a ha => ?_
      rw [List.mem_singleton.mp ha]
      rfl
    · rcases List.mem_append.mp ha with ha | ha
      · exact h.known a ha
      · rw [List.mem_singleton.mp ha]
        exact List.mem_map_of_mem (List.mem_of_getElem? hi)
    · rw [switchedTo_append]
      rfl
  continues := by
    refine ⟨fun other hother => ⟨other, hother, rfl, fun _ => id⟩, _, rfl, fun a ha => ?_⟩
    rw [List.mem_singleton.mp ha]

/-- A page that is made is added, with nothing recorded on it. -/
lemma Recorded.add (h : s.Recorded) {uuid : Bytes} (hfresh : ∀ page ∈ s.document.pages, page.uuid ≠ uuid)
    (time : Int32) : Proceeds time s { s with
      document.widget.allPages := s.document.widget.allPages ++ [uuid]
      document.pages := s.document.pages ++ [Page.new uuid] } where
  recorded := by
    have hnone : uuid ∉ s.document.pages.map (·.uuid) := fun hmem => by
      obtain ⟨page, hpage, heq⟩ := List.mem_map.mp hmem
      exact hfresh page hpage heq
    refine ⟨h.notSelfTimed, ?_, ?_, fun page hpage => ?_, fun page hpage => ?_, fun a ha => ?_, ?_⟩
    · rw [List.map_append, h.uuids]
      rfl
    · rw [List.map_append]
      refine h.nodup.append (List.nodup_singleton uuid) fun other hother hnew => hnone ?_
      have heq : other = uuid := List.mem_singleton.mp hnew
      rwa [heq] at hother
    · rcases List.mem_append.mp hpage with hpage | hpage
      · exact h.settled page hpage
      · rw [List.mem_singleton.mp hpage]
        exact ⟨Page.settled_of_empty rfl rfl rfl rfl, rfl⟩
    · rcases List.mem_append.mp hpage with hpage | hpage
      · exact h.logged page hpage
      · rw [List.mem_singleton.mp hpage]
        exact Page.logged_new uuid fun a ha => fun heq => hnone (heq ▸ h.known a ha)
    · rw [List.map_append]
      exact List.mem_append_left _ (h.known a ha)
    · obtain ⟨shown, hcurrent, hswitched⟩ := h.shown
      obtain ⟨c, hc, hshown⟩ := Option.bind_eq_some_iff.mp hcurrent
      refine ⟨shown, Option.bind_eq_some_iff.mpr ⟨c, hc, ?_⟩, hswitched⟩
      rw [List.getElem?_append_left (List.getElem?_eq_some_iff.mp hshown).1]
      exact hshown
  continues := by
    refine ⟨fun page hpage => ⟨page, List.mem_append_left _ hpage, rfl, fun _ => id⟩, [], ?_, nofun⟩
    exact (List.append_nil _).symm

/-- `OnSelectPageTriggered`. -/
lemma Recorded.onSelectPageTriggered (h : s.Recorded) {i : Nat}
    (hstep : s.onSelectPageTriggered now i = some t) :
    Proceeds (s.document.widget.keTime.getAnimatedTime now) s t := by
  simp only [KeSession.onSelectPageTriggered, KeWidget.onSelectPageTriggered, Option.bind_eq_bind,
    Option.bind_eq_some_iff] at hstep
  obtain ⟨mid, hmid, widget, hwidget, heq⟩ := hstep
  obtain ⟨hproceeds, hkeTime, -⟩ := h.onPage (fun page page' actions hi hnext =>
    (h.settled page (List.mem_of_getElem? hi)).1.tells_nextAll
      (h.settled page (List.mem_of_getElem? hi)).2 (fun e he => Page.of_mem_attributes he) hnext) hmid
  obtain ⟨uuid, huuid, rfl⟩ := Option.map_eq_some_iff.mp hwidget
  obtain rfl := Option.some.inj heq
  rw [hproceeds.recorded.uuids, List.getElem?_map] at huuid
  obtain ⟨page, hpage, rfl⟩ := Option.map_eq_some_iff.mp huuid
  refine hproceeds.trans ?_
  rw [← hkeTime]
  exact hproceeds.recorded.switch hpage _

/-- `OnNewPageTriggered`. -/
lemma Recorded.onNewPageTriggered (h : s.Recorded) {uuid : Bytes}
    (hfresh : ∀ page ∈ s.document.pages, page.uuid ≠ uuid)
    (hstep : s.onNewPageTriggered now uuid = some t) :
    Proceeds (s.document.widget.keTime.getAnimatedTime now) s t := by
  simp only [KeSession.onNewPageTriggered, Option.bind_eq_bind, Option.bind_eq_some_iff] at hstep
  obtain ⟨⟨page, actions⟩, hnext, heq⟩ := hstep
  obtain rfl := Option.some.inj heq
  have hadd := h.add hfresh (s.document.widget.keTime.getAnimatedTime now)
  have hnew : (Page.new uuid).Settled := Page.settled_of_empty rfl rfl rfl rfl
  obtain ⟨htells, hsettled⟩ := hnew.tells_nextAll rfl (fun e he => Page.of_mem_attributes he) hnext
  have hlast : (s.document.pages ++ [Page.new uuid])[s.document.pages.length]? = some (Page.new uuid) :=
    List.getElem?_concat_length
  have hpage := hadd.recorded.page now hlast htells hsettled
  have hset : (s.document.pages ++ [Page.new uuid]).set s.document.pages.length page =
      s.document.pages ++ [page] := by
    rw [List.set_append_right _ _ (Nat.le_refl _), Nat.sub_self, List.set_cons_zero]
  have hshown : (s.document.pages ++ [page])[s.document.pages.length]? = some page :=
    List.getElem?_concat_length
  rw [hset, record_eq] at hpage
  have hswitch := hpage.recorded.switch hshown (s.document.widget.keTime.getAnimatedTime now)
  have hproceeds := (hadd.trans hpage).trans hswitch
  have huuid : page.uuid = uuid := Page.uuid_of_own htells.own
  have hlength : s.document.widget.allPages.length = s.document.pages.length := by
    rw [h.uuids, List.length_map]
  rw [huuid, ← hlength] at hproceeds
  rw [record_eq]
  exact hproceeds

/-- An event on the page that is shown. -/
lemma Recorded.onCurrentPage (h : s.Recorded) {e : PageEvent} (hedit : Page.IsOperation e)
    (hfree : ∀ page, s.current = some page → page.Targets e ∧ page.Allocates e ∧ page.ProceedsWell e)
    (hstep : s.onCurrentPage now [e] = some t) :
    Proceeds (s.document.widget.keTime.getAnimatedTime now) s t := by
  simp only [KeSession.onCurrentPage, Option.bind_eq_bind, Option.bind_eq_some_iff] at hstep
  obtain ⟨i, hcurrent, hpage⟩ := hstep
  refine (h.onPage (fun page page' actions hi hnext => ?_) hpage).1
  obtain ⟨htargets, hallocates, hwell⟩ := hfree page (Option.bind_eq_some_iff.mpr ⟨i, hcurrent, hi⟩)
  obtain ⟨hsettled, hredoing⟩ := h.settled page (List.mem_of_getElem? hi)
  simp only [Page.nextAll, Option.bind_eq_bind, Option.bind_eq_some_iff] at hnext
  obtain ⟨mid, hmid, ⟨last, others⟩, hlast, heq⟩ := hnext
  obtain ⟨rfl, rfl⟩ := Prod.mk.inj (Option.some.inj heq)
  obtain ⟨rfl, rfl⟩ := Prod.mk.inj (Option.some.inj hlast)
  rw [List.append_nil]
  exact ⟨Page.tells_next hsettled hedit htargets hallocates hwell hmid,
    hsettled.next hredoing hallocates hwell hmid⟩

/-- A line attribute is changed on the page that is shown, and kept for the pages that are shown next. -/
lemma Recorded.line (h : s.Recorded) {e : PageEvent} (hedit : Page.IsOperation e)
    (hfree : ∀ page : Page, page.Targets e ∧ page.Allocates e ∧ page.ProceedsWell e)
    (cache : KeSession → KeSession) (hcache : ∀ s, (cache s).document = s.document)
    (hstep : (s.onCurrentPage now [e]).bind (fun s => some (cache s)) = some t) :
    Proceeds (s.document.widget.keTime.getAnimatedTime now) s t := by
  obtain ⟨mid, hmid, heq⟩ := Option.bind_eq_some_iff.mp hstep
  obtain rfl := Option.some.inj heq
  have hproceeds := h.onCurrentPage hedit (fun page _ => hfree page) hmid
  have hself := hproceeds.recorded.notSelfTimed
  rw [← hcache mid] at hself
  exact hproceeds.trans (hproceeds.recorded.quiet _ hself (by rw [hcache]) (by rw [hcache])
    (by rw [hcache]) (by rw [hcache]))

/-- What a helper reports is recorded. -/
lemma Recorded.report (h : s.Recorded) {page : Page} (hcurrent : s.current = some page) (p : Pointer)
    {kind : AnimationKind} (hkind : kind.IsReport) : Proceeds
      (s.document.widget.keTime.getAnimatedTime now) s (s.record now (page.signal p kind)) := by
  obtain ⟨i, -, hi⟩ := Option.bind_eq_some_iff.mp hcurrent
  have htells : Page.Tells page (page.signal p kind) page := by
    refine .of_similar (.refl page) rfl (fun a ha => Page.isOn_of_mem_signal ha fun htype => ?_)
      fun a ha => Page.rearrangement?_of_mem_signal ha fun uuid sc time played => ?_
    · cases kind <;> cases htype
      exact hkind
    · cases kind <;> first | rfl | exact hkind.elim
  have hproceeds := h.page now hi htells (h.settled page (List.mem_of_getElem? hi))
  have hset : s.document.pages.set i page = s.document.pages := by
    obtain ⟨hlt, rfl⟩ := List.getElem?_eq_some_iff.mp hi
    exact List.set_getElem_self hlt
  rw [hset] at hproceeds
  exact hproceeds

/-- What a step of a session comes to. -/
lemma Recorded.next (h : s.Recorded) {e : SessionEvent} (hadmits : s.Admits e)
    (hstep : s.next now e = some t) : Proceeds (s.document.widget.keTime.getAnimatedTime now) s t := by
  cases e with
  | clock e =>
    simp only [KeSession.next, Option.bind_eq_bind, Option.bind_eq_some_iff] at hstep
    obtain ⟨widget, hwidget, heq⟩ := hstep
    obtain rfl := Option.some.inj heq
    cases e with
    | start =>
      obtain rfl := Option.some.inj hwidget
      exact h.quiet _ ((KeWidget.hadesTime_start _).2.trans h.notSelfTimed) rfl rfl rfl rfl
    | pause =>
      obtain rfl := Option.some.inj hwidget
      exact h.quiet _ ((KeWidget.hadesTime_pause _).2.trans h.notSelfTimed) rfl rfl rfl rfl
    | reset =>
      obtain rfl := Option.some.inj hwidget
      exact h.quiet _ h.notSelfTimed rfl rfl rfl rfl
    | record hasMicrophone =>
      obtain rfl := Option.some.inj hwidget
      unfold KeWidget.onRecordTriggered
      dsimp only
      split_ifs
      · exact h.quiet _ h.notSelfTimed rfl rfl rfl rfl
      · exact h.quiet _ ((KeWidget.hadesTime_pause _).2.trans h.notSelfTimed) rfl rfl rfl rfl
    | recordTime time =>
      obtain rfl := Option.some.inj hwidget
      exact h.quiet _ h.notSelfTimed rfl rfl rfl rfl
    | newPage uuid => exact hadmits.elim
    | previousPage => exact hadmits.elim
    | nextPage => exact hadmits.elim
    | selectPage page => exact hadmits.elim
    | action action => exact hadmits.elim
  | newPage uuid => exact h.onNewPageTriggered hadmits hstep
  | previousPage =>
    simp only [KeSession.next] at hstep
    split_ifs at hstep
    · obtain rfl := Option.some.inj hstep
      exact h.quiet _ h.notSelfTimed rfl rfl rfl rfl
    · exact h.onSelectPageTriggered hstep
  | nextPage =>
    simp only [KeSession.next] at hstep
    split_ifs at hstep
    · obtain rfl := Option.some.inj hstep
      exact h.quiet _ h.notSelfTimed rfl rfl rfl rfl
    · exact h.onSelectPageTriggered hstep
  | selectPage page => exact h.onSelectPageTriggered hstep
  | edit e => exact h.onCurrentPage hadmits.1 hadmits.2 hstep
  | report p kind =>
    obtain ⟨page, hcurrent, rfl⟩ := Option.map_eq_some_iff.mp hstep
    exact h.report hcurrent p hadmits
  | lineWidth width =>
    exact h.line (e := .lineWidth width false) trivial (fun _ => ⟨trivial, trivial, trivial⟩)
      (fun s => { s with cachedWidth := width }) (fun _ => rfl) hstep
  | lineStyle style =>
    exact h.line (e := .lineStyle style false) trivial (fun _ => ⟨trivial, trivial, trivial⟩)
      (fun s => { s with cachedStyle := style }) (fun _ => rfl) hstep
  | lineColor color =>
    exact h.line (e := .lineColor color false) trivial (fun _ => ⟨trivial, trivial, trivial⟩)
      (fun s => { s with cachedColor := color }) (fun _ => rfl) hstep

/-- A new session has recorded the switch to its page. -/
lemma recorded_new (now : Instant) (hadesTime : Int32) (uuid : Bytes) :
    (new now hadesTime uuid).Recorded := by
  have hpage : (Page.new uuid).prepared =
      { Page.new uuid with lineWidth := 2, lineStyle := 1, lineColor := 0xffffffff } := rfl
  have hlogged : (Page.new uuid).prepared.Logged (new now hadesTime uuid).document.widget.actions := by
    refine ⟨?_, fun a ha hisOn => ?_⟩
    · exact .nil _
    · have heq : a = _ := List.mem_singleton.mp ha
      rw [heq] at hisOn
      cases hisOn
  refine ⟨rfl, rfl, List.nodup_singleton _, ?_, ?_, ?_, (Page.new uuid).prepared, rfl, rfl⟩
  · intro page hmem
    obtain rfl : page = (Page.new uuid).prepared := List.mem_singleton.mp hmem
    rw [hpage]
    exact ⟨Page.settled_of_empty rfl rfl rfl rfl, rfl⟩
  · intro page hmem
    obtain rfl : page = (Page.new uuid).prepared := List.mem_singleton.mp hmem
    exact hlogged
  · intro a ha
    obtain rfl : a = _ := List.mem_singleton.mp ha
    exact List.mem_singleton_self _

/-- A run keeps everything recorded, and adds to what has been recorded. -/
lemma Recorded.run {start : KeSession} {es : List (Instant × SessionEvent)} (h : s.Recorded)
    (hrun : (keSessions start).Run s es t) : t.Recorded ∧
      (∀ page ∈ s.document.pages, ∃ page' ∈ t.document.pages, page'.uuid = page.uuid ∧
        ∀ uuid, page.HoldsUuid uuid → page'.HoldsUuid uuid) ∧
      s.document.widget.actions <+: t.document.widget.actions := by
  induction hrun with
  | nil => exact ⟨h, fun page hpage => ⟨page, hpage, rfl, fun _ => id⟩, List.prefix_rfl⟩
  | snoc hrun hstep ih =>
    obtain ⟨hmid, hpages, hactions⟩ := ih
    obtain ⟨hlast, hcontinues⟩ := hmid.next hstep.1 hstep.2
    refine ⟨hlast, fun page hpage => ?_, ?_⟩
    · obtain ⟨mid, hmem, huuid, helements⟩ := hpages page hpage
      obtain ⟨last, hlast, huuid', helements'⟩ := hcontinues.pages mid hmem
      exact ⟨last, hlast, huuid'.trans huuid, fun uuid => helements' uuid ∘ helements uuid⟩
    · obtain ⟨others, hothers, -⟩ := hcontinues.actions
      exact hactions.trans ⟨others, hothers.symm⟩

/-- The recorder at a time: a state of the run in which just the actions before the time had been
recorded. -/
lemma Recorded.exists_before {start : KeSession} {es : List (Instant × SessionEvent)} (h : s.Recorded)
    (hrun : (keSessions start).Run s es t) {time : Int32}
    (hbefore : ∀ a ∈ s.document.widget.actions, a.time < time) :
    ∃ es₁ es₂ r, es = es₁ ++ es₂ ∧ (keSessions start).Run s es₁ r ∧ (keSessions start).Run r es₂ t ∧
      r.document.widget.actions = actionsBefore time t.document.widget.actions := by
  induction es generalizing s with
  | nil =>
    obtain rfl := hrun.of_nil
    refine ⟨[], [], s, rfl, .nil s, .nil s, ?_⟩
    exact (List.takeWhile_eq_self_iff.mpr fun a ha => decide_eq_true (hbefore a ha)).symm
  | cons e es ih =>
    obtain ⟨mid, hstep, hrest⟩ := hrun.of_cons
    obtain ⟨hmid, hcontinues⟩ := h.next hstep.1 hstep.2
    obtain ⟨others, hothers, htimes⟩ := hcontinues.actions
    by_cases hlate : ∃ a ∈ others, ¬ a.time < time
    · -- The step records behind the time, so the time is before the step.
      refine ⟨[], e :: es, s, rfl, .nil s, hrun, ?_⟩
      obtain ⟨a, ha, hlate⟩ := hlate
      obtain ⟨others', hprefix⟩ := (hmid.run hrest).2.2
      obtain ⟨b, others, rfl⟩ := List.exists_cons_of_ne_nil (List.ne_nil_of_mem ha)
      have hb : ¬ b.time < time := by
        rw [htimes b List.mem_cons_self, ← htimes a ha]
        exact hlate
      rw [← hprefix, hothers, List.append_assoc]
      unfold actionsBefore
      rw [List.takeWhile_append_of_pos fun a ha => decide_eq_true (hbefore a ha), List.cons_append,
        List.takeWhile_cons, if_neg (by simpa using hb), List.append_nil]
    · have hmidBefore : ∀ a ∈ mid.document.widget.actions, a.time < time := by
        intro a ha
        rw [hothers] at ha
        rcases List.mem_append.mp ha with ha | ha
        · exact hbefore a ha
        · exact not_not.mp fun hnot => hlate ⟨a, ha, hnot⟩
      obtain ⟨es₁, es₂, r, rfl, hfirst, hlast, hactions⟩ := ih hmid hrest hmidBefore
      exact ⟨e :: es₁, es₂, r, rfl, hfirst.cons hstep, hlast, hactions⟩

end KeSession

/-! ## The lesson that is played -/

/-- A player shows a page of a recorder with what is drawn on it, in its order. -/
def PlayerWidget.Draws (player : PlayerWidget) (page : Page) : Prop :=
  ∃ shown, player.Shows page.uuid shown ∧ shown.drawnUuids = page.drawnUuids

/-- What a player draws is seen in its outline. -/
lemma PlayerWidget.Draws.of_outline_eq {player player' : PlayerWidget} {page : Page}
    (heq : player.outline = player'.outline) (h : player.Draws page) : player'.Draws page := by
  obtain ⟨shown, ⟨hcurrent, hfind⟩, hdrawn⟩ := h
  have hsame : (player.allPages.find page.uuid).map (·.map Page.outline) =
      (player'.allPages.find page.uuid).map (·.map Page.outline) := by
    rw [← find_outline, ← find_outline, heq]
  rw [hfind] at hsame
  obtain ⟨entry, hfind', hentry⟩ := Option.map_eq_some_iff.mp hsame.symm
  obtain ⟨shown', rfl, houtline⟩ := Option.map_eq_some_iff.mp hentry
  refine ⟨shown', ⟨?_, hfind'⟩, ?_⟩
  · rw [← hcurrent]
    exact (congrArg PlayerWidget.currentPage heq).symm
  · rw [← shown'.drawnUuids_outline, houtline, Page.drawnUuids_outline, hdrawn]

/-- A lesson with what a session has recorded: its actions, and pages on which nothing is drawn, with
the elements of the recorder's pages. -/
structure PlayerWidget.Holds (env : PlayerSurroundings) (lesson : PlayerWidget) (s : KeSession) : Prop where
  isLesson : lesson.IsLesson env
  actions : lesson.actions = s.document.widget.actions.map (·.setPlayed false)
  pages : ∀ page ∈ s.document.pages, ∃ empty, lesson.allPages.find page.uuid = some (some empty) ∧
    empty.Stocked ∧ empty.drawingElements = [] ∧ ∀ uuid, page.HoldsUuid uuid → empty.HoldsUuid uuid

namespace PlayerWidget

variable {env : PlayerSurroundings} {lesson : PlayerWidget} {s r : KeSession} {time : Int32}

/-- What the actions before a time make of a lesson: the page that was shown, as it was drawn. -/
lemma Holds.exists_drawnBy (h : lesson.Holds env s) (hr : r.Recorded)
    (hpages : ∀ page ∈ r.document.pages, ∃ page' ∈ s.document.pages, page'.uuid = page.uuid ∧
      ∀ uuid, page.HoldsUuid uuid → page'.HoldsUuid uuid)
    (hactions : r.document.widget.actions = actionsBefore time s.document.widget.actions)
    {first : AnimationAction} (hfirst : s.document.widget.actions.head? = some first)
    (hswitch : first.isSwitch) (hbehind : first.time < time) :
    ∃ page i switch empty, r.current = some page ∧ latestSwitch time lesson.actions = some i ∧
      lesson.actions[i]? = some switch ∧ switch.targetScUuid = page.uuid ∧
        lesson.allPages.find page.uuid = some (some empty) ∧
          (empty.drawnBy env.doubles page.uuid (actionsBefore time lesson.actions)).drawnUuids =
            page.drawnUuids := by
  have hhead : lesson.actions.head? = some (first.setPlayed false) := by
    rw [h.actions, List.head?_map, hfirst, Option.map_some]
  obtain ⟨i, hlatest⟩ := exists_latestSwitch hhead hswitch hbehind
  obtain ⟨switch, hi, -⟩ := isSwitch_of_latestSwitch hlatest
  have hbefore : actionsBefore time lesson.actions =
      r.document.widget.actions.map (·.setPlayed false) := by
    rw [h.actions, actionsBefore_setPlayed, hactions]
  have hswitched : switchedTo (actionsBefore time lesson.actions) = some switch.targetScUuid := by
    rw [actionsBefore_eq_take]
    exact switchedTo_take hlatest hi
  obtain ⟨page, hcurrent, hshown⟩ := hr.shown
  have hsame : switch.targetScUuid = page.uuid := by
    have hmap : switchedTo (r.document.widget.actions.map (·.setPlayed false)) =
        switchedTo r.document.widget.actions := by
      unfold switchedTo
      rw [List.filter_map, List.getLast?_map, Option.map_map]
      rfl
    rw [hbefore, hmap, hshown] at hswitched
    exact (Option.some.inj hswitched).symm
  obtain ⟨c, -, hc⟩ := Option.bind_eq_some_iff.mp hcurrent
  have hpage := List.mem_of_getElem? hc
  obtain ⟨page', hpage', huuid, helements⟩ := hpages page hpage
  obtain ⟨empty, hfind, hstocked, hnothing, hstock⟩ := h.pages page' hpage'
  rw [huuid] at hfind
  refine ⟨page, i, switch, empty, hcurrent, hlatest, hi, hsame, hfind, ?_⟩
  have hlogged := hr.logged page hpage
  have hdrawn : empty.drawnUuids = [] := by
    rw [Page.drawnUuids, hnothing]
    rfl
  have hplayed : empty.drawnBy env.doubles page.uuid
      (r.document.widget.actions.map fun a => a.setPlayed false) =
        empty.drawnBy env.doubles page.uuid r.document.widget.actions :=
    Page.drawnBy_map_setPlayed (fun _ => false) r.document.widget.actions
  rw [hbefore, hplayed]
  refine hstocked.drawnUuids_foldl ?_ fun a ha hshow => ?_
  · rw [hdrawn]
    exact hlogged.arranges
  · obtain ⟨ha, hisOn⟩ := List.mem_filter.mp ha
    exact hstock _ (helements _ (hlogged.shows a ha hisOn hshow))

/-- A lesson with what a session has recorded shows at a time what the recorder showed at the time:
where it is played from the start, after a seek, and where it goes to the time. -/
lemma Holds.gives_draws (h : lesson.Holds env s) (hr : r.Recorded)
    (hpages : ∀ page ∈ r.document.pages, ∃ page' ∈ s.document.pages, page'.uuid = page.uuid ∧
      ∀ uuid, page.HoldsUuid uuid → page'.HoldsUuid uuid)
    (hactions : r.document.widget.actions = actionsBefore time s.document.widget.actions)
    {first : AnimationAction} (hfirst : s.document.widget.actions.head? = some first)
    (hswitch : first.isSwitch) (hbehind : first.time < time) : ∃ page, r.current = some page ∧
      (∀ times : List Int32, (times ++ [time]).Pairwise (· ≤ ·) →
        Gives ((times ++ [time]).foldlM (PlayerWidget.animatedTriggered env) lesson) (·.Draws page)) ∧
      ∀ (events : List PlayerEvent) (player : PlayerWidget),
        events.foldlM (PlayerWidget.next env) lesson = .ok player →
          Gives (player.onGotoPosition env true time) (·.Draws page) ∧
            Gives (player.gotoTime env time) (·.Draws page) := by
  obtain ⟨page, i, switch, empty, hcurrent, hlatest, hi, hsame, hfind, hdrawn⟩ :=
    h.exists_drawnBy hr hpages hactions hfirst hswitch hbehind
  have hrestored : lesson.Restored lesson := ⟨rfl, fun _ => rfl⟩
  rw [← hsame] at hfind hdrawn
  have hdraws : ∀ t : PlayerWidget, t.Shows switch.targetScUuid (empty.drawnBy env.doubles
      switch.targetScUuid (actionsBefore time lesson.actions)) → t.Draws page := by
    intro t ht
    refine ⟨_, ?_, hdrawn⟩
    rw [← hsame]
    exact ht
  refine ⟨page, hcurrent, fun times htimes => ?_, fun events player hrun => ?_⟩
  · exact (hrestored.gives_ticks h.isLesson hlatest hi hfind htimes).mono hdraws
  · have hwithin := (hrestored.within h.isLesson).foldlM_next h.isLesson hrun
    obtain ⟨hseek, hgoto⟩ := hwithin.gives_seek h.isLesson hlatest hi hfind
    exact ⟨hseek.mono hdraws, hgoto.mono hdraws⟩

end PlayerWidget

end Liangshi
