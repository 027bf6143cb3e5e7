import Liangshi.Lesson.PageSignals
import Liangshi.Lesson.Seeking
import Liangshi.Live.PageHistory

/-!
# Outlines of lessons

Which elements a page of a player draws, and in which order, is decided by their uuids: no change of the
attributes of an element has a part in it.  A player and its outline, whose elements have their uuids and
nothing else, go through the same drawings (`PlayerWidget.outline_foldlM_next`).

`ResetElementToInit` clears the drawing and keeps the elements, but it need not give them back as they were
loaded: the state of an element is not all that actions change of it.  The outline of a page is given back
as it was loaded all the same (`PlayerSurroundings.outline_resetsAsLoaded`), so what is known of lessons
whose pages are restored holds of the outline of any lesson.
-/

namespace Liangshi

open Wire Ordered Transition

/-! ## Outlines of pages -/

/-- The element with its uuid alone. -/
def Element.outline (e : Element) : Element := .new e.objUuid (.line ⟨0, 0⟩ ⟨0, 0⟩)

namespace Page

variable {page page' : Page} {d : DoubleArithmetic}

/-- The page with the uuids of its elements alone. -/
def outline (page : Page) : Page := { page with heap := page.heap.mapValues Element.outline }

/-- The elements of an outline have the uuids of the elements. -/
lemma uuidOf_outline (page : Page) (p : Pointer) : page.outline.uuidOf p = page.uuidOf p := by
  unfold uuidOf element outline
  rw [OrderedMap.find_mapValues, Option.map_map]
  rfl

/-- An outline has the uuids of the page where they are. -/
lemma similar_outline (page : Page) : Similar page page.outline :=
  ⟨page.uuidOf_outline, rfl, rfl, rfl, rfl⟩

/-- An outline has the elements of the page. -/
lemma holdsUuid_outline (page : Page) {uuid : Bytes} : page.outline.HoldsUuid uuid ↔ page.HoldsUuid uuid := by
  unfold HoldsUuid
  simp only [uuidOf_outline]
  rfl

/-- An outline draws what the page draws. -/
lemma drawnUuids_outline (page : Page) : page.outline.drawnUuids = page.drawnUuids :=
  List.filterMap_congr fun p _ => page.uuidOf_outline p

/-- An outline is its own outline. -/
lemma outline_outline (page : Page) : page.outline.outline = page.outline :=
  congrArg (fun heap => { page with heap }) (OrderedMap.mapValues_mapValues _ _ _)

/-- Changes that keep the uuid of an element are not seen. -/
lemma outline_modify (page : Page) (p : Pointer) {f : Element → Element}
    (hf : ∀ e, (f e).objUuid = e.objUuid) : (page.modify p f).outline = page.outline := by
  unfold modify
  cases hp : page.element p with
  | none => rfl
  | some e =>
    have hfind : (page.heap.mapValues Element.outline).find p = some (f e).outline := by
      rw [OrderedMap.find_mapValues, show page.heap.find p = some e from hp, Element.outline, hf]
      rfl
    have hheap : (page.heap.insert p (f e)).mapValues Element.outline =
        page.heap.mapValues Element.outline := by
      rw [OrderedMap.mapValues_insert, OrderedMap.insert_of_find hfind]
    exact congrArg (fun heap => { page with heap }) hheap

/-- Nor are actions that change an element. -/
lemma outline_playChange (page : Page) (uuid : Bytes) {change : Element → Element}
    (hchange : ∀ e, (change e).objUuid = e.objUuid) :
    (page.playChange uuid change).outline = page.outline := by
  unfold playChange
  split
  · exact page.outline_modify _ hchange
  · rfl

/-- An action changes an element and keeps its uuid, or changes the drawing as the uuids tell. -/
lemma playAction_cases (d : DoubleArithmetic) (a : AnimationAction) :
    (∀ page : Page, (page.playAction d a).outline = page.outline) ∨
      ∃ redraw : (Pointer → Option Bytes) → OrderedSet Pointer → List Pointer → List Pointer,
        ∀ page : Page, page.playAction d a = { page with
          drawingElements := redraw page.uuidOf page.allElements page.drawingElements } := by
  obtain ⟨sc, uuid, time, kind, played⟩ := a
  have hhas : ∀ page : Page, page.hasUuid uuid = fun p => page.uuidOf p == some uuid := by
    intro page
    funext p
    rw [Bool.eq_iff_iff, hasUuid_iff, beq_iff_eq]
  cases kind with
  | «show» =>
    refine .inr ⟨fun uuidOf all drawing =>
      (all.elems.find? fun p => uuidOf p == some uuid).elim drawing (drawing ++ [·]), fun page => ?_⟩
    show page.playShowAction uuid = _
    rw [playShowAction, findElementByUuid, hhas]
    dsimp only
    cases page.allElements.elems.find? _ <;> rfl
  | hide =>
    refine .inr ⟨fun uuidOf all drawing => (all.elems.find? fun p => uuidOf p == some uuid).elim drawing
      fun p => drawing.filter (· ≠ p), fun page => ?_⟩
    show page.playHideAction uuid = _
    rw [playHideAction, findElementByUuid, hhas]
    dsimp only
    cases page.allElements.elems.find? _ <;> rfl
  | topMost =>
    refine .inr ⟨fun uuidOf _ drawing => (drawing.find? fun p => uuidOf p == some uuid).elim drawing
      fun p => if p ∈ drawing then drawing.erase p ++ [p] else drawing, fun page => ?_⟩
    show page.playTopMostAction uuid = _
    rw [playTopMostAction, hhas]
    dsimp only
    cases page.drawingElements.find? _ with
    | none => rfl
    | some p =>
      dsimp only [onTopMostElementTriggered, Option.elim]
      split_ifs <;> rfl
  | bottomMost =>
    refine .inr ⟨fun uuidOf _ drawing => (drawing.find? fun p => uuidOf p == some uuid).elim drawing
      fun p => if p ∈ drawing then p :: drawing.erase p else drawing, fun page => ?_⟩
    show page.playBottomMostAction uuid = _
    rw [playBottomMostAction, hhas]
    dsimp only
    cases page.drawingElements.find? _ with
    | none => rfl
    | some p =>
      dsimp only [onBottomMostElementTriggered, Option.elim]
      split_ifs <;> rfl
  | size leftTop width height => exact .inl fun page => page.outline_playChange uuid fun _ => rfl
  | lineWidth width =>
    exact .inl fun page => page.outline_playChange uuid (objUuid_setLineWidth width)
  | lineStyle style =>
    exact .inl fun page => page.outline_playChange uuid (objUuid_setLineStyle style)
  | lineColor color =>
    exact .inl fun page => page.outline_playChange uuid (objUuid_setLineColor color.ofRgb)
  | textChanged text fontSize => exact .inl fun page => page.outline_playChange uuid fun _ => rfl
  | switchPage => exact .inl fun _ => rfl
  | networkShow elementType elementData => exact .inl fun _ => rfl
  | networkSwitchPage pageData => exact .inl fun _ => rfl

/-- An action does alike to pages of one outline. -/
lemma outline_playAction_congr (h : page.outline = page'.outline) (a : AnimationAction) :
    (page.playAction d a).outline = (page'.playAction d a).outline := by
  obtain hsame | ⟨redraw, hredraw⟩ := playAction_cases d a
  · rw [hsame, hsame, h]
  · have huuidOf : page.uuidOf = page'.uuidOf := by
      funext p
      rw [← uuidOf_outline, h, uuidOf_outline]
    have hall : page.allElements = page'.allElements :=
      show page.outline.allElements = page'.outline.allElements by rw [h]
    have hdrawing : page.drawingElements = page'.drawingElements :=
      show page.outline.drawingElements = page'.outline.drawingElements by rw [h]
    have hlist : redraw page.uuidOf page.allElements page.drawingElements =
        redraw page'.uuidOf page'.allElements page'.drawingElements := by
      rw [huuidOf, hall, hdrawing]
    rw [hredraw, hredraw, hlist]
    exact congrArg (fun outline : Page => { outline with
      drawingElements := redraw page'.uuidOf page'.allElements page'.drawingElements }) h

/-- What is left of a page when its drawing is cleared. -/
def cleared (page : Page) : Page := { page with drawingElements := [], highlightElement := none }

/-- Actions make no difference to the outline of that. -/
lemma outline_cleared_drawnBy (d : DoubleArithmetic) (uuid : Bytes) (page : Page)
    (actions : List AnimationAction) :
    (page.drawnBy d uuid actions).outline.cleared = page.outline.cleared := by
  unfold drawnBy
  induction actions.filter (·.isOn uuid) generalizing page with
  | nil => rfl
  | cons a actions ih =>
    rw [List.foldl_cons, ih]
    obtain hsame | ⟨redraw, hredraw⟩ := playAction_cases d a
    · rw [hsame]
    · rw [hredraw]
      rfl

end Page

/-! ## Outlines of players -/

/-- Resetting a page clears what is drawn and highlighted and keeps its elements and their uuids. -/
def PlayerSurroundings.Clears (env : PlayerSurroundings) : Prop :=
  ∀ page, (env.resetElementToInit page).outline = page.outline.cleared

/-- Surroundings that load and reset outlines. -/
def PlayerSurroundings.outline (env : PlayerSurroundings) : PlayerSurroundings :=
  { env with
    loadAsScDocument := fun bytes => (env.loadAsScDocument bytes).map (·.map Page.outline)
    resetElementToInit := fun page => page.outline.cleared }

/-- Outlines are cleared. -/
lemma PlayerSurroundings.outline_clears (env : PlayerSurroundings) : env.outline.Clears := fun page =>
  congrArg Page.cleared page.outline_outline

/-- Resetting gives the outlines of pages back as they were loaded. -/
lemma PlayerSurroundings.outline_resetsAsLoaded (env : PlayerSurroundings) (actions : List AnimationAction) :
    env.outline.ResetsAsLoaded actions := by
  intro bytes loaded hloaded drawingElements highlightElement uuid played _
  have hloaded' : (env.loadAsScDocument bytes).map (·.map Page.outline) = .ok (some loaded) := hloaded
  obtain ⟨page, rfl⟩ : ∃ page : Page, page.outline = loaded := by
    rcases hload : env.loadAsScDocument bytes with fault | _ | page
    · rw [hload] at hloaded'
      cases hloaded'
    · rw [hload] at hloaded'
      cases hloaded'
    · rw [hload] at hloaded'
      exact ⟨page, Option.some.inj (Except.ok.inj hloaded')⟩
  have hcleared := Page.outline_cleared_drawnBy env.doubles uuid
    { page.outline with drawingElements, highlightElement } played
  have hstart : page.outline.outline.cleared = page.outline.cleared := by rw [Page.outline_outline]
  rw [Page.asLoaded_drawnBy]
  exact hcleared.trans hstart

/-- A player with the outlines of its pages. -/
def PlayerWidget.outline (player : PlayerWidget) : PlayerWidget :=
  { player with allPages := player.allPages.mapValues (·.map Page.outline) }

namespace PlayerWidget

variable {env : PlayerSurroundings} {player player' : PlayerWidget}

/-- The page of an outline is the outline of the page. -/
lemma find_outline (player : PlayerWidget) (uuid : Bytes) :
    player.outline.allPages.find uuid = (player.allPages.find uuid).map (·.map Page.outline) :=
  OrderedMap.find_mapValues _ _ _

/-- An outline is its own outline. -/
lemma outline_outline (player : PlayerWidget) : player.outline.outline = player.outline := by
  have hpages : (player.allPages.mapValues (·.map Page.outline)).mapValues (·.map Page.outline) =
      player.allPages.mapValues (·.map Page.outline) := by
    rw [OrderedMap.mapValues_mapValues]
    refine congrArg player.allPages.mapValues (funext fun entry => ?_)
    rcases entry with _ | page
    · rfl
    · exact congrArg some page.outline_outline
  exact congrArg (fun allPages => { player with allPages }) hpages

/-- Players of one outline with other actions. -/
lemma outline_congr_actions (h : player.outline = player'.outline) (actions : List AnimationAction) :
    outline { player with actions } = outline { player' with actions } :=
  congrArg (fun p : PlayerWidget => { p with actions }) h

/-- The outline of a player with a page more, or with another page. -/
lemma outline_insert (player : PlayerWidget) (uuid : Bytes) (entry : Option Page) :
    outline { player with allPages := player.allPages.insert uuid entry } = { player.outline with
      allPages := player.outline.allPages.insert uuid (entry.map Page.outline) } :=
  congrArg (fun allPages => { player with allPages }) (OrderedMap.mapValues_insert _ _ _ _)

/-- Resetting the pages clears the outline. -/
lemma outline_resetPages (hclears : env.Clears) (player : PlayerWidget) :
    (player.resetPages env).map outline =
      if player.outline.allPages.entries.any fun entry => entry.2.isNone then .error .nullPage
      else .ok { player.outline with
        allPages := player.outline.allPages.mapValues (·.map Page.cleared)
        actions := player.actions.map (·.setPlayed false) } := by
  have hnone : (player.outline.allPages.entries.any fun entry => entry.2.isNone) =
      player.allPages.entries.any fun entry => entry.2.isNone := by
    simp [outline, OrderedMap.mapValues, List.any_map, Function.comp_def]
  have hpages : (player.allPages.mapValues fun page => page.map env.resetElementToInit).mapValues
        (·.map Page.outline) = player.outline.allPages.mapValues (·.map Page.cleared) := by
    unfold outline
    rw [OrderedMap.mapValues_mapValues, OrderedMap.mapValues_mapValues]
    refine congrArg player.allPages.mapValues (funext fun entry => ?_)
    rcases entry with _ | page
    · rfl
    · exact congrArg some (hclears page)
  rw [resetPages, hnone]
  split_ifs
  · rfl
  · show Except.ok _ = Except.ok _
    rw [outline]
    dsimp only
    rw [hpages]
    rfl

/-- Playing an action does to the outline what it does to the outline of the player. -/
lemma outline_playAction (env : PlayerSurroundings) (player : PlayerWidget) (a : AnimationAction) :
    (player.playAction env a).map outline = (player.outline.playAction env a).map outline := by
  have hkept : ∀ currentPage, outline { player with currentPage } =
      outline { player.outline with currentPage } := fun currentPage =>
    congrArg (fun p : PlayerWidget => { p with currentPage }) player.outline_outline.symm
  have hinserted : ∀ entry entry' : Option Page, entry.map Page.outline = entry'.map Page.outline →
      outline { player with allPages := player.allPages.insert a.targetScUuid entry } =
        outline { player.outline with
          allPages := player.outline.allPages.insert a.targetScUuid entry' } := by
    intro entry entry' hentry
    rw [outline_insert, outline_insert, outline_outline, hentry]
  unfold playAction playSwitchPageAction pageAt
  rw [find_outline]
  rcases player.allPages.find a.targetScUuid with _ | _ | page
  · split_ifs
    · rfl
    · exact congrArg Except.ok (hinserted none none rfl)
  · split_ifs
    · rfl
    · exact congrArg Except.ok (hkept player.currentPage)
  · split_ifs
    · exact congrArg Except.ok (hkept _)
    · exact congrArg Except.ok (hinserted _ _ (congrArg some
        (Page.outline_playAction_congr page.outline_outline.symm a)))

/-- Playing actions does alike to players of one outline. -/
lemma outline_playActions (h : player.outline = player'.outline) (actions : List AnimationAction) :
    (player.playActions env actions).map outline = (player'.playActions env actions).map outline := by
  refine map_foldlM_congr (fun s t a hst => ?_) actions h
  rw [outline_playAction, outline_playAction env t, hst]

/-- So does a tick. -/
lemma outline_animatedTriggered (h : player.outline = player'.outline) (time : Int32) :
    (player.animatedTriggered env time).map outline =
      (player'.animatedTriggered env time).map outline := by
  have hactions : player.actions = player'.actions :=
    show player.outline.actions = player'.outline.actions by rw [h]
  unfold animatedTriggered
  rw [hactions]
  dsimp only
  split_ifs
  · exact congrArg Except.ok (outline_congr_actions h _)
  · refine map_bind_congr (outline_playActions (outline_congr_actions h _) _) fun p q hpq => ?_
    have hcurrent : p.currentPage = q.currentPage :=
      show p.outline.currentPage = q.outline.currentPage by rw [hpq]
    unfold updateCurrentPage
    rw [hcurrent]
    split_ifs
    · rfl
    · exact congrArg Except.ok hpq

/-- Whatever happens does alike to a player and to its outline. -/
lemma outline_next (hclears : env.Clears) (h : player.outline = player'.outline) (event : PlayerEvent) :
    (player.next env event).map outline = (player'.next env.outline event).map outline := by
  have hresets : (player.resetPages env).map outline = (player'.resetPages env.outline).map outline := by
    have hactions : player.actions = player'.actions :=
      show player.outline.actions = player'.outline.actions by rw [h]
    rw [outline_resetPages hclears, outline_resetPages env.outline_clears, h, hactions]
  cases event with
  | tick time => exact outline_animatedTriggered h time
  | gotoPosition pausing time =>
    refine map_bind_congr hresets fun p q hpq => ?_
    split_ifs
    · exact outline_animatedTriggered hpq time
    · exact congrArg Except.ok hpq
  | gotoTime time =>
    refine map_bind_congr hresets fun p q hpq => ?_
    have hactions : p.actions = q.actions := show p.outline.actions = q.outline.actions by rw [hpq]
    dsimp only
    rw [hactions]
    exact outline_playActions (outline_congr_actions hpq _) _
  | reset => exact hresets

/-- Ticks one after another do alike to players of one outline. -/
lemma outline_ticks (h : player.outline = player'.outline) (times : List Int32) :
    (times.foldlM (PlayerWidget.animatedTriggered env) player).map outline =
      (times.foldlM (PlayerWidget.animatedTriggered env) player').map outline :=
  map_foldlM_congr (fun _ _ time hst => outline_animatedTriggered hst time) times h

/-- A player and its outline go through the same events alike. -/
lemma outline_foldlM_next (hclears : env.Clears) (h : player.outline = player'.outline)
    (events : List PlayerEvent) : (events.foldlM (PlayerWidget.next env) player).map outline =
      (events.foldlM (PlayerWidget.next env.outline) player').map outline :=
  map_foldlM_congr (fun _ _ event hst => outline_next hclears hst event) events h

/-- The outline of a player as it is loaded is one that is loaded. -/
lemma AsLoaded.outline (h : player.AsLoaded env) (hclears : env.Clears) :
    player.outline.AsLoaded env.outline where
  unplayed := h.unplayed
  pages uuid entry hentry := by
    rw [find_outline] at hentry
    obtain ⟨entry', hentry', rfl⟩ := Option.map_eq_some_iff.mp hentry
    obtain ⟨bytes, loaded, hload, rfl⟩ := h.pages uuid entry' hentry'
    refine ⟨bytes, loaded.outline, ?_, ?_⟩
    · show (env.loadAsScDocument bytes).map _ = _
      rw [hload]
      rfl
    · show some (env.resetElementToInit loaded).outline = some loaded.outline.outline.cleared
      rw [hclears, Page.outline_outline]

end PlayerWidget

end Liangshi
