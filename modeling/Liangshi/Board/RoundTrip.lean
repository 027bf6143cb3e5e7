import Liangshi.Board.OpenedViewers
import Liangshi.Board.UndoRedo
import Mathlib.Logic.Equiv.List

/-!
# Pages that are saved and loaded again

`GetMsgPackData` writes the elements that a page draws, or, for a lesson, all its elements in the order
of their addresses and in their init states.  Loading restores the elements that were written in the
order they come (`Page.Reloads`), where a state element follows its source and the pages inside elements
were written in the same way, and what has been loaded is saved and loaded again without a change
(`Page.SavesAgain`).

What was not written is lost, and what was written is drawn: the first mode loses an undone element, the
second one draws it (`not_sameElements_undoneLine`).
-/

namespace Liangshi

open Wire MessagePack Ordered

/-! ## Pages -/

namespace Page

variable {env env' : Surroundings} {page loaded : Page}

/-- `SetMsgPackData` at a place in other data. -/
def loadAt (env : Surroundings) (fuel : Nat) (place : List Nat) (page : Page) (bytes : Bytes) :
    Except LoadFault Page :=
  page.loadWith env.quuid (fun i => env.address (i :: place))
    (fun i => Element.createFromType env fuel (i :: place)) bytes

/-- What a page shows that has loaded the records of elements: each element has been restored, in the
same order, what is not the source of a later one is painted, nothing else is on the page, and nothing
is highlighted. -/
structure Reloads (env : Surroundings) (es : List Element) (loaded : Page) : Prop where
  elements : List.Forall₂ (Element.Restored env.quuid) es loaded.shown
  painted : ∀ (i : Nat) (e : Element), loaded.shown[i]? = some e →
    e.canPaint = !(loaded.shown.drop (i + 1)).any (·.refersTo e) ∧ e.canPreview = e.canPaint
  displayed : ∀ p, p ∈ loaded.allElements ↔ p ∈ loaded.drawingElements
  highlightElement : loaded.highlightElement = none

/-- A page that shows the same and writes the same once it has been saved and loaded again. -/
def Persists (env : Surroundings) (page : Page) : Prop :=
  ∀ env', env.SameMachine env' → env'.Regular → ∀ (fuel : Nat) (place : List Nat) (page' : Page),
    page.data.length < 2 ^ 32 → page.data.length ≤ fuel → ∃ again,
      page'.loadAt env' fuel place page.data = .ok again ∧ again.own = page.own ∧
        again.shown = page.shown ∧ again.data = page.data

/-- Changing elements at different addresses changes each of them once. -/
lemma element_foldl_modify (f : Pointer → Element → Element) {ps : List Pointer} (hps : ps.Nodup)
    (page : Page) (q : Pointer) :
    (ps.foldl (fun page p => page.modify p (f p)) page).element q =
      if q ∈ ps then (page.element q).map (f q) else page.element q := by
  induction ps generalizing page with
  | nil => rfl
  | cons p ps ih =>
    obtain ⟨hp, hps⟩ := List.nodup_cons.mp hps
    rw [List.foldl_cons, ih hps, element_modify]
    by_cases hq : p = q
    · subst hq
      rw [if_pos rfl, if_neg hp, if_pos List.mem_cons_self]
    · rw [if_neg hq]
      simp only [List.mem_cons, Ne.symm hq, false_or]

/-- Changing elements leaves the page its own data and the set of its elements. -/
lemma frame_foldl_modify (f : Pointer → Element → Element) (ps : List Pointer) (page : Page) :
    (ps.foldl (fun page p => page.modify p (f p)) page).own = page.own ∧
      (ps.foldl (fun page p => page.modify p (f p)) page).allElements = page.allElements := by
  induction ps generalizing page with
  | nil => exact ⟨rfl, rfl⟩
  | cons p ps ih =>
    have hall : (page.modify p (f p)).allElements = page.allElements := by
      unfold modify
      split <;> rfl
    obtain ⟨hown', hall'⟩ := ih (page.modify p (f p))
    exact ⟨hown'.trans (own_modify page p (f p)), hall'.trans hall⟩

/-- The events of a helper leave the page its own data. -/
@[simp] lemma own_closing (k : ElementToolkit) (ev : HelperEvents) (page : Page) :
    (page.closing k ev).own = page.own := by
  unfold closing
  split
  · rfl
  · exact own_modify _ _ _

/-- What a page writes is a matter of its own data and of what it shows. -/
lemma data_congr (hown : loaded.own = page.own) (hshown : loaded.shown = page.shown) :
    loaded.data = page.data := by
  have huuid : loaded.own.uuid = page.own.uuid := by rw [hown]
  have hthis : loaded.own.thisObj = page.own.thisObj := by rw [hown]
  have hobjects : ∀ page : Page, page.objects =
      .raw page.own.uuid :: .raw page.own.thisObj.pack :: page.shown.flatMap recordObjects :=
    fun _ => rfl
  rw [data_eq, data_eq, hobjects, hobjects, huuid, hthis, hshown]

/-- A page of elements that are created from their records as they are is loaded as it is. -/
lemma persists_of_marked {cs : List Element} (hshown : loaded.shown = marked cs)
    (hcs : ∀ c ∈ cs, c.recorded = c ∧ c.Steady env) (hanchored : Anchored loaded.shown)
    (huuid : env.quuid loaded.uuid = loaded.uuid) : loaded.Persists env := by
  intro env' hmachine henv fuel place page' hlength hfuel
  have hinjective : Function.Injective fun i => env'.address (i :: place) := fun i j hij =>
    (List.cons.inj (henv.address hij)).1
  have hcreate : ∀ e ∈ loaded.shown, ∀ n, ∃ c,
      Element.createFromType env' fuel (n :: place) e.getType.toInt e.getMsgPackData =
        .ok (some c) ∧ c = e.recorded := by
    intro e he n
    obtain ⟨d, hd, hed⟩ := exists_of_mem_marked (hshown ▸ he)
    obtain ⟨hrecorded, hsteady⟩ := hcs d hd
    have hrecord : e.recorded = d ∧ e.getType = d.getType ∧ e.getMsgPackData = d.getMsgPackData := by
      rcases hed with rfl | rfl
      · exact ⟨hrecorded, rfl, rfl⟩
      · exact ⟨hrecorded, rfl, rfl⟩
    obtain ⟨hd', htype, hdata⟩ := hrecord
    have hle := length_record_le he
    rw [hdata] at hle
    refine ⟨d, ?_, hd'.symm⟩
    rw [htype, hdata]
    exact hsteady env' hmachine henv fuel (n :: place) (by omega) (by omega)
  have hsource : ∀ e c : Element, c = e.recorded → e.SameSource c := by
    rintro e _ rfl
    exact ⟨rfl, rfl, rfl⟩
  obtain ⟨s, cs', hload, hown, hmarked, hall⟩ :=
    exists_loadWith env'.quuid page' hinjective hsource hlength hanchored hcreate
  have hsame : cs' = cs := by
    have hmap : loaded.shown.map Element.recorded = cs' := by
      rw [← List.forall₂_eq_eq_eq, List.forall₂_map_left_iff]
      exact hall.imp fun _ _ h => h.symm
    have hid : cs.map Element.recorded = cs.map id := List.map_congr_left fun c hc => (hcs c hc).1
    rw [← hmap, hshown, map_marked (fun _ => rfl), hid, List.map_id]
  have hown' : s.page.own = loaded.own := by
    rw [hown, hmachine.quuid, huuid]
    rfl
  have hshown' : s.page.shown = loaded.shown := by rw [hmarked.shown, hsame, hshown]
  exact ⟨s.page, hload, hown', hshown', data_congr hown' hshown'⟩

/-- A page whose elements are anchored and whose elements' pages open is loaded, and persists from then
on. -/
lemma exists_reloads (henv : env.Regular) {fuel : Nat} (place : List Nat) (page' : Page)
    (hlength : page.data.length < 2 ^ 32) (hfuel : page.data.length ≤ fuel)
    (hanchored : Anchored page.shown) (hopens : ∀ e ∈ page.shown, ∀ test data,
      e.body.viewer? = some (test, data) → Opens env test data) :
    ∃ loaded, page'.loadAt env fuel place page.data = .ok loaded ∧
      loaded.own = { page.own with uuid := env.quuid page.uuid } ∧
      Reloads env page.shown loaded ∧ loaded.Persists env := by
  have hinjective : Function.Injective fun i => env.address (i :: place) := fun i j hij =>
    (List.cons.inj (henv.address hij)).1
  have hcreate : ∀ e ∈ page.shown, ∀ n, ∃ c,
      Element.createFromType env fuel (n :: place) e.getType.toInt e.getMsgPackData =
        .ok (some c) ∧ e.Rebuilt c ∧ c.Steady env ∧ e.Restored env.quuid c := by
    intro e he n
    have hle := length_record_le he
    exact Element.exists_createFromType (n :: place) (hopens e he) (by omega) (by omega)
  obtain ⟨s, cs, hload, hown, hmarked, hall⟩ :=
    exists_loadWith env.quuid page' hinjective (fun _ _ h => h.1.source) hlength hanchored hcreate
  have hshown : s.page.shown = marked cs := hmarked.shown
  have hcs : ∀ c ∈ cs, c.recorded = c ∧ c.Steady env := by
    intro c hc
    obtain ⟨i, hi, rfl⟩ := List.getElem_of_mem hc
    have hi' : i < page.shown.length := hall.length_eq ▸ hi
    obtain ⟨hrebuilt, hsteady, -⟩ := (List.forall₂_iff_get.mp hall).2 i hi' hi
    exact ⟨hrebuilt.recorded, hsteady⟩
  have hsource : List.Forall₂ Element.SameSource page.shown s.page.shown := hshown ▸
    forall₂_marked (fun _ _ h => ⟨h.objUuid, h.sourceUuid, h.getType⟩) (hall.imp fun _ _ h => h.1.source)
  have huuid : s.page.own.uuid = env.quuid page.uuid := by rw [hown]
  refine ⟨s.page, hload, hown, ⟨?_, ?_, hmarked.mem_all, hmarked.holds.highlight⟩, ?_⟩
  · rw [hshown]
    exact forall₂_marked (fun _ _ h => ⟨⟨h.alike.getType, h.alike.attributes⟩, h.record, h.viewer⟩)
      (hall.imp fun _ _ h => h.2.2)
  · intro i e hi
    rw [hshown] at hi ⊢
    refine canPaint_of_marked (fun c hc => ?_) hi
    rw [← (hcs c hc).1]
    exact ⟨rfl, rfl⟩
  · refine persists_of_marked hshown hcs (hanchored.congr hsource) ?_
    show env.quuid s.page.own.uuid = s.page.own.uuid
    rw [huuid, henv.quuid]

end Page

/-! ## Pages of elements -/

/-- A viewer of a page is opened by loading the page. -/
lemma openViewer_page {env : Surroundings} {fuel : Nat} {place : List Nat} {page loaded : Page}
    {data : Bytes} (h : page.loadAt env fuel (0 :: place) data = .ok loaded) :
    openViewer (loadBoard env fuel place) page false data = .ok (loaded, loaded.data) := by
  have hload : loadBoard env fuel place 0 page data = .ok loaded := h
  rw [openViewer, hload]
  rfl

/-- What has been written opens, and keeps what it holds. -/
lemma Written.opens {env : Surroundings} (henv : env.Regular) {test : Bool} {data : Bytes}
    (h : Written test data) : Opens env test data := by
  induction h with
  | @page page anchored viewers ih =>
    intro fuel place page' hlength hfuel
    obtain ⟨loaded, hload, hown, hreloads, hpersists⟩ :=
      Page.exists_reloads henv (0 :: place) page' hlength hfuel anchored ih
    refine ⟨_, openViewer_page hload, .page hown (hreloads.elements.imp fun _ _ h => h.alike) ?_, ?_⟩
    · intro i e e' test data data' he he' hviewer hviewer'
      obtain ⟨hi, rfl⟩ := List.getElem?_eq_some_iff.mp he
      obtain ⟨hi', rfl⟩ := List.getElem?_eq_some_iff.mp he'
      obtain ⟨data'', hviewer'', hsame⟩ :=
        ((List.forall₂_iff_get.mp hreloads.elements).2 i hi hi').viewer test data hviewer
      obtain ⟨-, rfl⟩ := Prod.mk.inj (Option.some.inj (hviewer'.symm.trans hviewer''))
      exact hsame
    · intro env' hmachine henv' fuel' place' page'' hlength' hfuel'
      obtain ⟨again, hagain, hown, hshown, hdata⟩ :=
        hpersists env' hmachine henv' fuel' (0 :: place') page'' hlength' hfuel'
      exact ⟨_, openViewer_page hagain, hdata, hshown⟩
  | @test test page ih =>
    intro fuel place page' hlength hfuel
    have hle := test.length_page_le
    obtain ⟨viewer, hopen, hsame, hsteady⟩ := ih fuel place page' (by omega) (by omega)
    obtain ⟨loaded, hload, rfl⟩ := map_eq_ok.mp hopen
    have hsame' : SameData env.quuid true test.data (TestPage.data { test with page := loaded }) :=
      @SameData.test _ test { test with page := loaded } rfl rfl rfl hsame
    refine ⟨(loaded, TestPage.data { test with page := loaded }), ?_, hsame', ?_⟩
    · rw [openViewer, TestPage.loadWith_data hlength hload]
      rfl
    · intro env' hmachine henv' fuel' place' page'' hlength' hfuel'
      have hle' := TestPage.length_page_le { test with page := loaded }
      dsimp only at hle' hlength' hfuel'
      obtain ⟨viewer', hopen', hdata, hshown⟩ := hsteady env' hmachine henv' fuel' place' page''
        (by dsimp only; omega) (by dsimp only; omega)
      obtain ⟨loaded', hload', rfl⟩ := map_eq_ok.mp hopen'
      refine ⟨(loaded', TestPage.data { test with page := loaded' }), ?_, ?_, hshown⟩
      · have hagain := @TestPage.loadWith_data { test with page := loaded } _ _ _ hlength' hload'
        rw [openViewer, hagain]
        rfl
      · show packAll _ = packAll _
        rw [show loaded'.data = loaded.data from hdata]
        rfl

/-! ## Both modes of saving -/

namespace StatedPage

variable {k : ElementToolkit} {ev : HelperEvents} {s : StatedPage}

/-- `ToInitState` of all elements. -/
def toInitState (k : ElementToolkit) (s : StatedPage) : Page :=
  s.page.allElements.elems.foldl (fun page p => page.modify p (·.setState k (s.initStates p))) s.page

/-- What `GetMsgPackData` writes: in the init mode all elements, in the order of the set and in their
init states, otherwise those of the drawing. -/
def getMsgPackData (k : ElementToolkit) (ev : HelperEvents) (init : Bool) (s : StatedPage) : Bytes :=
  let s := { s with page := (s.page.closing k ev).deHighlightElement }
  let page := if init then s.toInitState k else s.page
  let elements := if init then page.allElements.elems else page.drawingElements
  packAll ([.raw page.uuid, .raw page.thisObj.pack] ++ elements.flatMap page.elementObjects)

/-- The elements that `GetMsgPackData` writes. -/
def saved (k : ElementToolkit) (ev : HelperEvents) (init : Bool) (s : StatedPage) : List Element :=
  let page := (s.page.closing k ev).deHighlightElement
  if init then
    page.allElements.elems.filterMap fun p => (page.element p).map (·.setState k (s.initStates p))
  else page.shown

/-- A page that draws what `GetMsgPackData` writes. -/
def written (k : ElementToolkit) (ev : HelperEvents) (init : Bool) (s : StatedPage) : Page :=
  let s := { s with page := (s.page.closing k ev).deHighlightElement }
  if init then { s.toInitState k with drawingElements := (s.toInitState k).allElements.elems }
  else s.page

/-- What is written are the data of the page that is written. -/
lemma getMsgPackData_eq (k : ElementToolkit) (ev : HelperEvents) (init : Bool) (s : StatedPage) :
    s.getMsgPackData k ev init = (s.written k ev init).data := by
  cases init <;> rfl

/-- The page that is written has the own data of the page. -/
lemma own_written (k : ElementToolkit) (ev : HelperEvents) (init : Bool) (s : StatedPage) :
    (s.written k ev init).own = s.page.own := by
  have hlowered : ((s.page.closing k ev).deHighlightElement).own = s.page.own := by
    rw [Page.own_deHighlightElement, Page.own_closing]
  cases init with
  | false => exact hlowered
  | true => exact (Page.frame_foldl_modify _ _ _).1.trans hlowered

/-- The page that is written shows what is saved. -/
lemma shown_written (k : ElementToolkit) (ev : HelperEvents) (init : Bool) (s : StatedPage) :
    (s.written k ev init).shown = s.saved k ev init := by
  cases init with
  | false => rfl
  | true =>
    let page := (s.page.closing k ev).deHighlightElement
    show (StatedPage.toInitState k { s with page }).allElements.elems.filterMap
      (StatedPage.toInitState k { s with page }).element = _
    rw [toInitState, (Page.frame_foldl_modify _ _ _).2]
    refine List.filterMap_congr fun p hp => ?_
    rw [Page.element_foldl_modify (fun p e => e.setState k (s.initStates p))
      page.allElements.nodup, if_pos hp]

end StatedPage

namespace Page

variable {env : Surroundings} {page : Page}

/-- A page that is saved as it is drawn and loaded again shows and writes the same. -/
def SavesAgain (env : Surroundings) (page : Page) : Prop :=
  ∀ env', env.SameMachine env' → env'.Regular → ∀ fresh : Page,
    page.getMsgPackData.2.length < 2 ^ 32 → ∃ again,
      fresh.setMsgPackData env' page.getMsgPackData.2 = .ok again ∧ again.own = page.own ∧
        again.shown = page.shown ∧ again.data = page.getMsgPackData.2

/-- A page that persists and has no highlight is saved again as it is. -/
lemma Persists.savesAgain (h : page.Persists env) (hhighlight : page.highlightElement = none) :
    page.SavesAgain env := by
  have hsaved : page.getMsgPackData.2 = page.data := by
    rw [getMsgPackData, deHighlightElement, hhighlight]
  intro env' hmachine henv fresh hlength
  rw [hsaved] at hlength ⊢
  exact h env' hmachine henv page.data.length [] fresh hlength le_rfl

end Page

/-- What `GetMsgPackData` writes in either mode is loaded, where every state element that is written
comes after its source and the data of pages has been written in the same way.  The page has the uuid
and the background of the saved one, and the elements that were written are restored in their order; it
is saved and loaded again without a change. -/
theorem StatedPage.reloads_getMsgPackData (k : ElementToolkit) (ev : HelperEvents) (init : Bool)
    (s : StatedPage) {env : Surroundings} (henv : env.Regular)
    (huuid : env.quuid s.page.uuid = s.page.uuid)
    (hlength : (s.getMsgPackData k ev init).length < 2 ^ 32)
    (hanchored : Anchored (s.saved k ev init))
    (hviewers : ∀ e ∈ s.saved k ev init, ∀ test data, e.body.viewer? = some (test, data) →
      Written test data) (fresh : Page) :
    ∃ loaded, fresh.setMsgPackData env (s.getMsgPackData k ev init) = .ok loaded ∧
      loaded.own = s.page.own ∧ Page.Reloads env (s.saved k ev init) loaded ∧
        loaded.SavesAgain env := by
  rw [getMsgPackData_eq] at hlength ⊢
  rw [← shown_written] at hanchored hviewers ⊢
  obtain ⟨loaded, hload, hown, hreloads, hpersists⟩ := Page.exists_reloads henv [] fresh hlength le_rfl
    hanchored fun e he test data hviewer => (hviewers e he test data hviewer).opens henv
  have huuid' : (s.written k ev init).own.uuid = s.page.own.uuid := by rw [own_written]
  refine ⟨loaded, hload, ?_, hreloads, hpersists.savesAgain hreloads.highlightElement⟩
  rw [hown, own_written]
  show { s.page.own with uuid := env.quuid (s.written k ev init).own.uuid } = s.page.own
  rw [huuid']
  show { s.page.own with uuid := env.quuid s.page.uuid } = s.page.own
  rw [huuid]
  rfl

/-- The text of the uuid that is null. -/
def nullUuid : Bytes :=
  [0x7b] ++ List.intercalate [0x2d] ([8, 4, 4, 4, 12].map fun n => List.replicate n 0x30) ++ [0x7d]

/-- Surroundings in which the elements are at the given addresses, and pages are empty. -/
def emptyViewers (address : List Nat → Pointer) : Surroundings where
  uninitialised := ⟨0, false⟩
  doubles := ⟨fun _ _ => SMatrix.one, fun i _ => i⟩
  quuid := id
  unitedRect _ := (⟨0, 0⟩, 0, 0)
  newUuid place := place.map UInt8.ofNat
  address

/-- A toolkit for elements that are not zoomed. -/
def unzoomed : ElementToolkit := ⟨⟨fun _ _ => SMatrix.one, fun i _ => i⟩, fun _ _ => false, id,
  fun _ _ => (1, 1)⟩

/-- A page with elements that nothing has been done to, at the addresses of their places. -/
def pageOf (es : List Element) : StatedPage where
  page := (es.zipIdx 1).foldl (fun page (e, p) => page.addNew p e false false) (.new nullUuid)
  initStates p := (es[p - 1]?.map (·.state unzoomed)).getD .none

/-- A `BanElement` with an empty page, and its state in another place. -/
def movedBoard : List Element :=
  [.new [1] (.ban ⟨⟨0, 0⟩, ⟨0, 0⟩, 1, 1, SMatrix.one, SMatrix.one, 1, 1, .ofData (Page.new nullUuid).data⟩),
    .new [2] (.banState ⟨5, 5⟩ 1 1 [1])]

/-- A page with a nested page that has been moved is loaded again from its init states. -/
theorem StatedPage.reloads_getMsgPackData_movedBoard :
    ∃ loaded, (Page.new nullUuid).setMsgPackData (emptyViewers Encodable.encode)
        ((pageOf movedBoard).getMsgPackData unzoomed ⟨fun _ => [], fun _ => []⟩ true) = .ok loaded ∧
      loaded.own = (pageOf movedBoard).page.own ∧
        Page.Reloads (emptyViewers Encodable.encode)
          ((pageOf movedBoard).saved unzoomed ⟨fun _ => [], fun _ => []⟩ true) loaded ∧
          loaded.SavesAgain (emptyViewers Encodable.encode) := by
  have hsaved : (pageOf movedBoard).saved unzoomed ⟨fun _ => [], fun _ => []⟩ true = movedBoard := by
    decide +kernel
  refine StatedPage.reloads_getMsgPackData unzoomed ⟨fun _ => [], fun _ => []⟩ true (pageOf movedBoard)
    ⟨fun _ => rfl, fun _ _ _ => rfl, Encodable.encode_injective⟩ rfl (by decide +kernel) ?_ ?_ _
  · rw [hsaved]
    intro i s hs uuid huuid
    match i with
    | 0 =>
      obtain rfl := Option.some.inj hs
      cases huuid
    | 1 =>
      obtain rfl := Option.some.inj hs
      obtain rfl := Option.some.inj huuid
      refine ⟨0, _, rfl, rfl, rfl, fun k e hk _ => ?_⟩
      exact Nat.lt_one_iff.mp (List.getElem?_eq_some_iff.mp hk).1
    | i + 2 => cases hs
  · rw [hsaved]
    intro e he test data hviewer
    obtain rfl | rfl : e = _ ∨ e = _ := by simpa [movedBoard] using he
    · obtain ⟨rfl, hdata⟩ := Prod.mk.inj (Option.some.inj hviewer)
      rw [LokiBuffer.data_ofData] at hdata
      rw [← hdata]
      exact .page (fun i s hs => by cases hs) fun e he => by cases he
    · cases hviewer

/-- The same elements are on both pages, and in both drawings in the same order. -/
def Page.SameElements (page page' : Page) : Prop :=
  (∀ uuid, (∃ p ∈ page'.allElements, page'.uuidOf p = some uuid) ↔
    ∃ p ∈ page.allElements, page.uuidOf p = some uuid) ∧
    page'.shown.map (·.objUuid) = page.shown.map (·.objUuid)

/-- A page with a line that has been undone. -/
def undoneLine : StatedPage :=
  (pageOf [.new [1] (.line ⟨0, 0⟩ ⟨9, 9⟩)]).onUndoTriggered unzoomed ⟨fun _ => [], fun _ => []⟩

/-- A page that has been loaded, with the init states its elements have been given. -/
def StatedPage.ofLoaded (loaded : Page) : StatedPage :=
  ⟨loaded, fun p => ((loaded.element p).map (·.state unzoomed)).getD .none⟩

/-- The line that has been undone is not saved in one mode, and in the other one it is drawn once it is
loaded.  Elements that are loaded at descending addresses are drawn in the other order when they are
saved with their init states once more. -/
theorem not_sameElements_undoneLine :
    (∀ init, ∃ loaded, (Page.new nullUuid).setMsgPackData (emptyViewers Encodable.encode)
        (undoneLine.getMsgPackData unzoomed ⟨fun _ => [], fun _ => []⟩ init) = .ok loaded ∧
          ¬ undoneLine.page.SameElements loaded) ∧
      ∃ loaded again, (Page.new nullUuid).setMsgPackData
          (emptyViewers (Encodable.encode ∘ Equiv.swap [0] [1]))
          ((pageOf [.new [1] (.line ⟨0, 0⟩ ⟨9, 9⟩), .new [2] (.line ⟨9, 0⟩ ⟨0, 9⟩)]).getMsgPackData
            unzoomed ⟨fun _ => [], fun _ => []⟩ true) = .ok loaded ∧
        (Page.new nullUuid).setMsgPackData (emptyViewers Encodable.encode)
          ((StatedPage.ofLoaded loaded).getMsgPackData unzoomed ⟨fun _ => [], fun _ => []⟩ true) =
            .ok again ∧ ¬ loaded.SameElements again := by
  refine ⟨fun init => ?_, ?_⟩
  · cases init with
    | false =>
      have hload : ((Page.new nullUuid).setMsgPackData (emptyViewers Encodable.encode)
          (undoneLine.getMsgPackData unzoomed ⟨fun _ => [], fun _ => []⟩ false)).toOption.map
            (·.allElements.elems) = some [] := by decide +kernel
      obtain ⟨loaded, hload, hall⟩ := exists_ok_of_map hload
      refine ⟨loaded, hload, fun hsame => ?_⟩
      have hline : ∃ p ∈ undoneLine.page.allElements, undoneLine.page.uuidOf p = some [1] :=
        ⟨1, by decide +kernel, by decide +kernel⟩
      obtain ⟨p, hp, -⟩ := (hsame.1 [1]).mpr hline
      rw [OrderedSet.mem_def, hall] at hp
      cases hp
    | true =>
      have hload : ((Page.new nullUuid).setMsgPackData (emptyViewers Encodable.encode)
          (undoneLine.getMsgPackData unzoomed ⟨fun _ => [], fun _ => []⟩ true)).toOption.map
            (·.shown.map (·.objUuid)) = some [[1]] := by decide +kernel
      obtain ⟨loaded, hload, hshown⟩ := exists_ok_of_map hload
      refine ⟨loaded, hload, fun hsame => ?_⟩
      rw [Page.SameElements, hshown] at hsame
      exact absurd hsame.2 (by decide +kernel)
  · have hload : ((Page.new nullUuid).setMsgPackData
        (emptyViewers (Encodable.encode ∘ Equiv.swap [0] [1]))
        ((pageOf [.new [1] (.line ⟨0, 0⟩ ⟨9, 9⟩), .new [2] (.line ⟨9, 0⟩ ⟨0, 9⟩)]).getMsgPackData
          unzoomed ⟨fun _ => [], fun _ => []⟩ true)).toOption.map (fun loaded =>
        (loaded.shown.map (·.objUuid), ((Page.new nullUuid).setMsgPackData
          (emptyViewers Encodable.encode) ((StatedPage.ofLoaded loaded).getMsgPackData unzoomed
            ⟨fun _ => [], fun _ => []⟩ true)).toOption.map (·.shown.map (·.objUuid)))) =
              some ([[1], [2]], some [[2], [1]]) := by decide +kernel
    obtain ⟨loaded, hload, hboth⟩ := exists_ok_of_map hload
    obtain ⟨hshown, hagain⟩ := Prod.mk.inj hboth
    obtain ⟨again, hagain, hshown'⟩ := exists_ok_of_map hagain
    refine ⟨loaded, again, hload, hagain, fun hsame => ?_⟩
    rw [Page.SameElements, hshown, hshown'] at hsame
    exact absurd hsame.2 (by decide)

end Liangshi
