import Liangshi.Board.RoundTrip
import Liangshi.Live.BoardControl
import Liangshi.Live.ShownPage

/-!
# Pages that are sent

A switch of the page is sent with the data of the page, in an archive.  A board that takes it in shows
the page it has with that uuid, or a new one, once it has loaded the data (`LiveBoard.exists_switched`).
What it shows then is what the sender showed where the page is `Portable`: the data restore its elements,
and an element is painted unless a later one is its state.
-/

namespace Liangshi

open Wire MessagePack

/-! ## What a page shows -/

/-- Elements that are alike are sources and states of the same ones. -/
lemma Element.Alike.sameSource {e e' : Element} (h : e.Alike e') : e.SameSource e' := by
  have hconvert : ∀ e : Element, convert ⟨0, false⟩ [] e.attributes e.getType =
      some { e with body := e.body.placed }.recorded := by
    intro e
    have htype : ({ e with body := e.body.placed } : Element).getType = e.getType :=
      ElementBody.getType_placed e.body
    rw [← convert_toObj ⟨0, false⟩ [] { e with body := e.body.placed }, htype]
    rfl
  have hrecorded : { e' with body := e'.body.placed }.recorded =
      { e with body := e.body.placed }.recorded := by
    rw [← Option.some.injEq, ← hconvert, ← hconvert, h.attributes, h.getType]
  have hbody : e'.body.placed = e.body.placed := by
    have hsame := congrArg Element.body hrecorded
    exact hsame
  have hsource : ∀ body : ElementBody, body.placed.sourceUuid = body.sourceUuid := by
    intro body
    cases body <;> rfl
  have huuid : e'.objUuid = e.objUuid := by
    have hsame := congrArg Element.objUuid hrecorded
    exact hsame
  exact ⟨huuid, by rw [← hsource, hbody, hsource], h.getType⟩

namespace Page

variable {env : Surroundings} {page loaded : Page}

/-- A page the data of which restore what it shows. -/
structure Portable (quuid : Bytes → Bytes) (page : Page) : Prop where
  uuid : quuid page.uuid = page.uuid
  length : page.data.length < 2 ^ 32
  anchored : Anchored page.shown
  viewers : ∀ e ∈ page.shown, ∀ test data, e.body.viewer? = some (test, data) → Written test data
  painted : ∀ (i : Nat) (e : Element), page.shown[i]? = some e →
    e.canPaint = !(page.shown.drop (i + 1)).any (·.refersTo e)

/-- A page without states and nested pages on which everything is painted is portable. -/
lemma Portable.of_plain {quuid : Bytes → Bytes} (huuid : quuid page.uuid = page.uuid)
    (hlength : page.data.length < 2 ^ 32) (hplain : ∀ e ∈ page.shown, e.Plain)
    (hviewer : ∀ e ∈ page.shown, e.body.viewer? = none) : page.Portable quuid where
  uuid := huuid
  length := hlength
  anchored := anchored_of_forall fun e he => (hplain e he).sourceUuid
  viewers e he test data hnested := by
    rw [hviewer e he] at hnested
    cases hnested
  painted i e hi := by
    have hany : (page.shown.drop (i + 1)).any (·.refersTo e) = false := by
      rw [List.any_eq_false]
      intro d hd
      rw [Element.refersTo, (hplain d (List.mem_of_mem_drop hd)).sourceUuid]
      exact Bool.false_ne_true
    rw [hany, (hplain e (List.mem_of_getElem? hi)).canPaint]
    rfl

/-- Lists with the same sources and states have them behind the same places. -/
lemma any_refersTo_congr {es es' : List Element} (h : List.Forall₂ Element.SameSource es es')
    {e e' : Element} (he : e.SameSource e') :
    es'.any (·.refersTo e') = es.any (·.refersTo e) := by
  induction h with
  | nil => rfl
  | cons hfirst _ ih =>
    rw [List.any_cons, List.any_cons, ih, Element.refersTo, Element.refersTo, hfirst.sourceUuid,
      he.objUuid]

/-- A page that has loaded the data of another one shows what that one shows. -/
lemma Reloads.shows (h : Reloads env page.shown loaded) (hpage : page.Portable env.quuid)
    (hown : loaded.own = { page.own with uuid := env.quuid page.uuid }) : page.Shows loaded := by
  have halike : List.Forall₂ Element.Alike page.shown loaded.shown :=
    h.elements.imp fun _ _ h => h.alike
  have hsource : List.Forall₂ Element.SameSource page.shown loaded.shown :=
    halike.imp fun _ _ h => h.sameSource
  have huuid : loaded.own.uuid = page.uuid := by rw [hown]; exact hpage.uuid
  have hbackground : loaded.own.backgroundImage = page.backgroundImage := by rw [hown]; rfl
  refine ⟨huuid, hbackground, ?_⟩
  have hpaint : List.Forall₂ (fun e e' : Element => e.Alike e' ∧ e'.canPaint = e.canPaint)
      page.shown loaded.shown := by
    refine List.forall₂_iff_get.mpr ⟨halike.length_eq, fun i hi hi' => ?_⟩
    refine ⟨(List.forall₂_iff_get.mp halike).2 i hi hi', ?_⟩
    have hget := (List.forall₂_iff_get.mp hsource).2 i hi hi'
    simp only [List.get_eq_getElem] at hget ⊢
    rw [hpage.painted i _ (List.getElem?_eq_getElem hi),
      (h.painted i _ (List.getElem?_eq_getElem hi')).1,
      any_refersTo_congr (List.forall₂_drop (i + 1) hsource) hget]
  have hfilter := List.rel_filter (R := fun e e' : Element => e.Alike e' ∧ e'.canPaint = e.canPaint)
    (p := fun e => e.canPaint) (q := fun e => e.canPaint)
    (fun e e' h => by show e.canPaint = true ↔ e'.canPaint = true; rw [h.2]) hpaint
  exact hfilter.imp fun _ _ h => h.1

/-- The data of a page that is portable are loaded, and the loaded page shows the page. -/
lemma Portable.exists_setMsgPackData (h : page.Portable env.quuid) (henv : env.Regular)
    (page' : Page) : ∃ loaded, page'.setMsgPackData env page.data = .ok loaded ∧
      page.Shows loaded ∧ loaded.highlightElement = none := by
  obtain ⟨loaded, hload, hown, hreloads, -⟩ := exists_reloads henv [] page' h.length le_rfl h.anchored
    fun e he test data hviewer => (h.viewers e he test data hviewer).opens henv
  exact ⟨loaded, hload, hreloads.shows h hown, hreloads.highlightElement⟩

/-- A page on which nothing is highlighted shows the same when it is locked. -/
lemma Shows.setEnable (h : page.Shows loaded) (hhighlight : loaded.highlightElement = none)
    (enable : Bool) : page.Shows (loaded.setEnable enable) := by
  have hsame : loaded.setEnable enable = { loaded with disableDraw := !enable } := by
    simp only [Page.setEnable, deHighlightElement, hhighlight]
  rw [hsame]
  exact ⟨h.uuid, h.backgroundImage, h.visible⟩

/-! ## Switches of the page -/

end Page

/-- What the machines of a class have in common: what is in a member without a value, the uuids of Qt,
and archives that open. -/
structure BoardMachine where
  uninitialised : Uninitialised
  quuid : Bytes → Bytes
  zip : Bytes → Bytes
  unzip : Bytes → Bytes
  unzip_zip : ∀ bytes, unzip (zip bytes) = bytes

/-- Surroundings on one of the machines. -/
structure BoardMachine.Runs (machine : BoardMachine) (env : Surroundings) : Prop where
  uninitialised : env.uninitialised = machine.uninitialised
  quuid : env.quuid = machine.quuid
  regular : env.Regular

variable {machine : BoardMachine}

namespace Page

/-- The action that `AddActionTriggered` makes of a switch to the page that is shown; a new action has
no time yet. -/
def switchAction (machine : BoardMachine) (page : Page) : AnimationAction where
  targetScUuid := page.uuid
  targetElementUuid := []
  time := machine.uninitialised.int
  kind := .networkSwitchPage (.ofData (machine.zip page.getMsgPackData.2))
  played := false

/-- The record of that action. -/
def switchRecord (machine : BoardMachine) (page : Page) : LokiBuffer :=
  .ofData (page.switchAction machine).getMsgPackData

/-- The board data with that record. -/
def switchData (machine : BoardMachine) (page : Page) : LokiBuffer :=
  (BoardData.mk AnimationType.networkSwitchPage.toInt (page.switchRecord machine)).getMsgPackData
    machine.uninitialised

/-- The page after `GetMsgPackData`, and the data it has written. -/
lemma data_getMsgPackData (page : Page) : page.getMsgPackData.2 = page.getMsgPackData.1.data := rfl

end Page

namespace LiveBoard

variable {env : Surroundings} {board : LiveBoard}

/-- The board data of a switch to a page hold the action. -/
lemma boardAction_switchData {page : Page} (h : (page.switchRecord machine).buffer.length < 2 ^ 32)
    (u : Uninitialised) : boardAction u (page.switchData machine) =
      some (page.switchAction machine) := by
  have hlength : (page.switchAction machine).getMsgPackData.length < 2 ^ 32 := by
    rwa [Page.switchRecord, LokiBuffer.ofData, List.length_map] at h
  have hcreate := AnimationAction.createFromType_getMsgPackData u hlength
  rw [AnimationAction.createFromType] at hcreate
  rw [boardAction, Page.switchData, BoardData.fromLokiBuffer_getMsgPackData _ u h]
  simp only [Option.bind_eq_bind, Option.bind_some, Page.switchRecord, LokiBuffer.data_ofData]
  split at hcreate
  · cases hcreate
  · rename_i msg hmsg
    rw [hmsg, Option.bind_some]
    exact Except.ok.inj hcreate

/-- A page that is put behind the others is shown. -/
lemma current_appendPage (page : Page) : (board.appendPage page).current = page := by
  simp [current, appendPage]

/-- A board that is told to switch to a page that is portable shows that page. -/
lemma exists_playNetworkSwitchPageAction (henv : env.Regular) {page : Page}
    (h : page.Portable env.quuid) : ∃ board',
      board.playNetworkSwitchPageAction env page.uuid page.data = .ok board' ∧
        page.Shows board'.current := by
  unfold playNetworkSwitchPageAction
  dsimp only
  split
  · rename_i i _
    let found := (board.allPages.get i).setMode.lineWidthChanged board.cachedWidth false
    obtain ⟨loaded, hload, hshows, hhighlight⟩ := h.exists_setMsgPackData henv
      (found.lineColorChanged board.cachedColor false)
    have hplay : (board.allPages.get i).playNetworkSwitchPageAction env board.cachedWidth
        board.cachedColor page.data = .ok (loaded.setEnable false) := by
      rw [Page.playNetworkSwitchPageAction, hload]
      rfl
    rw [hplay]
    refine ⟨_, rfl, ?_⟩
    rw [current_showPage]
    exact hshows.setEnable hhighlight false
  · obtain ⟨loaded, hload, hshows, hhighlight⟩ := h.exists_setMsgPackData henv
      (newPage env { board with controlingBoard := false })
    rw [hload]
    refine ⟨_, rfl, ?_⟩
    rw [current_appendPage]
    exact hshows.setEnable hhighlight false

/-- A board that takes in a switch to a page that is portable shows the page as it was sent. -/
lemma exists_onBoardDataTriggered (henv : machine.Runs env) {page : Page}
    (hrecord : (page.switchRecord machine).buffer.length < 2 ^ 32)
    (h : page.getMsgPackData.1.Portable machine.quuid) : ∃ board',
      board.onBoardDataTriggered env machine.unzip (page.switchData machine) = .ok board' ∧
        page.getMsgPackData.1.Shows board'.current := by
  have huuid : page.getMsgPackData.1.uuid = page.uuid := by
    have hown := congrArg Page.uuid (Page.own_deHighlightElement page)
    exact hown
  rw [← henv.quuid] at h
  obtain ⟨board', hplay, hshows⟩ := @exists_playNetworkSwitchPageAction env board henv.regular _ h
  refine ⟨board', (onBoardDataTriggered_eq _ board').mpr ⟨_,
    boardAction_switchData hrecord env.uninitialised, ?_⟩, hshows⟩
  rw [huuid, ← Page.data_getMsgPackData] at hplay
  simp only [playAction, Page.switchAction, LokiBuffer.data_ofData, machine.unzip_zip]
  exact hplay

end LiveBoard

end Liangshi
