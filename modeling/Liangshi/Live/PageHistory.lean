import Liangshi.Board.PageLoading
import Liangshi.Live.PageReplay
import Liangshi.Transition.System

/-!
# Histories of a page

A page from its construction on, under every operation of its users, of slides, of files and of the
network, in any order.  An operation that loads data or creates an element takes the addresses and
the uuids from its surroundings; it ends the history when it ends in a fault.

Some operations make a page inconsistent.  Adding an element, and showing one that came from the
network, does not look for its uuid on the page, and neither does loading; `AddToDrawing` does not
look at the undo stack; `RemoveFromDrawing` and `PlayHideAction` do not look at the highlight.  In a
history that avoids these cases, and in no other, every page is consistent
(`consistent_iff_proceedsWell`).
-/

namespace Liangshi

open Wire MessagePack Ordered Transition

/-! ## Histories -/

/-- What happens to a page. -/
inductive PageEvent where
  | addNew (p : Pointer) (e : Element) (updateProperty highlight : Bool)
  | delete (p : Pointer)
  | undo
  | redo
  | topMost (p : Pointer)
  | bottomMost (p : Pointer)
  | copy
  | select (hit : Element → Bool)
  | typeText (text : Bytes)
  | setMode
  | setEnable (enable : Bool)
  | setElementMatrix (matrix : SMatrix)
  | lineWidth (width : Int32) (all : Bool)
  | lineStyle (style : Int32) (all : Bool)
  | lineColor (color : SColor) (all : Bool)
  | save
  | load (env : Surroundings) (bytes : Bytes)
  | clear
  | addToDrawing (uuid : Bytes)
  | removeFromDrawing (uuid : Bytes)
  | changeImageElementSize (d : DoubleArithmetic) (uuid : Bytes) (leftTop : SPoint)
      (width height : Int32)
  | playShow (env : Surroundings) (type : Int32) (bytes : Bytes)
  | playHide (uuid : Bytes)
  | playSize (d : DoubleArithmetic) (uuid : Bytes) (leftTop : SPoint) (width height : Int32)
  | playLineWidth (uuid : Bytes) (width : Int32)
  | playLineStyle (uuid : Bytes) (style : Int32)
  | playLineColor (uuid : Bytes) (color : SColor)
  | playTextChanged (uuid : Bytes) (text : Bytes) (fontSize : Int32)
  | playTopMost (uuid : Bytes)
  | playBottomMost (uuid : Bytes)
  | playSwitchPage (env : Surroundings) (width : Int32) (color : SColor) (bytes : Bytes)

namespace Page

/-- The page after an event; `none` after a fault. -/
def next (page : Page) : PageEvent → Option Page
  | .addNew p e updateProperty highlight => some (page.addNew p e updateProperty highlight)
  | .delete p => some (page.removeDrawingElementTriggered p)
  | .undo => some page.onUndoTriggered
  | .redo => some page.onRedoTriggered
  | .topMost p => some (page.onTopMostElementTriggered p)
  | .bottomMost p => some (page.onBottomMostElementTriggered p)
  | .copy => page.onCopyTriggered
  | .select hit => some (page.highlightElementAt hit)
  | .typeText text => some (page.typeText text)
  | .setMode => some page.setMode
  | .setEnable enable => some (page.setEnable enable)
  | .setElementMatrix matrix => some { page with elementMatrix := matrix }
  | .lineWidth width all => some (page.lineWidthChanged width all)
  | .lineStyle style all => some (page.lineStyleChanged style all)
  | .lineColor color all => some (page.lineColorChanged color all)
  | .save => some page.getMsgPackData.1
  | .load env bytes => (page.setMsgPackData env bytes).toOption
  | .clear => some page.clearAll
  | .addToDrawing uuid => some (page.addToDrawing uuid)
  | .removeFromDrawing uuid => some (page.removeFromDrawing uuid)
  | .changeImageElementSize d uuid leftTop width height =>
    some (page.changeImageElementSize d uuid leftTop width height)
  | .playShow env type bytes => (page.playNetworkShowAction env type bytes).toOption
  | .playHide uuid => some (page.playHideAction uuid)
  | .playSize d uuid leftTop width height =>
    some (page.playSizeAction d uuid leftTop width height)
  | .playLineWidth uuid width => some (page.playLineWidthAction uuid width)
  | .playLineStyle uuid style => some (page.playLineStyleAction uuid style)
  | .playLineColor uuid color => some (page.playLineColorAction uuid color)
  | .playTextChanged uuid text fontSize => some (page.playTextChangedAction uuid text fontSize)
  | .playTopMost uuid => some (page.playTopMostAction uuid)
  | .playBottomMost uuid => some (page.playBottomMostAction uuid)
  | .playSwitchPage env width color bytes =>
    (page.playNetworkSwitchPageAction env width color bytes).toOption

/-- An allocation yields an address that is not in use. -/
def Allocates (page : Page) : PageEvent → Prop
  | .addNew p _ _ _ => page.element p = none
  | .load env _ | .playSwitchPage env _ _ _ => Function.Injective fun i => env.address [i]
  | .playShow env _ _ => page.element (env.address []) = none
  | _ => True

/-- The histories of a page. -/
def history (uuid : Bytes) : System Page PageEvent where
  init page := page = .new uuid
  step page e page' := page.Allocates e ∧ page.next e = some page'

/-- No element of the page has a uuid. -/
def Unused (page : Page) (uuid : Bytes) : Prop :=
  ∀ p ∈ page.allElements, page.uuidOf p ≠ some uuid

/-- An event that keeps the containers consistent. -/
def ProceedsWell (page : Page) : PageEvent → Prop
  | .addNew _ e _ _ => page.Unused e.objUuid
  | .load env bytes | .playSwitchPage env _ _ bytes => DifferentUuids env bytes
  | .addToDrawing uuid => page.NotUndone uuid
  | .removeFromDrawing uuid | .playHide uuid => page.NotHighlighted uuid
  | .playShow env type bytes => ∀ e, Element.createFromType env bytes.length [] type bytes =
      .ok (some e) → page.Unused e.objUuid
  | _ => True

/-! ## What an event does to the containers -/

/-- What holds of a page beside its consistency, where every event before proceeded well. -/
def Steady (page : Page) : Prop := page.undos.Nodup ∧ page.redoing = false

variable {page : Page}

/-- An event under a condition that decides whether the page is consistent. -/
lemma outcome_iff {C : Prop} {page' : Page} (hto : Consistent page' → C) (hfrom : C → Settled page')
    (hredoing : page'.redoing = false) : (C ↔ Consistent page') ∧ (C → Steady page') :=
  ⟨⟨fun hc => (hfrom hc).toConsistent, hto⟩, fun hc => ⟨(hfrom hc).undos_nodup, hredoing⟩⟩

/-- An event that always keeps a page settled. -/
lemma outcome_of_settled {page' : Page} (h : Settled page') (hredoing : page'.redoing = false) :
    (True ↔ Consistent page') ∧ (True → Steady page') :=
  outcome_iff (fun _ => trivial) (fun _ => h) hredoing

/-- An event that leaves a similar page with the highlight it had. -/
lemma outcome_of_similar {page' : Page} (h : Settled page) (hredoing : page.redoing = false)
    (hsimilar : Similar page page') (hhighlight : page'.highlightElement = page.highlightElement) :
    (True ↔ Consistent page') ∧ (True → Steady page') :=
  outcome_of_settled (hsimilar.settled h (by rw [hhighlight]; exact h.highlighted))
    (hsimilar.redoing_eq.trans hredoing)

/-- An address that is free is not one of the page's. -/
lemma Settled.not_mem_of_free (h : Settled page) {p : Pointer} (hfree : page.element p = none) :
    p ∉ page.allElements := by
  intro hp
  have hlive := h.live p hp
  rw [hfree] at hlive
  cases hlive

/-- The element at an address where it has been put. -/
lemma uuidOf_setElement (page : Page) (p : Pointer) (e : Element) :
    (page.setElement p e).uuidOf p = some e.objUuid := by
  simp [uuidOf]

/-- A uuid is unused when no element has the uuid of one that is put at a free address. -/
lemma unused_iff (h : Settled page) {p : Pointer} (hfree : page.element p = none) (e : Element) :
    page.Unused e.objUuid ↔ ∀ q ∈ page.allElements,
      (page.setElement p e).uuidOf q = (page.setElement p e).uuidOf p → q = p := by
  have hne : ∀ q ∈ page.allElements, q ≠ p ∧ (page.setElement p e).uuidOf q = page.uuidOf q := by
    intro q hq
    have hqp : q ≠ p := fun heq => h.not_mem_of_free hfree (heq ▸ hq)
    refine ⟨hqp, ?_⟩
    rw [uuidOf, element_setElement, if_neg (Ne.symm hqp)]
    rfl
  constructor
  · intro hunused q hq heq
    rw [(hne q hq).2, uuidOf_setElement] at heq
    exact absurd heq (hunused q hq)
  · intro hunique q hq heq
    refine (hne q hq).1 (hunique q hq ?_)
    rw [(hne q hq).2, uuidOf_setElement, heq]

/-- A new element keeps the containers consistent exactly when its uuid was unused. -/
lemma outcome_addNew (h : Settled page) (hredoing : page.redoing = false) {p : Pointer}
    (hfree : page.element p = none) (e : Element) (updateProperty highlight : Bool) :
    (page.Unused e.objUuid ↔ Consistent (page.addNew p e updateProperty highlight)) ∧
      (page.Unused e.objUuid → Steady (page.addNew p e updateProperty highlight)) := by
  have hp := h.not_mem_of_free hfree
  obtain ⟨hflag, hto, hfrom⟩ := (h.setElement hp e).addElement (p := p) (by simp)
    (fun hmem => hp (h.drawn p hmem)) (fun hr => absurd (show page.redoing = true from hr)
      (by simp [hredoing])) updateProperty highlight
  exact outcome_iff (fun hc => (unused_iff h hfree e).mpr (hto hc))
    (fun hunused => hfrom ((unused_iff h hfree e).mp hunused)) hflag

/-- An element from the network keeps the containers consistent exactly when its uuid was unused. -/
lemma outcome_playShow (h : Settled page) (hredoing : page.redoing = false) {p : Pointer}
    (hfree : page.element p = none) (e : Element) :
    (page.Unused e.objUuid ↔ Consistent (page.playShow p e)) ∧
      (page.Unused e.objUuid → Steady (page.playShow p e)) := by
  have hp := h.not_mem_of_free hfree
  have hunused : page.Unused e.objUuid ↔ _ := unused_iff h hfree (e.setCanDelete false)
  have hall : ∀ q, q ∈ (page.playShow p e).allElements ↔
      q = p ∨ q ∈ (page.setElement p (e.setCanDelete false)).allElements :=
    fun q => OrderedSet.mem_insert
  have hshown : ∀ q, (page.playShow p e).uuidOf q =
      (page.setElement p (e.setCanDelete false)).uuidOf q := fun _ => rfl
  refine outcome_iff (fun hc => hunused.mpr (hc.unique hall hshown)) (fun hu => ?_) hredoing
  exact (h.setElement hp _).push (p := p) hall rfl (.inl rfl) (fun _ => rfl) (by simp)
    (fun hmem => hp (h.drawn p hmem)) (fun hmem => hp (h.undone p hmem))
    (fun q hq => List.mem_append_left _ (h.highlighted q hq)) (hunused.mp hu)

/-- `PlayHideAction` keeps the containers consistent exactly when it does not hide the highlighted
element. -/
lemma outcome_playHide (h : Settled page) (hredoing : page.redoing = false) (uuid : Bytes) :
    (page.NotHighlighted uuid ↔ Consistent (page.playHideAction uuid)) ∧
      (page.NotHighlighted uuid → Steady (page.playHideAction uuid)) := by
  unfold playHideAction
  cases hfind : page.findElementByUuid uuid with
  | none =>
    have hnot : page.NotHighlighted uuid := by
      intro q hq
      exact List.find?_eq_none.mp hfind q (h.drawn q (h.highlighted q hq))
    exact outcome_iff (fun _ => hnot) (fun _ => h) hredoing
  | some p =>
    obtain ⟨hp, hpu⟩ := of_findElementByUuid hfind
    refine outcome_iff (fun hc q hq hqu => ?_) (fun hnot => ?_) hredoing
    · obtain rfl := h.eq_of_hasUuid (h.drawn q (h.highlighted q hq)) hp hqu hpu
      have hmem : q ∈ page.drawingElements.filter (· ≠ q) := hc.highlighted q hq
      simpa using (List.mem_filter.mp hmem).2
    · refine h.draw List.filter_sublist fun q hq => ?_
      rw [List.mem_filter]
      refine ⟨h.highlighted q hq, decide_eq_true ?_⟩
      rintro rfl
      exact hnot q hq hpu

/-- An action that changes an element leaves a similar page. -/
lemma similar_playChange (page : Page) (uuid : Bytes) {change : Element → Element}
    (hchange : ∀ e, (change e).objUuid = e.objUuid) : Similar page (page.playChange uuid change) ∧
      (page.playChange uuid change).highlightElement = page.highlightElement := by
  unfold playChange
  cases page.findElementByUuid uuid with
  | none => exact ⟨.refl page, rfl⟩
  | some p => exact ⟨similar_modify page p hchange, highlightElement_modify page p change⟩

/-- Setting a line width keeps the uuid. -/
lemma objUuid_setLineWidth (width : Int32) (e : Element) :
    (e.setLineWidth width).objUuid = e.objUuid := by
  unfold Element.setLineWidth
  split_ifs <;> rfl

/-- Setting a line style keeps the uuid. -/
lemma objUuid_setLineStyle (style : Int32) (e : Element) :
    (e.setLineStyle style).objUuid = e.objUuid := by
  unfold Element.setLineStyle
  split_ifs <;> rfl

/-- Setting a line colour keeps the uuid. -/
lemma objUuid_setLineColor (color : SColor) (e : Element) :
    (e.setLineColor color).objUuid = e.objUuid := by
  unfold Element.setLineColor
  split <;> rfl

/-- Typing text keeps the uuid. -/
lemma objUuid_typeText (text : Bytes) (e : Element) : (e.typeText text).objUuid = e.objUuid := by
  unfold Element.typeText
  split <;> rfl

/-- The attributes of the page itself are not looked at. -/
lemma Settled.of_attributes {page' : Page} (h : Settled page) (hheap : page'.heap = page.heap)
    (hall : page'.allElements = page.allElements)
    (hdrawing : page'.drawingElements = page.drawingElements) (hundos : page'.undos = page.undos)
    (hhighlight : page'.highlightElement = page.highlightElement)
    (hredoing : page'.redoing = page.redoing) : Settled page' := by
  have hsimilar : Similar page page' :=
    ⟨fun p => by rw [uuidOf, uuidOf, element, element, hheap], hall, hdrawing, hundos, hredoing⟩
  exact hsimilar.settled h (by rw [hhighlight]; exact h.highlighted)

/-- `SetMode` keeps a page settled. -/
lemma Settled.setMode (h : Settled page) :
    Settled page.setMode ∧ page.setMode.redoing = page.redoing := by
  unfold Page.setMode
  split_ifs
  · exact ⟨h, rfl⟩
  · exact ⟨h.deHighlightElement, redoing_deHighlightElement page⟩

/-- `SetEnableCurrentPage` keeps a page settled. -/
lemma Settled.setEnable (h : Settled page) (enable : Bool) :
    Settled (page.setEnable enable) ∧ (page.setEnable enable).redoing = page.redoing := by
  have hattributes : Settled { page with disableDraw := !enable } :=
    h.of_attributes rfl rfl rfl rfl rfl rfl
  exact ⟨hattributes.deHighlightElement, redoing_deHighlightElement _⟩

/-- What `PlayNetworkSwitchPageAction` does to a page before it loads the data keeps it settled. -/
lemma Settled.beforeSwitch (h : Settled page) (width : Int32) (color : SColor) :
    ((page.setMode.lineWidthChanged width false).lineColorChanged color false).redoing =
      page.redoing := by
  obtain ⟨hmode, hredoing⟩ := h.setMode
  have hwidth : Settled { page.setMode with lineWidth := width } :=
    hmode.of_attributes rfl rfl rfl rfl rfl rfl
  obtain ⟨hsettled, hflag⟩ := hwidth.lineChanged (objUuid_setLineWidth width) false
  have hcolor : Settled { page.setMode.lineWidthChanged width false with lineColor := color } :=
    hsettled.of_attributes rfl rfl rfl rfl rfl rfl
  obtain ⟨-, hlast⟩ := hcolor.lineChanged (objUuid_setLineColor color) false
  exact hlast.trans (hflag.trans hredoing)

/-- From a page that was consistent all along, an event leads to a consistent page exactly when it
proceeds well. -/
lemma next_spec (h : Settled page) (hredoing : page.redoing = false) {e : PageEvent} {page' : Page}
    (hallocates : page.Allocates e) (hnext : page.next e = some page') :
    (page.ProceedsWell e ↔ Consistent page') ∧ (page.ProceedsWell e → Steady page') := by
  cases e with
  | addNew p e updateProperty highlight =>
    obtain rfl := Option.some.inj hnext
    exact outcome_addNew h hredoing hallocates e updateProperty highlight
  | delete p =>
    obtain rfl := Option.some.inj hnext
    exact outcome_of_settled (h.removeDrawingElementTriggered p)
      (by rw [removeDrawingElementTriggered, redoing_takeOut, redoing_deHighlightElement, hredoing])
  | undo =>
    obtain rfl := Option.some.inj hnext
    exact outcome_of_settled h.onUndoTriggered ((redoing_onUndoTriggered page).trans hredoing)
  | redo =>
    obtain rfl := Option.some.inj hnext
    obtain ⟨hsettled, hflag⟩ := h.onRedoTriggered hredoing
    exact outcome_of_settled hsettled hflag
  | topMost p =>
    obtain rfl := Option.some.inj hnext
    exact outcome_of_settled (h.onTopMostElementTriggered p)
      ((redoing_onTopMostElementTriggered page p).trans hredoing)
  | bottomMost p =>
    obtain rfl := Option.some.inj hnext
    exact outcome_of_settled (h.onBottomMostElementTriggered p)
      ((redoing_onBottomMostElementTriggered page p).trans hredoing)
  | copy =>
    obtain ⟨hsettled, hflag⟩ := h.onCopyTriggered hnext
    exact outcome_of_settled hsettled (hflag.trans hredoing)
  | select hit =>
    obtain rfl := Option.some.inj hnext
    obtain ⟨hsettled, hflag⟩ := h.highlightElementAt hit
    exact outcome_of_settled hsettled (hflag.trans hredoing)
  | typeText text =>
    obtain rfl := Option.some.inj hnext
    unfold Page.typeText
    cases page.highlightElement with
    | none => exact outcome_of_settled h hredoing
    | some p =>
      exact outcome_of_similar h hredoing (similar_modify page p (objUuid_typeText text))
        (highlightElement_modify page p _)
  | setMode =>
    obtain rfl := Option.some.inj hnext
    obtain ⟨hsettled, hflag⟩ := h.setMode
    exact outcome_of_settled hsettled (hflag.trans hredoing)
  | setEnable enable =>
    obtain rfl := Option.some.inj hnext
    obtain ⟨hsettled, hflag⟩ := h.setEnable enable
    exact outcome_of_settled hsettled (hflag.trans hredoing)
  | setElementMatrix matrix =>
    obtain rfl := Option.some.inj hnext
    exact outcome_of_settled (h.of_attributes rfl rfl rfl rfl rfl rfl) hredoing
  | lineWidth width all =>
    obtain rfl := Option.some.inj hnext
    have hwidth : Settled { page with lineWidth := width } := h.of_attributes rfl rfl rfl rfl rfl rfl
    obtain ⟨hsettled, hflag⟩ := hwidth.lineChanged (objUuid_setLineWidth width) all
    exact outcome_of_settled hsettled (hflag.trans hredoing)
  | lineStyle style all =>
    obtain rfl := Option.some.inj hnext
    have hstyle : Settled { page with lineStyle := style } := h.of_attributes rfl rfl rfl rfl rfl rfl
    obtain ⟨hsettled, hflag⟩ := hstyle.lineChanged (objUuid_setLineStyle style) all
    exact outcome_of_settled hsettled (hflag.trans hredoing)
  | lineColor color all =>
    obtain rfl := Option.some.inj hnext
    have hcolor : Settled { page with lineColor := color } := h.of_attributes rfl rfl rfl rfl rfl rfl
    obtain ⟨hsettled, hflag⟩ := hcolor.lineChanged (objUuid_setLineColor color) all
    exact outcome_of_settled hsettled (hflag.trans hredoing)
  | save =>
    obtain rfl := Option.some.inj hnext
    exact outcome_of_settled h.deHighlightElement
      ((redoing_deHighlightElement page).trans hredoing)
  | load env bytes =>
    obtain ⟨hflag, -, hto, hfrom⟩ := setMsgPackData_spec hallocates
      (toOption_eq_some.mp hnext)
    exact outcome_iff hto hfrom (hflag.trans hredoing)
  | clear =>
    obtain rfl := Option.some.inj hnext
    exact outcome_of_settled (settled_clearAll page) hredoing
  | addToDrawing uuid =>
    obtain rfl := Option.some.inj hnext
    obtain ⟨hflag, hto, hfrom⟩ := h.addToDrawing uuid
    exact outcome_iff hto hfrom (hflag.trans hredoing)
  | removeFromDrawing uuid =>
    obtain rfl := Option.some.inj hnext
    obtain ⟨hflag, hto, hfrom⟩ := h.removeFromDrawing uuid
    exact outcome_iff hto hfrom (hflag.trans hredoing)
  | changeImageElementSize d uuid leftTop width height =>
    obtain rfl := Option.some.inj hnext
    obtain ⟨hsimilar, hhighlight⟩ := similar_changeImageElementSize d page uuid leftTop width height
    exact outcome_of_similar h hredoing hsimilar hhighlight
  | playShow env type bytes =>
    have hplay : page.playNetworkShowAction env type bytes = .ok page' := toOption_eq_some.mp hnext
    unfold playNetworkShowAction at hplay
    cases hcreate : Element.createFromType env bytes.length [] type bytes with
    | error fault =>
      rw [hcreate] at hplay
      cases hplay
    | ok element =>
      rw [hcreate] at hplay
      cases element with
      | none =>
        cases hplay
        refine outcome_iff (fun _ e he => ?_) (fun _ => h) hredoing
        rw [hcreate] at he
        cases he
      | some e =>
        cases hplay
        have hunused : page.ProceedsWell (.playShow env type bytes) ↔ page.Unused e.objUuid := by
          constructor
          · intro hwell
            exact hwell e hcreate
          · intro hu e' he'
            rw [hcreate] at he'
            cases he'
            exact hu
        rw [hunused]
        exact outcome_playShow h hredoing hallocates e
  | playHide uuid =>
    obtain rfl := Option.some.inj hnext
    exact outcome_playHide h hredoing uuid
  | playSize d uuid leftTop width height =>
    obtain rfl := Option.some.inj hnext
    have hchange : ∀ e : Element,
        { e with body := e.body.updateSize d leftTop width height }.objUuid = e.objUuid :=
      fun _ => rfl
    obtain ⟨hsimilar, hhighlight⟩ := similar_playChange page uuid hchange
    exact outcome_of_similar h hredoing hsimilar hhighlight
  | playLineWidth uuid width =>
    obtain rfl := Option.some.inj hnext
    obtain ⟨hsimilar, hhighlight⟩ := similar_playChange page uuid (objUuid_setLineWidth width)
    exact outcome_of_similar h hredoing hsimilar hhighlight
  | playLineStyle uuid style =>
    obtain rfl := Option.some.inj hnext
    obtain ⟨hsimilar, hhighlight⟩ := similar_playChange page uuid (objUuid_setLineStyle style)
    exact outcome_of_similar h hredoing hsimilar hhighlight
  | playLineColor uuid color =>
    obtain rfl := Option.some.inj hnext
    obtain ⟨hsimilar, hhighlight⟩ :=
      similar_playChange page uuid (objUuid_setLineColor color.ofRgb)
    exact outcome_of_similar h hredoing hsimilar hhighlight
  | playTextChanged uuid text fontSize =>
    obtain rfl := Option.some.inj hnext
    have hchange : ∀ e : Element,
        { e with body := e.body.updateText text fontSize }.objUuid = e.objUuid := fun _ => rfl
    obtain ⟨hsimilar, hhighlight⟩ := similar_playChange page uuid hchange
    exact outcome_of_similar h hredoing hsimilar hhighlight
  | playTopMost uuid =>
    obtain rfl := Option.some.inj hnext
    unfold playTopMostAction
    cases page.drawingElements.find? (page.hasUuid uuid) with
    | none => exact outcome_of_settled h hredoing
    | some p =>
      exact outcome_of_settled (h.onTopMostElementTriggered p)
        ((redoing_onTopMostElementTriggered page p).trans hredoing)
  | playBottomMost uuid =>
    obtain rfl := Option.some.inj hnext
    unfold playBottomMostAction
    cases page.drawingElements.find? (page.hasUuid uuid) with
    | none => exact outcome_of_settled h hredoing
    | some p =>
      exact outcome_of_settled (h.onBottomMostElementTriggered p)
        ((redoing_onBottomMostElementTriggered page p).trans hredoing)
  | playSwitchPage env width color bytes =>
    have hplay := toOption_eq_some.mp hnext
    obtain ⟨loaded, hload, rfl⟩ := map_eq_ok.mp hplay
    obtain ⟨hflag, hnone, hto, hfrom⟩ := setMsgPackData_spec hallocates hload
    have henabled : loaded.setEnable false = { loaded with disableDraw := true } := by
      simp only [Page.setEnable, deHighlightElement, hnone, Bool.not_false]
    rw [henabled]
    refine outcome_iff (fun hc => hto ?_) (fun hd => ?_)
      (hflag.trans ((h.beforeSwitch width color).trans hredoing))
    · exact ⟨hc.nodup, hc.not_undone, hc.drawn, hc.undone, hc.uuids, hc.highlighted, hc.live⟩
    · exact (hfrom hd).of_attributes rfl rfl rfl rfl rfl rfl

/-- The pages of a history are consistent exactly when every event of it proceeds well. -/
theorem consistent_iff_proceedsWell (uuid : Bytes) (es : List PageEvent) :
    (history uuid).EveryState Consistent (.new uuid) es ↔
      (history uuid).EveryStep ProceedsWell (.new uuid) es := by
  have hnew : Settled (new uuid) := settled_of_empty rfl rfl rfl rfl
  refine System.everyState_iff (I := Steady) ⟨⟨hnew.undos_nodup, rfl⟩, hnew.toConsistent⟩ ?_ es
  intro page e page' hsteady hconsistent ⟨hallocates, hnext⟩
  exact next_spec ⟨hconsistent, hsteady.1⟩ hsteady.2 hallocates hnext

/-- The element of a slide's image. -/
def slideImage : Element := { Element.new [7] (.image ⟨0, 0⟩ 4 3 .null) with canPaint := false }

/-- A slide puts its image on the page, the user undoes it, and the slide shows the image again: it
is drawn and still on the undo stack. -/
theorem shown_while_undone : ∃ page, (history []).Run (.new [])
    [.addNew 1 slideImage false false, .undo, .addToDrawing [7]] page ∧ ¬ Consistent page := by
  refine ⟨_, .cons ⟨rfl, rfl⟩ (.cons ⟨trivial, rfl⟩ (.cons ⟨trivial, rfl⟩ (.nil _))), fun h => ?_⟩
  exact h.not_undone 1 (by decide +kernel) (by decide +kernel)

end Page

end Liangshi
