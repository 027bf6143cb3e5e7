import Liangshi.Board.PlainPages
import Liangshi.Live.PageHistory
import Liangshi.Live.PageSwitch

/-!
# Histories without states

A page of a user who draws and plays what others draw.  As long as no state of an element is put on it, by
hand or with data, all its elements are plain (`Page.plain_of_history`), and its data bring what it shows to
any page that loads them (`Page.shows_of_history`).
-/

namespace Liangshi

open Wire MessagePack Ordered Transition

namespace Page

variable {page page' : Page}

/-- An event that puts no state of an element on a page. -/
def AddsPlain : PageEvent → Prop
  | .addNew _ e _ _ => e.Plain
  | .load _ bytes | .playSwitchPage _ _ _ bytes => NoStates bytes
  | .playShow _ type _ => ElementType.NoState type
  | _ => True

/-- An action that changes an element leaves a page plain. -/
lemma Plain.playChange (h : page.Plain) (uuid : Bytes) {change : Element → Element}
    (hchange : Element.KeepsPlain change) : (page.playChange uuid change).Plain := by
  unfold Page.playChange
  split
  · exact h.modify _ hchange
  · exact h

/-- An element from the network leaves a page plain unless it is a state. -/
lemma Plain.playNetworkShowAction {env : Surroundings} {type : Int32} {bytes : Bytes} (h : page.Plain)
    (htype : ElementType.NoState type) (hplay : page.playNetworkShowAction env type bytes = .ok page') :
    page'.Plain := by
  unfold Page.playNetworkShowAction at hplay
  cases hcreate : Element.createFromType env bytes.length [] type bytes with
  | error fault =>
    rw [hcreate] at hplay
    cases hplay
  | ok r =>
    rw [hcreate] at hplay
    cases r with
    | none => exact Except.ok.inj hplay ▸ h
    | some e =>
      have he := Element.plain_of_createFromType htype hcreate
      have hset := h.setElement (env.address []) ((Element.keepsPlain_setCanDelete false).plain he)
      exact Except.ok.inj hplay ▸ hset.of_heap rfl

/-- Every event that puts no states on a page leaves it plain. -/
lemma Plain.next (h : page.Plain) {e : PageEvent} (he : AddsPlain e) (hnext : page.next e = some page') :
    page'.Plain := by
  cases e with
  | addNew p e updateProperty highlight =>
    exact Option.some.inj hnext ▸ (h.setElement p he).addElement p updateProperty highlight true
  | delete p => exact Option.some.inj hnext ▸ h.removeDrawingElementTriggered p
  | undo => exact Option.some.inj hnext ▸ h.onUndoTriggered
  | redo => exact Option.some.inj hnext ▸ h.onRedoTriggered
  | copy => exact h.onCopyTriggered hnext
  | select hit => exact Option.some.inj hnext ▸ h.highlightElementAt hit
  | typeText text => exact Option.some.inj hnext ▸ h.typeText text
  | setMode => exact Option.some.inj hnext ▸ h.setMode
  | setEnable enable => exact Option.some.inj hnext ▸ h.setEnable enable
  | setElementMatrix matrix => exact Option.some.inj hnext ▸ h.of_heap rfl
  | lineWidth width all =>
    have hset : Page.Plain { page with lineWidth := width } := h.of_heap rfl
    exact Option.some.inj hnext ▸ hset.lineChanged (Element.keepsPlain_setLineWidth width) all
  | lineStyle style all =>
    have hset : Page.Plain { page with lineStyle := style } := h.of_heap rfl
    exact Option.some.inj hnext ▸ hset.lineChanged (Element.keepsPlain_setLineStyle style) all
  | lineColor color all =>
    have hset : Page.Plain { page with lineColor := color } := h.of_heap rfl
    exact Option.some.inj hnext ▸ hset.lineChanged (Element.keepsPlain_setLineColor color) all
  | save => exact Option.some.inj hnext ▸ h.deHighlightElement
  | load env bytes => exact h.setMsgPackData he (toOption_eq_some.mp hnext)
  | clear => exact Option.some.inj hnext ▸ h.clearAll
  | changeImageElementSize d uuid leftTop width height =>
    exact Option.some.inj hnext ▸ h.changeImageElementSize d uuid leftTop width height
  | playShow env type bytes => exact h.playNetworkShowAction he (toOption_eq_some.mp hnext)
  | playSize d uuid leftTop width height =>
    exact Option.some.inj hnext ▸ h.playChange uuid (Element.keepsPlain_updateSize d leftTop width height)
  | playLineWidth uuid width =>
    exact Option.some.inj hnext ▸ h.playChange uuid (Element.keepsPlain_setLineWidth width)
  | playLineStyle uuid style =>
    exact Option.some.inj hnext ▸ h.playChange uuid (Element.keepsPlain_setLineStyle style)
  | playLineColor uuid color =>
    exact Option.some.inj hnext ▸ h.playChange uuid (Element.keepsPlain_setLineColor color.ofRgb)
  | playTextChanged uuid text fontSize =>
    exact Option.some.inj hnext ▸ h.playChange uuid (Element.keepsPlain_updateText text fontSize)
  | playSwitchPage env width color bytes =>
    obtain ⟨loaded, hload, rfl⟩ := map_eq_ok.mp (toOption_eq_some.mp hnext)
    have hwidth : Page.Plain { page.setMode with lineWidth := width } := h.setMode.of_heap rfl
    have hlines := hwidth.lineChanged (Element.keepsPlain_setLineWidth width) false
    have hcolor : Page.Plain { page.setMode.lineWidthChanged width false with lineColor := color } :=
      hlines.of_heap rfl
    have hset := hcolor.lineChanged (Element.keepsPlain_setLineColor color) false
    exact (hset.setMsgPackData he hload).setEnable false
  | topMost p =>
    refine Option.some.inj hnext ▸ h.of_heap ?_
    unfold onTopMostElementTriggered
    split_ifs <;> rfl
  | bottomMost p =>
    refine Option.some.inj hnext ▸ h.of_heap ?_
    unfold onBottomMostElementTriggered
    split_ifs <;> rfl
  | addToDrawing uuid =>
    refine Option.some.inj hnext ▸ h.of_heap ?_
    unfold Page.addToDrawing
    split_ifs
    · rfl
    · split <;> rfl
  | removeFromDrawing uuid => exact Option.some.inj hnext ▸ h.of_heap rfl
  | playHide uuid =>
    refine Option.some.inj hnext ▸ h.of_heap ?_
    unfold playHideAction
    split <;> rfl
  | playTopMost uuid =>
    refine Option.some.inj hnext ▸ h.of_heap ?_
    unfold playTopMostAction onTopMostElementTriggered
    split
    · split_ifs <;> rfl
    · rfl
  | playBottomMost uuid =>
    refine Option.some.inj hnext ▸ h.of_heap ?_
    unfold playBottomMostAction onBottomMostElementTriggered
    split
    · split_ifs <;> rfl
    · rfl

/-- Without states, all elements are plain at any time. -/
theorem plain_of_history {uuid : Bytes}
    (h : ((history uuid).guarded fun _ e => AddsPlain e).Reachable page) : page.Plain := by
  refine h.invariant (fun page hnew => ?_) fun page e page' hplain hstep => ?_
  · obtain rfl : page = .new uuid := hnew
    exact plain_new uuid
  · obtain ⟨hadds, -, hnext⟩ := hstep
    exact hplain.next hadds hnext

/-- Any page loads the data of a page without states and nested pages, and shows then what that one shows. -/
theorem shows_of_history {uuid : Bytes}
    (h : ((history uuid).guarded fun _ e => AddsPlain e).Reachable page) {env : Surroundings}
    (henv : env.Regular) (huuid : env.quuid page.uuid = page.uuid) (hlength : page.data.length < 2 ^ 32)
    (hviewer : ∀ e ∈ page.shown, e.body.viewer? = none) (page' : Page) :
    ∃ loaded, page'.setMsgPackData env page.data = .ok loaded ∧ page.Shows loaded := by
  have hportable := Portable.of_plain huuid hlength (plain_of_history h).shown hviewer
  obtain ⟨loaded, hload, hshows, -⟩ := hportable.exists_setMsgPackData henv page'
  exact ⟨loaded, hload, hshows⟩

end Page

end Liangshi
