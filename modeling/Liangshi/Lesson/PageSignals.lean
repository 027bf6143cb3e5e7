import Liangshi.Board.PageDecoding
import Liangshi.Board.UndoRedo
import Liangshi.Lesson.Seeking
import Liangshi.Live.PageHistory
import Liangshi.Ordered.Arrangement

/-!
# What a page tells about its drawing

A page emits an action whenever a user has an element drawn, taken out or put above or below the others,
and the line attributes of an element (`OnAnimationAction`).  The helpers of elements emit the text and the
size of theirs as well; that is left out here.

`Tells` says that the actions that are emitted while a page changes are all there is to know about the
order of its drawing: read as changes of an arrangement of uuids, they lead from the drawing before to the
drawing after.  So it is for every operation of a user on a settled page (`tells_next`).  Showing and
hiding by a slide, and what a page is loaded with, is not emitted.
-/

namespace Liangshi

open Wire Ordered Transition

/-- The change of the drawing that an action stands for. -/
def AnimationAction.rearrangement? (a : AnimationAction) : Option (Rearrangement Bytes) :=
  match a.kind with
  | .show => some (.show a.targetElementUuid)
  | .hide => some (.hide a.targetElementUuid)
  | .topMost => some (.top a.targetElementUuid)
  | .bottomMost => some (.bottom a.targetElementUuid)
  | _ => none

namespace Page

/-! ## The actions that are emitted -/

/-- An action on an element of the page. -/
def signal (page : Page) (p : Pointer) (kind : AnimationKind) : List AnimationAction :=
  match page.element p with
  | some e => [⟨page.uuid, e.objUuid, 0, kind, false⟩]
  | none => []

/-- What `DeHighlightElement` emits, where hiding the helper asks for the removal of the element. -/
def deHighlightSignals (page : Page) : List AnimationAction :=
  match page.highlightElement with
  | none => []
  | some h => if (page.hide h).2 then page.signal h .hide else []

/-- What `RemoveDrawingElementTriggered` emits, whether the element is drawn or not. -/
def removeSignals (page : Page) (p : Pointer) : List AnimationAction :=
  page.deHighlightSignals ++ page.signal p .hide

/-- What `Highlight` with `high` unset emits. -/
def unhighlightSignals (page : Page) (p : Pointer) : List AnimationAction :=
  if (page.hide p).2 then
    ((page.hide p).1.modify p (·.setCanDelete false)).removeSignals p
  else
    []

/-- What one turn of the loop of `HighlightElement` emits. -/
def highlightNextSignals (hit : Element → Bool) (s : Page × Bool) (p : Pointer) :
    List AnimationAction :=
  if (s.1.element p).any (·.canPaint) then
    if (s.1.element p).any hit && !s.2 then [] else s.1.unhighlightSignals p
  else
    []

/-- What the loop of `HighlightElement` emits. -/
def highlightLoopSignals (hit : Element → Bool) : Page × Bool → List Pointer → List AnimationAction
  | _, [] => []
  | s, p :: ps =>
    highlightNextSignals hit s p ++ highlightLoopSignals hit (highlightNext hit s p) ps

/-- What `HighlightElement` emits. -/
def highlightElementSignals (page : Page) (hit : Element → Bool) : List AnimationAction :=
  let lowered := { page.deHighlightElement with highlightElement := none }
  page.deHighlightSignals ++ highlightLoopSignals hit (lowered, false) lowered.drawingElements.reverse

/-- The line attributes that `AddElement` emits behind a `ShowAction`. -/
def attributeSignals (page : Page) (p : Pointer) : List AnimationAction :=
  page.signal p (.lineWidth page.lineWidth) ++ page.signal p (.lineStyle page.lineStyle) ++
    page.signal p (.lineColor page.lineColor)

/-- What `AddElement` emits of an element that is drawn.  The pages of a live board do not emit the line
attributes (`_emitAdditionAction`). -/
def addElementSignals (emitAdditionAction : Bool) (page : Page) (p : Pointer) (updateProperty : Bool) :
    List AnimationAction :=
  page.deHighlightSignals ++ page.signal p .show ++
    if !(page.element p).any (·.body.isBan) && updateProperty && emitAdditionAction then
      page.attributeSignals p
    else
      []

/-- What `OnUndoTriggered` emits. -/
def undoSignals (page : Page) : List AnimationAction :=
  if page.disableDraw then []
  else match page.drawingElements.getLast? with
    | some p => page.removeSignals p
    | none => []

/-- What `OnRedoTriggered` emits. -/
def redoSignals (emitAdditionAction : Bool) (page : Page) : List AnimationAction :=
  if page.disableDraw then []
  else match page.undos.getLast? with
    | some p =>
      { page with undos := page.undos.dropLast, redoing := true }.addElementSignals
        emitAdditionAction p false
    | none => []

/-- What the three changes of a line attribute emit. -/
def lineSignals (page : Page) (kind : AnimationKind) : List AnimationAction :=
  match page.highlightElement with
  | none => []
  | some h => if (page.element h).any (·.body.isPath) then [] else page.signal h kind

/-- What a page emits at an event. -/
def signals (emitAdditionAction : Bool) (page : Page) : PageEvent → List AnimationAction
  | .addNew p e updateProperty _ =>
    (page.setElement p e).addElementSignals emitAdditionAction p updateProperty
  | .delete p => page.removeSignals p
  | .undo => page.undoSignals
  | .redo => page.redoSignals emitAdditionAction
  | .topMost p => page.signal p .topMost
  | .bottomMost p => page.signal p .bottomMost
  | .copy => match page.highlightElement with
    | some h => page.unhighlightSignals h
    | none => []
  | .select hit => page.highlightElementSignals hit
  | .setMode => if page.disableDraw then [] else page.deHighlightSignals
  | .setEnable enable => { page with disableDraw := !enable }.deHighlightSignals
  | .save => page.deHighlightSignals
  | .lineWidth width _ => page.lineSignals (.lineWidth width)
  | .lineStyle style _ => page.lineSignals (.lineStyle style)
  | .lineColor color _ => page.lineSignals (.lineColor color)
  | _ => []

/-- A page after events, with what it emits; `none` after a fault. -/
def nextAll (emitAdditionAction : Bool) (page : Page) :
    List PageEvent → Option (Page × List AnimationAction)
  | [] => some (page, [])
  | e :: es => do
    let page' ← page.next e
    let (page'', others) ← page'.nextAll emitAdditionAction es
    return (page'', page.signals emitAdditionAction e ++ others)

/-- What is done on a page by its user: nothing is loaded, and no slide and no action from elsewhere shows,
hides or moves an element. -/
def IsOperation : PageEvent → Prop
  | .load .. | .clear | .addToDrawing _ | .removeFromDrawing _ | .playShow .. | .playHide _
  | .playTopMost _ | .playBottomMost _ | .playSwitchPage .. => False
  | _ => True

/-- The element that a user's operation names is one of the page. -/
def Targets (page : Page) : PageEvent → Prop
  | .delete p | .topMost p | .bottomMost p => p ∈ page.allElements
  | _ => True

end Page

/-- The mode and the line attributes of a widget, on a page that it shows. -/
def PageEvent.attributes (width style : Int32) (color : SColor) : List PageEvent :=
  [.setMode, .lineWidth width false, .lineStyle style false, .lineColor color false]

namespace Page

/-- They can be set on every page. -/
lemma of_mem_attributes {width style : Int32} {color : SColor} {e : PageEvent}
    (h : e ∈ PageEvent.attributes width style color) :
    IsOperation e ∧ ∀ page : Page, page.Targets e ∧ page.Allocates e ∧ page.ProceedsWell e := by
  simp only [PageEvent.attributes, List.mem_cons, List.not_mem_nil, or_false] at h
  rcases h with rfl | rfl | rfl | rfl <;> exact ⟨trivial, fun _ => ⟨trivial, trivial, trivial⟩⟩

/-! ## Telling the drawing -/

/-- The uuids of the elements that are drawn, the last one on top. -/
def drawnUuids (page : Page) : List Bytes := page.drawingElements.filterMap page.uuidOf

/-- Actions lead from one drawing to another. -/
def Arranges (drawn : List Bytes) (actions : List AnimationAction) (drawn' : List Bytes) : Prop :=
  (arrangement Bytes).Run drawn (actions.filterMap (·.rearrangement?)) drawn'

/-- An element of the page has a uuid. -/
def HoldsUuid (page : Page) (uuid : Bytes) : Prop := ∃ p ∈ page.allElements, page.uuidOf p = some uuid

/-- What a page emits while it changes tells how its drawing changes.  The page keeps its own data and its
elements, and what is shown is one of them. -/
structure Tells (page : Page) (signals : List AnimationAction) (page' : Page) : Prop where
  own : page'.own = page.own
  elements : ∀ uuid, page.HoldsUuid uuid → page'.HoldsUuid uuid
  isOn : ∀ a ∈ signals, a.isOn page.uuid = true
  shows : ∀ a ∈ signals, a.kind = .show → page'.HoldsUuid a.targetElementUuid
  arranges : Arranges page.drawnUuids signals page'.drawnUuids

variable {page page' page'' : Page} {emitAdditionAction : Bool}

/-- Having a uuid, by the uuid. -/
lemma hasUuid_iff {uuid : Bytes} {p : Pointer} :
    page.hasUuid uuid p = true ↔ page.uuidOf p = some uuid := by
  unfold hasUuid uuidOf
  cases page.element p <;> simp

/-- Some actions after others. -/
lemma Arranges.append {drawn drawn' drawn'' : List Bytes} {first others : List AnimationAction}
    (h : Arranges drawn first drawn') (h' : Arranges drawn' others drawn'') :
    Arranges drawn (first ++ others) drawn'' := by
  unfold Arranges
  rw [List.filterMap_append]
  exact System.Run.append h h'

/-- The uuid of a page is one of its own data. -/
lemma uuid_of_own (h : page'.own = page.own) : page'.uuid = page.uuid := by
  have huuid : page'.own.uuid = page.own.uuid := by rw [h]
  exact huuid

/-- One change after the other. -/
lemma Tells.trans {first others : List AnimationAction} (h : Tells page first page')
    (h' : Tells page' others page'') : Tells page (first ++ others) page'' where
  own := h'.own.trans h.own
  elements uuid huuid := h'.elements uuid (h.elements uuid huuid)
  isOn a ha := by
    rcases List.mem_append.mp ha with ha | ha
    · exact h.isOn a ha
    · rw [← uuid_of_own h.own]
      exact h'.isOn a ha
  shows a ha hshow := by
    rcases List.mem_append.mp ha with ha | ha
    · exact h'.elements _ (h.shows a ha hshow)
    · exact h'.shows a ha hshow
  arranges := h.arranges.append h'.arranges

/-- Similar pages draw the same uuids. -/
lemma Similar.drawnUuids_eq (h : Similar page page') : page'.drawnUuids = page.drawnUuids := by
  unfold drawnUuids
  rw [h.drawingElements_eq]
  exact List.filterMap_congr fun p _ => h.uuidOf_eq p

/-- Where a page changes into a similar one, actions that do not change the order tell it all. -/
lemma Tells.of_similar {signals : List AnimationAction} (h : Similar page page')
    (hown : page'.own = page.own) (hon : ∀ a ∈ signals, a.isOn page.uuid = true)
    (hsignals : ∀ a ∈ signals, a.rearrangement? = none) : Tells page signals page' where
  own := hown
  elements uuid := by
    rintro ⟨p, hp, huuid⟩
    exact ⟨p, h.allElements_eq ▸ hp, (h.uuidOf_eq p).trans huuid⟩
  isOn := hon
  shows a ha hshow := by
    have hnone := hsignals a ha
    rw [AnimationAction.rearrangement?, hshow] at hnone
    cases hnone
  arranges := by
    have hnone : signals.filterMap (·.rearrangement?) = [] :=
      List.filterMap_eq_nil_iff.mpr hsignals
    unfold Arranges
    rw [hnone, h.drawnUuids_eq]
    exact .nil _

/-- Nothing is emitted where a page changes into a similar one. -/
lemma Tells.quiet (h : Similar page page') (hown : page'.own = page.own) : Tells page [] page' :=
  .of_similar h hown nofun nofun

/-- An action on an element of a page is on the page, unless it is a switch. -/
lemma isOn_of_mem_signal {p : Pointer} {kind : AnimationKind} {a : AnimationAction}
    (h : a ∈ page.signal p kind) (htype : kind.getType ≠ .switchPage) : a.isOn page.uuid = true := by
  unfold signal at h
  split at h
  · rw [List.mem_singleton.mp h]
    simpa [AnimationAction.isOn, AnimationAction.isSwitch, AnimationAction.getType] using htype
  · cases h

/-- The kind of an action decides which change of the drawing it stands for. -/
lemma rearrangement?_of_mem_signal {p : Pointer} {kind : AnimationKind} {a : AnimationAction}
    (h : a ∈ page.signal p kind) (hkind : ∀ uuid sc time played,
      AnimationAction.rearrangement? ⟨sc, uuid, time, kind, played⟩ = none) :
    a.rearrangement? = none := by
  unfold signal at h
  split at h
  · rw [List.mem_singleton.mp h]
    exact hkind _ _ _ _
  · cases h

/-- An element's action is a matter of its uuid and that of the page. -/
lemma signal_congr {p : Pointer} (hown : page'.own = page.own) (huuid : page'.uuidOf p = page.uuidOf p)
    (kind : AnimationKind) : page'.signal p kind = page.signal p kind := by
  have hsignal : ∀ page : Page, page.signal p kind =
      ((page.uuidOf p).map fun uuid => ⟨page.uuid, uuid, 0, kind, false⟩).toList := by
    intro page
    unfold signal uuidOf
    cases page.element p <;> rfl
  rw [hsignal, hsignal, huuid, uuid_of_own hown]

/-- An element of a settled page is alone with its uuid in the drawing. -/
lemma Settled.alone (h : Settled page) {p : Pointer} (hp : p ∈ page.allElements) :
    Alone page.uuidOf p page.drawingElements :=
  fun q hq huuid => h.uuids q (h.drawn q hq) p hp huuid

/-- One fitting change of the drawing is told by the action that stands for it. -/
lemma tells_of_alone {r : Rearrangement Pointer} {kind : AnimationKind}
    (hkind : ∀ uuid sc time played, AnimationAction.rearrangement? ⟨sc, uuid, time, kind, played⟩ =
      some (r.of uuid)) (hlive : (page.element r.subject).isSome)
    (halone : Alone page.uuidOf r.subject page.drawingElements) (hfits : r.Fits page.drawingElements)
    (hdrawing : page'.drawingElements = r.apply page.drawingElements)
    (huuid : ∀ q, page'.uuidOf q = page.uuidOf q) (hown : page'.own = page.own)
    (hall : ∀ q ∈ page.allElements, q ∈ page'.allElements)
    (hsubject : r.subject ∈ page'.allElements) : Tells page (page.signal r.subject kind) page' := by
  obtain ⟨e, he⟩ := Option.isSome_iff_exists.mp hlive
  have hsignal : page.signal r.subject kind = [⟨page.uuid, e.objUuid, 0, kind, false⟩] := by
    rw [signal, he]
  have hname : page.uuidOf r.subject = some e.objUuid := by
    rw [uuidOf, he, Option.map_some]
  have hdrawn : page'.drawnUuids = (r.apply page.drawingElements).filterMap page.uuidOf := by
    rw [drawnUuids, hdrawing]
    exact List.filterMap_congr fun q _ => huuid q
  refine ⟨hown, ?_, fun a ha => isOn_of_mem_signal ha ?_, fun a ha _ => ?_, ?_⟩
  · rintro uuid ⟨q, hq, hquuid⟩
    exact ⟨q, hall q hq, (huuid q).trans hquuid⟩
  · intro htype
    cases kind <;> cases htype
    cases hkind [] [] 0 false
  · rw [hsignal, List.mem_singleton] at ha
    rw [ha]
    exact ⟨_, hsubject, (huuid _).trans hname⟩
  · rw [Arranges, hsignal, hdrawn, List.filterMap_cons_some (hkind _ _ _ _), List.filterMap_nil]
    exact run_filterMap halone hname hfits

/-- One fitting change of an element of a settled page is told. -/
lemma Settled.tells (h : Settled page) {r : Rearrangement Pointer} {kind : AnimationKind}
    (hkind : ∀ uuid sc time played, AnimationAction.rearrangement? ⟨sc, uuid, time, kind, played⟩ =
      some (r.of uuid)) (hp : r.subject ∈ page.allElements) (hfits : r.Fits page.drawingElements)
    (hdrawing : page'.drawingElements = r.apply page.drawingElements)
    (huuid : ∀ q, page'.uuidOf q = page.uuidOf q) (hown : page'.own = page.own)
    (hall : page'.allElements = page.allElements) : Tells page (page.signal r.subject kind) page' :=
  tells_of_alone hkind (h.live _ hp) (h.alone hp) hfits hdrawing huuid hown
    (fun _ hq => hall ▸ hq) (hall ▸ hp)

/-! ## Hiding the highlighted element -/

/-- Taking an element out of the drawing leaves the uuids. -/
lemma uuidOf_takeOut (page : Page) (p q : Pointer) : (page.takeOut p).uuidOf q = page.uuidOf q := by
  rw [uuidOf, element_takeOut, uuidOf]

/-- An element that is taken out is told. -/
lemma Settled.tells_takeOut (h : Settled page) {p : Pointer} (hp : p ∈ page.allElements) :
    Tells page (page.signal p .hide) (page.takeOut p) := by
  refine h.tells (r := .hide p) (fun _ _ _ _ => rfl) hp trivial ?_ (uuidOf_takeOut page p)
    (own_takeOut page p) (allElements_takeOut page p)
  unfold Page.takeOut
  split_ifs with hdrawn
  · rfl
  · exact (List.erase_of_not_mem hdrawn).symm

/-- What hiding the highlighted element emits tells what it takes out. -/
lemma Settled.tells_deHighlightElement (h : Settled page) :
    Tells page page.deHighlightSignals page.deHighlightElement := by
  unfold deHighlightSignals Page.deHighlightElement
  cases hhighlight : page.highlightElement with
  | none => exact .quiet (.refl page) rfl
  | some q =>
    have hhide : Similar page { (page.hide q).1 with highlightElement := none } :=
      (similar_hide page q).trans (similar_highlight _ none)
    have hown : { (page.hide q).1 with highlightElement := none }.own = page.own := own_hide page q
    dsimp only
    split_ifs with hdelete
    · have hcan : ∀ e : Element, (e.setCanDelete false).objUuid = e.objUuid := fun _ => rfl
      have hsimilar := hhide.trans (similar_modify _ q hcan)
      have hown' := (own_modify _ q (·.setCanDelete false)).trans hown
      have hsettled := hsimilar.settled h (by rw [highlightElement_modify]; nofun)
      have hq : q ∈ page.allElements := h.drawn q (h.highlighted q hhighlight)
      have htake := hsettled.tells_takeOut (hsimilar.allElements_eq ▸ hq)
      rw [signal_congr hown' (hsimilar.uuidOf_eq q)] at htake
      exact (Tells.quiet hsimilar hown').trans htake
    · exact .quiet hhide hown

/-- Removing an element is told. -/
lemma Settled.tells_removeDrawingElementTriggered (h : Settled page) {p : Pointer}
    (hp : p ∈ page.allElements) : Tells page (page.removeSignals p)
      (page.removeDrawingElementTriggered p) := by
  have htake := h.deHighlightElement.tells_takeOut (p := p) (by rwa [allElements_deHighlightElement])
  rw [signal_congr (own_deHighlightElement page) (uuidOf_deHighlightElement page p)] at htake
  exact h.tells_deHighlightElement.trans htake

/-- Unhighlighting an element is told. -/
lemma Settled.tells_unhighlight (h : Settled page) {p : Pointer} (hp : p ∈ page.allElements) :
    Tells page (page.unhighlightSignals p) (page.unhighlight p) := by
  have hhide := similar_hide page p
  unfold unhighlightSignals unhighlight
  dsimp only
  split_ifs with hdelete
  · have hcan : ∀ e : Element, (e.setCanDelete false).objUuid = e.objUuid := fun _ => rfl
    have hsimilar := hhide.trans (similar_modify _ p hcan)
    have hown := (own_modify (page.hide p).1 p (·.setCanDelete false)).trans (own_hide page p)
    have hsettled := hsimilar.settled h (by
      rw [highlightElement_modify, highlightElement_hide]
      exact h.highlighted)
    have hremove := hsettled.tells_removeDrawingElementTriggered (p := p)
      (hsimilar.allElements_eq ▸ hp)
    exact (Tells.quiet hsimilar hown).trans hremove
  · exact .quiet hhide (own_hide page p)

/-! ## Selecting -/

/-- Highlighting an element gives a similar page with the same data of its own. -/
lemma similar_highlighted (page : Page) (p : Pointer) :
    Similar page { page.modify p Element.highlight with highlightElement := some p } ∧
      { page.modify p Element.highlight with highlightElement := some p }.own = page.own :=
  ⟨(similar_modify page p objUuid_highlight).trans (similar_highlight _ (some p)),
    own_modify page p Element.highlight⟩

/-- One turn of the loop of `HighlightElement` is told. -/
lemma tells_highlightNext (hit : Element → Bool) {s : Page × Bool} (h : Settled s.1) {p : Pointer}
    (hp : p ∈ s.1.allElements) :
    Tells s.1 (highlightNextSignals hit s p) (highlightNext hit s p).1 := by
  unfold highlightNextSignals highlightNext
  split_ifs
  · obtain ⟨hsimilar, hown⟩ := similar_highlighted s.1 p
    exact .quiet hsimilar hown
  · exact h.tells_unhighlight hp
  · exact .quiet (.refl s.1) rfl

/-- The loop of `HighlightElement` is told, over elements that are drawn and not highlighted. -/
lemma tells_foldl_highlightNext (hit : Element → Bool) {rest : List Pointer} {s : Page × Bool}
    (h : Settled s.1) (hnodup : rest.Nodup) (hdrawn : ∀ p ∈ rest, p ∈ s.1.drawingElements)
    (hhighlight : ∀ p ∈ rest, ∀ q ∈ s.1.highlightElement, p ≠ q) :
    Tells s.1 (highlightLoopSignals hit s rest) (rest.foldl (highlightNext hit) s).1 := by
  induction rest generalizing s with
  | nil => exact .quiet (.refl s.1) rfl
  | cons p rest ih =>
    obtain ⟨hp, hrest⟩ := List.nodup_cons.mp hnodup
    obtain ⟨hpdrawn, hdrawn⟩ := List.forall_mem_cons.mp hdrawn
    have hne : ∀ q ∈ rest, q ≠ p := fun q hq heq => hp (heq ▸ hq)
    have hothers : ∀ q ∈ rest, ∀ r ∈ s.1.highlightElement, q ≠ r := fun q hq =>
      hhighlight q (List.mem_cons_of_mem p hq)
    have hfirst := tells_highlightNext hit h (h.drawn p hpdrawn)
    rw [List.foldl_cons]
    refine hfirst.trans (ih ?_ hrest ?_ ?_)
    all_goals
      unfold highlightNext
      split_ifs
    · exact (similar_highlighted s.1 p).1.settled h (by rintro q ⟨⟩; exact hpdrawn)
    · exact (unhighlight_spec h p).1
    · exact h
    · rw [(similar_highlighted s.1 p).1.drawingElements_eq]
      exact hdrawn
    · exact fun q hq => (unhighlight_spec h p).2.2.1 q (hdrawn q hq) (hne q hq) (hothers q hq)
    · exact hdrawn
    · rintro q hq r ⟨⟩
      exact hne q hq
    · exact fun q hq r hr => hothers q hq r ((unhighlight_spec h p).2.2.2 r hr)
    · exact hothers

/-- `HighlightElement` is told. -/
lemma Settled.tells_highlightElementAt (h : Settled page) (hit : Element → Bool) :
    Tells page (page.highlightElementSignals hit) (page.highlightElementAt hit) := by
  have hnone := similar_highlight page.deHighlightElement none
  have hsettled := hnone.settled h.deHighlightElement (by rintro q ⟨⟩)
  have hloop := tells_foldl_highlightNext hit (s := (_, false)) hsettled
    (List.nodup_reverse.mpr hsettled.nodup) (fun p hp => List.mem_reverse.mp hp) (by rintro p hp q ⟨⟩)
  have hlowered := h.tells_deHighlightElement.trans (Tells.quiet hnone rfl)
  rw [List.append_nil] at hlowered
  exact hlowered.trans hloop

/-! ## Adding and redoing -/

/-- Line attributes that are emitted change no order. -/
lemma of_mem_attributeSignals {p : Pointer} {a : AnimationAction} (h : a ∈ page.attributeSignals p) :
    a.isOn page.uuid = true ∧ a.rearrangement? = none := by
  unfold attributeSignals at h
  rw [List.mem_append, List.mem_append] at h
  rcases h with (h | h) | h <;>
    exact ⟨isOn_of_mem_signal h nofun, rearrangement?_of_mem_signal h fun _ _ _ _ => rfl⟩

/-- Adding an element leaves a page its own data. -/
@[simp] lemma own_addElement (page : Page) (p : Pointer) (updateProperty highlight : Bool) :
    (page.addElement p updateProperty highlight true).own = page.own := by
  have hadded : ((page.deHighlightElement).modify p
      (page.deHighlightElement.addProperty updateProperty)).own = page.own := by
    rw [own_modify, own_deHighlightElement]
  unfold addElement
  cases highlight with
  | false => exact hadded
  | true => exact (own_modify _ p Element.highlight).trans hadded

/-- An element that is added is told, when it is not drawn and no other one has its uuid. -/
lemma Settled.tells_addElement (h : Settled page) {p : Pointer} (hlive : (page.element p).isSome)
    (hdrawn : p ∉ page.drawingElements)
    (hunique : ∀ q ∈ page.allElements, page.uuidOf q = page.uuidOf p → q = p)
    (emitAdditionAction updateProperty highlight : Bool) :
    Tells page (page.addElementSignals emitAdditionAction p updateProperty)
      (page.addElement p updateProperty highlight true) := by
  obtain ⟨mid, hsimilar, -, heq⟩ := page.addElement_eq p updateProperty highlight
  have hlowered := h.deHighlightElement
  have hshow : Tells page.deHighlightElement (page.signal p .show)
      (page.addElement p updateProperty highlight true) := by
    rw [← signal_congr (own_deHighlightElement page) (uuidOf_deHighlightElement page p)]
    have hall : ∀ q, q ∈ (page.addElement p updateProperty highlight true).allElements ↔
        q = p ∨ q ∈ page.deHighlightElement.allElements := by
      intro q
      rw [heq, ← hsimilar.allElements_eq]
      exact OrderedSet.mem_insert
    refine tells_of_alone (r := .show p) (fun _ _ _ _ => rfl) ?_ ?_ ?_ ?_ ?_ ?_
      (fun q hq => (hall q).mpr (.inr hq)) ((hall p).mpr (.inl rfl))
    · show (page.deHighlightElement.element p).isSome
      rwa [← isSome_uuidOf, uuidOf_deHighlightElement, isSome_uuidOf]
    · intro q hq huuid
      have hall := hlowered.drawn q hq
      rw [allElements_deHighlightElement] at hall
      rw [uuidOf_deHighlightElement, uuidOf_deHighlightElement] at huuid
      exact hunique q hall huuid
    · exact fun hmem => hdrawn (mem_of_mem_deHighlightElement hmem)
    · rw [heq, ← hsimilar.drawingElements_eq]
      rfl
    · intro q
      rw [heq]
      exact hsimilar.uuidOf_eq q
    · rw [own_addElement, own_deHighlightElement]
  have hattributes : Tells (page.addElement p updateProperty highlight true)
      (if !(page.element p).any (·.body.isBan) && updateProperty && emitAdditionAction then
        page.attributeSignals p else []) (page.addElement p updateProperty highlight true) := by
    have huuid := uuid_of_own (own_addElement page p updateProperty highlight)
    split_ifs
    · exact .of_similar (.refl _) rfl (fun a ha => huuid ▸ (of_mem_attributeSignals ha).1)
        fun a ha => (of_mem_attributeSignals ha).2
    · exact .quiet (.refl _) rfl
  exact (h.tells_deHighlightElement.trans hshow).trans hattributes

/-- `OnUndoTriggered` is told. -/
lemma Settled.tells_onUndoTriggered (h : Settled page) :
    Tells page page.undoSignals page.onUndoTriggered := by
  unfold undoSignals Page.onUndoTriggered
  split_ifs
  · exact .quiet (.refl page) rfl
  · cases hlast : page.drawingElements.getLast? with
    | none => exact .quiet (.refl page) rfl
    | some p => exact h.tells_removeDrawingElementTriggered (h.drawn p (List.mem_of_getLast? hlast))

/-- A page with one undone element less is settled. -/
lemma Settled.pop (h : Settled page) :
    Settled { page with undos := page.undos.dropLast, redoing := true } where
  nodup := h.nodup
  not_undone p hp hmem := h.not_undone p hp (List.mem_of_mem_dropLast hmem)
  drawn := h.drawn
  undone p hp := h.undone p (List.mem_of_mem_dropLast hp)
  uuids := h.uuids
  highlighted := h.highlighted
  live := h.live
  undos_nodup := h.undos_nodup.sublist (List.dropLast_sublist _)

/-- `OnRedoTriggered` is told. -/
lemma Settled.tells_onRedoTriggered (h : Settled page) (emitAdditionAction : Bool) :
    Tells page (page.redoSignals emitAdditionAction) page.onRedoTriggered := by
  unfold redoSignals Page.onRedoTriggered
  split_ifs
  · exact .quiet (.refl page) rfl
  · cases hlast : page.undos.getLast? with
    | none => exact .quiet (.refl page) rfl
    | some p =>
      have hundone := List.mem_of_getLast? hlast
      have hp := h.undone p hundone
      have hpopped : Tells page [] { page with undos := page.undos.dropLast, redoing := true } :=
        ⟨rfl, fun _ huuid => huuid, nofun, nofun, .nil _⟩
      exact hpopped.trans (h.pop.tells_addElement (h.live p hp)
        (fun hdrawn => h.not_undone p hdrawn hundone) (fun q hq => h.uuids q hq p hp)
        emitAdditionAction false true)

/-! ## Every operation -/

/-- A new element is told. -/
lemma Settled.tells_addNew (h : Settled page) {p : Pointer} (hfree : page.element p = none)
    {e : Element} (hunused : page.Unused e.objUuid) (emitAdditionAction updateProperty highlight : Bool) :
    Tells page ((page.setElement p e).addElementSignals emitAdditionAction p updateProperty)
      (page.addNew p e updateProperty highlight) := by
  have hp := h.not_mem_of_free hfree
  have hset : Tells page [] (page.setElement p e) := by
    have hsame : ∀ q ∈ page.allElements, (page.setElement p e).uuidOf q = page.uuidOf q := by
      intro q hq
      rw [uuidOf, element_setElement, if_neg fun heq : p = q => hp (heq.symm ▸ hq), uuidOf]
    refine ⟨rfl, ?_, List.forall_mem_nil _, List.forall_mem_nil _, ?_⟩
    · rintro uuid ⟨q, hq, huuid⟩
      exact ⟨q, hq, (hsame q hq).trans huuid⟩
    · have hdrawn : (page.setElement p e).drawnUuids = page.drawnUuids :=
        List.filterMap_congr fun q hq => hsame q (h.drawn q hq)
      rw [hdrawn]
      exact .nil _
  refine hset.trans ((h.setElement hp e).tells_addElement ?_ (fun hdrawn => hp (h.drawn p hdrawn)) ?_
    emitAdditionAction updateProperty highlight)
  · rw [element_setElement, if_pos rfl]
    rfl
  · exact (unused_iff h hfree e).mp hunused

/-- Hiding an element that must not be deleted asks for nothing. -/
lemma hide_of_canDelete {p : Pointer} (h : ∀ e, page.element p = some e → e.canDelete = false) :
    (page.hide p).2 = false := by
  unfold hide
  cases he : page.element p with
  | none => rfl
  | some e =>
    dsimp only
    unfold Element.hide
    dsimp only
    split
    · rw [h e he]
      rfl
    · rfl

/-- A change of an element that leaves its uuid and whether it can be deleted. -/
structure KeepsDeletion (change : Element → Element) : Prop where
  objUuid : ∀ e, (change e).objUuid = e.objUuid
  canDelete : ∀ e, (change e).canDelete = e.canDelete

/-- Setting the line width keeps what a deletion asks for. -/
lemma keepsDeletion_setLineWidth (width : Int32) : KeepsDeletion (Element.setLineWidth width) :=
  ⟨objUuid_setLineWidth width, fun e => by unfold Element.setLineWidth; split_ifs <;> rfl⟩

/-- Setting the line style keeps what a deletion asks for. -/
lemma keepsDeletion_setLineStyle (style : Int32) : KeepsDeletion (Element.setLineStyle style) :=
  ⟨objUuid_setLineStyle style, fun e => by unfold Element.setLineStyle; split_ifs <;> rfl⟩

/-- Setting the line colour keeps what a deletion asks for. -/
lemma keepsDeletion_setLineColor (color : SColor) : KeepsDeletion (Element.setLineColor color) :=
  ⟨objUuid_setLineColor color, fun e => by unfold Element.setLineColor; split <;> rfl⟩

/-- Changing elements without their uuids gives a similar page with the same data of its own. -/
lemma similar_foldl_modify {f : Element → Element} (hf : ∀ e, (f e).objUuid = e.objUuid)
    (ps : List Pointer) (page : Page) :
    Similar page (ps.foldl (fun page p => page.modify p f) page) ∧
      (ps.foldl (fun page p => page.modify p f) page).own = page.own := by
  induction ps generalizing page with
  | nil => exact ⟨.refl page, rfl⟩
  | cons p ps ih =>
    obtain ⟨hsimilar, hown⟩ := ih (page.modify p f)
    exact ⟨(similar_modify page p hf).trans hsimilar, hown.trans (own_modify page p f)⟩

/-- A changed line attribute takes nothing out. -/
lemma similar_lineChanged {change : Element → Element} (hchange : KeepsDeletion change)
    (page : Page) (all : Bool) :
    Similar page (page.lineChanged change all) ∧ (page.lineChanged change all).own = page.own := by
  have hmid : ∃ mid, Similar page mid ∧ mid.own = page.own ∧
      page.lineChanged change all = if all then
        mid.drawingElements.foldl (fun page p => page.modify p fun e =>
          if !e.body.isBan && e.canPaint then change e else e) mid else mid := by
    unfold lineChanged
    cases hp : page.highlightElement with
    | none => exact ⟨page, .refl page, rfl, rfl⟩
    | some p =>
      by_cases hpath : (page.element p).any (·.body.isPath)
      · exact ⟨page, .refl page, rfl, by simp only [hpath, if_true]⟩
      · have hfirst : ∀ e : Element, (change (e.setCanDelete false)).objUuid = e.objUuid :=
          fun e => hchange.objUuid _
        have hlast : ∀ e : Element, (e.highlight.setCanDelete true).objUuid = e.objUuid :=
          objUuid_highlight
        -- The deletion is switched off, so hiding the helper asks for no removal.
        have hkept : ((page.modify p fun e => change (e.setCanDelete false)).hide p).2 = false := by
          refine hide_of_canDelete fun e he => ?_
          rw [element_modify, if_pos rfl] at he
          obtain ⟨d, -, rfl⟩ := Option.map_eq_some_iff.mp he
          exact hchange.canDelete _
        have hunhighlight : (page.modify p fun e => change (e.setCanDelete false)).unhighlight p =
            ((page.modify p fun e => change (e.setCanDelete false)).hide p).1 := by
          unfold unhighlight
          simp only [hkept, Bool.false_eq_true, if_false]
        refine ⟨_, ?_, ?_, by simp only [hpath]; rfl⟩
        · rw [hunhighlight]
          exact ((similar_modify page p hfirst).trans (similar_hide _ p)).trans
            (similar_modify _ p hlast)
        · exact (own_modify _ p _).trans ((own_unhighlight _ p).trans (own_modify page p _))
  obtain ⟨mid, hsimilar, hown, heq⟩ := hmid
  rw [heq]
  split_ifs
  · obtain ⟨hfold, hown'⟩ := similar_foldl_modify
      (f := fun e => if !e.body.isBan && e.canPaint then change e else e)
      (fun e => by split_ifs; exacts [hchange.objUuid e, rfl]) mid.drawingElements mid
    exact ⟨hsimilar.trans hfold, hown'.trans hown⟩
  · exact ⟨hsimilar, hown⟩

/-- A changed line attribute is told. -/
lemma tells_lineChanged {mid : Page} (hmid : Similar page mid) (hown : mid.own = page.own)
    {change : Element → Element} (hchange : KeepsDeletion change) (all : Bool) {kind : AnimationKind}
    (htype : kind.getType ≠ .switchPage) (hkind : ∀ uuid sc time played,
      AnimationAction.rearrangement? ⟨sc, uuid, time, kind, played⟩ = none) :
    Tells page (page.lineSignals kind) (mid.lineChanged change all) := by
  obtain ⟨hsimilar, hown'⟩ := similar_lineChanged hchange mid all
  have hsignals : ∀ a ∈ page.lineSignals kind, ∃ p, a ∈ page.signal p kind := by
    intro a ha
    unfold lineSignals at ha
    split at ha
    · cases ha
    · split_ifs at ha
      · cases ha
      · exact ⟨_, ha⟩
  refine .of_similar (hmid.trans hsimilar) (hown'.trans hown) (fun a ha => ?_) fun a ha => ?_
  · obtain ⟨p, hp⟩ := hsignals a ha
    exact isOn_of_mem_signal hp htype
  · obtain ⟨p, hp⟩ := hsignals a ha
    exact rearrangement?_of_mem_signal hp hkind

/-- Copying the highlighted element is told. -/
lemma Settled.tells_onCopyTriggered (h : Settled page) (hcopy : page.onCopyTriggered = some page') :
    Tells page (page.signals emitAdditionAction .copy) page' := by
  unfold Page.onCopyTriggered at hcopy
  cases hhighlight : page.highlightElement with
  | none =>
    rw [hhighlight] at hcopy
    obtain rfl := Option.some.inj hcopy
    simp only [signals, hhighlight]
    exact .quiet (.refl page) rfl
  | some p =>
    rw [hhighlight] at hcopy
    obtain ⟨q, -, rfl⟩ := Option.map_eq_some_iff.mp hcopy
    simp only [signals, hhighlight]
    have hunhighlight := h.tells_unhighlight (h.drawn p (h.highlighted p hhighlight))
    have hagain := hunhighlight.trans
      (.quiet (similar_modify _ q objUuid_highlight) (own_modify _ q Element.highlight))
    rwa [List.append_nil] at hagain

/-- What a page emits at an operation of a user tells how its drawing changes. -/
theorem tells_next (h : Settled page) {e : PageEvent} (hedit : IsOperation e) (htargets : page.Targets e)
    (hallocates : page.Allocates e) (hwell : page.ProceedsWell e) (hnext : page.next e = some page') :
    Tells page (page.signals emitAdditionAction e) page' := by
  have hattributes : ∀ page' : Page, page'.heap = page.heap → page'.allElements = page.allElements →
      page'.drawingElements = page.drawingElements → page'.undos = page.undos →
      page'.redoing = page.redoing → Similar page page' := by
    intro page' hheap hall hdrawing hundos hredoing
    exact ⟨fun p => by rw [uuidOf, uuidOf, element, element, hheap], hall, hdrawing, hundos, hredoing⟩
  have hchange : ∀ uuid change, (∀ e : Element, (change e).objUuid = e.objUuid) →
      Tells page [] (page.playChange uuid change) := by
    intro uuid change hchange
    refine .quiet (similar_playChange page uuid hchange).1 ?_
    unfold playChange
    split
    · exact own_modify _ _ _
    · rfl
  cases e with
  | addNew p e updateProperty highlight =>
    obtain rfl := Option.some.inj hnext
    exact h.tells_addNew hallocates hwell emitAdditionAction updateProperty highlight
  | delete p =>
    obtain rfl := Option.some.inj hnext
    exact h.tells_removeDrawingElementTriggered htargets
  | undo =>
    obtain rfl := Option.some.inj hnext
    exact h.tells_onUndoTriggered
  | redo =>
    obtain rfl := Option.some.inj hnext
    exact h.tells_onRedoTriggered emitAdditionAction
  | topMost p =>
    obtain rfl := Option.some.inj hnext
    refine h.tells (r := .top p) (fun _ _ _ _ => rfl) htargets trivial ?_ ?_ ?_ ?_ <;>
      unfold onTopMostElementTriggered
    · show _ = toTop p page.drawingElements
      unfold toTop
      split_ifs <;> rfl
    · split_ifs <;> exact fun _ => rfl
    · split_ifs <;> rfl
    · split_ifs <;> rfl
  | bottomMost p =>
    obtain rfl := Option.some.inj hnext
    refine h.tells (r := .bottom p) (fun _ _ _ _ => rfl) htargets trivial ?_ ?_ ?_ ?_ <;>
      unfold onBottomMostElementTriggered
    · show _ = toBottom p page.drawingElements
      unfold toBottom
      split_ifs <;> rfl
    · split_ifs <;> exact fun _ => rfl
    · split_ifs <;> rfl
    · split_ifs <;> rfl
  | copy => exact h.tells_onCopyTriggered hnext
  | select hit =>
    obtain rfl := Option.some.inj hnext
    exact h.tells_highlightElementAt hit
  | typeText text =>
    obtain rfl := Option.some.inj hnext
    show Tells page [] _
    unfold typeText
    split
    · exact .quiet (similar_modify page _ (objUuid_typeText text)) (own_modify _ _ _)
    · exact .quiet (.refl page) rfl
  | setMode =>
    obtain rfl := Option.some.inj hnext
    unfold signals setMode
    split_ifs
    · exact .quiet (.refl page) rfl
    · exact h.tells_deHighlightElement
  | setEnable enable =>
    obtain rfl := Option.some.inj hnext
    have hflag : Settled { page with disableDraw := !enable } :=
      h.of_attributes rfl rfl rfl rfl rfl rfl
    exact (Tells.quiet (hattributes { page with disableDraw := !enable } rfl rfl rfl rfl rfl) rfl).trans
      hflag.tells_deHighlightElement
  | setElementMatrix matrix =>
    obtain rfl := Option.some.inj hnext
    exact .quiet (hattributes _ rfl rfl rfl rfl rfl) rfl
  | lineWidth width all =>
    obtain rfl := Option.some.inj hnext
    exact tells_lineChanged (hattributes { page with lineWidth := width } rfl rfl rfl rfl rfl) rfl
      (keepsDeletion_setLineWidth width) all (by simp [AnimationKind.getType]) fun _ _ _ _ => rfl
  | lineStyle style all =>
    obtain rfl := Option.some.inj hnext
    exact tells_lineChanged (hattributes { page with lineStyle := style } rfl rfl rfl rfl rfl) rfl
      (keepsDeletion_setLineStyle style) all (by simp [AnimationKind.getType]) fun _ _ _ _ => rfl
  | lineColor color all =>
    obtain rfl := Option.some.inj hnext
    exact tells_lineChanged (hattributes { page with lineColor := color } rfl rfl rfl rfl rfl) rfl
      (keepsDeletion_setLineColor color) all (by simp [AnimationKind.getType]) fun _ _ _ _ => rfl
  | save =>
    obtain rfl := Option.some.inj hnext
    exact h.tells_deHighlightElement
  | load env bytes => exact hedit.elim
  | clear => exact hedit.elim
  | addToDrawing uuid => exact hedit.elim
  | removeFromDrawing uuid => exact hedit.elim
  | changeImageElementSize d uuid leftTop width height =>
    obtain rfl := Option.some.inj hnext
    refine .quiet (similar_changeImageElementSize d page uuid leftTop width height).1 ?_
    unfold changeImageElementSize
    split
    · exact own_modify _ _ _
    · rfl
  | playShow env type bytes => exact hedit.elim
  | playHide uuid => exact hedit.elim
  | playSize d uuid leftTop width height =>
    obtain rfl := Option.some.inj hnext
    exact hchange uuid _ fun _ => rfl
  | playLineWidth uuid width =>
    obtain rfl := Option.some.inj hnext
    exact hchange uuid _ (objUuid_setLineWidth width)
  | playLineStyle uuid style =>
    obtain rfl := Option.some.inj hnext
    exact hchange uuid _ (objUuid_setLineStyle style)
  | playLineColor uuid color =>
    obtain rfl := Option.some.inj hnext
    exact hchange uuid _ (objUuid_setLineColor color.ofRgb)
  | playTextChanged uuid text fontSize =>
    obtain rfl := Option.some.inj hnext
    exact hchange uuid _ fun _ => rfl
  | playTopMost uuid => exact hedit.elim
  | playBottomMost uuid => exact hedit.elim
  | playSwitchPage env width color bytes => exact hedit.elim

/-- An operation that proceeds well keeps a page settled. -/
lemma Settled.next (h : Settled page) (hredoing : page.redoing = false) {e : PageEvent}
    (hallocates : page.Allocates e) (hwell : page.ProceedsWell e) (hnext : page.next e = some page') :
    Settled page' ∧ page'.redoing = false := by
  obtain ⟨hconsistent, hsteady⟩ := next_spec h hredoing hallocates hnext
  exact ⟨⟨hconsistent.mp hwell, (hsteady hwell).1⟩, (hsteady hwell).2⟩

/-- What a page gets when it is shown is told. -/
lemma Settled.tells_nextAll (h : Settled page) (hredoing : page.redoing = false) {es : List PageEvent}
    (hes : ∀ e ∈ es, IsOperation e ∧ ∀ page : Page, page.Targets e ∧ page.Allocates e ∧ page.ProceedsWell e)
    {actions : List AnimationAction}
    (hnext : page.nextAll emitAdditionAction es = some (page', actions)) :
    Tells page actions page' ∧ Settled page' ∧ page'.redoing = false := by
  induction es generalizing page actions with
  | nil =>
    obtain ⟨rfl, rfl⟩ := Prod.mk.inj (Option.some.inj hnext)
    exact ⟨.quiet (.refl page) rfl, h, hredoing⟩
  | cons e es ih =>
    obtain ⟨hedit, hconditions⟩ := hes e List.mem_cons_self
    obtain ⟨htargets, hallocates, hwell⟩ := hconditions page
    simp only [nextAll, Option.bind_eq_bind, Option.bind_eq_some_iff] at hnext
    obtain ⟨mid, hmid, ⟨last, others⟩, hlast, heq⟩ := hnext
    obtain ⟨rfl, rfl⟩ := Prod.mk.inj (Option.some.inj heq)
    obtain ⟨hsettled, hflag⟩ := h.next hredoing hallocates hwell hmid
    obtain ⟨htells, hkept⟩ := ih hsettled hflag (fun e he => hes e (List.mem_cons_of_mem _ he)) hlast
    exact ⟨(tells_next h hedit htargets hallocates hwell hmid).trans htells, hkept⟩

end Page

/-- What a helper reports. -/
def AnimationKind.IsReport : AnimationKind → Prop
  | .size .. | .textChanged .. => True
  | _ => False

end Liangshi
