import Liangshi.Lesson.PageSignals
import Liangshi.Live.PageSwitch
import Liangshi.Transition.Follower

/-!
# The drawing of a live page

What two pages have in common when they draw elements of the same uuids in the same order (`DrawnPage`),
and how `PlayAction` changes it.  The page of a participant that listens need not be settled: an element
that was undone and redone is sent once more, and the old one stays among the elements of the page.  So only
the elements that are drawn have to have different uuids (`Page.Tidy`).

The data of a page bring its drawing to any page that loads them (`Page.presents_of_load`).
-/

namespace Liangshi

open Wire MessagePack Ordered Transition

/-- A page by its uuid and the uuids of what is drawn on it, the last one on top. -/
structure DrawnPage where
  uuid : Bytes
  drawn : List Bytes
deriving DecidableEq

/-- Pages on which the drawing is rearranged, or is left alone. -/
def drawnPages : System DrawnPage (Option (Rearrangement Bytes)) where
  init page := page.drawn = []
  step page change page' := match change with
    | some r => r.Fits page.drawn ∧ page' = { page with drawn := r.apply page.drawn }
    | none => page' = page

namespace Page

variable {page page' : Page} {v w : DrawnPage}

/-- What is drawn on a page. -/
def drawnPage (page : Page) : DrawnPage := ⟨page.uuid, page.drawnUuids⟩

/-- Actions that lead from one drawing to another lead from one page to the other. -/
lemma run_of_arranges {uuid : Bytes} {drawn drawn' : List Bytes} {actions : List AnimationAction}
    (h : Arranges drawn actions drawn') :
    drawnPages.Run ⟨uuid, drawn⟩ (actions.map (·.rearrangement?)) ⟨uuid, drawn'⟩ := by
  induction actions generalizing drawn with
  | nil =>
    obtain rfl := System.Run.of_nil h
    exact .nil _
  | cons a actions ih =>
    unfold Arranges at h
    rw [List.map_cons]
    cases hr : a.rearrangement? with
    | none =>
      rw [List.filterMap_cons_none hr] at h
      exact (ih h).cons rfl
    | some r =>
      rw [List.filterMap_cons_some hr] at h
      obtain ⟨mid, ⟨hfits, rfl⟩, hothers⟩ := h.of_cons
      exact (ih hothers).cons ⟨hfits, rfl⟩

/-- What a page tells leads from what was drawn to what is drawn. -/
lemma Tells.run {signals : List AnimationAction} (h : Tells page signals page') :
    drawnPages.Run page.drawnPage (signals.map (·.rearrangement?)) page'.drawnPage := by
  rw [drawnPage, drawnPage, uuid_of_own h.own]
  exact run_of_arranges h.arranges

/-! ## Tidy pages -/

/-- What is drawn are elements of the page with different uuids, none of them twice. -/
structure Tidy (page : Page) : Prop extends Drawable page where
  uuids : ∀ p ∈ page.drawingElements, ∀ q ∈ page.drawingElements, page.uuidOf p = page.uuidOf q → p = q

/-- Settled pages are tidy. -/
lemma Settled.tidy (h : Settled page) : Tidy page where
  toDrawable := h.drawable
  uuids p hp q hq := h.uuids p (h.drawn p hp) q (h.drawn q hq)

/-- A tidy page on which that is drawn. -/
structure Presents (page : Page) (v : DrawnPage) : Prop where
  tidy : Tidy page
  drawnPage_eq : page.drawnPage = v

/-- A similar page is tidy as well. -/
lemma Tidy.similar (h : Tidy page) (hsimilar : Similar page page') : Tidy page' where
  toDrawable := hsimilar.drawable h.toDrawable
  uuids := by rw [hsimilar.drawingElements_eq]; exact hsimilar.uuids h.uuids

/-- The same is drawn on a similar page. -/
lemma Presents.similar (h : page.Presents v) (hsimilar : Similar page page')
    (hown : page'.own = page.own) : page'.Presents v := by
  refine ⟨h.tidy.similar hsimilar, ?_⟩
  rw [← h.drawnPage_eq, drawnPage, drawnPage, uuid_of_own hown, hsimilar.drawnUuids_eq]

/-- An element that is drawn on a tidy page is alone with its uuid there. -/
lemma Tidy.alone (h : Tidy page) {p : Pointer} (hp : p ∈ page.drawingElements) :
    Alone page.uuidOf p page.drawingElements :=
  fun q hq huuid => h.uuids q hq p hp huuid

/-- A change of an element that is drawn, other than showing it once more. -/
lemma Presents.rearrange (h : page.Presents v) {r : Rearrangement Pointer} (hshow : ∀ p, r ≠ .show p)
    (hp : r.subject ∈ page.drawingElements) {uuid : Bytes} (huuid : page.uuidOf r.subject = some uuid) :
    Presents { page with drawingElements := r.apply page.drawingElements }
      { v with drawn := (r.of uuid).apply v.drawn } := by
  have hmem : ∀ q ∈ r.apply page.drawingElements, q ∈ page.drawingElements := by
    intro q hq
    rcases Rearrangement.of_mem_apply hq with rfl | hq
    · exact hp
    · exact hq
  have hfits : r.Fits page.drawingElements := by
    cases r with
    | «show» p => exact absurd rfl (hshow p)
    | _ => trivial
  refine ⟨⟨⟨Rearrangement.nodup_apply h.tidy.nodup hfits, fun q hq => h.tidy.drawn q (hmem q hq),
    h.tidy.live⟩, fun q hq q' hq' => h.tidy.uuids q (hmem q hq) q' (hmem q' hq')⟩, ?_⟩
  rw [← h.drawnPage_eq]
  exact congrArg (DrawnPage.mk page.uuid) (Rearrangement.filterMap_apply (h.tidy.alone hp) huuid)

/-- A page that is left alone, where the uuid is not drawn. -/
lemma Presents.of_not_mem (h : page.Presents v) {r : Rearrangement Bytes} (hshow : ∀ uuid, r ≠ .show uuid)
    (hr : r.subject ∉ v.drawn) : page.Presents { v with drawn := r.apply v.drawn } := by
  rw [Rearrangement.apply_of_not_mem hshow hr]
  exact h

/-- What is drawn on a settled page has different uuids. -/
lemma Settled.nodup_drawnUuids (h : Settled page) : page.drawnUuids.Nodup := by
  refine List.pairwise_filterMap.mpr (h.nodup.imp_of_mem fun {p q} hp hq hne => ?_)
  rintro uuid huuid uuid' huuid' rfl
  exact hne (h.tidy.uuids p hp q hq (huuid.trans huuid'.symm))

/-! ## Playing actions -/

/-- What is drawn with the uuid is the element that is found by it. -/
def FindsDrawn (page : Page) (uuid : Bytes) : Prop :=
  ∀ p ∈ page.drawingElements, page.uuidOf p = some uuid → page.findElementByUuid uuid = some p

/-- `PlayHideAction`, where what is drawn with the uuid is found. -/
lemma Presents.playHideAction (h : page.Presents v) {uuid : Bytes} (hfinds : page.FindsDrawn uuid) :
    (page.playHideAction uuid).Presents { v with drawn := (Rearrangement.hide uuid).apply v.drawn } := by
  have hnot : ∀ q ∈ page.findElementByUuid uuid, q ∉ page.drawingElements → uuid ∉ v.drawn := by
    intro q hq hnot hmem
    rw [← h.drawnPage_eq] at hmem
    obtain ⟨p, hp, huuid⟩ := List.mem_filterMap.mp hmem
    obtain rfl := Option.some.inj ((hfinds p hp huuid).symm.trans hq)
    exact hnot hp
  unfold Page.playHideAction
  cases hfind : page.findElementByUuid uuid with
  | none =>
    refine h.of_not_mem (by simp) fun hmem : uuid ∈ v.drawn => ?_
    rw [← h.drawnPage_eq] at hmem
    obtain ⟨p, hp, huuid⟩ := List.mem_filterMap.mp hmem
    rw [hfinds p hp huuid] at hfind
    cases hfind
  | some p =>
    dsimp only
    have hfilter : page.drawingElements.filter (· ≠ p) = page.drawingElements.erase p := by
      rw [h.tidy.nodup.erase_eq_filter]
      exact List.filter_congr fun q _ => by simp [bne, beq_eq_decide]
    rw [hfilter]
    by_cases hp : p ∈ page.drawingElements
    · exact h.rearrange (r := .hide p) (by simp) hp (hasUuid_iff.mp (of_findElementByUuid hfind).2)
    · rw [List.erase_of_not_mem hp]
      exact h.of_not_mem (by simp) (hnot p hfind hp)

/-- What is found in the drawing with a uuid. -/
lemma of_find_drawn {uuid : Bytes} {p : Pointer}
    (h : page.drawingElements.find? (page.hasUuid uuid) = some p) :
    p ∈ page.drawingElements ∧ page.uuidOf p = some uuid :=
  ⟨List.mem_of_find?_eq_some h, hasUuid_iff.mp (List.find?_some h)⟩

/-- Where nothing is found in the drawing, the uuid is not drawn. -/
lemma Presents.not_mem_of_find (h : page.Presents v) {uuid : Bytes}
    (hfind : page.drawingElements.find? (page.hasUuid uuid) = none) : uuid ∉ v.drawn := by
  intro hmem
  rw [← h.drawnPage_eq] at hmem
  obtain ⟨p, hp, huuid⟩ := List.mem_filterMap.mp hmem
  exact List.find?_eq_none.mp hfind p hp (hasUuid_iff.mpr huuid)

/-- `PlayTopMostAction`. -/
lemma Presents.playTopMostAction (h : page.Presents v) (uuid : Bytes) :
    (page.playTopMostAction uuid).Presents { v with drawn := (Rearrangement.top uuid).apply v.drawn } := by
  unfold Page.playTopMostAction
  cases hfind : page.drawingElements.find? (page.hasUuid uuid) with
  | none => exact h.of_not_mem (by simp) (h.not_mem_of_find hfind)
  | some p =>
    obtain ⟨hp, huuid⟩ := of_find_drawn hfind
    have htop := h.rearrange (r := .top p) (by simp) hp huuid
    simp only [Rearrangement.apply, toTop, if_pos hp] at htop
    simp only [onTopMostElementTriggered, if_pos hp]
    exact htop

/-- `PlayBottomMostAction`. -/
lemma Presents.playBottomMostAction (h : page.Presents v) (uuid : Bytes) :
    (page.playBottomMostAction uuid).Presents
      { v with drawn := (Rearrangement.bottom uuid).apply v.drawn } := by
  unfold Page.playBottomMostAction
  cases hfind : page.drawingElements.find? (page.hasUuid uuid) with
  | none => exact h.of_not_mem (by simp) (h.not_mem_of_find hfind)
  | some p =>
    obtain ⟨hp, huuid⟩ := of_find_drawn hfind
    have hbottom := h.rearrange (r := .bottom p) (by simp) hp huuid
    simp only [Rearrangement.apply, toBottom, if_pos hp] at hbottom
    simp only [onBottomMostElementTriggered, if_pos hp]
    exact hbottom

/-- The actions that change an element do not change the drawing. -/
lemma Presents.playChange (h : page.Presents v) (uuid : Bytes) {change : Element → Element}
    (hchange : ∀ e, (change e).objUuid = e.objUuid) : (page.playChange uuid change).Presents v := by
  refine h.similar (similar_playChange page uuid hchange).1 ?_
  unfold Page.playChange
  split
  · exact own_modify _ _ _
  · rfl

/-- An element from the network that is not drawn yet is drawn on top, at an address that is free. -/
lemma Presents.playShow (h : page.Presents v) {p : Pointer} (hfree : page.element p = none) {e : Element}
    (hfits : e.objUuid ∉ v.drawn) :
    (page.playShow p e).Presents { v with drawn := (Rearrangement.show e.objUuid).apply v.drawn } := by
  have hp : p ∉ page.allElements := fun hmem => by
    have hlive := h.tidy.live p hmem
    rw [hfree] at hlive
    cases hlive
  have helement : ∀ q, (page.playShow p e).element q =
      if p = q then some (e.setCanDelete false) else page.element q :=
    fun q => element_setElement page p q (e.setCanDelete false)
  have hold : ∀ q ∈ page.drawingElements, (page.playShow p e).uuidOf q = page.uuidOf q := by
    intro q hq
    rw [uuidOf, helement, if_neg fun heq : p = q => hp (heq ▸ h.tidy.drawn q hq), uuidOf]
  have hnew : (page.playShow p e).uuidOf p = some e.objUuid := by
    rw [uuidOf, helement, if_pos rfl]
    rfl
  have hdrawn : ∀ q ∈ page.drawingElements, (page.playShow p e).uuidOf q ≠ some e.objUuid := by
    intro q hq huuid
    rw [hold q hq] at huuid
    refine hfits ?_
    rw [← h.drawnPage_eq]
    exact List.mem_filterMap.mpr ⟨q, hq, huuid⟩
  have hmem : ∀ q ∈ (page.playShow p e).drawingElements, q ∈ page.drawingElements ∨ q = p := fun q hq =>
    (List.mem_append.mp hq).imp_right List.mem_singleton.mp
  refine ⟨⟨⟨?_, fun q hq => ?_, fun q hq => ?_⟩, fun q hq q' hq' huuid => ?_⟩, ?_⟩
  · exact Rearrangement.nodup_apply (r := .show p) h.tidy.nodup fun hmem => hp (h.tidy.drawn p hmem)
  · exact OrderedSet.mem_insert.mpr ((hmem q hq).symm.imp_right (h.tidy.drawn q))
  · rw [helement]
    split_ifs
    · rfl
    · exact h.tidy.live q ((OrderedSet.mem_insert.mp hq).resolve_left (Ne.symm ‹_›))
  · rcases hmem q hq with hq | hqp <;> rcases hmem q' hq' with hq' | hqp'
    · rw [hold q hq, hold q' hq'] at huuid
      exact h.tidy.uuids q hq q' hq' huuid
    · exact absurd (huuid.trans (hqp' ▸ hnew)) (hdrawn q hq)
    · exact absurd (huuid.symm.trans (hqp ▸ hnew)) (hdrawn q' hq')
    · exact hqp.trans hqp'.symm
  · have hshown : (page.playShow p e).drawnUuids = page.drawnUuids ++ [e.objUuid] := by
      show (page.drawingElements ++ [p]).filterMap (page.playShow p e).uuidOf = _
      rw [List.filterMap_append, List.filterMap_cons_some hnew, List.filterMap_nil,
        List.filterMap_congr hold]
      rfl
    rw [← h.drawnPage_eq, drawnPage, hshown]
    rfl

/-! ## Loading -/

variable {env : Surroundings} {loaded : Page} {bytes : Bytes}

/-- A page that is loaded draws the elements of its data. -/
lemma drawnUuids_of_setMsgPackData (hinjective : Function.Injective env.address)
    (hload : page.setMsgPackData env bytes = .ok loaded) :
    loaded.drawnUuids = (dataElements env bytes).map (·.objUuid) := by
  obtain ⟨-, hholds⟩ := of_setMsgPackData hinjective hload
  have hdrawing : loaded.drawingElements =
      (List.range (dataElements env bytes).length).map fun i => env.address [i] := hholds.drawing
  have huuids : loaded.drawingElements.map loaded.uuidOf =
      (dataElements env bytes).map fun e => some e.objUuid := by
    rw [hdrawing, List.map_map]
    refine List.ext_getElem? fun i => ?_
    rw [List.getElem?_map, List.getElem?_map]
    by_cases hi : i < (dataElements env bytes).length
    · rw [List.getElem?_range hi, List.getElem?_eq_getElem hi, Option.map_some, Option.map_some]
      exact congrArg some (hholds.uuidOf (List.getElem?_eq_getElem hi))
    · rw [List.getElem?_eq_none (by rw [List.length_range]; omega), List.getElem?_eq_none (by omega)]
      rfl
  have hdrawn : loaded.drawnUuids = (loaded.drawingElements.map loaded.uuidOf).filterMap id := by
    rw [List.filterMap_map]
    rfl
  rw [hdrawn, huuids, List.filterMap_map]
  exact congrFun List.filterMap_eq_map _

/-- The bodies of the records of elements. -/
lemma bodies_records (type : Int32) (es : List Element) : bodies type (es.flatMap recordObjects) =
    es.map fun e => (e.getType.toInt, e.getMsgPackData) := by
  induction es generalizing type with
  | nil => rfl
  | cons e es ih =>
    obtain ⟨n, hobj, -, htype, hne⟩ := toObj_elementType e.getType
    rw [List.flatMap_cons, recordObjects, hobj]
    simp only [List.cons_append, List.nil_append, bodies, htype, if_pos hne, ih, List.map_cons]

/-- A loop over the records of elements that ends has created them all, with their uuids. -/
lemma map_objUuid_loadedElements {quuid : Bytes → Bytes} {address : Nat → Pointer} {fuel : Nat}
    {records : List Element} (hrecords : ∀ e ∈ records, e.getMsgPackData.length < 2 ^ 32)
    {s s' : PageLoad} (hloop : (records.flatMap recordObjects).foldlM
      (PageLoad.next quuid address fun i => Element.createFromType env fuel [i]) s = .ok s') :
    (loadedElements (fun i => Element.createFromType env fuel [i]) s.created
      (records.map fun e => (e.getType.toInt, e.getMsgPackData))).map (·.objUuid) =
        records.map (·.objUuid) := by
  induction records generalizing s with
  | nil => rfl
  | cons e records ih =>
    obtain ⟨hlength, hrecords⟩ := List.forall_mem_cons.mp hrecords
    have hne : e.getType.toInt ≠ 0 := (toObj_elementType e.getType).choose_spec.2.2.2
    rw [List.flatMap_cons, recordObjects, List.cons_append, List.cons_append, List.nil_append,
      PageLoad.foldlM_cons_of_ok (PageLoad.next_type s e.getType), List.foldlM_cons] at hloop
    simp only [PageLoad.next, if_neg hne] at hloop
    cases hcreate : Element.createFromType env fuel [s.created] e.getType.toInt e.getMsgPackData with
    | error fault =>
      rw [hcreate] at hloop
      cases hloop
    | ok r =>
      obtain ⟨e', rfl, -, huuid, -⟩ := Element.alike_of_createFromType hlength hcreate
      rw [hcreate] at hloop
      dsimp only at hloop
      cases hadd : PageLoad.add { s with type := e.getType.toInt } (address s.created) (some e') with
      | error fault =>
        rw [hadd] at hloop
        cases hloop
      | ok mid =>
        rw [hadd] at hloop
        have hcreated : mid.created = s.created + 1 := by
          obtain ⟨page, -, rfl⟩ := map_eq_ok.mp hadd
          rfl
        have hothers := ih hrecords hloop
        rw [hcreated] at hothers
        rw [List.map_cons, loadedElements]
        simp only [hcreate, List.map_cons, huuid, hothers]

/-- A page that has loaded the data of another one draws the same uuids. -/
lemma drawnUuids_of_load (hinjective : Function.Injective env.address) (hlength : page.data.length < 2 ^ 32)
    (hload : page'.setMsgPackData env page.data = .ok loaded) : loaded.drawnUuids = page.drawnUuids := by
  obtain ⟨s', hloop⟩ : ∃ s', page.objects.foldlM (PageLoad.next env.quuid (fun i => env.address [i])
      fun i => Element.createFromType env page.data.length [i]) ⟨page'.clearAll, false, false, 0, 0⟩ =
        .ok s' := by
    unfold setMsgPackData loadWith at hload
    rw [unpackAll_data hlength] at hload
    split at hload
    · cases hload
    · rename_i s' hloop
      exact ⟨s', hloop⟩
  rw [foldlM_objects page' hlength] at hloop
  have hdata : dataElements env page.data = loadedElements
      (fun i => Element.createFromType env page.data.length [i]) 0
        (page.shown.map fun e => (e.getType.toInt, e.getMsgPackData)) := by
    rw [dataElements, unpackAll_data hlength, objects]
    simp only [bodies, ne_eq, not_true_eq_false, if_false, bodies_records]
  rw [drawnUuids_of_setMsgPackData hinjective hload, hdata,
    map_objUuid_loadedElements (fun e he => length_record_lt hlength he) hloop, drawnUuids, shown,
    List.map_filterMap]
  rfl

/-- A page that has loaded the data of a settled one presents it. -/
lemma presents_of_load (hinjective : Function.Injective env.address) (hlength : page.data.length < 2 ^ 32)
    (hpage : page.Settled) (huuid : env.quuid page.uuid = page.uuid)
    (hload : page'.setMsgPackData env page.data = .ok loaded) : loaded.Presents page.drawnPage := by
  have haddress : Function.Injective fun i => env.address [i] := fun i j hij =>
    (List.cons.inj (hinjective hij)).1
  have hdrawn := drawnUuids_of_load hinjective hlength hload
  obtain ⟨-, -, -, hsettled⟩ := setMsgPackData_spec haddress hload
  have hdifferent : DifferentUuids env page.data := by
    rw [DifferentUuids, ← drawnUuids_of_setMsgPackData hinjective hload, hdrawn]
    exact hpage.nodup_drawnUuids
  refine ⟨(hsettled hdifferent).tidy, ?_⟩
  have hown := (of_setMsgPackData hinjective hload).1
  rw [header_data env.quuid page' hlength, huuid] at hown
  rw [drawnPage, drawnPage, hdrawn, uuid_of_own hown]

/-- A page with nothing highlighted presents the same when it is locked. -/
lemma Presents.setEnable (h : page.Presents v) (hhighlight : page.highlightElement = none)
    (enable : Bool) : (page.setEnable enable).Presents v := by
  have hsame : page.setEnable enable = { page with disableDraw := !enable } := by
    simp only [Page.setEnable, deHighlightElement, hhighlight]
  rw [hsame]
  exact h.similar ⟨fun _ => rfl, rfl, rfl, rfl, rfl⟩ rfl

end Page

end Liangshi
