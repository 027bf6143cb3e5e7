import Liangshi.Board.InitState
import Liangshi.Board.SavedPages

/-!
# State elements and their sources

A state element names its source by uuid.  Loading looks for the source among the elements that came
before and follows a null pointer unless there is one of its class; the source is not painted any more.
`Anchored` lists have the source of every state element before it, and nothing else there with its uuid.
Their records load, and exactly the elements that a later one refers to are left unpainted (`marked`).
-/

namespace Liangshi

open Wire MessagePack Ordered

/-- The uuid of the source of a state element. -/
def ElementBody.sourceUuid : ElementBody → Option Bytes
  | .banState _ _ _ uuid | .imageState _ _ _ uuid => some uuid
  | _ => none

namespace Element

/-- A plain element is the state of no other one. -/
lemma Plain.sourceUuid {e : Element} (h : e.Plain) : e.body.sourceUuid = none := by
  have hstate := h.isState
  cases hbody : e.body with
  | banState | imageState =>
    rw [hbody] at hstate
    cases hstate
  | _ => rfl

/-- Whether an element is the state of another one. -/
def refersTo (s e : Element) : Bool := s.body.sourceUuid == some e.objUuid

/-- The source of a state element is in a list, is of its class, and is alone with its uuid there. -/
def AnchoredIn (before : List Element) (s : Element) : Prop :=
  ∀ uuid, s.body.sourceUuid = some uuid → ∃ (j : Nat) (source : Element),
    before[j]? = some source ∧ source.objUuid = uuid ∧ s.body.isStateOf source.body ∧
      ∀ (k : Nat) (e : Element), before[k]? = some e → e.objUuid = uuid → k = j

/-- What makes elements sources and states of the same ones. -/
structure SameSource (e e' : Element) : Prop where
  objUuid : e'.objUuid = e.objUuid
  sourceUuid : e'.body.sourceUuid = e.body.sourceUuid
  getType : e'.body.getType = e.body.getType

end Element

/-- Every state element of a list comes after its source. -/
def Anchored (es : List Element) : Prop :=
  ∀ (i : Nat) (s : Element), es[i]? = some s → s.AnchoredIn (es.take i)

/-- Whether an element is the state of another one is a matter of their classes. -/
lemma ElementBody.isStateOf_congr {body body' source source' : ElementBody}
    (h : body'.getType = body.getType) (hsource : source'.getType = source.getType) :
    body'.isStateOf source' = body.isStateOf source := by
  have hban : source'.isBan = source.isBan := by
    cases source <;> cases source' <;> first | rfl | cases hsource
  have himage : source'.isImage = source.isImage := by
    cases source <;> cases source' <;> first | rfl | cases hsource
  cases body <;> cases body' <;> first | exact hban | exact himage | rfl | cases h

/-- Elements with the same sources are anchored in the same way. -/
lemma Element.AnchoredIn.congr {before before' : List Element} {s s' : Element}
    (h : s.AnchoredIn before) (hbefore : List.Forall₂ Element.SameSource before before')
    (hs : s.SameSource s') : s'.AnchoredIn before' := by
  intro uuid huuid
  obtain ⟨hlength, hget⟩ := List.forall₂_iff_get.mp hbefore
  obtain ⟨j, source, hj, hsource, hclass, halone⟩ := h uuid (hs.sourceUuid.symm.trans huuid)
  obtain ⟨hlt, rfl⟩ := List.getElem?_eq_some_iff.mp hj
  have hsame := hget j hlt (hlength ▸ hlt)
  refine ⟨j, before'[j], List.getElem?_eq_getElem _, hsame.objUuid.trans hsource, ?_, ?_⟩
  · exact (ElementBody.isStateOf_congr hs.getType hsame.getType).trans hclass
  · intro k e hk he
    obtain ⟨hlt', rfl⟩ := List.getElem?_eq_some_iff.mp hk
    have hsame' := hget k (hlength ▸ hlt') hlt'
    exact halone k before[k] (List.getElem?_eq_getElem _) (hsame'.objUuid.symm.trans he)

/-- Elements with the same sources are anchored alike. -/
lemma Anchored.congr {es es' : List Element} (h : Anchored es)
    (hall : List.Forall₂ Element.SameSource es es') : Anchored es' := by
  intro i s' hs'
  obtain ⟨hlength, hget⟩ := List.forall₂_iff_get.mp hall
  obtain ⟨hlt, rfl⟩ := List.getElem?_eq_some_iff.mp hs'
  have hlt' : i < es.length := hlength ▸ hlt
  exact (h i es[i] (List.getElem?_eq_getElem _)).congr (List.forall₂_take i hall) (hget i hlt' hlt)

/-- The elements of a list, with those unpainted that a later one is the state of. -/
def marked : List Element → List Element
  | [] => []
  | e :: es => (if es.any (·.refersTo e) then e.setCanPaint false else e) :: marked es

/-- Marking the sources leaves the number of elements. -/
@[simp] lemma length_marked (es : List Element) : (marked es).length = es.length := by
  induction es with
  | nil => rfl
  | cons e es ih => rw [marked, List.length_cons, List.length_cons, ih]

/-- One more element leaves those unpainted that it is the state of. -/
lemma marked_concat (es : List Element) (s : Element) : marked (es ++ [s]) =
    (marked es).map (fun e => if s.refersTo e then e.setCanPaint false else e) ++ [s] := by
  induction es with
  | nil => rfl
  | cons e es ih =>
    have hany : (es ++ [s]).any (·.refersTo e) = (es.any (·.refersTo e) || s.refersTo e) := by simp
    rw [List.cons_append, marked, marked, List.map_cons, List.cons_append, ih, hany]
    congr 1
    by_cases hlater : es.any (·.refersTo e) <;> by_cases hs : s.refersTo e <;>
      simp [hlater, hs, Element.setCanPaint]

/-- An element of a marked list differs in its flags alone. -/
lemma exists_of_mem_marked {es : List Element} {e : Element} (h : e ∈ marked es) :
    ∃ d ∈ es, e = d ∨ e = d.setCanPaint false := by
  induction es with
  | nil => cases h
  | cons d es ih =>
    rcases List.mem_cons.mp h with rfl | h
    · refine ⟨d, List.mem_cons_self, ?_⟩
      split_ifs
      · exact .inr rfl
      · exact .inl rfl
    · obtain ⟨d', hd', heq⟩ := ih h
      exact ⟨d', List.mem_cons_of_mem _ hd', heq⟩

/-- A relation that does not look at the flags holds of the marked elements. -/
lemma forall₂_marked {R : Element → Element → Prop} (hR : ∀ e d, R e d → R e (d.setCanPaint false))
    {es ds : List Element} (h : List.Forall₂ R es ds) : List.Forall₂ R es (marked ds) := by
  induction h with
  | nil => exact .nil
  | cons hfirst _ ih =>
    refine .cons ?_ ih
    split_ifs
    · exact hR _ _ hfirst
    · exact hfirst

/-- What does not look at the flags is the same of the marked elements. -/
lemma map_marked {β : Type} {f : Element → β} (hf : ∀ e, f (e.setCanPaint false) = f e)
    (es : List Element) : (marked es).map f = es.map f := by
  induction es with
  | nil => rfl
  | cons e es ih =>
    rw [marked, List.map_cons, List.map_cons, ih]
    congr 1
    split_ifs
    · exact hf e
    · rfl

/-- What does not look at the paint does not see the marks. -/
lemma any_marked {f : Element → Bool} (hf : ∀ e, f (e.setCanPaint false) = f e)
    (es : List Element) : (marked es).any f = es.any f := by
  have hany : ∀ es : List Element, es.any f = (es.map f).any id := fun es => by
    rw [List.any_map]
    rfl
  rw [hany, hany, map_marked hf]

/-- A marked element is painted exactly when no later one is its state. -/
lemma canPaint_of_marked {es : List Element} (hes : ∀ e ∈ es, e.canPaint = true ∧ e.canPreview = true)
    {i : Nat} {e : Element} (hi : (marked es)[i]? = some e) :
    e.canPaint = !((marked es).drop (i + 1)).any (·.refersTo e) ∧ e.canPreview = e.canPaint := by
  induction es generalizing i with
  | nil => cases hi
  | cons d es ih =>
    obtain ⟨⟨hpaint, hpreview⟩, hothers⟩ := List.forall_mem_cons.mp hes
    cases i with
    | zero =>
      obtain rfl : (if es.any (·.refersTo d) then d.setCanPaint false else d) = e :=
        Option.some.inj hi
      have hany : ∀ f : Element, f.objUuid = d.objUuid →
          (marked es).any (·.refersTo f) = es.any (·.refersTo d) := by
        intro f hf
        have hrefers : ∀ s : Element, s.refersTo f = s.refersTo d := fun s => by
          rw [Element.refersTo, Element.refersTo, hf]
        rw [any_marked fun _ => rfl]
        simp only [hrefers]
      show _ = !(marked es).any _ ∧ _
      rw [hany _ (by split_ifs <;> rfl)]
      by_cases hlater : es.any (·.refersTo d) = true
      · rw [if_pos hlater, hlater]
        exact ⟨rfl, rfl⟩
      · rw [if_neg hlater, hpaint, hpreview, Bool.eq_false_iff.mpr hlater]
        exact ⟨rfl, rfl⟩
    | succ i => exact ih hothers hi

/-- Without state elements nothing is left unpainted. -/
lemma marked_eq_self {es : List Element} (h : ∀ s ∈ es, s.body.sourceUuid = none) :
    marked es = es := by
  induction es with
  | nil => rfl
  | cons e es ih =>
    obtain ⟨-, hothers⟩ := List.forall_mem_cons.mp h
    have hany : es.any (·.refersTo e) = false := by
      rw [List.any_eq_false]
      intro s hs
      rw [Element.refersTo, hothers s hs]
      exact Bool.false_ne_true
    rw [marked, hany, ih hothers]
    rfl

/-- Elements that are states of no other one are anchored. -/
lemma anchored_of_forall {es : List Element} (h : ∀ s ∈ es, s.body.sourceUuid = none) :
    Anchored es := by
  intro i s hs uuid huuid
  rw [h s (List.mem_of_getElem? hs)] at huuid
  cases huuid

/-- Linking a state element to its source, by the uuid. -/
lemma Page.link_eq_linkState (page : Page) (e : Element) : page.link e =
    match e.body.sourceUuid with
    | some uuid => page.linkState uuid e.body.isStateOf
    | none => .ok page := by
  unfold Page.link
  cases e.body <;> rfl

namespace PageLoad

/-- The page has the given elements at the addresses of their places, and those that a later one is the
state of are not painted. -/
structure Marked (address : Nat → Pointer) (s : PageLoad) (es : List Element) : Prop where
  holds : s.Holds address es
  elements : s.page.drawingElements.map s.page.element = (marked es).map some

variable {address : Nat → Pointer} {s s' : PageLoad} {es : List Element}

/-- What a page with marked elements shows. -/
lemma Marked.shown (h : s.Marked address es) : s.page.shown = marked es := by
  have hmap : s.page.shown = (s.page.drawingElements.map s.page.element).filterMap id := by
    rw [List.filterMap_map]
    rfl
  rw [hmap, h.elements, List.filterMap_map]
  exact List.filterMap_some

/-- Nothing is on the page that it does not draw. -/
lemma Marked.mem_all (h : s.Marked address es) (p : Pointer) :
    p ∈ s.page.allElements ↔ p ∈ s.page.drawingElements := by
  rw [h.holds.mem_all, h.holds.drawing, List.mem_map]
  simp only [List.mem_range]

/-- The source of a state element is found and left unpainted. -/
lemma Marked.linkState (h : s.Marked address es) {state : Element}
    (hanchored : state.AnchoredIn es) {uuid : Bytes} (huuid : state.body.sourceUuid = some uuid) :
    ∃ page, s.page.linkState uuid state.body.isStateOf = .ok page ∧
      page.drawingElements.map page.element = (marked es).map fun e =>
        some (if state.refersTo e then e.setCanPaint false else e) := by
  obtain ⟨j, source, hj, hsource, hclass, halone⟩ := hanchored uuid huuid
  have hat : ∀ p ∈ s.page.allElements, s.page.hasUuid uuid p → p = address j := by
    intro p hp hhas
    obtain ⟨k, hk, rfl⟩ := (h.holds.mem_all p).mp hp
    have hget : es[k]? = some es[k] := List.getElem?_eq_getElem hk
    rw [halone k es[k] hget ((h.holds.hasUuid_iff hget uuid).mp hhas)]
  have hthere : s.page.hasUuid uuid (address j) := (h.holds.hasUuid_iff hj uuid).mpr hsource
  have hmem : address j ∈ s.page.allElements :=
    (h.holds.mem_all _).mpr ⟨j, (List.getElem?_eq_some_iff.mp hj).1, rfl⟩
  have hfind : s.page.findElementByUuid uuid = some (address j) := by
    cases hfind : s.page.findElementByUuid uuid with
    | none => exact absurd hthere (List.find?_eq_none.mp hfind _ hmem)
    | some p =>
      obtain ⟨hpmem, hpuuid⟩ := Page.of_findElementByUuid hfind
      rw [hat p hpmem hpuuid]
  obtain ⟨e, he, -, hbody⟩ := h.holds.elements j source hj
  have hisOfClass : ((s.page.element (address j)).any fun e => state.body.isStateOf e.body) = true := by
    rw [he, Option.any_some, hbody, hclass]
  refine ⟨s.page.modify (address j) (·.setCanPaint false), ?_, ?_⟩
  · simp only [Page.linkState, hfind, hisOfClass, if_true]
  · have huuids : ∀ d : Element, (d.setCanPaint false).objUuid = d.objUuid := fun _ => rfl
    have hdrawing := (Page.similar_modify s.page (address j) huuids).drawingElements_eq
    have hmap : ∀ p ∈ s.page.drawingElements,
        (s.page.modify (address j) (·.setCanPaint false)).element p = (s.page.element p).map fun e =>
          if state.refersTo e then e.setCanPaint false else e := by
      intro p hp
      have hpmem : p ∈ s.page.allElements := by
        rw [h.holds.drawing] at hp
        obtain ⟨i, hi, rfl⟩ := List.mem_map.mp hp
        exact (h.holds.mem_all _).mpr ⟨i, List.mem_range.mp hi, rfl⟩
      have hrefers : ∀ d : Element, state.refersTo d = (d.objUuid == uuid) := fun d => by
        rw [Element.refersTo, huuid]
        exact Bool.beq_comm
      unfold Page.modify
      rw [he]
      simp only [Page.element_setElement]
      by_cases hpj : address j = p
      · rw [if_pos hpj, ← hpj, he, Option.map_some, hrefers,
          show (e.objUuid == uuid) = true by simpa [Page.hasUuid, he] using hthere, if_pos rfl]
      · rw [if_neg hpj]
        cases hpe : s.page.element p with
        | none => rfl
        | some d =>
          have hnot : ¬ (d.objUuid == uuid) = true := fun heq => hpj
            (hat p hpmem (by rw [Page.hasUuid, hpe, Option.any_some, heq])).symm
          rw [Option.map_some, hrefers, if_neg hnot]
    rw [hdrawing, List.map_congr_left hmap]
    have hsplit : s.page.drawingElements.map (fun p => (s.page.element p).map fun e =>
        if state.refersTo e then e.setCanPaint false else e) =
          (s.page.drawingElements.map s.page.element).map (Option.map fun e =>
            if state.refersTo e then e.setCanPaint false else e) := by
      rw [List.map_map]
      rfl
    rw [hsplit, h.elements, List.map_map]
    rfl

/-- An element that is no state, or the state of one before it, is put on the page. -/
lemma Marked.add (h : s.Marked address es) (hinjective : Function.Injective address) {e : Element}
    (hanchored : e.AnchoredIn es) :
    ∃ s', s.add (address s.created) (some e) = .ok s' ∧ s'.Marked address (es ++ [e]) ∧
      s'.type = s.type := by
  obtain ⟨page, hlink, helements⟩ : ∃ page, s.page.link e = .ok page ∧
      page.drawingElements.map page.element = (marked es).map fun d =>
        some (if e.refersTo d then d.setCanPaint false else d) := by
    rw [Page.link_eq_linkState]
    cases hsource : e.body.sourceUuid with
    | some uuid => exact h.linkState hanchored hsource
    | none =>
      refine ⟨s.page, rfl, h.elements.trans (List.map_congr_left fun d _ => ?_)⟩
      rw [Element.refersTo, hsource]
      rfl
  have hadd : s.add (address s.created) (some e) =
      .ok { s with page := page.append (address s.created) e, created := s.created + 1 } := by
    simp only [PageLoad.add, hlink]
    rfl
  obtain ⟨hholds, htype, -⟩ := h.holds.add hinjective hadd
  refine ⟨_, hadd, ⟨hholds, ?_⟩, htype⟩
  have hdrawing : page.drawingElements = (List.range es.length).map address :=
    (similar_link hlink).1.drawingElements_eq.trans h.holds.drawing
  have hold : ∀ p ∈ page.drawingElements,
      (page.setElement (address s.created) e).element p = page.element p := by
    intro p hp
    rw [hdrawing] at hp
    obtain ⟨i, hi, rfl⟩ := List.mem_map.mp hp
    have hne : address s.created ≠ address i := fun heq => by
      have hcreated := hinjective heq
      rw [h.holds.created] at hcreated
      exact absurd (List.mem_range.mp hi) (by omega)
    rw [Page.element_setElement, if_neg hne]
  have hnew : (page.setElement (address s.created) e).element (address s.created) = some e := by
    rw [Page.element_setElement, if_pos rfl]
  show (page.drawingElements ++ [address s.created]).map
    (page.setElement (address s.created) e).element = _
  rw [List.map_append, List.map_congr_left hold, helements, marked_concat, List.map_append,
    List.map_map, List.map_singleton, List.map_singleton, hnew]
  rfl

/-- The loop over the records of elements that are anchored behind others puts what is created from
them on the page. -/
lemma Marked.foldlM_records (quuid : Bytes → Bytes) {create : ElementFactory}
    (hinjective : Function.Injective address) {R : Element → Element → Prop}
    (hR : ∀ e c, R e c → e.SameSource c) {before records : List Element}
    (h : s.Marked address es) (hbefore : List.Forall₂ R before es)
    (hanchored : Anchored (before ++ records)) (hrecords : ∀ e ∈ records, ∀ n, ∃ c,
      create n e.getType.toInt e.getMsgPackData = .ok (some c) ∧ R e c) :
    ∃ s' cs, (records.flatMap Page.recordObjects).foldlM (PageLoad.next quuid address create) s =
      .ok s' ∧ List.Forall₂ R records cs ∧ s'.Marked address (es ++ cs) := by
  induction records generalizing s es before with
  | nil => exact ⟨s, [], rfl, .nil, by rwa [List.append_nil]⟩
  | cons e records ih =>
    obtain ⟨hfirst, hothers⟩ := List.forall_mem_cons.mp hrecords
    obtain ⟨c, hcreate, hc⟩ := hfirst s.created
    have hplace : e.AnchoredIn before := by
      have hat := hanchored before.length e (by simp)
      rwa [List.take_left] at hat
    have hne : e.getType.toInt ≠ 0 := (Page.toObj_elementType e.getType).choose_spec.2.2.2
    have htyped : Marked address { s with type := e.getType.toInt } es :=
      ⟨h.holds.of_containers rfl (.refl _) rfl rfl, h.elements⟩
    obtain ⟨mid, hadd, hmid, -⟩ := htyped.add hinjective (hplace.congr (hbefore.imp hR) (hR e c hc))
    have hnext : PageLoad.next quuid address create { s with type := e.getType.toInt }
        (.raw e.getMsgPackData) = .ok mid := by
      simp only [PageLoad.next, if_neg hne, hcreate]
      exact hadd
    obtain ⟨s', cs, hloop, hall, hmarked⟩ := ih hmid (List.rel_append hbefore (.cons hc .nil))
      (by rwa [List.append_assoc]) hothers
    refine ⟨s', c :: cs, ?_, .cons hc hall, by rwa [List.append_assoc] at hmarked⟩
    rw [List.flatMap_cons, Page.recordObjects, List.cons_append, List.cons_append,
      List.nil_append, foldlM_cons_of_ok (next_type s e.getType), foldlM_cons_of_ok hnext, hloop]

end PageLoad

namespace Page

variable {page : Page}

/-- A page with elements that are anchored is loaded with what is created from their records. -/
lemma exists_loadWith (quuid : Bytes → Bytes) {address : Nat → Pointer} {create : ElementFactory}
    (page' : Page) (hinjective : Function.Injective address) {R : Element → Element → Prop}
    (hR : ∀ e c, R e c → e.SameSource c) (hlength : page.data.length < 2 ^ 32)
    (hanchored : Anchored page.shown) (hcreate : ∀ e ∈ page.shown, ∀ n, ∃ c,
      create n e.getType.toInt e.getMsgPackData = .ok (some c) ∧ R e c) :
    ∃ (s : PageLoad) (cs : List Element),
      page'.loadWith quuid address create page.data = .ok s.page ∧
        s.page.own = { page.own with uuid := quuid page.uuid } ∧ s.Marked address cs ∧
          List.Forall₂ R page.shown cs := by
  have hhead : PageLoad.Marked address ⟨{ page'.clearAll with
      uuid := quuid page.uuid
      zipCode := page.zipCode
      backgroundImage := page.backgroundImage }, true, true, 0, 0⟩ [] :=
    ⟨(holds_clearAll address page').of_containers rfl ⟨fun _ => rfl, rfl, rfl, rfl, rfl⟩ rfl rfl,
      rfl⟩
  obtain ⟨s, cs, hloop, hall, hmarked⟩ := hhead.foldlM_records quuid hinjective hR .nil
    (by rwa [List.nil_append]) hcreate
  rw [List.nil_append] at hmarked
  have hown := PageLoad.own_foldlM hloop
  rw [heads_records] at hown
  rw [← foldlM_objects page' hlength] at hloop
  refine ⟨s, cs, ?_, hown, hmarked, hall⟩
  rw [loadWith, unpackAll_data hlength, hloop]
  rfl

end Page

end Liangshi
