import Liangshi.Board.PageDecoding
import Liangshi.Board.SavedElements

/-!
# Pages that are saved and loaded

A page that loads the data of another one shows what that one shows (`shows_of_setMsgPackData`): its
uuid, its background, and elements that are alike in the same order.  It is asked of the other page that
everything on it is painted and that it has no states of elements, so that loading hides nothing.
-/

namespace Liangshi

open Wire MessagePack Ordered

/-- An element that is painted and is not the state of another one. -/
structure Element.Plain (e : Element) : Prop where
  canPaint : e.canPaint = true
  isState : e.body.isState = false

namespace Page

/-- The elements of the drawing. -/
def shown (page : Page) : List Element := page.drawingElements.filterMap page.element

/-- The elements of the drawing that are painted. -/
def visible (page : Page) : List Element := page.shown.filter (·.canPaint)

/-- A page with the uuid, the background and the visible elements of another one, in their order. -/
structure Shows (page page' : Page) : Prop where
  uuid : page'.uuid = page.uuid
  backgroundImage : page'.backgroundImage = page.backgroundImage
  visible : List.Forall₂ Element.Alike page.visible page'.visible

/-- Every element of a page has a property. -/
def Every (P : Element → Prop) (page : Page) : Prop := ∀ p e, page.element p = some e → P e

variable {page page' : Page}

/-- What holds of all elements holds of those that are shown. -/
lemma Every.shown {P : Element → Prop} (h : page.Every P) : ∀ e ∈ page.shown, P e := by
  intro e he
  obtain ⟨p, -, hp⟩ := List.mem_filterMap.mp he
  exact h p e hp

/-- Where everything is painted, the whole drawing is visible. -/
lemma visible_eq_shown (h : ∀ e ∈ page.shown, e.canPaint = true) : page.visible = page.shown :=
  List.filter_eq_self.mpr h

/-- A record of an element as the objects of the data. -/
def recordObjects (e : Element) : List Obj :=
  [Codec.int32.toObj e.getType.toInt, .raw e.getMsgPackData]

/-- The objects of the data of a page. -/
def objects (page : Page) : List Obj :=
  .raw page.uuid :: .raw page.thisObj.pack :: page.shown.flatMap recordObjects

/-- The data are the packed objects. -/
lemma data_eq (page : Page) : page.data = packAll page.objects := by
  have hobjects : page.drawingElements.flatMap page.elementObjects =
      page.shown.flatMap recordObjects := by
    unfold shown
    induction page.drawingElements with
    | nil => rfl
    | cons p ps ih =>
      rw [List.flatMap_cons, ih, elementObjects]
      cases hp : page.element p with
      | none => rw [List.filterMap_cons_none hp, List.nil_append]
      | some e =>
        rw [List.filterMap_cons_some hp, List.flatMap_cons]
        rfl
  rw [data, hobjects]
  rfl

/-- The type of an element is packed as an integer that is not zero and fits in an `int`. -/
lemma toObj_elementType (t : ElementType) :
    ∃ n : Nat, Codec.int32.toObj t.toInt = .posInt n ∧ n < 2 ^ 31 ∧ Int32.ofInt n = t.toInt ∧
      t.toInt ≠ 0 := by
  refine ⟨t.toInt.toInt.toNat, if_pos ?_, ?_⟩
  · cases t <;> decide
  · cases t <;> decide

/-- The data of a page is unpacked to its objects. -/
lemma unpackAll_data (h : page.data.length < 2 ^ 32) :
    unpackAll page.data = (page.objects, .finished) := by
  rw [data_eq] at h ⊢
  have hrecords : AllShallow embedStackSize (page.shown.flatMap recordObjects) := by
    rw [allShallow_iff]
    intro o ho
    obtain ⟨e, -, hmem⟩ := List.mem_flatMap.mp ho
    rcases List.mem_cons.mp hmem with rfl | hmem
    · exact shallow_ofInt (Int32.le_toInt _) (Int32.toInt_lt _)
    · obtain rfl := List.mem_singleton.mp hmem
      trivial
  have hshallow : AllShallow embedStackSize page.objects := ⟨trivial, trivial, hrecords⟩
  exact unpackAll_packAll (hshallow.packable h)

/-- A raw object of a list of objects is no longer than their encoding. -/
lemma length_le_of_raw_mem {objs : List Obj} {bytes : Bytes} (h : .raw bytes ∈ objs) :
    bytes.length ≤ (packAll objs).length := by
  induction objs with
  | nil => cases h
  | cons o objs ih =>
    rw [packAll, List.length_append]
    rcases List.mem_cons.mp h with rfl | h
    · rw [Obj.pack, List.length_append]
      omega
    · have hle := ih h
      omega

/-- The record of an element is no longer than the data. -/
lemma length_record_le {e : Element} (he : e ∈ page.shown) :
    e.getMsgPackData.length ≤ page.data.length := by
  rw [data_eq]
  refine length_le_of_raw_mem ?_
  have hmem : .raw e.getMsgPackData ∈ page.shown.flatMap recordObjects :=
    List.mem_flatMap.mpr ⟨e, he, by simp [recordObjects]⟩
  exact List.mem_cons_of_mem _ (List.mem_cons_of_mem _ hmem)

/-- The record of an element in the data is short enough. -/
lemma length_record_lt (h : page.data.length < 2 ^ 32) {e : Element} (he : e ∈ page.shown) :
    e.getMsgPackData.length < 2 ^ 32 :=
  (length_record_le he).trans_lt h

/-! ## Own data -/

/-- The records of elements are no heads. -/
lemma heads_records (type : Int32) (es : List Element) :
    heads type (es.flatMap recordObjects) = [] := by
  induction es generalizing type with
  | nil => rfl
  | cons e es ih =>
    obtain ⟨n, hobj, -, htype, hne⟩ := toObj_elementType e.getType
    rw [List.flatMap_cons, recordObjects, hobj]
    simp only [List.cons_append, List.nil_append, heads, htype, if_neg hne, ih]

/-- The record of a page converts to its own data. -/
lemma convertThis_thisObj (page page' : Page) : page'.convertThis page.thisObj =
    some { page' with zipCode := page.zipCode, backgroundImage := page.backgroundImage } := by
  simp [convertThis, thisObj]

/-- The record of a page is unpacked. -/
lemma unpackOne_thisObj (h : page.data.length < 2 ^ 32) :
    unpackOne page.thisObj.pack = some page.thisObj := by
  rw [data_eq] at h
  have hlength : page.thisObj.pack.length < 2 ^ 32 :=
    lt_of_le_of_lt (length_le_of_raw_mem (by simp [objects])) h
  have hshallow : page.thisObj.Shallow embedStackSize :=
    ⟨Nat.succ_pos _, AnimationAction.shallow_lokiBuffer _,
      ⟨Nat.succ_pos _, AnimationAction.shallow_lokiBuffer _, trivial⟩, trivial⟩
  have hunpack := unpackOne_pack (hshallow.packable hlength) []
  rwa [List.append_nil] at hunpack

/-- The own data that a page has after it has loaded the data of another one. -/
lemma header_data (quuid : Bytes → Bytes) (page' : Page) (h : page.data.length < 2 ^ 32) :
    page'.header quuid page.data = { page.own with uuid := quuid page.uuid } := by
  have hheads : heads 0 (unpackAll page.data).1 = [page.uuid, page.thisObj.pack] := by
    rw [unpackAll_data h]
    simp only [objects, heads, if_true, heads_records]
  rw [header, hheads]
  simp only [headed, unpackOne_thisObj h, Option.bind_some, convertThis_thisObj, Option.getD_some]
  rfl

/-! ## Elements -/

end Page

namespace PageLoad

/-- The page has the given elements, as they are, at the addresses of their places in its drawing. -/
structure Loaded (address : Nat → Pointer) (s : PageLoad) (es : List Element) : Prop where
  created : s.created = es.length
  drawing : s.page.drawingElements = (List.range es.length).map address
  elements : s.page.drawingElements.map s.page.element = es.map some

variable {address : Nat → Pointer} {s s' : PageLoad} {es : List Element}

/-- Nothing has been loaded on a page that has been cleared. -/
lemma loaded_clearAll (address : Nat → Pointer) (page : Page) :
    Loaded address ⟨page.clearAll, false, false, 0, 0⟩ [] := ⟨rfl, rfl, rfl⟩

/-- The drawing of a page with elements as they are. -/
lemma Loaded.shown (h : s.Loaded address es) : s.page.shown = es := by
  have hmap : s.page.shown = (s.page.drawingElements.map s.page.element).filterMap id := by
    rw [List.filterMap_map]
    rfl
  rw [hmap, h.elements, List.filterMap_map]
  exact List.filterMap_some

/-- An element that is no state is not linked to another one. -/
lemma link_eq {page : Page} {e : Element} (hstate : e.body.isState = false) :
    page.link e = .ok page := by
  unfold Page.link
  cases hbody : e.body <;> first | rfl | (rw [hbody] at hstate; cases hstate)

/-- An element that is no state is put on the page as it is. -/
lemma Loaded.add (h : s.Loaded address es) (hinjective : Function.Injective address) {e : Element}
    (hstate : e.body.isState = false) :
    ∃ s', s.add (address s.created) (some e) = .ok s' ∧ s'.Loaded address (es ++ [e]) ∧
      s'.type = s.type := by
  have hlink : s.page.link e = .ok s.page := link_eq hstate
  refine ⟨{ s with page := s.page.append (address s.created) e, created := s.created + 1 }, ?_,
    ⟨?_, ?_, ?_⟩, rfl⟩
  · simp only [PageLoad.add, hlink]
    rfl
  · simp [h.created]
  · show s.page.drawingElements ++ [address s.created] = _
    rw [h.drawing, h.created, List.length_append, List.length_singleton, List.range_succ,
      List.map_append]
    rfl
  · have hold : ∀ p ∈ s.page.drawingElements,
        (s.page.setElement (address s.created) e).element p = s.page.element p := by
      intro p hp
      rw [h.drawing] at hp
      obtain ⟨i, hi, rfl⟩ := List.mem_map.mp hp
      have hne : address s.created ≠ address i := fun heq => by
        have hcreated := hinjective heq
        rw [h.created] at hcreated
        exact absurd (List.mem_range.mp hi) (by omega)
      rw [Page.element_setElement, if_neg hne]
    have hnew : (s.page.setElement (address s.created) e).element (address s.created) = some e := by
      rw [Page.element_setElement, if_pos rfl]
    show (s.page.drawingElements ++ [address s.created]).map
      (s.page.setElement (address s.created) e).element = _
    rw [List.map_append, List.map_congr_left hold, h.elements, List.map_append, List.map_singleton,
      hnew]
    rfl

/-- Objects that are no records leave the elements alone. -/
lemma Loaded.of_eq (h : s.Loaded address es) (hcreated : s'.created = s.created)
    (hdrawing : s'.page.drawingElements = s.page.drawingElements)
    (helement : s'.page.element = s.page.element) : s'.Loaded address es :=
  ⟨hcreated.trans h.created, hdrawing.trans h.drawing, by rw [hdrawing, helement, h.elements]⟩

variable {quuid : Bytes → Bytes} {create : ElementFactory}

/-- What is created from the record of an element is alike and painted. -/
def Recreates (create : ElementFactory) (e : Element) : Prop :=
  ∀ n r, create n e.getType.toInt e.getMsgPackData = .ok r →
    ∃ e', r = some e' ∧ e.Alike e' ∧ e'.canPaint = true

/-- A turn of the loop that ends leaves the others to it. -/
lemma foldlM_cons_of_ok {f : PageLoad → Obj → Except LoadFault PageLoad} {object : Obj}
    {objs : List Obj} (h : f s object = .ok s') : (object :: objs).foldlM f s = objs.foldlM f s' := by
  rw [List.foldlM_cons, h]
  rfl

/-- One turn of the loop over the uuid. -/
lemma next_uuid {bytes : Bytes} (htype : s.type = 0) (hgetUuid : s.getUuid = false) :
    s.next quuid address create (.raw bytes) = .ok (s.setUuid (quuid bytes)) := by
  simp [PageLoad.next, htype, hgetUuid]

/-- One turn of the loop over the record of the page. -/
lemma next_this {bytes : Bytes} (htype : s.type = 0) (hgetUuid : s.getUuid = true)
    (hgetThis : s.getThis = false) : s.next quuid address create (.raw bytes) = s.setThis bytes := by
  simp [PageLoad.next, htype, hgetUuid, hgetThis]

/-- One turn of the loop over a type. -/
lemma next_type (s : PageLoad) (t : ElementType) :
    s.next quuid address create (Codec.int32.toObj t.toInt) = .ok { s with type := t.toInt } := by
  obtain ⟨n, hobj, hlt, htype, -⟩ := Page.toObj_elementType t
  rw [hobj]
  simp only [PageLoad.next, Codec.int32_convert_posInt, hlt, if_true, htype]

/-- Elements of one class are states or not. -/
lemma isState_of_alike {e e' : Element} (h : e.Alike e') : e'.body.isState = e.body.isState := by
  have htype : e'.body.getType = e.body.getType := h.getType
  cases hbody : e.body <;> cases hbody' : e'.body <;>
    first | rfl | (rw [hbody, hbody'] at htype; cases htype)

/-- The loop over the records of elements puts elements that are alike on the page. -/
lemma Loaded.foldlM_records (hinjective : Function.Injective address) {records : List Element}
    (hrecords : ∀ e ∈ records, e.body.isState = false ∧ Recreates create e)
    (h : s.Loaded address es)
    (hloop : (records.flatMap Page.recordObjects).foldlM (PageLoad.next quuid address create) s =
      .ok s') :
    ∃ es', List.Forall₂ (fun e e' => e.Alike e' ∧ e'.canPaint = true) records es' ∧
      s'.Loaded address (es ++ es') := by
  induction records generalizing s es with
  | nil =>
    cases hloop
    exact ⟨[], .nil, by rwa [List.append_nil]⟩
  | cons e records ih =>
    obtain ⟨⟨hstate, hrecreates⟩, hothers⟩ := List.forall_mem_cons.mp hrecords
    have hne : e.getType.toInt ≠ 0 := (Page.toObj_elementType e.getType).choose_spec.2.2.2
    rw [List.flatMap_cons, Page.recordObjects, List.cons_append, List.cons_append,
      List.nil_append, foldlM_cons_of_ok (next_type s e.getType), List.foldlM_cons] at hloop
    simp only [PageLoad.next, if_neg hne] at hloop
    cases hcreate : create s.created e.getType.toInt e.getMsgPackData with
    | error fault => rw [hcreate] at hloop; cases hloop
    | ok r =>
      obtain ⟨e', rfl, halike, hpaint⟩ := hrecreates _ r hcreate
      have htyped : Loaded address { s with type := e.getType.toInt } es := h.of_eq rfl rfl rfl
      obtain ⟨mid, hadd, hmid, -⟩ := htyped.add hinjective (e := e')
        ((isState_of_alike halike).trans hstate)
      rw [hcreate] at hloop
      simp only at hloop hadd
      rw [hadd] at hloop
      obtain ⟨es', hall, hloaded⟩ := ih hothers hmid hloop
      exact ⟨e' :: es', .cons ⟨halike, hpaint⟩ hall, by rwa [List.append_assoc] at hloaded⟩

end PageLoad

namespace Page

variable {env : Surroundings} {page page' loaded : Page}

/-- The turns of the loop over the head of the data of a page. -/
lemma foldlM_objects {quuid : Bytes → Bytes} {address : Nat → Pointer} {create : ElementFactory}
    (page' : Page) (h : page.data.length < 2 ^ 32) :
    page.objects.foldlM (PageLoad.next quuid address create) ⟨page'.clearAll, false, false, 0, 0⟩ =
      (page.shown.flatMap recordObjects).foldlM (PageLoad.next quuid address create)
        ⟨{ page'.clearAll with
          uuid := quuid page.uuid
          zipCode := page.zipCode
          backgroundImage := page.backgroundImage }, true, true, 0, 0⟩ := by
  let first : PageLoad := ⟨page'.clearAll, false, false, 0, 0⟩
  have hthis : (first.setUuid (quuid page.uuid)).setThis page.thisObj.pack = .ok
      ⟨{ page'.clearAll with
        uuid := quuid page.uuid
        zipCode := page.zipCode
        backgroundImage := page.backgroundImage }, true, true, 0, 0⟩ := by
    simp only [PageLoad.setThis, unpackOne_thisObj h, convertThis_thisObj, first, PageLoad.setUuid]
  rw [objects, PageLoad.foldlM_cons_of_ok (PageLoad.next_uuid rfl rfl),
    PageLoad.foldlM_cons_of_ok ((PageLoad.next_this rfl rfl rfl).trans hthis)]

/-- The head of the data of a page puts no elements on the page that loads it. -/
lemma loaded_head {address : Nat → Pointer} {create : ElementFactory} {s' : PageLoad}
    (h : page.data.length < 2 ^ 32)
    (hloop : page.objects.foldlM (PageLoad.next env.quuid address create)
      ⟨page'.clearAll, false, false, 0, 0⟩ = .ok s') :
    ∃ s, PageLoad.Loaded address s [] ∧
      (page.shown.flatMap recordObjects).foldlM (PageLoad.next env.quuid address create) s =
        .ok s' := by
  rw [foldlM_objects page' h] at hloop
  refine ⟨_, ?_, hloop⟩
  exact (PageLoad.loaded_clearAll address page').of_eq rfl rfl rfl

/-- A page that loads the data of another one shows what that one shows. -/
theorem shows_of_setMsgPackData (hinjective : Function.Injective env.address)
    (hlength : page.data.length < 2 ^ 32) (hplain : ∀ e ∈ page.shown, e.Plain)
    (huuid : env.quuid page.uuid = page.uuid)
    (hload : page'.setMsgPackData env page.data = .ok loaded) : page.Shows loaded := by
  obtain ⟨hown, -⟩ := of_setMsgPackData hinjective hload
  rw [header_data env.quuid page' hlength, huuid] at hown
  have haddress : Function.Injective fun i => env.address [i] := fun i j hij =>
    (List.cons.inj (hinjective hij)).1
  obtain ⟨s', hloop, rfl⟩ : ∃ s' : PageLoad, page.objects.foldlM (PageLoad.next env.quuid
      (fun i => env.address [i]) fun i => Element.createFromType env page.data.length [i])
        ⟨page'.clearAll, false, false, 0, 0⟩ = .ok s' ∧ s'.page = loaded := by
    unfold setMsgPackData loadWith at hload
    rw [unpackAll_data hlength] at hload
    split at hload
    · cases hload
    · rename_i s' hloop
      rw [if_neg (by simp)] at hload
      exact ⟨s', hloop, Except.ok.inj hload⟩
  obtain ⟨s, hhead, hrecords⟩ := loaded_head hlength hloop
  obtain ⟨es, hall, hloaded⟩ := hhead.foldlM_records haddress (fun e he =>
    ⟨(hplain e he).isState, fun n r hcreate => by
      obtain ⟨e', hr, halike, -, hpaint⟩ :=
        Element.alike_of_createFromType (length_record_lt hlength he) hcreate
      exact ⟨e', hr, halike, hpaint⟩⟩) hrecords
  have hshown : s'.page.shown = es := by
    rw [hloaded.shown, List.nil_append]
  have huuid' : s'.page.own.uuid = page.uuid := by rw [hown]
  have hbackground : s'.page.own.backgroundImage = page.backgroundImage := by rw [hown]; rfl
  refine ⟨huuid', hbackground, ?_⟩
  rw [visible_eq_shown fun e he => (hplain e he).canPaint, visible_eq_shown, hshown]
  · exact hall.imp fun _ _ h => h.1
  · intro e he
    rw [hshown] at he
    obtain ⟨i, hi, rfl⟩ := List.getElem_of_mem he
    exact (List.forall₂_iff_get.mp hall).2 i (hall.length_eq ▸ hi) hi |>.2

end Page

end Liangshi
