import Liangshi.Board.PageSoundness

/-!
# Pages that decode

Loading takes more data than the data of pages: data that breaks off, data without the uuid or the
record of a page, and records of a known type that convert to no element, which are skipped.  Here is
what a page is after such data: its own data are those of the data's head, and its elements are those
that could be created.
-/

namespace Liangshi

open Wire MessagePack Ordered

/-! ## The page's own data -/

namespace Page

/-- The uuid, the zip code and the background of a page, on a page that has nothing else. -/
def own (page : Page) : Page :=
  { Page.new page.uuid with zipCode := page.zipCode, backgroundImage := page.backgroundImage }

/-- What heads make of a page: the first one is its uuid, the second one its record. -/
def headed (quuid : Bytes → Bytes) : Bool → Bool → Page → List Bytes → Page
  | false, getThis, page, head :: heads =>
    headed quuid true getThis { page with uuid := quuid head } heads
  | true, false, page, head :: _ => ((unpackOne head).bind page.convertThis).getD page
  | _, _, page, _ => page

/-- The own data of a page after it has loaded. -/
def header (quuid : Bytes → Bytes) (page : Page) (bytes : Bytes) : Page :=
  headed quuid false false page.own (heads 0 (unpackAll bytes).1)

/-- Converting the record of a page is about its own data. -/
lemma own_convertThis (page : Page) (o : Obj) :
    (page.convertThis o).map own = page.own.convertThis o := by
  unfold convertThis
  cases Codec.items o with
  | none => rfl
  | some objs =>
    have hzip : page.own.zipCode = page.zipCode := rfl
    have hbackground : page.own.backgroundImage = page.backgroundImage := rfl
    simp only [Option.bind_eq_bind, Option.bind_some, hzip, hbackground]
    cases LokiBuffer.codec.field objs 0 page.zipCode with
    | none => rfl
    | some zipCode => cases ImageBuffer.codec.field objs 1 page.backgroundImage <;> rfl

/-- Putting an element at an address leaves a page its own data. -/
@[simp] lemma own_setElement (page : Page) (p : Pointer) (e : Element) :
    (page.setElement p e).own = page.own := rfl

/-- Changing an element leaves a page its own data. -/
@[simp] lemma own_modify (page : Page) (p : Pointer) (f : Element → Element) :
    (page.modify p f).own = page.own := by
  unfold modify
  split <;> rfl

/-- Hiding a helper leaves a page its own data. -/
@[simp] lemma own_hide (page : Page) (p : Pointer) : (page.hide p).1.own = page.own := by
  unfold hide
  split <;> rfl

/-- Taking an element out leaves a page its own data. -/
@[simp] lemma own_takeOut (page : Page) (p : Pointer) : (page.takeOut p).own = page.own := by
  unfold takeOut
  split_ifs <;> rfl

/-- Ending the highlight leaves a page its own data. -/
@[simp] lemma own_deHighlightElement (page : Page) : page.deHighlightElement.own = page.own := by
  unfold deHighlightElement
  cases page.highlightElement with
  | none => rfl
  | some h =>
    have hhide : ∀ q : Page, q.own = page.own → { q with highlightElement := none }.own = page.own :=
      fun _ hq => hq
    dsimp only
    split_ifs
    · rw [own_takeOut, own_modify]
      exact hhide _ (own_hide page h)
    · exact hhide _ (own_hide page h)

/-- Hiding a helper, with the removal it asks for, leaves a page its own data. -/
@[simp] lemma own_unhighlight (page : Page) (p : Pointer) : (page.unhighlight p).own = page.own := by
  unfold unhighlight
  dsimp only
  split_ifs
  · rw [removeDrawingElementTriggered, own_takeOut, own_deHighlightElement, own_modify, own_hide]
  · exact own_hide page p

/-- Setting the mode leaves a page its own data. -/
@[simp] lemma own_setMode (page : Page) : page.setMode.own = page.own := by
  unfold setMode
  split_ifs
  · rfl
  · exact own_deHighlightElement page

/-- A changed line attribute leaves the page its own data. -/
@[simp] lemma own_lineChanged (page : Page) (change : Element → Element) :
    (page.lineChanged change false).own = page.own := by
  simp only [lineChanged, Bool.false_eq_true, if_false]
  cases page.highlightElement with
  | none => rfl
  | some h =>
    dsimp only
    split_ifs
    · rfl
    · rw [own_modify, own_unhighlight, own_modify]

/-- Changing the line width leaves a page its own data. -/
@[simp] lemma own_lineWidthChanged (page : Page) (width : Int32) :
    (page.lineWidthChanged width false).own = page.own := by
  rw [lineWidthChanged, own_lineChanged]
  rfl

/-- Changing the line colour leaves a page its own data. -/
@[simp] lemma own_lineColorChanged (page : Page) (color : SColor) :
    (page.lineColorChanged color false).own = page.own := by
  rw [lineColorChanged, own_lineChanged]
  rfl

end Page

namespace PageLoad

variable {quuid : Bytes → Bytes} {address : Nat → Pointer} {create : ElementFactory} {s s' : PageLoad}

/-- An element that is put on a page leaves the page its own data. -/
lemma own_of_add {p : Pointer} {element : Option Element} (h : s.add p element = .ok s') :
    s'.page.own = s.page.own ∧ s'.type = s.type ∧ s'.getUuid = s.getUuid ∧
      s'.getThis = s.getThis := by
  cases element with
  | none =>
    cases h
    exact ⟨rfl, rfl, rfl, rfl⟩
  | some e =>
    obtain ⟨page, hlink, rfl⟩ := map_eq_ok.mp h
    refine ⟨?_, rfl, rfl, rfl⟩
    have hstate : ∀ {uuid isOfClass}, s.page.linkState uuid isOfClass = .ok page →
        page.own = s.page.own := by
      intro uuid isOfClass h
      unfold Page.linkState at h
      split at h
      · split_ifs at h
        cases h
        exact Page.own_modify _ _ _
      · cases h
    have hown : page.own = s.page.own := by
      unfold Page.link at hlink
      split at hlink
      · exact hstate hlink
      · exact hstate hlink
      · cases hlink
        rfl
    exact hown

/-- The record of the page is converted from its own data. -/
lemma own_of_setThis {bytes : Bytes} (h : s.setThis bytes = .ok s') :
    s'.page.own = ((unpackOne bytes).bind s.page.own.convertThis).getD s.page.own ∧
      s'.type = s.type ∧ s'.getUuid = s.getUuid := by
  unfold setThis at h
  cases hmsg : unpackOne bytes with
  | none => rw [hmsg] at h; cases h
  | some msg =>
    simp only [hmsg] at h
    cases hconvert : s.page.convertThis msg with
    | none => rw [hconvert] at h; cases h
    | some page =>
      rw [hconvert] at h
      cases h
      rw [Option.bind_some, ← Page.own_convertThis, hconvert]
      exact ⟨rfl, rfl, rfl⟩

/-- One turn of the loop takes the head it meets, if it meets one. -/
lemma own_of_next {object : Obj} (objs : List Obj)
    (h : s.next quuid address create object = .ok s') :
    Page.headed quuid s'.getUuid s'.getThis s'.page.own (heads s'.type objs) =
      Page.headed quuid s.getUuid s.getThis s.page.own (heads s.type (object :: objs)) := by
  cases object with
  | posInt n =>
    simp only [PageLoad.next, Codec.int32_convert_posInt] at h
    by_cases hn : n < 2 ^ 31
    · simp only [hn, if_true] at h
      cases h
      rfl
    · simp only [hn, if_false] at h
      cases h
  | raw bytes =>
    simp only [PageLoad.next] at h
    by_cases htype : s.type = 0
    · rw [if_pos htype] at h
      have hheads : heads s.type (.raw bytes :: objs) = bytes :: heads s.type objs := by
        simp [heads, htype]
      rw [hheads]
      cases hgetUuid : s.getUuid with
      | false =>
        simp only [hgetUuid, Bool.not_false, if_true] at h
        cases h
        rfl
      | true =>
        simp only [hgetUuid, Bool.not_true, Bool.false_eq_true, if_false] at h
        cases hgetThis : s.getThis with
        | false =>
          simp only [hgetThis, Bool.not_false, if_true] at h
          obtain ⟨hown, htype', hgetUuid'⟩ := own_of_setThis h
          rw [getThis_of_setThis h, hgetUuid', hgetUuid, hown, htype', Page.headed, Page.headed]
          · simp
          · simp
        | true =>
          simp only [hgetThis, Bool.not_true, Bool.false_eq_true, if_false] at h
          cases h
          rw [hgetUuid, hgetThis, Page.headed, Page.headed] <;> simp
    · rw [if_neg htype] at h
      have hheads : heads s.type (.raw bytes :: objs) = heads s.type objs := by
        simp [heads, htype]
      cases hcreate : create s.created s.type bytes with
      | error fault => simp only [hcreate] at h; cases h
      | ok element =>
        simp only [hcreate] at h
        obtain ⟨hown, htype', hgetUuid, hgetThis⟩ := own_of_add h
        rw [hown, htype', hgetUuid, hgetThis, hheads]
  | nil => cases h; rfl
  | boolean value => cases h; rfl
  | negInt value => cases h; rfl
  | double bits => cases h; rfl
  | array items => cases h; rfl
  | map entries => cases h; rfl

/-- The loop leaves the page with the own data that the heads make. -/
lemma own_foldlM {objs : List Obj}
    (hloop : objs.foldlM (PageLoad.next quuid address create) s = .ok s') :
    s'.page.own = Page.headed quuid s.getUuid s.getThis s.page.own (heads s.type objs) := by
  induction objs generalizing s with
  | nil =>
    cases hloop
    cases s'.getUuid <;> cases s'.getThis <;> rfl
  | cons object objs ih =>
    rw [List.foldlM_cons] at hloop
    cases hnext : s.next quuid address create object with
    | error fault => rw [hnext] at hloop; cases hloop
    | ok mid =>
      rw [hnext] at hloop
      rw [ih hloop, own_of_next objs hnext]

end PageLoad

/-! ## Pages that load and do not change -/

/-- Nothing is created exactly when no record converts. -/
lemma loadedElements_eq_nil_iff {address : Nat → Pointer} {create : ElementFactory}
    {read : RecordReader} {sound : RecordSoundness}
    (hcreate : ∀ n type bytes, (∃ r, create n type bytes = .ok r) ↔ sound n type bytes)
    (hread : ∀ n type bytes r, create n type bytes = .ok r → CreatedFrom r (read n type bytes))
    {bodies : List (Int32 × Bytes)} (h : BodiesSound address read sound [] bodies) :
    loadedElements create 0 bodies = [] ↔ ∀ body ∈ bodies, read 0 body.1 body.2 = none := by
  induction bodies with
  | nil => simp [loadedElements]
  | cons body bodies ih =>
    obtain ⟨hsound, hrest⟩ := h
    obtain ⟨r, hr⟩ := (hcreate _ _ _).mpr hsound
    have hfrom := hread _ _ _ r hr
    rw [loadedElements]
    simp only [List.length_nil] at hr hfrom hrest
    cases hbody : read 0 body.1 body.2 with
    | none =>
      obtain rfl : r = none := by
        cases r with
        | none => rfl
        | some e => rw [hbody] at hfrom; exact hfrom.elim
      simp only [hbody] at hrest
      simp [hr, hbody, ih hrest]
    | some e' =>
      obtain ⟨e, rfl⟩ : ∃ e, r = some e := by
        cases r with
        | none => rw [hbody] at hfrom; exact hfrom.elim
        | some e => exact ⟨e, rfl⟩
      simp [hr, hbody]

namespace Page

variable {env : Surroundings} {page page' : Page} {bytes : Bytes}

/-- A page that shows what another one showed: its own data, its elements and its drawing. -/
structure Unchanged (page page' : Page) : Prop where
  own : page'.own = page.own
  allElements : page'.allElements = page.allElements
  drawingElements : page'.drawingElements = page.drawingElements
  elements : ∀ p ∈ page.allElements, page'.element p = page.element p

/-- A page is unchanged from itself. -/
lemma Unchanged.refl (page : Page) : page.Unchanged page := ⟨rfl, rfl, rfl, fun _ _ => rfl⟩

/-- Data that loads on a page, given the addresses and the uuids of the elements that are made. -/
def DataSound (env : Surroundings) (bytes : Bytes) : Prop :=
  PageSound (fun i => env.address [i]) (fun i => Element.ofRecord env [i])
    (fun i => ElementSound env bytes.length [i]) bytes

/-- Data that is the data of a page: it loads to its end, has a uuid and a record, and makes an element
of every record whose type is known. -/
structure DataDecodes (env : Surroundings) (bytes : Bytes) : Prop where
  sound : DataSound env bytes
  finished : (unpackAll bytes).2 = .finished
  heads : 2 ≤ (heads 0 (unpackAll bytes).1).length
  elements : ∀ body ∈ bodies 0 (unpackAll bytes).1, (ElementType.ofInt? body.1).isSome →
    (Element.ofRecord env [0] body.1 body.2).isSome

/-- The data of a page loads exactly when it is sound. -/
lemma setMsgPackData_ok_iff (hinjective : Function.Injective env.address) (page : Page)
    (bytes : Bytes) : (∃ page', page.setMsgPackData env bytes = .ok page') ↔ DataSound env bytes := by
  refine loadWith_ok_iff (fun i j hij => ?_)
    (fun i => Element.createFromType_ok_iff hinjective bytes.length [i])
    (fun i type record r => Element.createdFrom_createFromType) page bytes
  exact (List.cons.inj (hinjective hij)).1

/-- Sound data has no elements exactly when none of its records converts. -/
lemma dataElements_eq_nil_iff (hinjective : Function.Injective env.address)
    (h : DataSound env bytes) :
    dataElements env bytes = [] ↔
      ∀ body ∈ bodies 0 (unpackAll bytes).1, Element.ofRecord env [0] body.1 body.2 = none :=
  loadedElements_eq_nil_iff
    (fun i => Element.createFromType_ok_iff hinjective bytes.length [i])
    (fun _ _ _ _ => Element.createdFrom_createFromType) h.bodies

/-- What a page is after it has loaded. -/
lemma of_setMsgPackData (hinjective : Function.Injective env.address)
    (hload : page.setMsgPackData env bytes = .ok page') :
    page'.own = page.header env.quuid bytes ∧
      PageLoad.Holds (fun i => env.address [i]) ⟨page', true, true, 0, (dataElements env bytes).length⟩
        (dataElements env bytes) := by
  unfold setMsgPackData loadWith at hload
  split at hload
  · cases hload
  · rename_i s hloop
    have haddress : Function.Injective fun i => env.address [i] := fun i j hij =>
      (List.cons.inj (hinjective hij)).1
    obtain ⟨hholds, -⟩ := (holds_clearAll _ page).foldlM haddress hloop
    have hown := PageLoad.own_foldlM hloop
    split_ifs at hload
    cases hload
    exact ⟨hown, hholds.of_containers hholds.created.symm (.refl _) rfl rfl⟩

/-- A page that loads new elements does not change only if it had none and the data has none, and
its own data are those of the data. -/
lemma unchanged_iff (hinjective : Function.Injective env.address) {before : Page}
    (hfresh : ∀ place, env.address place ∉ before.allElements)
    (hload : page.setMsgPackData env bytes = .ok page') :
    before.Unchanged (page'.setEnable false) ↔
      page.header env.quuid bytes = before.own ∧ before.allElements = .empty ∧
        before.drawingElements = [] ∧
        ∀ body ∈ bodies 0 (unpackAll bytes).1, Element.ofRecord env [0] body.1 body.2 = none := by
  obtain ⟨hown, hholds⟩ := of_setMsgPackData hinjective hload
  rw [← dataElements_eq_nil_iff hinjective
    ((setMsgPackData_ok_iff hinjective page bytes).mp ⟨page', hload⟩)]
  have hhighlight : page'.highlightElement = none := hholds.highlight
  have henabled : page'.setEnable false = { page' with disableDraw := true } := by
    simp only [setEnable, deHighlightElement, hhighlight, Bool.not_false]
  rw [henabled]
  constructor
  · rintro ⟨hownEq, hall, hdrawing, -⟩
    have hnone : dataElements env bytes = [] := by
      by_contra hne
      have hmem : env.address [0] ∈ page'.allElements :=
        (hholds.mem_all _).mpr ⟨0, List.length_pos_iff.mpr hne, rfl⟩
      exact hfresh [0] (hall ▸ hmem)
    have hempty : page'.allElements = .empty := OrderedSet.eq_empty_of_forall fun p hp => by
      obtain ⟨i, hi, -⟩ := (hholds.mem_all p).mp hp
      simp [hnone] at hi
    have hnil : page'.drawingElements = [] := by simpa [hnone] using hholds.drawing
    exact ⟨hown.symm.trans hownEq, hall.symm.trans hempty, hdrawing.symm.trans hnil, hnone⟩
  · rintro ⟨hheader, hall, hdrawing, hnone⟩
    refine ⟨hown.trans hheader, ?_, ?_, ?_⟩
    · rw [hall]
      refine OrderedSet.eq_empty_of_forall fun p hp => ?_
      obtain ⟨i, hi, -⟩ := (hholds.mem_all p).mp hp
      simp [hnone] at hi
    · rw [hdrawing]
      simpa [hnone] using hholds.drawing
    · intro p hp
      rw [hall] at hp
      exact absurd hp (OrderedSet.not_mem_empty p)

end Page

end Liangshi
