import Liangshi.Board.PageLoading
import Liangshi.Shared.CommandSchema

/-!
# Data that loads

Which bytes `SetMsgPackData` and `CreateFromType` take without a fault, said of the bytes alone.  The
integers of a page are types and fit in an `int`; the second raw object before any type is the record
of the page; the raw objects after a type are records of elements that unpack, and the state of an
element comes after the element it belongs to.  The record of a `BanElement` holds a page of which the
same is asked, as far as the record converts at all.

`createFromType_ok_iff` and `loadWith_ok_iff` say that these are the bytes that load.
-/

namespace Liangshi

open Wire MessagePack Ordered

/-- The raw objects that are read while the type is zero. -/
def heads : Int32 → List Obj → List Bytes
  | _, [] => []
  | _, .posInt n :: objs => heads (Int32.ofInt n) objs
  | type, .raw bytes :: objs => if type = 0 then bytes :: heads type objs else heads type objs
  | type, _ :: objs => heads type objs

/-- Bytes that unpack to a record of a kind. -/
def UnpacksTo (kind : ItemKind) (bytes : Bytes) : Prop :=
  ∃ msg, unpackOne bytes = some msg ∧ kind msg

/-- The kind of a page's record. -/
def pageKind : ItemKind := .record [.buffer, .record [.buffer]]

/-- The kind of a test's record. -/
def testKind : ItemKind := .record [.string, .vector .string, .vector .string]

/-! ## Sound pages -/

/-- Of the elements with a uuid, the one at the least address is of a class. -/
def LinksTo (address : Nat → Pointer) (es : List Element) (uuid : Bytes)
    (isOfClass : ElementBody → Bool) : Prop :=
  ∃ j e, es[j]? = some e ∧ e.objUuid = uuid ∧ isOfClass e.body ∧
    ∀ k e', es[k]? = some e' → e'.objUuid = uuid → address j ≤ address k

/-- The element a state belongs to is among the elements before it. -/
def Linked (address : Nat → Pointer) (es : List Element) (e : Element) : Prop :=
  match e.body with
  | .banState _ _ _ uuid => LinksTo address es uuid ElementBody.isBan
  | .imageState _ _ _ uuid => LinksTo address es uuid ElementBody.isImage
  | _ => True

/-- The elements that records convert to. -/
abbrev RecordReader := Nat → Int32 → Bytes → Option Element

/-- Which records can be created as elements. -/
abbrev RecordSoundness := Nat → Int32 → Bytes → Prop

/-- Bodies that load behind the given elements. -/
def BodiesSound (address : Nat → Pointer) (read : RecordReader) (sound : RecordSoundness) :
    List Element → List (Int32 × Bytes) → Prop
  | _, [] => True
  | es, body :: bodies =>
    sound es.length body.1 body.2 ∧
    match read es.length body.1 body.2 with
    | some e => Linked address es e ∧ BodiesSound address read sound (es ++ [e]) bodies
    | none => BodiesSound address read sound es bodies

/-- Data of a page that loads, given which records can be created. -/
structure PageSound (address : Nat → Pointer) (read : RecordReader) (sound : RecordSoundness)
    (bytes : Bytes) : Prop where
  types : ∀ n, .posInt n ∈ (unpackAll bytes).1 → n < 2 ^ 31
  record : ∀ head ∈ (heads 0 (unpackAll bytes).1)[1]?, UnpacksTo pageKind head
  bodies : BodiesSound address read sound [] (bodies 0 (unpackAll bytes).1)
  wellFormed : (unpackAll bytes).2 ≠ .malformed

/-- The raw objects of a list. -/
def raws : List Obj → List Bytes
  | [] => []
  | .raw bytes :: objs => bytes :: raws objs
  | _ :: objs => raws objs

/-- Data of a test that loads, given which pages load. -/
structure TestSound (nested : Nat → Bytes → Prop) (bytes : Bytes) : Prop where
  record : ∀ head ∈ (raws (unpackAll bytes).1).head?, UnpacksTo testKind head
  pages : ∀ n page, (raws (unpackAll bytes).1).tail[n]? = some page → nested n page
  wellFormed : (unpackAll bytes).2 ≠ .malformed

/-- A body whose page loads, given which pages load. -/
def ElementBody.PageLoads (nested : Nat → Bytes → Prop) : ElementBody → Prop
  | .ban b | .banWithLabel b _ => nested 0 b.data.data
  | .testBan b | .testBanWithLabel b _ => TestSound nested b.data.data
  | _ => True

/-- The element that a record converts to. -/
def Element.ofRecord (env : Surroundings) (place : List Nat) (type : Int32) (bytes : Bytes) :
    Option Element :=
  (unpackOne bytes).bind fun msg =>
    (ElementType.ofInt? type).bind (convert env.uninitialised (env.newUuid place) msg)

/-- A record that can be created: it unpacks, and when it converts to an element, the page of the
element loads. -/
def ElementSound (env : Surroundings) : Nat → List Nat → Int32 → Bytes → Prop
  | 0, _, _, _ => False
  | fuel + 1, place, type, bytes =>
    (unpackOne bytes).isSome ∧
      ∀ e ∈ Element.ofRecord env place type bytes,
        e.body.PageLoads fun n => PageSound (fun i => env.address (i :: n :: place))
          (fun i => Element.ofRecord env (i :: n :: place))
          fun i => ElementSound env fuel (i :: n :: place)

/-! ## Records -/

/-- An image buffer converts from the records of its kind. -/
lemma converts_imageBuffer : Converts ImageBuffer.codec (.record [.buffer]) := by
  intro o
  cases o with
  | array objs =>
    simp only [ImageBuffer.codec, ItemKind.record, Codec.items_array, record_cons,
      List.zip_nil_left, List.all_nil, Option.bind_eq_bind, Option.bind_some, Option.isSome_bind,
      any_const, converts_buffer.field, Option.pure_def, Option.isSome_some, Bool.and_true]
  | _ => rfl

/-- The record of a page converts when it is of its kind. -/
lemma convertThis_isSome (page : Page) (o : Obj) : (page.convertThis o).isSome = pageKind o := by
  cases o with
  | array objs =>
    simp only [Page.convertThis, pageKind, ItemKind.record, Codec.items_array, record_cons,
      getElem?_tail, List.zip_nil_left, List.all_nil, Option.bind_eq_bind, Option.bind_some,
      Option.isSome_bind, any_const, converts_buffer.field, converts_imageBuffer.field,
      Option.pure_def, Option.isSome_some, Bool.and_true]
  | _ => rfl

/-- The record of a test converts when it is of its kind. -/
lemma testConvertThis_isSome (test : TestPage) (o : Obj) :
    (test.convertThis o).isSome = testKind o := by
  cases o with
  | array objs =>
    simp only [TestPage.convertThis, testKind, ItemKind.record, Codec.items_array, record_cons,
      getElem?_tail, List.zip_nil_left, List.all_nil, Option.bind_eq_bind, Option.bind_some,
      Option.isSome_bind, any_const, converts_string.field, converts_string.vector.field,
      Option.pure_def, Option.isSome_some, Bool.and_true]
  | _ => rfl

/-! ## Created elements and their records -/

/-- What linking looks at in an element that may be linked to. -/
def Element.face (e : Element) : Bytes × Bool × Bool := (e.objUuid, e.body.isBan, e.body.isImage)

/-- A created element stands for the element that its record converts to. -/
structure Element.StandsFor (e e' : Element) : Prop where
  face : e.face = e'.face
  linked : ∀ address es, Linked address es e ↔ Linked address es e'

/-- What was created stands for what the record converts to, if it converts to an element. -/
def CreatedFrom : Option Element → Option Element → Prop
  | none, none => True
  | some e, some e' => e.StandsFor e'
  | _, _ => False

/-- An element at a place of a list, found in the other one by its face. -/
lemma exists_of_faces {es es' : List Element} (h : es.map Element.face = es'.map Element.face)
    {j : Nat} {e : Element} (hj : es[j]? = some e) : ∃ e', es'[j]? = some e' ∧ e.face = e'.face := by
  have hface := congrArg (·[j]?) h
  simp only [List.getElem?_map, hj, Option.map_some] at hface
  obtain ⟨e', he', heq⟩ := Option.map_eq_some_iff.mp hface.symm
  exact ⟨e', he', heq.symm⟩

/-- Elements are linked to lists of the same faces. -/
lemma LinksTo.of_faces {address : Nat → Pointer} {es es' : List Element} {uuid : Bytes}
    {isOfClass : ElementBody → Bool} (hclass : ∀ {e e' : Element}, e.face = e'.face →
      isOfClass e.body = isOfClass e'.body)
    (hface : es.map Element.face = es'.map Element.face) (h : LinksTo address es uuid isOfClass) :
    LinksTo address es' uuid isOfClass := by
  obtain ⟨j, e, hj, huuid, hisOfClass, hleast⟩ := h
  obtain ⟨e', he', heq⟩ := exists_of_faces hface hj
  refine ⟨j, e', he', (congrArg Prod.fst heq).symm.trans huuid, hclass heq ▸ hisOfClass, ?_⟩
  intro k f hk hf
  obtain ⟨f', hf', heqf⟩ := exists_of_faces hface.symm hk
  exact hleast k f' hf' ((congrArg Prod.fst heqf).symm.trans hf)

/-- An element is linked to a list as to one of the same faces. -/
lemma linked_iff_of_faces {address : Nat → Pointer} {es es' : List Element}
    (hface : es.map Element.face = es'.map Element.face) (e : Element) :
    Linked address es e ↔ Linked address es' e := by
  have hban : ∀ {e e' : Element}, e.face = e'.face → e.body.isBan = e'.body.isBan :=
    fun h => congrArg (·.2.1) h
  have himage : ∀ {e e' : Element}, e.face = e'.face → e.body.isImage = e'.body.isImage :=
    fun h => congrArg (·.2.2) h
  unfold Linked
  cases e.body with
  | banState => exact ⟨.of_faces hban hface, .of_faces hban hface.symm⟩
  | imageState => exact ⟨.of_faces himage hface, .of_faces himage hface.symm⟩
  | _ => exact Iff.rfl

/-! ## The loop -/

namespace PageLoad

variable {address : Nat → Pointer} {s : PageLoad} {es : List Element}

/-- A page that holds elements has one with a uuid at an address of its list. -/
lemma Holds.hasUuid_iff (h : s.Holds address es) {i : Nat} {e : Element} (hi : es[i]? = some e)
    (uuid : Bytes) : s.page.hasUuid uuid (address i) ↔ e.objUuid = uuid := by
  obtain ⟨e', he', huuid, -⟩ := h.elements i e hi
  rw [Page.hasUuid, he', Option.any_some, beq_iff_eq, huuid]

/-- A state is linked exactly when the list has the element it belongs to. -/
lemma Holds.linkState_ok_iff (h : s.Holds address es) (hinjective : Function.Injective address)
    (uuid : Bytes) (isOfClass : ElementBody → Bool) :
    (∃ page, s.page.linkState uuid isOfClass = .ok page) ↔ LinksTo address es uuid isOfClass := by
  have hmem : ∀ {k e}, es[k]? = some e → address k ∈ s.page.allElements := fun hk =>
    (h.mem_all _).mpr ⟨_, (List.getElem?_eq_some_iff.mp hk).1, rfl⟩
  have hclass : ∀ {k e}, es[k]? = some e →
      ((s.page.element (address k)).any fun e' => isOfClass e'.body) = isOfClass e.body := by
    intro k e hk
    obtain ⟨e', he', -, hbody⟩ := h.elements k e hk
    rw [he', Option.any_some, hbody]
  unfold Page.linkState
  constructor
  · rintro ⟨page, hlink⟩
    cases hfind : s.page.findElementByUuid uuid with
    | none =>
      rw [hfind] at hlink
      cases hlink
    | some p =>
      simp only [hfind] at hlink
      split_ifs at hlink with hp
      obtain ⟨hpmem, hpu⟩ := Page.of_findElementByUuid hfind
      obtain ⟨j, hj, rfl⟩ := (h.mem_all p).mp hpmem
      have hje : es[j]? = some es[j] := List.getElem?_eq_getElem hj
      rw [hclass hje] at hp
      refine ⟨j, es[j], hje, (h.hasUuid_iff hje uuid).mp hpu, hp, fun k e' hk huuid => ?_⟩
      exact OrderedSet.le_of_find? hfind (hmem hk) ((h.hasUuid_iff hk uuid).mpr huuid)
  · rintro ⟨j, e, hj, huuid, hisOfClass, hleast⟩
    have hju : s.page.hasUuid uuid (address j) := (h.hasUuid_iff hj uuid).mpr huuid
    cases hfind : s.page.findElementByUuid uuid with
    | none => exact absurd hju (List.find?_eq_none.mp hfind _ (hmem hj))
    | some p =>
      obtain ⟨hpmem, hpu⟩ := Page.of_findElementByUuid hfind
      obtain ⟨k, hk, rfl⟩ := (h.mem_all p).mp hpmem
      have hke : es[k]? = some es[k] := List.getElem?_eq_getElem hk
      have hle := OrderedSet.le_of_find? hfind (hmem hj) hju
      have hge := hleast k es[k] hke ((h.hasUuid_iff hke uuid).mp hpu)
      obtain rfl : k = j := hinjective (le_antisymm hle hge)
      obtain rfl : es[k] = e := Option.some.inj (hke.symm.trans hj)
      simp only [hclass hke, hisOfClass, if_true]
      exact ⟨_, rfl⟩

/-- An element is put on the page exactly when it is linked. -/
lemma Holds.add_ok_iff (h : s.Holds address es) (hinjective : Function.Injective address)
    (e : Element) :
    (∃ s', s.add (address s.created) (some e) = .ok s') ↔ Linked address es e := by
  have hadd : (∃ s', s.add (address s.created) (some e) = .ok s') ↔
      ∃ page, s.page.link e = .ok page := by
    simp only [PageLoad.add]
    cases s.page.link e <;> simp [Except.map]
  rw [hadd]
  unfold Page.link Linked
  cases e.body with
  | banState => exact h.linkState_ok_iff hinjective _ _
  | imageState => exact h.linkState_ok_iff hinjective _ _
  | _ => simp

/-- The record of a page is taken exactly when it unpacks to its kind. -/
lemma setThis_ok_iff (s : PageLoad) (bytes : Bytes) :
    (∃ s', s.setThis bytes = .ok s') ↔ UnpacksTo pageKind bytes := by
  unfold setThis UnpacksTo
  cases unpackOne bytes with
  | none => simp
  | some msg =>
    have hsome := convertThis_isSome s.page msg
    cases hconvert : s.page.convertThis msg with
    | none => simp [← hsome, hconvert]
    | some page => simp [← hsome, hconvert]

/-- Afterwards the record of the page has been taken. -/
lemma getThis_of_setThis {s' : PageLoad} {bytes : Bytes} (h : s.setThis bytes = .ok s') :
    s'.getThis = true := by
  unfold setThis at h
  split at h
  · cases h
  · split at h
    · cases h
    · cases h
      rfl

/-- The raw object that will be taken for the record of the page. -/
def recordHead (s : PageLoad) (objs : List Obj) : Option Bytes :=
  if s.getThis then none else (heads s.type objs)[if s.getUuid then 0 else 1]?

/-- Objects that the loop takes without a fault. -/
structure ObjectsSound (address : Nat → Pointer) (read : RecordReader) (sound : RecordSoundness)
    (s : PageLoad) (es : List Element) (objs : List Obj) : Prop where
  types : ∀ n, .posInt n ∈ objs → n < 2 ^ 31
  record : ∀ head ∈ s.recordHead objs, UnpacksTo pageKind head
  bodies : BodiesSound address read sound es (bodies s.type objs)

section Loop

variable {quuid : Bytes → Bytes} {create : ElementFactory} {read : RecordReader}
  {sound : RecordSoundness} {es' : List Element}

/-- A type is taken exactly when it fits in an `int`. -/
lemma objectsSound_posInt {n : Nat} {objs : List Obj} :
    ObjectsSound address read sound s es (.posInt n :: objs) ↔
      n < 2 ^ 31 ∧ ObjectsSound address read sound { s with type := Int32.ofInt n } es objs := by
  constructor
  · rintro ⟨htypes, hrecord, hbodies⟩
    exact ⟨htypes n List.mem_cons_self, fun m hm => htypes m (List.mem_cons_of_mem _ hm), hrecord,
      hbodies⟩
  · rintro ⟨hn, htypes, hrecord, hbodies⟩
    refine ⟨fun m hm => ?_, hrecord, hbodies⟩
    rcases List.mem_cons.mp hm with heq | hm
    · cases heq
      exact hn
    · exact htypes m hm

/-- An object that is no integer, no record and no body does not matter. -/
lemma objectsSound_skip {s' : PageLoad} {object : Obj} {objs : List Obj}
    (hint : ∀ n, object ≠ .posInt n) (hrecord : s.recordHead (object :: objs) = s'.recordHead objs)
    (hbodies : bodies s.type (object :: objs) = bodies s'.type objs) :
    ObjectsSound address read sound s es (object :: objs) ↔
      ObjectsSound address read sound s' es objs := by
  have htypes :
      (∀ n, .posInt n ∈ object :: objs → n < 2 ^ 31) ↔ ∀ n, .posInt n ∈ objs → n < 2 ^ 31 := by
    refine forall_congr' fun n => ?_
    rw [List.mem_cons, or_iff_right (hint n).symm]
  constructor
  · rintro ⟨hn, hr, hb⟩
    exact ⟨htypes.mp hn, hrecord ▸ hr, hbodies ▸ hb⟩
  · rintro ⟨hn, hr, hb⟩
    exact ⟨htypes.mpr hn, hrecord ▸ hr, hbodies ▸ hb⟩

/-- A raw object that is taken for the record of the page must be one. -/
lemma objectsSound_record {s' : PageLoad} {bytes : Bytes} {objs : List Obj} (htype : s.type = 0)
    (hgetUuid : s.getUuid = true) (hgetThis : s.getThis = false) (htype' : s'.type = s.type)
    (hgetThis' : s'.getThis = true) :
    ObjectsSound address read sound s es (.raw bytes :: objs) ↔
      UnpacksTo pageKind bytes ∧ ObjectsSound address read sound s' es objs := by
  have hhead : s.recordHead (.raw bytes :: objs) = some bytes := by
    simp [recordHead, heads, htype, hgetUuid, hgetThis]
  have hnone : s'.recordHead objs = none := by simp [recordHead, hgetThis']
  have hbodies : bodies s.type (.raw bytes :: objs) = bodies s'.type objs := by
    simp [bodies, htype, htype']
  constructor
  · rintro ⟨hn, hr, hb⟩
    exact ⟨hr _ hhead, fun n hn' => hn n (List.mem_cons_of_mem _ hn'), by simp [hnone],
      hbodies ▸ hb⟩
  · rintro ⟨hbytes, hn, hr, hb⟩
    refine ⟨by simpa using hn, ?_, hbodies ▸ hb⟩
    rintro head hmem
    obtain rfl : bytes = head := by simpa [hhead] using hmem
    exact hbytes

/-- A raw object after a type is the record of an element. -/
lemma objectsSound_body {bytes : Bytes} {objs : List Obj} (htype : s.type ≠ 0) :
    ObjectsSound address read sound s es (.raw bytes :: objs) ↔
      sound es.length s.type bytes ∧
      match read es.length s.type bytes with
      | some e => Linked address es e ∧ ObjectsSound address read sound s (es ++ [e]) objs
      | none => ObjectsSound address read sound s es objs := by
  have hhead : s.recordHead (.raw bytes :: objs) = s.recordHead objs := by
    simp [recordHead, heads, htype]
  have hbodies : bodies s.type (.raw bytes :: objs) = (s.type, bytes) :: bodies s.type objs := by
    simp [bodies, htype]
  constructor
  · rintro ⟨hn, hr, hb⟩
    rw [hbodies, BodiesSound] at hb
    rw [hhead] at hr
    have hn' : ∀ n, .posInt n ∈ objs → n < 2 ^ 31 := fun n h => hn n (List.mem_cons_of_mem _ h)
    refine ⟨hb.1, ?_⟩
    cases hread : read es.length s.type bytes with
    | none => simpa only [hread] using ⟨hn', hr, by simpa only [hread] using hb.2⟩
    | some e =>
      simp only [hread] at hb
      exact ⟨hb.2.1, hn', hr, hb.2.2⟩
  · rintro ⟨hsound, hrest⟩
    cases hread : read es.length s.type bytes with
    | none =>
      simp only [hread] at hrest
      refine ⟨by simpa using hrest.types, hhead ▸ hrest.record, ?_⟩
      rw [hbodies, BodiesSound]
      simpa only [hread] using ⟨hsound, hrest.bodies⟩
    | some e =>
      simp only [hread] at hrest
      refine ⟨by simpa using hrest.2.types, hhead ▸ hrest.2.record, ?_⟩
      rw [hbodies, BodiesSound]
      simpa only [hread] using ⟨hsound, hrest.1, hrest.2.bodies⟩

/-- An element that is put on the page does not change which objects are sound. -/
lemma objectsSound_of_add {s' : PageLoad} {p : Pointer} {e : Element} {objs : List Obj}
    (hadd : s.add p (some e) = .ok s') :
    ObjectsSound address read sound s' es objs ↔ ObjectsSound address read sound s es objs := by
  have hsame : s'.type = s.type ∧ s'.recordHead objs = s.recordHead objs := by
    simp only [PageLoad.add] at hadd
    cases hlink : s.page.link e with
    | error fault => rw [hlink] at hadd; cases hadd
    | ok page =>
      rw [hlink] at hadd
      cases hadd
      exact ⟨rfl, rfl⟩
  constructor
  · rintro ⟨hn, hr, hb⟩
    exact ⟨hn, hsame.2 ▸ hr, hsame.1 ▸ hb⟩
  · rintro ⟨hn, hr, hb⟩
    exact ⟨hn, hsame.2 ▸ hr, hsame.1 ▸ hb⟩

/-- A loop ends exactly when its first turn does and the rest of it does from there. -/
lemma foldlM_cons_ok_iff {α β : Type} {f : α → β → Except LoadFault α} {a : α} {b : β}
    {bs : List β} :
    (∃ r, (b :: bs).foldlM f a = .ok r) ↔ ∃ a', f a b = .ok a' ∧ ∃ r, bs.foldlM f a' = .ok r := by
  rw [List.foldlM_cons]
  cases hf : f a b with
  | error fault => simp [bind, Except.bind]
  | ok a' => simp [bind, Except.bind]

/-- The loop over the objects of a page ends exactly when they are sound. -/
lemma Holds.foldlM_ok_iff (hinjective : Function.Injective address)
    (hcreate : ∀ n type bytes, (∃ r, create n type bytes = .ok r) ↔ sound n type bytes)
    (hread : ∀ n type bytes r, create n type bytes = .ok r → CreatedFrom r (read n type bytes))
    {objs : List Obj} (h : s.Holds address es)
    (hface : es.map Element.face = es'.map Element.face) :
    (∃ s', objs.foldlM (PageLoad.next quuid address create) s = .ok s') ↔
      ObjectsSound address read sound s es' objs := by
  induction objs generalizing s es es' with
  | nil =>
    refine iff_of_true ⟨s, rfl⟩ ⟨by simp, ?_, trivial⟩
    unfold recordHead
    split_ifs <;> simp [heads]
  | cons object objs ih =>
    have hlength : es.length = es'.length := by simpa using congrArg List.length hface
    have hskip : ∀ {s' : PageLoad}, s.next quuid address create object = .ok s' →
        s'.Holds address es → (∀ n, object ≠ .posInt n) →
        s.recordHead (object :: objs) = s'.recordHead objs →
        bodies s.type (object :: objs) = bodies s'.type objs →
        ((∃ r, (object :: objs).foldlM (PageLoad.next quuid address create) s = .ok r) ↔
          ObjectsSound address read sound s es' (object :: objs)) := by
      intro s' hnext hholds hint hrecord hbodies
      rw [foldlM_cons_ok_iff, objectsSound_skip hint hrecord hbodies, ← ih hholds hface, hnext]
      simp
    cases object with
    | posInt n =>
      rw [foldlM_cons_ok_iff, objectsSound_posInt]
      simp only [PageLoad.next, Codec.int32_convert_posInt]
      by_cases hn : n < 2 ^ 31
      · simp only [hn, if_true, true_and]
        rw [← ih (s := { s with type := Int32.ofInt n }) (h.of_containers rfl (.refl _) rfl rfl)
          hface]
        simp
      · simp only [hn, if_false, false_and]
        simp
    | raw bytes =>
      by_cases htype : s.type = 0
      · cases hgetUuid : s.getUuid with
        | false =>
          have hnext : s.next quuid address create (.raw bytes) = .ok (s.setUuid (quuid bytes)) := by
            simp [PageLoad.next, htype, hgetUuid]
          refine hskip hnext ?_ (by simp) ?_ ?_
          · exact h.of_containers rfl ⟨fun _ => rfl, rfl, rfl, rfl, rfl⟩ rfl rfl
          · simp [recordHead, setUuid, heads, htype, hgetUuid]
          · simp [setUuid, bodies, htype]
        | true =>
          cases hgetThis : s.getThis with
          | true =>
            have hnext : s.next quuid address create (.raw bytes) = .ok s := by
              simp [PageLoad.next, htype, hgetUuid, hgetThis]
            refine hskip hnext h (by simp) ?_ ?_
            · simp [recordHead, hgetThis]
            · simp [bodies, htype]
          | false =>
            have hnext : s.next quuid address create (.raw bytes) = s.setThis bytes := by
              simp [PageLoad.next, htype, hgetUuid, hgetThis]
            rw [foldlM_cons_ok_iff, hnext]
            constructor
            · rintro ⟨s', hthis, hrest⟩
              obtain ⟨hcreated, htype', hsimilar, hheap, hhighlight⟩ := of_setThis hthis
              rw [objectsSound_record htype hgetUuid hgetThis htype' (getThis_of_setThis hthis)]
              exact ⟨(setThis_ok_iff s bytes).mp ⟨s', hthis⟩,
                (ih (h.of_containers hcreated hsimilar hheap hhighlight) hface).mp hrest⟩
            · intro hsound
              have hrecord : UnpacksTo pageKind bytes :=
                hsound.record bytes (by simp [recordHead, heads, htype, hgetUuid, hgetThis])
              obtain ⟨s', hthis⟩ := (setThis_ok_iff s bytes).mpr hrecord
              obtain ⟨hcreated, htype', hsimilar, hheap, hhighlight⟩ := of_setThis hthis
              rw [objectsSound_record htype hgetUuid hgetThis htype' (getThis_of_setThis hthis)]
                at hsound
              exact ⟨s', hthis,
                (ih (h.of_containers hcreated hsimilar hheap hhighlight) hface).mpr hsound.2⟩
      · have hnext : s.next quuid address create (.raw bytes) =
            (create s.created s.type bytes).bind (s.add (address s.created)) := by
          simp only [PageLoad.next, htype, if_false]
          cases create s.created s.type bytes <;> rfl
        have hcreated : s.created = es'.length := h.created.trans hlength
        rw [foldlM_cons_ok_iff, hnext, objectsSound_body htype, ← hcreate, ← hcreated]
        cases hc : create s.created s.type bytes with
        | error fault => simp [Except.bind]
        | ok r =>
          have hfrom := hread _ _ _ r hc
          cases hr : read s.created s.type bytes with
          | none =>
            obtain rfl : r = none := by
              cases r with
              | none => rfl
              | some e => rw [hr] at hfrom; exact hfrom.elim
            simp only [Except.bind, PageLoad.add, ← ih h hface]
            simp
          | some e' =>
            obtain ⟨e, rfl⟩ : ∃ e, r = some e := by
              cases r with
              | none => rw [hr] at hfrom; exact hfrom.elim
              | some e => exact ⟨e, rfl⟩
            rw [hr] at hfrom
            have hlinked : Linked address es e ↔ Linked address es' e' :=
              (hfrom.linked address es).trans (linked_iff_of_faces hface e')
            have hface' : (es ++ [e]).map Element.face = (es' ++ [e']).map Element.face := by
              rw [List.map_append, List.map_append, hface, List.map_singleton, List.map_singleton,
                hfrom.face]
            simp only [Except.bind, Except.ok.injEq, exists_eq', true_and]
            rw [← hlinked, ← h.add_ok_iff hinjective e]
            constructor
            · rintro ⟨s', hadd, hrest⟩
              rw [← objectsSound_of_add hadd, ← ih (h.add hinjective hadd).1 hface']
              exact ⟨⟨s', hadd⟩, hrest⟩
            · rintro ⟨⟨s', hadd⟩, hsound⟩
              rw [← objectsSound_of_add hadd, ← ih (h.add hinjective hadd).1 hface'] at hsound
              exact ⟨s', hadd, hsound⟩
    | nil => exact hskip rfl h (by simp) rfl rfl
    | boolean value => exact hskip rfl h (by simp) rfl rfl
    | negInt value => exact hskip rfl h (by simp) rfl rfl
    | double bits => exact hskip rfl h (by simp) rfl rfl
    | array items => exact hskip rfl h (by simp) rfl rfl
    | map entries => exact hskip rfl h (by simp) rfl rfl

end Loop

end PageLoad

/-! ## Pages, tests and elements -/

/-- The data of a page loads on any page exactly when it is sound. -/
theorem Page.loadWith_ok_iff {quuid : Bytes → Bytes} {address : Nat → Pointer}
    {create : ElementFactory} {read : RecordReader} {sound : RecordSoundness}
    (hinjective : Function.Injective address)
    (hcreate : ∀ n type bytes, (∃ r, create n type bytes = .ok r) ↔ sound n type bytes)
    (hread : ∀ n type bytes r, create n type bytes = .ok r → CreatedFrom r (read n type bytes))
    (page : Page) (bytes : Bytes) :
    (∃ page', page.loadWith quuid address create bytes = .ok page') ↔
      PageSound address read sound bytes := by
  have hloop : (∃ s, (unpackAll bytes).1.foldlM (PageLoad.next quuid address create)
      ⟨page.clearAll, false, false, 0, 0⟩ = .ok s) ↔ PageLoad.ObjectsSound address read sound
        ⟨page.clearAll, false, false, 0, 0⟩ [] (unpackAll bytes).1 :=
    (holds_clearAll address page).foldlM_ok_iff hinjective hcreate hread rfl
  have hload : (∃ page', page.loadWith quuid address create bytes = .ok page') ↔
      (∃ s, (unpackAll bytes).1.foldlM (PageLoad.next quuid address create)
        ⟨page.clearAll, false, false, 0, 0⟩ = .ok s) ∧ (unpackAll bytes).2 ≠ .malformed := by
    unfold loadWith
    split
    · rename_i fault hfault
      simp [hfault]
    · rename_i s hs
      by_cases hending : (unpackAll bytes).2 = .malformed <;> simp [hending, hs]
  rw [hload, hloop]
  constructor
  · rintro ⟨⟨htypes, hrecord, hbodies⟩, hending⟩
    exact ⟨htypes, hrecord, hbodies, hending⟩
  · rintro ⟨htypes, hrecord, hbodies, hending⟩
    exact ⟨⟨htypes, hrecord, hbodies⟩, hending⟩

namespace TestPage

variable {load : Nat → Page → Bytes → Except LoadFault Page} {nested : Nat → Bytes → Prop}

/-- The loop over the objects of a test ends exactly when its raw objects load. -/
lemma foldlM_ok_iff (hload : ∀ n page bytes, (∃ r, load n page bytes = .ok r) ↔ nested n bytes)
    {objs : List Obj} {test : TestPage} {n : Nat} :
    (∃ r, objs.foldlM (next load) (test, true, n) = .ok r) ↔
      ∀ k page, (raws objs)[k]? = some page → nested (n + k) page := by
  induction objs generalizing test n with
  | nil => exact iff_of_true ⟨_, rfl⟩ (by simp [raws])
  | cons object objs ih =>
    rw [PageLoad.foldlM_cons_ok_iff]
    cases object with
    | raw bytes =>
      have hraws : (∀ k page, (raws (.raw bytes :: objs))[k]? = some page → nested (n + k) page) ↔
          nested n bytes ∧ ∀ k page, (raws objs)[k]? = some page → nested (n + 1 + k) page := by
        constructor
        · intro h
          refine ⟨h 0 bytes rfl, fun k page hk => ?_⟩
          have hnested := h (k + 1) page hk
          rwa [show n + (k + 1) = n + 1 + k by omega] at hnested
        · rintro ⟨hbytes, h⟩ k page hk
          cases k with
          | zero =>
            obtain rfl := Option.some.inj hk
            exact hbytes
          | succ k =>
            rw [show n + (k + 1) = n + 1 + k by omega]
            exact h k page hk
      rw [hraws, ← hload n test.page bytes]
      simp only [next]
      cases load n test.page bytes with
      | error fault => simp [Except.map]
      | ok page =>
        simp only [Except.map, Except.ok.injEq, exists_eq_left', exists_eq', true_and]
        exact ih
    | nil => simpa [next, raws] using ih
    | boolean value => simpa [next, raws] using ih
    | posInt m => simpa [next, raws] using ih
    | negInt value => simpa [next, raws] using ih
    | double bits => simpa [next, raws] using ih
    | array items => simpa [next, raws] using ih
    | map entries => simpa [next, raws] using ih

/-- The loop over the objects of a new test ends exactly when the first raw object is its record and
the other ones load. -/
lemma foldlM_new_ok_iff
    (hload : ∀ n page bytes, (∃ r, load n page bytes = .ok r) ↔ nested n bytes)
    {objs : List Obj} {test : TestPage} :
    (∃ r, objs.foldlM (next load) (test, false, 0) = .ok r) ↔
      (∀ head ∈ (raws objs).head?, UnpacksTo testKind head) ∧
        ∀ k page, (raws objs).tail[k]? = some page → nested k page := by
  induction objs with
  | nil => exact iff_of_true ⟨_, rfl⟩ (by simp [raws])
  | cons object objs ih =>
    rw [PageLoad.foldlM_cons_ok_iff]
    cases object with
    | raw bytes =>
      have htail : ∀ test, (∃ r, objs.foldlM (next load) (test, true, 0) = .ok r) ↔
          ∀ k page, (raws objs)[k]? = some page → nested k page := fun test => by
        rw [foldlM_ok_iff hload]
        simp only [Nat.zero_add]
      simp only [raws, List.head?_cons, Option.mem_some_iff, forall_eq', List.tail_cons]
      cases hmsg : unpackOne bytes with
      | none =>
        have hnext : next load (test, false, 0) (.raw bytes) = .error (.throws .unpackError) := by
          simp only [next, hmsg]
        simp [hnext, UnpacksTo, hmsg]
      | some msg =>
        have hsome := testConvertThis_isSome test msg
        cases hconvert : test.convertThis msg with
        | none =>
          have hnext : next load (test, false, 0) (.raw bytes) = .error (.throws .typeError) := by
            simp only [next, hmsg, hconvert]
          simp [hnext, UnpacksTo, hmsg, ← hsome, hconvert]
        | some test' =>
          have hnext : next load (test, false, 0) (.raw bytes) = .ok (test', true, 0) := by
            simp only [next, hmsg, hconvert]
          simp only [hnext, Except.ok.injEq, exists_eq_left', htail test']
          simp [UnpacksTo, hmsg, ← hsome, hconvert]
    | nil => simpa [next, raws] using ih
    | boolean value => simpa [next, raws] using ih
    | posInt m => simpa [next, raws] using ih
    | negInt value => simpa [next, raws] using ih
    | double bits => simpa [next, raws] using ih
    | array items => simpa [next, raws] using ih
    | map entries => simpa [next, raws] using ih

/-- The data of a test loads exactly when it is sound. -/
lemma loadWith_ok_iff (hload : ∀ n page bytes, (∃ r, load n page bytes = .ok r) ↔ nested n bytes)
    (page : Page) (bytes : Bytes) :
    (∃ test, loadWith load page bytes = .ok test) ↔ TestSound nested bytes := by
  have htest : (∃ test, loadWith load page bytes = .ok test) ↔
      (∃ s, (unpackAll bytes).1.foldlM (next load) (⟨page, [], [], []⟩, false, 0) = .ok s) ∧
        (unpackAll bytes).2 ≠ .malformed := by
    unfold loadWith
    split
    · rename_i fault hfault
      simp [hfault]
    · rename_i s hs
      by_cases hending : (unpackAll bytes).2 = .malformed <;> simp [hending, hs]
  rw [htest, foldlM_new_ok_iff hload]
  constructor
  · rintro ⟨⟨hrecord, hpages⟩, hending⟩
    exact ⟨hrecord, hpages, hending⟩
  · rintro ⟨hrecord, hpages, hending⟩
    exact ⟨⟨hrecord, hpages⟩, hending⟩

end TestPage

namespace Element

variable {env : Surroundings} {load : Nat → Page → Bytes → Except LoadFault Page}

/-- An element is updated exactly when its page loads. -/
lemma updateDataFromMsgPack_ok_iff {nested : Nat → Bytes → Prop}
    (hload : ∀ n page bytes, (∃ r, load n page bytes = .ok r) ↔ nested n bytes) (page : Page)
    (e : Element) :
    (∃ e', e.updateDataFromMsgPack env load page = .ok e') ↔ e.body.PageLoads nested := by
  have hmap : ∀ {α β : Type} (x : Except LoadFault α) (f : α → β),
      (∃ r, x.map f = .ok r) ↔ ∃ r, x = .ok r := by
    intro α β x f
    cases x <;> simp [Except.map]
  unfold updateDataFromMsgPack ElementBody.PageLoads
  cases e.body with
  | ban b => simp only [BanMembers.update, hmap, hload]
  | banWithLabel b label => simp only [BanMembers.update, hmap, hload]
  | testBan b => simp only [BanMembers.updateTest, hmap, TestPage.loadWith_ok_iff hload]
  | testBanWithLabel b label => simp only [BanMembers.updateTest, hmap, TestPage.loadWith_ok_iff hload]
  | _ => simp

/-- Elements of the same uuid and classes stand for each other when no state is among them. -/
lemma standsFor_of_ban {e : Element} {body : ElementBody} (hbody : body.isBan) (he : e.body.isBan) :
    StandsFor { e with body } e := by
  have himage : ∀ {b : ElementBody}, b.isBan → b.isImage = false := by
    intro b hb
    cases b <;> first | rfl | cases hb
  have hlinked : ∀ {e : Element} {address es}, e.body.isBan → Linked address es e := by
    intro e address es he
    unfold Linked
    cases hb : e.body <;> first | trivial | (rw [hb] at he; cases he)
  refine ⟨?_, fun address es => iff_of_true (hlinked hbody) (hlinked he)⟩
  simp only [face, hbody, he, himage hbody, himage he]

/-- An updated element stands for the element it was. -/
lemma standsFor_of_update {page : Page} {e e' : Element}
    (h : e.updateDataFromMsgPack env load page = .ok e') : e'.StandsFor e := by
  have hban : ∀ {x : Except LoadFault BanMembers} {f : BanMembers → ElementBody},
      x.map (fun b => { e with body := f b }) = .ok e' → (∀ b, (f b).isBan) → e.body.isBan →
      e'.StandsFor e := by
    intro x f hx hf hbody
    cases x with
    | error fault => cases hx
    | ok b =>
      cases hx
      exact standsFor_of_ban (hf b) hbody
  unfold updateDataFromMsgPack at h
  cases hbody : e.body with
  | ban b =>
    simp only [hbody] at h
    exact hban h (fun _ => rfl) (by rw [hbody]; rfl)
  | banWithLabel b label =>
    simp only [hbody] at h
    exact hban (f := fun b => .banWithLabel b label) h (fun _ => rfl) (by rw [hbody]; rfl)
  | testBan b =>
    simp only [hbody] at h
    exact hban h (fun _ => rfl) (by rw [hbody]; rfl)
  | testBanWithLabel b label =>
    simp only [hbody] at h
    exact hban (f := fun b => .testBanWithLabel b label) h (fun _ => rfl) (by rw [hbody]; rfl)
  | _ =>
    simp only [hbody] at h
    cases h
    exact ⟨rfl, fun _ _ => Iff.rfl⟩

/-- What is created stands for what the record converts to. -/
lemma createdFrom_createFromType {fuel : Nat} {place : List Nat} {type : Int32} {bytes : Bytes}
    {r : Option Element} (h : createFromType env fuel place type bytes = .ok r) :
    CreatedFrom r (ofRecord env place type bytes) := by
  cases fuel with
  | zero => cases h
  | succ fuel =>
    unfold createFromType at h
    unfold ofRecord
    cases hmsg : unpackOne bytes with
    | none => rw [hmsg] at h; cases h
    | some msg =>
      simp only [hmsg, Option.bind_some] at h ⊢
      cases hconvert : (ElementType.ofInt? type).bind
          (convert env.uninitialised (env.newUuid place) msg) with
      | none =>
        simp only [hconvert] at h
        cases h
        trivial
      | some e =>
        simp only [hconvert] at h
        obtain ⟨e', he', rfl⟩ := map_eq_ok.mp h
        exact standsFor_of_update he'

/-- A record creates what it does exactly when it is sound. -/
theorem createFromType_ok_iff (hinjective : Function.Injective env.address) (fuel : Nat)
    (place : List Nat) (type : Int32) (bytes : Bytes) :
    (∃ r, createFromType env fuel place type bytes = .ok r) ↔
      ElementSound env fuel place type bytes := by
  induction fuel generalizing place type bytes with
  | zero => simp [createFromType, ElementSound]
  | succ fuel ih =>
    have hload : ∀ n (page : Page) bytes, (∃ page', page.loadWith env.quuid
        (fun i => env.address (i :: n :: place)) (fun i => createFromType env fuel (i :: n :: place))
          bytes = .ok page') ↔
        PageSound (fun i => env.address (i :: n :: place)) (fun i => ofRecord env (i :: n :: place))
          (fun i => ElementSound env fuel (i :: n :: place)) bytes := by
      intro n page bytes
      refine Page.loadWith_ok_iff (fun i j hij => ?_) (fun i => ih (i :: n :: place))
        (fun i type bytes r => createdFrom_createFromType) page bytes
      exact (List.cons.inj (hinjective hij)).1
    unfold createFromType ElementSound
    cases hmsg : unpackOne bytes with
    | none => simp
    | some msg =>
      have hrecord : ofRecord env place type bytes = (ElementType.ofInt? type).bind
          (convert env.uninitialised (env.newUuid place) msg) := by
        rw [ofRecord, hmsg, Option.bind_some]
      simp only [Option.isSome_some, true_and, hrecord]
      cases (ElementType.ofInt? type).bind (convert env.uninitialised (env.newUuid place) msg) with
      | none => simp
      | some e =>
        simp only [Option.mem_some_iff, forall_eq', map_eq_ok]
        rw [← updateDataFromMsgPack_ok_iff hload (.new (env.newUuid (0 :: place))) e]
        constructor
        · rintro ⟨_, e', he', -⟩
          exact ⟨e', he'⟩
        · rintro ⟨e', he'⟩
          exact ⟨some e', e', he', rfl⟩

end Element

end Liangshi
