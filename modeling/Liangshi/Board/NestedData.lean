import Liangshi.Board.PageData
import Liangshi.MessagePack.Span

/-!
# Nested pages

The page of a `BanElement` is data in the record of the element, and the records of its elements are
raw objects of that data: both are shorter than what they are in.  As much fuel as a record has bytes
is enough to create its element.
-/

namespace Liangshi

open Wire MessagePack Ordered

/-! ## Data in a record -/

/-- The data of the page of a body, where it has one. -/
def ElementBody.nested : ElementBody → Bytes
  | .ban b | .banWithLabel b _ | .testBan b | .testBanWithLabel b _ => b.data.data
  | _ => []

/-- Converting items keeps their number. -/
lemma length_of_mapM_convert {α : Type} (c : Codec α) {objs : List Obj} {values : List α}
    (h : objs.mapM c.convert = some values) : values.length = objs.length := by
  induction objs generalizing values with
  | nil => simpa using h.symm
  | cons o objs ih =>
    simp only [List.mapM_cons, Option.bind_eq_bind, Option.bind_eq_some_iff] at h
    obtain ⟨value, -, others, hothers, hvalues⟩ := h
    cases hvalues
    simp [ih hothers]

/-- The bytes of a buffer are no more than its record spans. -/
lemma LokiBuffer.length_of_convert {o : Obj} {b : LokiBuffer} (h : codec.convert o = some b) :
    b.data.length ≤ o.span := by
  cases o with
  | array objs =>
    simp only [codec, Codec.items_array, Option.bind_eq_bind, Option.bind_some,
      Option.bind_eq_some_iff] at h
    obtain ⟨buffer, hbuffer, hb⟩ := h
    cases hb
    rw [data, List.length_map]
    simp only [Codec.field] at hbuffer
    cases hfirst : objs[0]? with
    | none =>
      simp only [hfirst] at hbuffer
      cases hbuffer
      exact Nat.zero_le _
    | some first =>
      simp only [hfirst] at hbuffer
      have hmem := span_le_spans (List.mem_of_getElem? hfirst)
      cases first with
      | array items =>
        have hlength := length_of_mapM_convert Codec.int8 hbuffer
        have hitems := length_le_spans items
        rw [Obj.span] at hmem ⊢
        simp only [hlength]
        omega
      | _ => cases hbuffer
  | _ => cases h

/-- The bytes of a field that is a buffer are no more than the items span. -/
lemma LokiBuffer.length_of_field {objs : List Obj} {i : Nat} {b : LokiBuffer}
    (h : codec.field objs i ⟨[]⟩ = some b) : b.data.length ≤ spans objs := by
  unfold Codec.field at h
  cases hi : objs[i]? with
  | none =>
    rw [hi] at h
    cases h
    exact Nat.zero_le _
  | some o =>
    rw [hi] at h
    exact (length_of_convert h).trans (span_le_spans (List.mem_of_getElem? hi))

/-- The page of a `BanElement` is no longer than the items of the record. -/
lemma BanMembers.length_of_convert {u : Uninitialised} {objs : List Obj} {b : BanMembers}
    (h : convert u objs = some b) : b.data.data.length ≤ spans objs := by
  simp only [convert, Option.bind_eq_bind, Option.bind_eq_some_iff] at h
  obtain ⟨_, -, _, -, _, -, _, -, _, -, _, -, _, -, _, -, data, hdata, hb⟩ := h
  cases hb
  exact LokiBuffer.length_of_field hdata

namespace Element

variable {u : Uninitialised} {objs : List Obj} {x e : Element}

/-- An element of a class without a page has no data in it. -/
lemma nested_of_convertPath {body : Option ElementBody} (h : x.convertPath objs body = some e)
    (hbody : ∀ b ∈ body, b.nested = []) : e.body.nested.length ≤ spans objs := by
  simp only [convertPath, Option.bind_eq_bind, Option.bind_eq_some_iff] at h
  obtain ⟨_, -, _, -, _, -, _, -, _, -, b, hb, he⟩ := h
  cases he
  simp [hbody b hb]

/-- A text has no data of a page in it. -/
lemma nested_of_convertText
    {body : SPoint → Int32 → Int32 → Int32 → Int32 → Bytes → ElementBody}
    (h : x.convertText objs body = some e)
    (hbody : ∀ p w h s t text, (body p w h s t text).nested = []) :
    e.body.nested.length ≤ spans objs := by
  simp only [convertText, Option.bind_eq_bind, Option.bind_eq_some_iff] at h
  obtain ⟨_, -, _, -, _, -, _, -, _, -, _, -, _, -, _, -, _, -, he⟩ := h
  cases he
  simp [hbody]

/-- An element with one item after its place and size has no data of a page in it. -/
lemma nested_of_convertPlaced {α : Type} {c : Codec α} {default : α} {size : Int32}
    {body : SPoint → Int32 → Int32 → α → ElementBody}
    (h : convertPlaced c default size x objs body = some e)
    (hbody : ∀ p w h a, (body p w h a).nested = []) : e.body.nested.length ≤ spans objs := by
  simp only [convertPlaced, Option.bind_eq_bind, Option.bind_eq_some_iff] at h
  obtain ⟨_, -, _, -, _, -, _, -, _, -, _, -, he⟩ := h
  cases he
  simp [hbody]

/-- The page of a `BanElement` is no longer than its record. -/
lemma nested_of_convertBan {body : BanMembers → ElementBody} (h : x.convertBan u objs body = some e)
    (hbody : ∀ b, (body b).nested = b.data.data) : e.body.nested.length ≤ spans objs := by
  simp only [convertBan, Option.bind_eq_bind, Option.bind_eq_some_iff] at h
  obtain ⟨_, -, _, -, b, hb, he⟩ := h
  cases he
  simpa only [hbody] using BanMembers.length_of_convert hb

/-- The page of a `BanElement` with a label is no longer than its record. -/
lemma nested_of_convertBanWithLabel {body : BanMembers → Bytes → ElementBody}
    (h : x.convertBanWithLabel u objs body = some e)
    (hbody : ∀ b label, (body b label).nested = b.data.data) :
    e.body.nested.length ≤ spans objs := by
  simp only [convertBanWithLabel, Option.bind_eq_bind, Option.bind_eq_some_iff] at h
  obtain ⟨_, -, _, -, b, hb, _, -, _, -, he⟩ := h
  cases he
  simpa only [hbody] using BanMembers.length_of_convert hb

/-- The ends of a line make a body without a page. -/
lemma nested_of_convertEnds {body : SPoint → SPoint → ElementBody}
    (hbody : ∀ p q, (body p q).nested = []) : ∀ b ∈ convertEnds objs body, b.nested = [] := by
  intro b hb
  simp only [convertEnds, Option.mem_def, Option.bind_eq_bind, Option.bind_eq_some_iff] at hb
  obtain ⟨p, -, q, -, hb⟩ := hb
  cases hb
  exact hbody p q

/-- Points make a body without a page. -/
lemma nested_of_points {body : List SPoint → ElementBody} {points : Option (List SPoint)}
    (hbody : ∀ p, (body p).nested = []) : ∀ b ∈ points.map body, b.nested = [] := by
  intro b hb
  obtain ⟨p, -, rfl⟩ := Option.map_eq_some_iff.mp hb
  exact hbody p

/-- The data of a page that a converted element has is shorter than the record. -/
lemma nested_length_of_convert {uuid : Bytes} {o : Obj} {type : ElementType}
    (h : convert u uuid o type = some e) : e.body.nested.length < o.span := by
  cases o with
  | array objs =>
    have hle : e.body.nested.length ≤ spans objs := by
      simp only [convert, Codec.items_array, Option.bind_eq_bind, Option.bind_some] at h
      cases type with
      | draw => exact nested_of_convertPath h (nested_of_points fun _ => rfl)
      | originalDraw => exact nested_of_convertPath h (nested_of_points fun _ => rfl)
      | line => exact nested_of_convertPath h (nested_of_convertEnds fun _ _ => rfl)
      | rect => exact nested_of_convertPath h (nested_of_convertEnds fun _ _ => rfl)
      | ellipse => exact nested_of_convertPath h (nested_of_convertEnds fun _ _ => rfl)
      | text => exact nested_of_convertText h fun _ _ _ _ _ _ => rfl
      | htmlText => exact nested_of_convertText h fun _ _ _ _ _ _ => rfl
      | image => exact nested_of_convertPlaced h fun _ _ _ _ => rfl
      | compressedImage => exact nested_of_convertPlaced h fun _ _ _ _ => rfl
      | banState => exact nested_of_convertPlaced h fun _ _ _ _ => rfl
      | imageState => exact nested_of_convertPlaced h fun _ _ _ _ => rfl
      | ban => exact nested_of_convertBan h fun _ => rfl
      | testBan => exact nested_of_convertBan h fun _ => rfl
      | banWithLabel => exact nested_of_convertBanWithLabel h fun _ _ => rfl
      | testBanWithLabel => exact nested_of_convertBanWithLabel h fun _ _ => rfl
    rw [Obj.span]
    omega
  | _ => cases h

end Element

/-! ## Loads that agree -/

/-- Two loops agree when their turns agree on every object they meet. -/
lemma foldlM_congr {α β : Type} {f g : α → β → Except LoadFault α} {bs : List β}
    (h : ∀ b ∈ bs, ∀ a, f a b = g a b) (a : α) : bs.foldlM f a = bs.foldlM g a := by
  induction bs generalizing a with
  | nil => rfl
  | cons b bs ih =>
    rw [List.foldlM_cons, List.foldlM_cons, h b List.mem_cons_self]
    exact bind_congr fun a' => ih (fun b' hb' => h b' (List.mem_cons_of_mem b hb')) a'

/-- Pages load alike with ways to create elements that agree on the records in the data. -/
lemma Page.loadWith_congr {quuid : Bytes → Bytes} {address : Nat → Pointer}
    {create create' : ElementFactory} {bytes : Bytes}
    (h : ∀ n type raw, raw.length < bytes.length → create n type raw = create' n type raw)
    (page : Page) :
    page.loadWith quuid address create bytes = page.loadWith quuid address create' bytes := by
  have hnext : ∀ o ∈ (unpackAll bytes).1, ∀ s : PageLoad,
      s.next quuid address create o = s.next quuid address create' o := by
    intro o ho s
    cases o with
    | raw raw => simp only [PageLoad.next, h s.created s.type raw (length_lt_of_mem_unpackAll ho)]
    | _ => rfl
  unfold loadWith
  rw [foldlM_congr hnext]

/-- Tests load alike with loads that agree on the pages in the data. -/
lemma TestPage.loadWith_congr {load load' : Nat → Page → Bytes → Except LoadFault Page} {bytes : Bytes}
    (h : ∀ n page raw, raw.length < bytes.length → load n page raw = load' n page raw)
    (page : Page) : loadWith load page bytes = loadWith load' page bytes := by
  have hnext : ∀ o ∈ (unpackAll bytes).1, ∀ s, next load s o = next load' s o := by
    rintro o ho ⟨test, got, n⟩
    cases o with
    | raw raw =>
      cases got with
      | false => rfl
      | true => simp only [next, h n test.page raw (length_lt_of_mem_unpackAll ho)]
    | _ => cases got <;> rfl
  unfold loadWith
  rw [foldlM_congr hnext]

namespace Element

/-- Elements are updated alike with loads that agree on data no longer than their page. -/
lemma updateDataFromMsgPack_congr {env : Surroundings}
    {load load' : Nat → Page → Bytes → Except LoadFault Page} {e : Element}
    (h : ∀ n page raw, raw.length ≤ e.body.nested.length → load n page raw = load' n page raw)
    (page : Page) :
    e.updateDataFromMsgPack env load page = e.updateDataFromMsgPack env load' page := by
  have htest : ∀ bytes, bytes.length ≤ e.body.nested.length →
      TestPage.loadWith load page bytes = TestPage.loadWith load' page bytes := fun bytes hbytes =>
    TestPage.loadWith_congr (fun n page raw hraw => h n page raw (hraw.le.trans hbytes)) page
  unfold updateDataFromMsgPack
  cases hbody : e.body with
  | ban b =>
    rw [hbody] at h
    simp only [BanMembers.update, h 0 page b.data.data le_rfl]
  | banWithLabel b label =>
    rw [hbody] at h
    simp only [BanMembers.update, h 0 page b.data.data le_rfl]
  | testBan b =>
    rw [hbody] at htest
    simp only [BanMembers.updateTest, htest b.data.data le_rfl]
  | testBanWithLabel b label =>
    rw [hbody] at htest
    simp only [BanMembers.updateTest, htest b.data.data le_rfl]
  | _ => rfl

/-- As much fuel as the record has bytes is enough. -/
theorem createFromType_fuel (env : Surroundings) {fuel fuel' : Nat} {place : List Nat} {type : Int32}
    {bytes : Bytes} (h : bytes.length ≤ fuel) (h' : bytes.length ≤ fuel') :
    createFromType env fuel place type bytes = createFromType env fuel' place type bytes := by
  induction fuel generalizing fuel' place type bytes with
  | zero =>
    obtain rfl := List.length_eq_zero_iff.mp (Nat.le_zero.mp h)
    cases fuel' <;> rfl
  | succ fuel ih =>
    cases fuel' with
    | zero =>
      obtain rfl := List.length_eq_zero_iff.mp (Nat.le_zero.mp h')
      rfl
    | succ fuel' =>
      unfold createFromType
      cases hmsg : unpackOne bytes with
      | none => rfl
      | some msg =>
        cases hconvert : (ElementType.ofInt? type).bind
            (convert env.uninitialised (env.newUuid place) msg) with
        | none => simp only [hconvert]
        | some e =>
          obtain ⟨t, -, ht⟩ := Option.bind_eq_some_iff.mp hconvert
          have hnested := nested_length_of_convert ht
          have hspan := span_le_of_unpackOne hmsg
          -- The records in the page are shorter than the record it is in.
          have hload : ∀ n (page : Page) raw, raw.length ≤ e.body.nested.length →
              page.loadWith env.quuid (fun i => env.address (i :: n :: place))
                (fun i => createFromType env fuel (i :: n :: place)) raw =
              page.loadWith env.quuid (fun i => env.address (i :: n :: place))
                (fun i => createFromType env fuel' (i :: n :: place)) raw := by
            intro n page raw hraw
            exact Page.loadWith_congr (fun i type record hrecord => ih (by omega) (by omega)) page
          simp only [hconvert, updateDataFromMsgPack_congr hload]

end Element

end Liangshi
