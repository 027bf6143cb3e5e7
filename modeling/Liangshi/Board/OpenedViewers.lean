import Liangshi.Board.Boards

/-!
# The pages inside elements

The page of a `BanElement` is data in its record.  Creating the element from the record loads the page
and works out the place and the size of the element from it (`openViewer`, `initViewer`), and the data in
the element is then what the loaded page writes.

Data that was written by a page with anchored elements is `Written`, at every depth, and two data that
hold the same are `SameData`.  If the data in an element `Opens`, the element is created from its record
(`Element.exists_createFromType`), and the created element is created from its own record as it is
(`Element.Steady`).
-/

namespace Liangshi

open Wire MessagePack Ordered

/-! ## Opening the pages of elements -/

/-- Whether the page of a `BanElement` is a test, and its data. -/
def ElementBody.viewer? : ElementBody → Option (Bool × Bytes)
  | .ban b | .banWithLabel b _ => some (false, b.data.data)
  | .testBan b | .testBanWithLabel b _ => some (true, b.data.data)
  | _ => none

/-- The page that a `BanElement` loads from its data, and what the page writes then. -/
def openViewer (load : Nat → Page → Bytes → Except LoadFault Page) (page : Page) :
    Bool → Bytes → Except LoadFault (Page × Bytes)
  | false, data => (load 0 page data).map fun viewer => (viewer, viewer.data)
  | true, data => (TestPage.loadWith load page data).map fun test => (test.page, test.data)

/-- `InitViewer` with the page that has been loaded. -/
def ElementBody.initViewer (env : Surroundings) (viewer : Page × Bytes) : ElementBody → ElementBody
  | .ban b => .ban (b.initViewer env viewer.1 viewer.2)
  | .banWithLabel b label => .banWithLabel (b.initViewer env viewer.1 viewer.2) label
  | .testBan b => .testBan (b.initViewer env viewer.1 viewer.2)
  | .testBanWithLabel b label => .testBanWithLabel (b.initViewer env viewer.1 viewer.2) label
  | body => body

/-- Data that `GetMsgPackData` can have written: of a page on which every state element comes after its
source, or of a test with such a page, where the same is true of the pages of all elements. -/
inductive Written : Bool → Bytes → Prop
  | page {page : Page} (anchored : Anchored page.shown)
      (viewers : ∀ e ∈ page.shown, ∀ test data, e.body.viewer? = some (test, data) →
        Written test data) : Written false page.data
  | test {test : TestPage} (page : Written false test.page.data) : Written true test.data

/-- Data of a page with the uuid `QUuid` makes of the uuid of another one, with its background and with
elements that are alike in the same order, where the same is true of the pages of all elements; and data
of tests with such pages. -/
inductive SameData (quuid : Bytes → Bytes) : Bool → Bytes → Bytes → Prop
  | page {page page' : Page} (own : page'.own = { page.own with uuid := quuid page.uuid })
      (elements : List.Forall₂ Element.Alike page.shown page'.shown)
      (viewers : ∀ (i : Nat) (e e' : Element) (test : Bool) (data data' : Bytes),
        page.shown[i]? = some e → page'.shown[i]? = some e' → e.body.viewer? = some (test, data) →
          e'.body.viewer? = some (test, data') → SameData quuid test data data') :
      SameData quuid false page.data page'.data
  | test {test test' : TestPage} (questionUuid : test'.questionUuid = test.questionUuid)
      (answerUuids : test'.answerUuids = test.answerUuids)
      (correctLabels : test'.correctLabels = test.correctLabels)
      (page : SameData quuid false test.page.data test'.page.data) :
      SameData quuid true test.data test'.data

/-- The second element has the class and the attributes of the first one and the same record, where a
`BanElement` has worked out its size anew from a page that holds the same. -/
structure Element.Restored (quuid : Bytes → Bytes) (e e' : Element) : Prop where
  alike : e.Alike e'
  record : e.body.isBan = false → e'.toObj = e.toObj
  viewer : ∀ test data, e.body.viewer? = some (test, data) →
    ∃ data', e'.body.viewer? = some (test, data') ∧ SameData quuid test data data'

/-- What Qt promises: `QUuid` writes the uuids it reads, the rectangle of a page is that of the elements
it draws, and no two elements are at one address. -/
structure Surroundings.Regular (env : Surroundings) : Prop where
  quuid : ∀ bytes, env.quuid (env.quuid bytes) = env.quuid bytes
  unitedRect : ∀ page page' : Page, page.shown = page'.shown → env.unitedRect page = env.unitedRect page'
  address : Function.Injective env.address

/-- Surroundings that differ in what is made anew: the uuids and the addresses of elements. -/
structure Surroundings.SameMachine (env env' : Surroundings) : Prop where
  doubles : env'.doubles = env.doubles
  quuid : env'.quuid = env.quuid
  unitedRect : env'.unitedRect = env.unitedRect

/-- A page that has been opened opens again with the same elements, and writes the same data. -/
def SteadyViewer (env : Surroundings) (test : Bool) (viewer : Page × Bytes) : Prop :=
  ∀ env', env.SameMachine env' → env'.Regular → ∀ (fuel : Nat) (place : List Nat) (page : Page),
    viewer.2.length < 2 ^ 32 → viewer.2.length ≤ fuel → ∃ viewer',
      openViewer (loadBoard env' fuel place) page test viewer.2 = .ok viewer' ∧
        viewer'.2 = viewer.2 ∧ viewer'.1.shown = viewer.1.shown

/-- Data that opens, and keeps what it holds. -/
def Opens (env : Surroundings) (test : Bool) (data : Bytes) : Prop :=
  ∀ (fuel : Nat) (place : List Nat) (page : Page), data.length < 2 ^ 32 → data.length ≤ fuel →
    ∃ viewer, openViewer (loadBoard env fuel place) page test data = .ok viewer ∧
      SameData env.quuid test data viewer.2 ∧ SteadyViewer env test viewer

namespace Element

variable {env env' : Surroundings} {e c : Element}

/-- An element without a page stays as it is. -/
lemma updateDataFromMsgPack_of_none (load : Nat → Page → Bytes → Except LoadFault Page) (page : Page)
    (h : e.body.viewer? = none) : e.updateDataFromMsgPack env load page = .ok e := by
  unfold updateDataFromMsgPack
  cases hbody : e.body <;> first | rfl | (rw [hbody] at h; cases h)

/-- A `BanElement` opens its page. -/
lemma updateDataFromMsgPack_of_some (load : Nat → Page → Bytes → Except LoadFault Page) (page : Page)
    {test : Bool} {data : Bytes} (h : e.body.viewer? = some (test, data)) :
    e.updateDataFromMsgPack env load page = (openViewer load page test data).map fun viewer =>
      { e with body := e.body.initViewer env viewer } := by
  have hmap : ∀ {α β γ : Type} (x : Except LoadFault α) (f : α → β) (g : β → γ),
      (x.map f).map g = x.map fun a => g (f a) := fun x _ _ => by cases x <;> rfl
  unfold updateDataFromMsgPack
  cases hbody : e.body with
  | ban | banWithLabel | testBan | testBanWithLabel =>
    rw [hbody] at h
    cases h
    simp only [openViewer, ElementBody.initViewer, BanMembers.update, BanMembers.updateTest, hmap]
  | _ =>
    rw [hbody] at h
    cases h

/-- An element with the attributes of the record of another one, that its own record converts to. -/
structure Rebuilt (e c : Element) : Prop where
  alike : e.Alike c
  source : e.SameSource c
  recorded : c.recorded = c

/-- An element that is created from its record as it is. -/
def Steady (env : Surroundings) (c : Element) : Prop :=
  ∀ env', env.SameMachine env' → env'.Regular → ∀ (fuel : Nat) (place : List Nat),
    c.getMsgPackData.length < 2 ^ 32 → c.getMsgPackData.length ≤ fuel →
      createFromType env' fuel place c.getType.toInt c.getMsgPackData = .ok (some c)

/-- What is recorded is recorded as it is. -/
lemma recorded_recorded (e : Element) : e.recorded.recorded = e.recorded := by
  unfold recorded
  cases e.body <;> rfl

/-- The data of a nested page is shorter than the record. -/
lemma length_viewer_lt {test : Bool} {data : Bytes} (hviewer : e.body.viewer? = some (test, data))
    (hlength : e.getMsgPackData.length < 2 ^ 32) : data.length < e.getMsgPackData.length := by
  have hconvert := nested_length_of_convert (convert_toObj ⟨0, false⟩ [] e)
  have hspan := span_le_of_unpackOne (unpackOne_getMsgPackData hlength)
  have hdata : e.recorded.body.nested = data := by
    show e.body.nested = data
    cases hbody : e.body <;> rw [hbody] at hviewer <;> cases hviewer <;> rfl
  rw [hdata] at hconvert
  omega

/-- The record of an element is unpacked and converted before it is brought up to date. -/
lemma createFromType_eq (env : Surroundings) (fuel : Nat) (place : List Nat)
    (hlength : e.getMsgPackData.length < 2 ^ 32) :
    createFromType env (fuel + 1) place e.getType.toInt e.getMsgPackData =
      (e.recorded.updateDataFromMsgPack env (loadBoard env fuel place)
        (.new (env.newUuid (0 :: place)))).map some := by
  simp only [createFromType, unpackOne_getMsgPackData hlength, ElementType.ofInt?_toInt,
    Option.bind_some, convert_toObj]
  rfl

/-- What `InitViewer` leaves of an element. -/
lemma rebuilt_initViewer (viewer : Page × Bytes) (e : Element) :
    e.Rebuilt { e.recorded with body := e.body.initViewer env viewer } := by
  have hplaced : (e.body.initViewer env viewer).placed = e.body.placed := by
    cases e.body <;> rfl
  have htype : (e.body.initViewer env viewer).getType = e.body.getType := by
    cases e.body <;> rfl
  refine ⟨⟨htype, ?_⟩, ⟨rfl, ?_, htype⟩, ?_⟩
  · rw [← e.alike_recorded.attributes]
    show Element.toObj { e.recorded with body := (e.body.initViewer env viewer).placed } = _
    rw [hplaced]
    rfl
  · show (e.body.initViewer env viewer).sourceUuid = e.body.sourceUuid
    cases e.body <;> rfl
  · unfold recorded
    cases e.body <;> rfl

/-- The page and the data that `InitViewer` has been told. -/
lemma viewer_initViewer (viewer : Page × Bytes) {body : ElementBody} {test : Bool} {data : Bytes}
    (h : body.viewer? = some (test, data)) :
    (body.initViewer env viewer).viewer? = some (test, viewer.2) := by
  have hdata : ∀ b : BanMembers, (b.initViewer env viewer.1 viewer.2).data.data = viewer.2 :=
    fun _ => LokiBuffer.data_ofData _
  cases body <;> cases h <;> simp only [ElementBody.initViewer, ElementBody.viewer?, hdata]

/-- `InitViewer` with the page it has been told already changes nothing. -/
lemma initViewer_initViewer (hmachine : env.SameMachine env') (henv : env'.Regular)
    {viewer viewer' : Page × Bytes} (hdata : viewer'.2 = viewer.2)
    (hshown : viewer'.1.shown = viewer.1.shown) (body : ElementBody) :
    (body.initViewer env viewer).initViewer env' viewer' = body.initViewer env viewer := by
  have hrect : env'.unitedRect viewer'.1 = env.unitedRect viewer.1 := by
    rw [henv.unitedRect _ _ hshown, hmachine.unitedRect]
  have hmembers : ∀ b : BanMembers,
      (b.initViewer env viewer.1 viewer.2).initViewer env' viewer'.1 viewer'.2 =
        b.initViewer env viewer.1 viewer.2 := by
    intro b
    simp only [BanMembers.initViewer, hrect, hmachine.doubles, hdata]
  cases body <;> simp only [ElementBody.initViewer, hmembers]

/-- A record is not empty. -/
lemma getMsgPackData_pos (h : e.getMsgPackData.length < 2 ^ 32) : 0 < e.getMsgPackData.length := by
  have hconvert := nested_length_of_convert (convert_toObj ⟨0, false⟩ [] e)
  have hspan := span_le_of_unpackOne (unpackOne_getMsgPackData h)
  omega

/-- An element without a page that has the attributes of its record is created from it as it is. -/
lemma steady_of_none (hrecorded : c.recorded = c) (hviewer : c.body.viewer? = none) :
    c.Steady env := by
  intro env' _ _ fuel place hlength hfuel
  have hpos := getMsgPackData_pos hlength
  obtain ⟨fuel, rfl⟩ := Nat.exists_eq_succ_of_ne_zero (show fuel ≠ 0 by omega)
  rw [createFromType_eq env' fuel place hlength, hrecorded, updateDataFromMsgPack_of_none _ _ hviewer]
  rfl

/-- An element whose page has been opened is created from its record as it is. -/
lemma steady_initViewer {test : Bool} {data : Bytes} {viewer : Page × Bytes}
    (hviewer : e.body.viewer? = some (test, data)) (hsteady : SteadyViewer env test viewer) :
    Steady env { e.recorded with body := e.body.initViewer env viewer } := by
  intro env' hmachine henv fuel place hlength hfuel
  have hpos := getMsgPackData_pos hlength
  have hopened : (e.body.initViewer env viewer).viewer? = some (test, viewer.2) :=
    viewer_initViewer viewer hviewer
  have hshorter := length_viewer_lt
    (e := { e.recorded with body := e.body.initViewer env viewer }) hopened hlength
  obtain ⟨fuel, rfl⟩ := Nat.exists_eq_succ_of_ne_zero (show fuel ≠ 0 by omega)
  obtain ⟨viewer', hload, hdata, hshown⟩ := hsteady env' hmachine henv fuel place
    (.new (env'.newUuid (0 :: place))) (by omega) (by omega)
  rw [createFromType_eq env' fuel place hlength, (rebuilt_initViewer viewer e).recorded,
    updateDataFromMsgPack_of_some _ _ hopened, hload]
  show Except.ok (some { e.recorded with
    body := (e.body.initViewer env viewer).initViewer env' viewer' }) = _
  rw [initViewer_initViewer hmachine henv hdata hshown]

/-- An element whose page opens is created from its record, and from then on it is created from its
record as it is. -/
lemma exists_createFromType {fuel : Nat} (place : List Nat)
    (hopens : ∀ test data, e.body.viewer? = some (test, data) → Opens env test data)
    (hlength : e.getMsgPackData.length < 2 ^ 32) (hfuel : e.getMsgPackData.length ≤ fuel) :
    ∃ c, createFromType env fuel place e.getType.toInt e.getMsgPackData = .ok (some c) ∧
      e.Rebuilt c ∧ c.Steady env ∧ e.Restored env.quuid c := by
  have hpos := getMsgPackData_pos hlength
  obtain ⟨fuel, rfl⟩ := Nat.exists_eq_succ_of_ne_zero (show fuel ≠ 0 by omega)
  rw [createFromType_eq env fuel place hlength]
  cases hviewer : e.body.viewer? with
  | none =>
    refine ⟨e.recorded, ?_, ⟨e.alike_recorded, ⟨rfl, rfl, rfl⟩, recorded_recorded e⟩,
      steady_of_none (recorded_recorded e) hviewer, e.alike_recorded, fun _ => e.toObj_recorded, ?_⟩
    · rw [updateDataFromMsgPack_of_none (e := e.recorded) _ _ hviewer]
      rfl
    · intro test data h
      rw [hviewer] at h
      cases h
  | some viewed =>
    obtain ⟨test, data⟩ := viewed
    have hshorter := length_viewer_lt hviewer hlength
    obtain ⟨viewer, hload, hsame, hsteady⟩ := hopens test data hviewer fuel place
      (.new (env.newUuid (0 :: place))) (by omega) (by omega)
    have hrebuilt : e.Rebuilt { e.recorded with body := e.body.initViewer env viewer } :=
      rebuilt_initViewer viewer e
    refine ⟨{ e.recorded with body := e.body.initViewer env viewer }, ?_, hrebuilt,
      steady_initViewer hviewer hsteady, hrebuilt.alike, hrebuilt.alike.toObj_eq, ?_⟩
    · rw [updateDataFromMsgPack_of_some (e := e.recorded) _ _ hviewer, hload]
      rfl
    · intro test' data' h
      rw [hviewer] at h
      cases h
      exact ⟨viewer.2, viewer_initViewer viewer hviewer, hsame⟩

end Element

end Liangshi
