import Liangshi.Board.PageLoading

/-!
# The records of elements

Every class of elements packs a record that converts back: to an element with the attributes of the
class, without the flags and the helper, and with the attributes the class does not use as a new element
has them (`convert_toObj`).  An element that is created from a record has the attributes of the record
but for what a `BanElement` works out anew from the page it holds (`alike_of_updateDataFromMsgPack`).
-/

namespace Liangshi

open Wire MessagePack

namespace ElementBody

/-- Whether the class packs the colour of its lines. -/
def packsColor : ElementBody → Bool
  | draw _ | line _ _ | rect _ _ | ellipse _ _ | originalDraw _ | text .. | htmlText ..
  | banWithLabel .. | testBanWithLabel .. => true
  | _ => false

/-- Whether the class is the state of another element. -/
def isState : ElementBody → Bool
  | banState .. | imageState .. => true
  | _ => false

end ElementBody

namespace BanMembers

/-- The members without those that `InitViewer` works out. -/
def placed (b : BanMembers) : BanMembers := ⟨b.leftTop, ⟨0, 0⟩, 0, 0, b.xZoom, b.yZoom, 0, 0, ⟨[]⟩⟩

/-- Opening the page in an element changes nothing but its place and size. -/
@[simp] lemma placed_initViewer (env : Surroundings) (viewer : Page) (data : Bytes)
    (b : BanMembers) : (b.initViewer env viewer data).placed = b.placed := rfl

end BanMembers

namespace ElementBody

/-- The members without those that `InitViewer` works out. -/
def placed : ElementBody → ElementBody
  | ban b => .ban b.placed
  | banWithLabel b label => .banWithLabel b.placed label
  | testBan b => .testBan b.placed
  | testBanWithLabel b label => .testBanWithLabel b.placed label
  | body => body

/-- The place and the size do not count for the type. -/
@[simp] lemma getType_placed (body : ElementBody) : body.placed.getType = body.getType := by
  cases body <;> rfl

end ElementBody

namespace Element

/-- The element that the record of an element converts to. -/
def recorded (e : Element) : Element :=
  { new e.objUuid e.body with
    lineWidth := if e.body.isPath then e.lineWidth else 2
    lineStyle := if e.body.isPath then e.lineStyle else 1
    lineColor := if e.body.packsColor then e.lineColor else 0xffffffff
    matrix := e.matrix }

/-- A record converts to the element with the attributes of its class. -/
lemma convert_toObj (u : Uninitialised) (uuid : Bytes) (e : Element) :
    convert u uuid e.toObj e.getType = some e.recorded := by
  cases hbody : e.body with
  | _ =>
    simp [convert, toObj, getType, hbody, ElementBody.getType, convertPath, convertText,
      convertPlaced, convertBan, convertBanWithLabel, convertEnds, BanMembers.convert,
      BanMembers.toObjs, recorded, new, ElementBody.isPath, ElementBody.packsColor]

/-- The record of the element that a record converts to is the same record. -/
@[simp] lemma toObj_recorded (e : Element) : e.recorded.toObj = e.toObj := by
  cases hbody : e.body <;>
    simp [toObj, recorded, new, hbody, ElementBody.isPath, ElementBody.packsColor]

/-- The record of an element is within the bounds of the format other than those on lengths. -/
lemma shallow_toObj (e : Element) : e.toObj.Shallow embedStackSize := by
  have hint : ∀ (depth : Nat) (i : Int32), (Codec.int32.toObj i).Shallow depth :=
    fun depth i => shallow_ofInt (Int32.le_toInt i) (Int32.toInt_lt i)
  have hstring : ∀ (depth : Nat) (bytes : Bytes), (Codec.string.toObj bytes).Shallow depth :=
    fun _ _ => trivial
  have hpoint : ∀ (depth : Nat) (p : SPoint), (SPoint.codec.toObj p).Shallow (depth + 1) :=
    fun depth p => ⟨Nat.succ_pos _, hint _ _, hint _ _, trivial⟩
  have hcolor : ∀ (depth : Nat) (color : SColor), (SColor.codec.toObj color).Shallow depth := by
    intro depth color
    have hlt := color.toNat_lt
    simp only [SColor.codec, Obj.Shallow]
    omega
  have hmatrix : ∀ (depth : Nat) (m : SMatrix), (SMatrix.codec.toObj m).Shallow (depth + 1) :=
    fun depth m => ⟨Nat.succ_pos _, trivial, trivial, trivial, trivial, trivial, trivial, trivial⟩
  have hpoints : ∀ (depth : Nat) (points : List SPoint),
      ((Codec.vector SPoint.codec).toObj points).Shallow (depth + 2) := by
    intro depth points
    refine ⟨Nat.succ_pos _, allShallow_iff.mpr fun item hitem => ?_⟩
    obtain ⟨p, -, rfl⟩ := List.mem_map.mp hitem
    exact hpoint depth p
  have hbuffer : ∀ (depth : Nat) (b : LokiBuffer), (LokiBuffer.codec.toObj b).Shallow (depth + 2) :=
    fun depth b => AnimationAction.shallow_lokiBuffer b
  have hdouble : ∀ (depth : Nat) (bits : UInt64), (Codec.double.toObj bits).Shallow depth :=
    fun _ _ => trivial
  have himage : ∀ (depth : Nat) (b : ImageBuffer),
      (ImageBuffer.codec.toObj b).Shallow (depth + 3) :=
    fun depth b => ⟨Nat.succ_pos _, hbuffer _ _, trivial⟩
  have harray : ∀ items : List Obj, (∀ item ∈ items, item.Shallow (embedStackSize - 1)) →
      (Obj.array items).Shallow embedStackSize :=
    fun items h => ⟨Nat.succ_pos _, allShallow_iff.mpr h⟩
  unfold toObj
  cases e.body with
  | _ =>
    refine harray _ ?_
    simp [BanMembers.toObjs, hint, hstring, hpoint, hcolor, hmatrix, hpoints, hbuffer, hdouble, himage,
      embedStackSize]

/-! ## Created elements -/

/-- The attributes of an element: its record, without what a `BanElement` works out from its page. -/
def attributes (e : Element) : Obj := { e with body := e.body.placed }.toObj

/-- An element of the same class with the same attributes. -/
structure Alike (e e' : Element) : Prop where
  getType : e'.getType = e.getType
  attributes : e'.attributes = e.attributes

/-- Elements that are like a third one are alike. -/
lemma Alike.trans {e e' e'' : Element} (h : e.Alike e') (h' : e'.Alike e'') : e.Alike e'' :=
  ⟨h'.getType.trans h.getType, h'.attributes.trans h.attributes⟩

/-- The record of an element that is no `BanElement` is its attributes. -/
lemma attributes_eq {e : Element} (h : e.body.isBan = false) : e.attributes = e.toObj := by
  unfold attributes
  have hplaced : e.body.placed = e.body := by
    cases hbody : e.body <;> first | rfl | (rw [hbody] at h; cases h)
  rw [hplaced]

/-- Elements that are alike have the same record, unless they are `BanElement`s. -/
lemma Alike.toObj_eq {e e' : Element} (h : e.Alike e') (hban : e.body.isBan = false) :
    e'.toObj = e.toObj := by
  have hclass : e'.body.isBan = e.body.isBan := by
    have htype : e'.body.getType = e.body.getType := h.getType
    cases hbody : e.body <;> cases hbody' : e'.body <;>
      first | rfl | (rw [hbody, hbody'] at htype; cases htype)
  rw [← attributes_eq hban, ← h.attributes, attributes_eq (hclass.trans hban)]

/-- What an element that a record converts to has. -/
lemma alike_recorded (e : Element) : e.Alike e.recorded := by
  refine ⟨rfl, ?_⟩
  have hplaced : { e.recorded with body := e.recorded.body.placed }.toObj =
      { e with body := e.body.placed }.recorded.toObj := by
    unfold recorded
    cases e.body <;> rfl
  rw [attributes, hplaced, toObj_recorded]
  rfl

/-- The page of a `BanElement` does not change what its record says of the element itself. -/
lemma alike_of_updateDataFromMsgPack {env : Surroundings}
    {load : Nat → Page → Bytes → Except LoadFault Page} {page : Page} {e e' : Element}
    (h : e.updateDataFromMsgPack env load page = .ok e') :
    e.Alike e' ∧ e'.objUuid = e.objUuid ∧ e'.canPaint = e.canPaint := by
  have hban : ∀ (make : BanMembers → ElementBody) {b b' : BanMembers}, e.body = make b →
      (∀ b b', b.placed = b'.placed → (make b).placed = (make b').placed) →
      (∀ b b', (make b).getType = (make b').getType) → b'.placed = b.placed →
      { e with body := make b' } = e' →
      e.Alike e' ∧ e'.objUuid = e.objUuid ∧ e'.canPaint = e.canPaint := by
    rintro make b b' hbody hplaced htype hb rfl
    refine ⟨⟨?_, ?_⟩, rfl, rfl⟩
    · show (make b').getType = e.body.getType
      rw [hbody, htype]
    · unfold attributes
      rw [hbody, hplaced b' b hb]
  unfold updateDataFromMsgPack at h
  cases hbody : e.body with
  | ban b =>
    simp only [hbody] at h
    obtain ⟨b', hb, he⟩ := map_eq_ok.mp h
    obtain ⟨viewer, -, rfl⟩ := map_eq_ok.mp hb
    exact hban .ban hbody (fun _ _ h => congrArg ElementBody.ban h) (fun _ _ => rfl)
      (BanMembers.placed_initViewer env viewer _ b) he
  | banWithLabel b label =>
    simp only [hbody] at h
    obtain ⟨b', hb, he⟩ := map_eq_ok.mp h
    obtain ⟨viewer, -, rfl⟩ := map_eq_ok.mp hb
    exact hban (.banWithLabel · label) hbody
      (fun _ _ h => congrArg (ElementBody.banWithLabel · label) h) (fun _ _ => rfl)
      (BanMembers.placed_initViewer env viewer _ b) he
  | testBan b =>
    simp only [hbody] at h
    obtain ⟨b', hb, he⟩ := map_eq_ok.mp h
    obtain ⟨test, -, rfl⟩ := map_eq_ok.mp hb
    exact hban .testBan hbody (fun _ _ h => congrArg ElementBody.testBan h)
      (fun _ _ => rfl) (BanMembers.placed_initViewer env test.page _ b) he
  | testBanWithLabel b label =>
    simp only [hbody] at h
    obtain ⟨b', hb, he⟩ := map_eq_ok.mp h
    obtain ⟨test, -, rfl⟩ := map_eq_ok.mp hb
    exact hban (.testBanWithLabel · label) hbody
      (fun _ _ h => congrArg (ElementBody.testBanWithLabel · label) h) (fun _ _ => rfl)
      (BanMembers.placed_initViewer env test.page _ b) he
  | _ =>
    simp only [hbody] at h
    cases h
    exact ⟨⟨rfl, rfl⟩, rfl, rfl⟩

/-- A record that is short enough is unpacked. -/
lemma unpackOne_getMsgPackData {e : Element} (h : e.getMsgPackData.length < 2 ^ 32) :
    unpackOne e.getMsgPackData = some e.toObj := by
  have hunpack := unpackOne_pack (e.shallow_toObj.packable h) []
  rwa [List.append_nil] at hunpack

/-- What is created from the record of an element is alike, and painted. -/
lemma alike_of_createFromType {env : Surroundings} {fuel : Nat} {place : List Nat} {e : Element}
    {r : Option Element} (hlength : e.getMsgPackData.length < 2 ^ 32)
    (h : createFromType env fuel place e.getType.toInt e.getMsgPackData = .ok r) :
    ∃ e', r = some e' ∧ e.Alike e' ∧ e'.objUuid = e.objUuid ∧ e'.canPaint = true := by
  cases fuel with
  | zero => cases h
  | succ fuel =>
    simp only [createFromType, unpackOne_getMsgPackData hlength, ElementType.ofInt?_toInt,
      Option.bind_some, convert_toObj] at h
    obtain ⟨e', hupdate, rfl⟩ := map_eq_ok.mp h
    obtain ⟨halike, huuid, hpaint⟩ := alike_of_updateDataFromMsgPack hupdate
    exact ⟨e', rfl, e.alike_recorded.trans halike, huuid, hpaint⟩

end Element

end Liangshi
