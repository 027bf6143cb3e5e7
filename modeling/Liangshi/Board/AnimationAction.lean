import Liangshi.Shared.LokiCommand

/-!
# Animation actions

What a recorder notes about a lesson and what the holder of a live board sends: the classes of
`AnimationAction.h`, their MessagePack records and the factory `AnimationAction::CreateFromType`.

Every class packs the uuids of the page and of the element and the time first, then its own
members.  Whether an action has been played is not packed; a new action has not.
-/

namespace Liangshi

open Wire MessagePack

/-- `SPoint`. -/
structure SPoint where
  x : Int32
  y : Int32
deriving DecidableEq

/-- Packing and converting back an `SPoint`. -/
def SPoint.codec : Codec SPoint where
  toObj p := .array [Codec.int32.toObj p.x, Codec.int32.toObj p.y]
  convert o := do
    let objs ← Codec.items o
    let x ← Codec.int32.field objs 0 0
    let y ← Codec.int32.field objs 1 0
    return ⟨x, y⟩
  convert_toObj p := by simp

/-- `SColor`, the bits of a `QRgb`. -/
abbrev SColor := UInt32

/-- `QColor` of the bits of a `QRgb`, which is solid whatever their alpha. -/
def SColor.ofRgb (rgb : SColor) : SColor := rgb ||| 0xff000000

/-- Packing and converting back an `SColor`. -/
def SColor.codec : Codec SColor where
  toObj color := .posInt color.toNat
  convert
    | .posInt n => if n < 2 ^ 32 then some (UInt32.ofNat n) else none
    | _ => none
  convert_toObj color := by simp [color.toNat_lt]

/-! ## Classes of actions -/

/-- `AnimationType`. -/
inductive AnimationType where
  | show
  | hide
  | size
  | lineWidth
  | lineStyle
  | lineColor
  | switchPage
  | textChanged
  | topMost
  | bottomMost
  | networkShow
  | networkSwitchPage
deriving DecidableEq

namespace AnimationType

/-- The value of an enumerator. -/
def toInt : AnimationType → Int32
  | .show => 1001
  | hide => 1002
  | size => 1003
  | lineWidth => 1004
  | lineStyle => 1005
  | lineColor => 1006
  | switchPage => 1007
  | textChanged => 1008
  | topMost => 1009
  | bottomMost => 1010
  | networkShow => 1011
  | networkSwitchPage => 1012

/-- The enumerators in the order `CreateFromType` compares them. -/
def all : List AnimationType :=
  [.show, size, hide, switchPage, lineWidth, lineStyle, lineColor, topMost, bottomMost, textChanged,
    networkShow, networkSwitchPage]

/-- The enumerator an integer stands for. -/
def ofInt? (type : Int32) : Option AnimationType :=
  all.find? fun t => t.toInt == type

/-- Every enumerator is found by its value. -/
@[simp] lemma ofInt?_toInt (t : AnimationType) : ofInt? t.toInt = some t := by
  cases t <;> rfl

/-- No enumerator has a value of zero or less. -/
lemma toInt_pos (t : AnimationType) : 0 < t.toInt.toInt := by
  cases t <;> decide

end AnimationType

/-- The class of an action, with the members that are its own. -/
inductive AnimationKind where
  | show
  | hide
  | size (leftTop : SPoint) (width height : Int32)
  | lineWidth (width : Int32)
  | lineStyle (style : Int32)
  | lineColor (color : SColor)
  | switchPage
  | textChanged (text : Bytes) (fontSize : Int32)
  | topMost
  | bottomMost
  | networkShow (elementType : Int32) (elementData : LokiBuffer)
  | networkSwitchPage (pageData : LokiBuffer)
deriving DecidableEq

namespace AnimationKind

/-- `GetType`. -/
def getType : AnimationKind → AnimationType
  | .show => .show
  | hide => .hide
  | size _ _ _ => .size
  | lineWidth _ => .lineWidth
  | lineStyle _ => .lineStyle
  | lineColor _ => .lineColor
  | switchPage => .switchPage
  | textChanged _ _ => .textChanged
  | topMost => .topMost
  | bottomMost => .bottomMost
  | networkShow _ _ => .networkShow
  | networkSwitchPage _ => .networkSwitchPage

/-- The members of a class that come after the uuids and the time in its record. -/
def members : AnimationKind → List Obj
  | size leftTop width height =>
    [SPoint.codec.toObj leftTop, Codec.int32.toObj width, Codec.int32.toObj height]
  | lineWidth width => [Codec.int32.toObj width]
  | lineStyle style => [Codec.int32.toObj style]
  | lineColor color => [SColor.codec.toObj color]
  | textChanged text fontSize => [Codec.string.toObj text, Codec.int32.toObj fontSize]
  | networkShow elementType elementData =>
    [Codec.int32.toObj elementType, LokiBuffer.codec.toObj elementData]
  | networkSwitchPage pageData => [LokiBuffer.codec.toObj pageData]
  | .show | hide | switchPage | topMost | bottomMost => []

/-- Convert the items of a record to the members of a class. -/
def convert (u : Uninitialised) (objs : List Obj) : AnimationType → Option AnimationKind
  | .show => some .show
  | .hide => some hide
  | .size => do
    let leftTop ← SPoint.codec.field objs 3 ⟨0, 0⟩
    let width ← Codec.int32.field objs 4 u.int
    let height ← Codec.int32.field objs 5 u.int
    return size leftTop width height
  | .lineWidth => (Codec.int32.field objs 3 u.int).map lineWidth
  | .lineStyle => (Codec.int32.field objs 3 u.int).map lineStyle
  | .lineColor => (SColor.codec.field objs 3 u.int.toUInt32).map lineColor
  | .switchPage => some switchPage
  | .textChanged => do
    let text ← Codec.string.field objs 3 []
    let fontSize ← Codec.int32.field objs 4 u.int
    return textChanged text fontSize
  | .topMost => some topMost
  | .bottomMost => some bottomMost
  | .networkShow => do
    let elementType ← Codec.int32.field objs 3 u.int
    let elementData ← LokiBuffer.codec.field objs 4 ⟨[]⟩
    return networkShow elementType elementData
  | .networkSwitchPage => (LokiBuffer.codec.field objs 3 ⟨[]⟩).map networkSwitchPage

end AnimationKind

/-- `AnimationAction`: `_targetScUuid`, `_targetElementUuid`, `_time`, `_played` and the members of
its class. -/
structure AnimationAction where
  targetScUuid : Bytes
  targetElementUuid : Bytes
  time : Int32
  kind : AnimationKind
  played : Bool
deriving DecidableEq

namespace AnimationAction

/-- `GetType`. -/
def getType (a : AnimationAction) : AnimationType := a.kind.getType

/-- The record of an action. -/
def toObj (a : AnimationAction) : Obj :=
  .array (Codec.string.toObj a.targetScUuid :: Codec.string.toObj a.targetElementUuid ::
    Codec.int32.toObj a.time :: a.kind.members)

/-- Convert a record to the action of a type. -/
def convert (u : Uninitialised) (o : Obj) (type : AnimationType) : Option AnimationAction := do
  let objs ← Codec.items o
  let targetScUuid ← Codec.string.field objs 0 []
  let targetElementUuid ← Codec.string.field objs 1 []
  let time ← Codec.int32.field objs 2 u.int
  let kind ← AnimationKind.convert u objs type
  return ⟨targetScUuid, targetElementUuid, time, kind, false⟩

/-- `GetMsgPackData`. -/
def getMsgPackData (a : AnimationAction) : Bytes := a.toObj.pack

/-- `CreateFromType`: the body is unpacked outside the `try` block. -/
def createFromType (u : Uninitialised) (type : Int32) (buffer : Bytes) :
    Except LokiCommand.MsgpackException (Option AnimationAction) :=
  match unpackOne buffer with
  | none => .error .unpackError
  | some msg => .ok ((AnimationType.ofInt? type).bind (convert u msg))

/-- An action that has not been played. -/
def unplayed (a : AnimationAction) : AnimationAction := { a with played := false }

/-- The members of a class convert back behind the uuids and the time. -/
lemma convert_members (u : Uninitialised) (kind : AnimationKind) (o o' o'' : Obj) :
    AnimationKind.convert u (o :: o' :: o'' :: kind.members) kind.getType = some kind := by
  cases kind <;> simp [AnimationKind.convert, AnimationKind.members, AnimationKind.getType]

/-- The record of an action converts back to the action. -/
@[simp] lemma convert_toObj (u : Uninitialised) (a : AnimationAction) :
    convert u a.toObj a.getType = some a.unplayed := by
  simp [convert, toObj, getType, convert_members, unplayed]

/-- The record of a `LokiBuffer` has no large integers and two levels. -/
lemma shallow_lokiBuffer {depth : Nat} (b : LokiBuffer) :
    (LokiBuffer.codec.toObj b).Shallow (depth + 2) := by
  have hchars : AllShallow depth (b.buffer.map Codec.int8.toObj) := by
    rw [allShallow_iff]
    intro o ho
    obtain ⟨c, -, rfl⟩ := List.mem_map.mp ho
    have hlo := Int8.le_toInt c
    have hhi := Int8.toInt_lt c
    exact shallow_ofInt (by omega) (by omega)
  exact ⟨Nat.succ_pos _, ⟨Nat.succ_pos _, hchars⟩, trivial⟩

/-- The record of an action has no large integers and three levels. -/
lemma shallow_toObj (a : AnimationAction) : a.toObj.Shallow embedStackSize := by
  have hint : ∀ (depth : Nat) (i : Int32), (Codec.int32.toObj i).Shallow depth :=
    fun depth i => shallow_ofInt (Int32.le_toInt i) (Int32.toInt_lt i)
  have hmembers : AllShallow (embedStackSize - 1) a.kind.members := by
    cases hkind : a.kind with
    | size leftTop width height =>
      exact ⟨⟨Nat.succ_pos _, hint _ _, hint _ _, trivial⟩, hint _ _, hint _ _, trivial⟩
    | lineWidth width => exact ⟨hint _ _, trivial⟩
    | lineStyle style => exact ⟨hint _ _, trivial⟩
    | lineColor color =>
      have hlt := color.toNat_lt
      exact ⟨by simp only [SColor.codec, Obj.Shallow]; omega, trivial⟩
    | textChanged text fontSize => exact ⟨trivial, hint _ _, trivial⟩
    | networkShow elementType elementData =>
      exact ⟨hint _ _, shallow_lokiBuffer elementData, trivial⟩
    | networkSwitchPage pageData => exact ⟨shallow_lokiBuffer pageData, trivial⟩
    | _ => trivial
  exact ⟨Nat.succ_pos _, trivial, trivial, hint _ _, hmembers⟩

/-- An action whose record is short enough is created again from it. -/
theorem createFromType_getMsgPackData (u : Uninitialised) {a : AnimationAction}
    (h : a.getMsgPackData.length < 2 ^ 32) :
    createFromType u a.getType.toInt a.getMsgPackData = .ok (some a.unplayed) := by
  have hunpack := unpackOne_pack (a.shallow_toObj.packable h) []
  rw [List.append_nil] at hunpack
  simp only [createFromType, getMsgPackData, hunpack, AnimationType.ofInt?_toInt, Option.bind_some,
    convert_toObj]

end AnimationAction

end Liangshi
