import Liangshi.Board.AnimationAction

/-!
# Elements of a page

What can be drawn on a page: the classes under `Element`, their MessagePack records and the part of
the factory `Element::CreateFromType` that converts a record.  A double is kept by its bits.

A path packs its line attributes and a text its colour; every other class packs its place and size.
An element also has a helper, the widget it is edited with, which exists from the first time the
element is highlighted.
-/

namespace Liangshi

open Wire MessagePack

/-! ## Parts of records -/

/-- `SMatrix`, in the order of its record. -/
structure SMatrix where
  m11 : UInt64
  m12 : UInt64
  m22 : UInt64
  m21 : UInt64
  dx : UInt64
  dy : UInt64
deriving DecidableEq

namespace SMatrix

/-- The bits of `1.0`. -/
def one : UInt64 := 0x3ff0000000000000

/-- The identity, which the constructor makes. -/
def identity : SMatrix := ⟨one, 0, one, 0, 0, 0⟩

/-- Packing and converting back an `SMatrix`. -/
def codec : Codec SMatrix where
  toObj m := .array [Codec.double.toObj m.m11, Codec.double.toObj m.m12, Codec.double.toObj m.m22,
    Codec.double.toObj m.m21, Codec.double.toObj m.dx, Codec.double.toObj m.dy]
  convert o := do
    let objs ← Codec.items o
    let m11 ← Codec.double.field objs 0 one
    let m12 ← Codec.double.field objs 1 0
    let m22 ← Codec.double.field objs 2 one
    let m21 ← Codec.double.field objs 3 0
    let dx ← Codec.double.field objs 4 0
    let dy ← Codec.double.field objs 5 0
    return ⟨m11, m12, m22, m21, dx, dy⟩
  convert_toObj m := by simp

end SMatrix

/-- Arithmetic of doubles: the quotient of two integers, and an integer times a double cut to an
integer. -/
structure DoubleArithmetic where
  quotient : Int32 → Int32 → UInt64
  product : Int32 → UInt64 → Int32

/-- `ImageBuffer` and `CompressedImageBuffer`: the bytes of an image file. -/
structure ImageBuffer where
  imageData : LokiBuffer
deriving DecidableEq

namespace ImageBuffer

/-- The buffer of an image that is not there. -/
def null : ImageBuffer := ⟨⟨[]⟩⟩

/-- Packing and converting back an image buffer. -/
def codec : Codec ImageBuffer where
  toObj b := .array [LokiBuffer.codec.toObj b.imageData]
  convert o := do
    let objs ← Codec.items o
    let imageData ← LokiBuffer.codec.field objs 0 ⟨[]⟩
    return ⟨imageData⟩
  convert_toObj b := by simp

end ImageBuffer

/-! ## Classes of elements -/

/-- `ElementType`, without the type of media elements that no class has. -/
inductive ElementType where
  | draw
  | line
  | rect
  | ellipse
  | text
  | image
  | ban
  | banWithLabel
  | testBan
  | testBanWithLabel
  | compressedImage
  | htmlText
  | originalDraw
  | banState
  | imageState
deriving DecidableEq

namespace ElementType

/-- The value of an enumerator. -/
def toInt : ElementType → Int32
  | draw => 100
  | line => 101
  | rect => 102
  | ellipse => 103
  | text => 104
  | image => 105
  | ban => 106
  | banWithLabel => 107
  | testBan => 108
  | testBanWithLabel => 109
  | compressedImage => 111
  | htmlText => 112
  | originalDraw => 113
  | banState => 114
  | imageState => 115

/-- The enumerators in the order `CreateFromType` compares them. -/
def all : List ElementType :=
  [draw, line, rect, ellipse, image, text, ban, banWithLabel, testBan, testBanWithLabel,
    compressedImage, htmlText, originalDraw, banState, imageState]

/-- The enumerator an integer stands for. -/
def ofInt? (type : Int32) : Option ElementType :=
  all.find? fun t => t.toInt == type

/-- Every enumerator is found by its value. -/
@[simp] lemma ofInt?_toInt (t : ElementType) : ofInt? t.toInt = some t := by
  cases t <;> rfl

end ElementType

/-- The members of a `BanElement`: a page shown inside another, as `_data`. -/
structure BanMembers where
  leftTop : SPoint
  leftTopInSc : SPoint
  width : Int32
  height : Int32
  xZoom : UInt64
  yZoom : UInt64
  zoomWidth : Int32
  zoomHeight : Int32
  data : LokiBuffer
deriving DecidableEq

namespace BanMembers

/-- The items of the members in a record. -/
def toObjs (b : BanMembers) : List Obj :=
  [SPoint.codec.toObj b.leftTop, SPoint.codec.toObj b.leftTopInSc, Codec.int32.toObj b.width,
    Codec.int32.toObj b.height, Codec.double.toObj b.xZoom, Codec.double.toObj b.yZoom,
    Codec.int32.toObj b.zoomWidth, Codec.int32.toObj b.zoomHeight, LokiBuffer.codec.toObj b.data]

/-- Convert the items of a record to the members. -/
def convert (u : Uninitialised) (objs : List Obj) : Option BanMembers := do
  let leftTop ← SPoint.codec.field objs 2 ⟨0, 0⟩
  let leftTopInSc ← SPoint.codec.field objs 3 ⟨0, 0⟩
  let width ← Codec.int32.field objs 4 u.int
  let height ← Codec.int32.field objs 5 u.int
  let xZoom ← Codec.double.field objs 6 SMatrix.one
  let yZoom ← Codec.double.field objs 7 SMatrix.one
  let zoomWidth ← Codec.int32.field objs 8 u.int
  let zoomHeight ← Codec.int32.field objs 9 u.int
  let data ← LokiBuffer.codec.field objs 10 ⟨[]⟩
  return ⟨leftTop, leftTopInSc, width, height, xZoom, yZoom, zoomWidth, zoomHeight, data⟩

end BanMembers

/-- The class of an element, with the members that are its own. -/
inductive ElementBody where
  | draw (points : List SPoint)
  | line (start stop : SPoint)
  | rect (start stop : SPoint)
  | ellipse (start stop : SPoint)
  | text (leftTop : SPoint) (width height fontSize fontWeight : Int32) (text : Bytes)
  | image (leftTop : SPoint) (width height : Int32) (imageBuffer : ImageBuffer)
  | ban (members : BanMembers)
  | banWithLabel (members : BanMembers) (label : Bytes)
  | testBan (members : BanMembers)
  | testBanWithLabel (members : BanMembers) (label : Bytes)
  | compressedImage (leftTop : SPoint) (width height : Int32) (imageBuffer : ImageBuffer)
  | htmlText (leftTop : SPoint) (width height fontSize fontWeight : Int32) (text : Bytes)
  | originalDraw (points : List SPoint)
  | banState (leftTop : SPoint) (zoomWidth zoomHeight : Int32) (banElementUuid : Bytes)
  | imageState (leftTop : SPoint) (width height : Int32) (imageElementUuid : Bytes)
deriving DecidableEq

namespace ElementBody

/-- `GetType`. -/
def getType : ElementBody → ElementType
  | draw _ => .draw
  | line _ _ => .line
  | rect _ _ => .rect
  | ellipse _ _ => .ellipse
  | text _ _ _ _ _ _ => .text
  | image _ _ _ _ => .image
  | ban _ => .ban
  | banWithLabel _ _ => .banWithLabel
  | testBan _ => .testBan
  | testBanWithLabel _ _ => .testBanWithLabel
  | compressedImage _ _ _ _ => .compressedImage
  | htmlText _ _ _ _ _ _ => .htmlText
  | originalDraw _ => .originalDraw
  | banState _ _ _ _ => .banState
  | imageState _ _ _ _ => .imageState

/-- Whether the class is derived from `PathElement`. -/
def isPath : ElementBody → Bool
  | draw _ | line _ _ | rect _ _ | ellipse _ _ | originalDraw _ => true
  | _ => false

/-- Whether the class is `BanElement` or derived from it. -/
def isBan : ElementBody → Bool
  | ban _ | banWithLabel _ _ | testBan _ | testBanWithLabel _ _ => true
  | _ => false

/-- Whether the class is derived from `ImageBaseElement`. -/
def isImage : ElementBody → Bool
  | image _ _ _ _ | compressedImage _ _ _ _ => true
  | _ => false

/-- Whether the class is `TextElement` or `HtmlTextElement`. -/
def isText : ElementBody → Bool
  | text _ _ _ _ _ _ | htmlText _ _ _ _ _ _ => true
  | _ => false

end ElementBody

/-! ## Elements -/

/-- The widget an element is edited with: whether it is shown, and the text typed in it. -/
structure Helper where
  visible : Bool
  plainText : Bytes
deriving DecidableEq

/-- `Element`: what its record keeps, and its flags and its helper, which no record keeps.
`_lineQColor` is the colour of `_lineColor`. -/
structure Element where
  objUuid : Bytes
  lineWidth : Int32
  lineStyle : Int32
  lineColor : SColor
  matrix : SMatrix
  body : ElementBody
  highlighting : Bool
  canDelete : Bool
  canPaint : Bool
  canPreview : Bool
  helper : Option Helper
deriving DecidableEq

namespace Element

/-- The constructor, with the uuid that was made for the element. -/
def new (objUuid : Bytes) (body : ElementBody) : Element :=
  ⟨objUuid, 2, 1, 0xffffffff, .identity, body, false, true, true, true, none⟩

/-- `GetType`. -/
def getType (e : Element) : ElementType := e.body.getType

/-- The record of an element. -/
def toObj (e : Element) : Obj :=
  let uuid := Codec.string.toObj e.objUuid
  let lineColor := SColor.codec.toObj e.lineColor
  let matrix := SMatrix.codec.toObj e.matrix
  let lines := [uuid, Codec.int32.toObj e.lineWidth, Codec.int32.toObj e.lineStyle, lineColor,
    matrix]
  match e.body with
  | .draw points | .originalDraw points =>
    .array (lines ++ [(Codec.vector SPoint.codec).toObj points])
  | .line start stop | .rect start stop | .ellipse start stop =>
    .array (lines ++ [SPoint.codec.toObj start, SPoint.codec.toObj stop])
  | .text leftTop width height fontSize fontWeight text
  | .htmlText leftTop width height fontSize fontWeight text =>
    .array [uuid, lineColor, matrix, SPoint.codec.toObj leftTop, Codec.int32.toObj width,
      Codec.int32.toObj height, Codec.int32.toObj fontSize, Codec.int32.toObj fontWeight,
      Codec.string.toObj text]
  | .image leftTop width height imageBuffer | .compressedImage leftTop width height imageBuffer =>
    .array [uuid, matrix, SPoint.codec.toObj leftTop, Codec.int32.toObj width,
      Codec.int32.toObj height, ImageBuffer.codec.toObj imageBuffer]
  | .ban members | .testBan members => .array (uuid :: matrix :: members.toObjs)
  | .banWithLabel members label | .testBanWithLabel members label =>
    .array (uuid :: matrix :: members.toObjs ++ [Codec.string.toObj label, lineColor])
  | .banState leftTop zoomWidth zoomHeight banElementUuid =>
    .array [uuid, matrix, SPoint.codec.toObj leftTop, Codec.int32.toObj zoomWidth,
      Codec.int32.toObj zoomHeight, Codec.string.toObj banElementUuid]
  | .imageState leftTop width height imageElementUuid =>
    .array [uuid, matrix, SPoint.codec.toObj leftTop, Codec.int32.toObj width,
      Codec.int32.toObj height, Codec.string.toObj imageElementUuid]

/-- `GetMsgPackData`. -/
def getMsgPackData (e : Element) : Bytes := e.toObj.pack

/-- The items of a path's record; its class makes the body of what follows the matrix. -/
def convertPath (e : Element) (objs : List Obj) (body : Option ElementBody) : Option Element := do
  let objUuid ← Codec.string.field objs 0 e.objUuid
  let lineWidth ← Codec.int32.field objs 1 e.lineWidth
  let lineStyle ← Codec.int32.field objs 2 e.lineStyle
  let lineColor ← SColor.codec.field objs 3 e.lineColor
  let matrix ← SMatrix.codec.field objs 4 e.matrix
  let body ← body
  return { e with objUuid, lineWidth, lineStyle, lineColor, matrix, body }

/-- The items of a text's record. -/
def convertText (e : Element) (objs : List Obj)
    (body : SPoint → Int32 → Int32 → Int32 → Int32 → Bytes → ElementBody) : Option Element := do
  let objUuid ← Codec.string.field objs 0 e.objUuid
  let lineColor ← SColor.codec.field objs 1 e.lineColor
  let matrix ← SMatrix.codec.field objs 2 e.matrix
  let leftTop ← SPoint.codec.field objs 3 ⟨0, 0⟩
  let width ← Codec.int32.field objs 4 0
  let height ← Codec.int32.field objs 5 0
  let fontSize ← Codec.int32.field objs 6 20
  let fontWeight ← Codec.int32.field objs 7 0
  let text ← Codec.string.field objs 8 []
  return { e with
    objUuid, lineColor, matrix, body := body leftTop width height fontSize fontWeight text }

/-- The items of a record that has a place, a size and one more item of a type. -/
def convertPlaced {α : Type} (c : Codec α) (default : α) (size : Int32) (e : Element)
    (objs : List Obj) (body : SPoint → Int32 → Int32 → α → ElementBody) : Option Element := do
  let objUuid ← Codec.string.field objs 0 e.objUuid
  let matrix ← SMatrix.codec.field objs 1 e.matrix
  let leftTop ← SPoint.codec.field objs 2 ⟨0, 0⟩
  let width ← Codec.int32.field objs 3 size
  let height ← Codec.int32.field objs 4 size
  let last ← c.field objs 5 default
  return { e with objUuid, matrix, body := body leftTop width height last }

/-- The items of a `BanElement`'s record. -/
def convertBan (u : Uninitialised) (e : Element) (objs : List Obj)
    (body : BanMembers → ElementBody) : Option Element := do
  let objUuid ← Codec.string.field objs 0 e.objUuid
  let matrix ← SMatrix.codec.field objs 1 e.matrix
  let members ← BanMembers.convert u objs
  return { e with objUuid, matrix, body := body members }

/-- The items of the record of a `BanElement` with a label. -/
def convertBanWithLabel (u : Uninitialised) (e : Element) (objs : List Obj)
    (body : BanMembers → Bytes → ElementBody) : Option Element := do
  let objUuid ← Codec.string.field objs 0 e.objUuid
  let matrix ← SMatrix.codec.field objs 1 e.matrix
  let members ← BanMembers.convert u objs
  let label ← Codec.string.field objs 11 []
  let lineColor ← SColor.codec.field objs 12 e.lineColor
  return { e with objUuid, matrix, lineColor, body := body members label }

/-- The line of two points: what follows the matrix in the record of a line, a rectangle or an
ellipse. -/
def convertEnds (objs : List Obj) (body : SPoint → SPoint → ElementBody) : Option ElementBody := do
  let start ← SPoint.codec.field objs 5 ⟨0, 0⟩
  let stop ← SPoint.codec.field objs 6 ⟨0, 0⟩
  return body start stop

/-- Convert a record to a new element of a type, which has made itself a uuid. -/
def convert (u : Uninitialised) (uuid : Bytes) (o : Obj) (type : ElementType) : Option Element := do
  let objs ← Codec.items o
  let e := new uuid (.draw [])
  match type with
  | .draw => e.convertPath objs (((Codec.vector SPoint.codec).field objs 5 []).map .draw)
  | .line => e.convertPath objs (convertEnds objs .line)
  | .rect => e.convertPath objs (convertEnds objs .rect)
  | .ellipse => e.convertPath objs (convertEnds objs .ellipse)
  | .text => e.convertText objs .text
  | .image => convertPlaced ImageBuffer.codec .null 0 e objs .image
  | .ban => e.convertBan u objs .ban
  | .banWithLabel => e.convertBanWithLabel u objs .banWithLabel
  | .testBan => e.convertBan u objs .testBan
  | .testBanWithLabel => e.convertBanWithLabel u objs .testBanWithLabel
  | .compressedImage => convertPlaced ImageBuffer.codec .null 0 e objs .compressedImage
  | .htmlText => e.convertText objs .htmlText
  | .originalDraw =>
    e.convertPath objs (((Codec.vector SPoint.codec).field objs 5 []).map .originalDraw)
  | .banState => convertPlaced Codec.string [] u.int e objs .banState
  | .imageState => convertPlaced Codec.string [] u.int e objs .imageState

end Element

end Liangshi
