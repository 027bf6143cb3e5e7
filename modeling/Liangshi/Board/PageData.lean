import Liangshi.Board.Page

/-!
# The data of a page

What `BanBaseWidget::GetMsgPackData` writes of a page and what `SetMsgPackData` makes of any bytes.
A page holds its uuid, a record of its own and its elements, each as a type and a raw record.  A
`BanElement` holds the data of another page in its record, and loads it as soon as it is created: the
two loads call each other, on shorter bytes every time.

Loading can end in a fault: `unpack` and `convert` throw, and the state of an element that is not
there is a null pointer, which is dereferenced.
-/

namespace Liangshi

open Wire MessagePack Ordered

/-- What ends a function without a result: an exception, or a null pointer that is dereferenced. -/
inductive LoadFault where
  | throws (exception : LokiCommand.MsgpackException)
  | nullDereference
deriving DecidableEq

/-- `KE_FILE_MIN_VERSION`, the last version of a file that is read. -/
def keFileMinVersion : Int32 := 5

/-- What the surroundings decide when pages are loaded: `QUuid` of a text, the rectangle of a page's
elements, and the uuids and addresses of the elements that are made, each of which is named by its
place in the data. -/
structure Surroundings where
  uninitialised : Uninitialised
  doubles : DoubleArithmetic
  quuid : Bytes → Bytes
  unitedRect : Page → SPoint × Int32 × Int32
  newUuid : List Nat → Bytes
  address : List Nat → Pointer

/-! ## Writing -/

namespace Page

/-- The record of a page. -/
def thisObj (page : Page) : Obj :=
  .array [LokiBuffer.codec.toObj page.zipCode, ImageBuffer.codec.toObj page.backgroundImage]

/-- The objects of an element in the data of a page. -/
def elementObjects (page : Page) (p : Pointer) : List Obj :=
  match page.element p with
  | some e => [Codec.int32.toObj e.getType.toInt, .raw e.getMsgPackData]
  | none => []

/-- `GetMsgPackData`, as far as it writes. -/
def data (page : Page) : Bytes :=
  packAll ([.raw page.uuid, .raw page.thisObj.pack] ++
    page.drawingElements.flatMap page.elementObjects)

/-- `GetMsgPackData`. -/
def getMsgPackData (page : Page) : Page × Bytes :=
  (page.deHighlightElement, page.deHighlightElement.data)

/-! ## Loading -/

/-- Convert the record of a page. -/
def convertThis (page : Page) (o : Obj) : Option Page := do
  let objs ← Codec.items o
  let zipCode ← LokiBuffer.codec.field objs 0 page.zipCode
  let backgroundImage ← ImageBuffer.codec.field objs 1 page.backgroundImage
  return { page with zipCode, backgroundImage }

/-- The element a state belongs to is not painted any more; it must be there, and of its class. -/
def linkState (page : Page) (uuid : Bytes) (isOfClass : ElementBody → Bool) : Except LoadFault Page :=
  match page.findElementByUuid uuid with
  | some p =>
    if (page.element p).any fun e => isOfClass e.body then
      .ok (page.modify p (·.setCanPaint false))
    else
      .error .nullDereference
  | none => .error .nullDereference

/-- What an element does to the elements loaded before it. -/
def link (page : Page) (e : Element) : Except LoadFault Page :=
  match e.body with
  | .banState _ _ _ uuid => page.linkState uuid ElementBody.isBan
  | .imageState _ _ _ uuid => page.linkState uuid ElementBody.isImage
  | _ => .ok page

/-- A loaded element comes to the end of the drawing. -/
def append (page : Page) (p : Pointer) (e : Element) : Page :=
  { page.setElement p e with
    allElements := page.allElements.insert p
    drawingElements := page.drawingElements ++ [p] }

end Page

/-- The variables of the loop in `SetMsgPackData`, and how many elements it has put on the page. -/
structure PageLoad where
  page : Page
  getUuid : Bool
  getThis : Bool
  type : Int32
  created : Nat

/-- What creates the element that comes next from a type and a record. -/
abbrev ElementFactory := Nat → Int32 → Bytes → Except LoadFault (Option Element)

namespace PageLoad

/-- An element that could be created is put on the page. -/
def add (s : PageLoad) (p : Pointer) : Option Element → Except LoadFault PageLoad
  | none => .ok s
  | some e => (s.page.link e).map fun page =>
    { s with page := page.append p e, created := s.created + 1 }

/-- The first raw object is the uuid. -/
def setUuid (s : PageLoad) (uuid : Bytes) : PageLoad :=
  { s with page := { s.page with uuid }, getUuid := true }

/-- The second raw object is the record of the page. -/
def setThis (s : PageLoad) (bytes : Bytes) : Except LoadFault PageLoad :=
  match unpackOne bytes with
  | none => .error (.throws .unpackError)
  | some msg =>
    match s.page.convertThis msg with
    | none => .error (.throws .typeError)
    | some page => .ok { s with page, getThis := true }

/-- One turn of the loop. -/
def next (quuid : Bytes → Bytes) (address : Nat → Pointer) (create : ElementFactory) (s : PageLoad)
    (object : Obj) : Except LoadFault PageLoad :=
  match object with
  | .posInt _ =>
    match Codec.int32.convert object with
    | some type => .ok { s with type }
    | none => .error (.throws .typeError)
  | .raw bytes =>
    if s.type = 0 then
      if !s.getUuid then .ok (s.setUuid (quuid bytes))
      else if !s.getThis then s.setThis bytes
      else .ok s
    else
      match create s.created s.type bytes with
      | .error fault => .error fault
      | .ok element => s.add (address s.created) element
  | _ => .ok s

end PageLoad

/-- `SetMsgPackData` with a way to create elements: the objects are handled one by one before a
malformed one throws. -/
def Page.loadWith (quuid : Bytes → Bytes) (address : Nat → Pointer) (create : ElementFactory)
    (page : Page) (bytes : Bytes) : Except LoadFault Page :=
  match (unpackAll bytes).1.foldlM (PageLoad.next quuid address create)
      ⟨page.clearAll, false, false, 0, 0⟩ with
  | .error fault => .error fault
  | .ok s => if (unpackAll bytes).2 = .malformed then .error (.throws .unpackError) else .ok s.page

/-! ## Pages of tests -/

/-- `TestBaseWidget`: a page with the uuids of a question and its answers. -/
structure TestPage where
  page : Page
  questionUuid : Bytes
  answerUuids : List Bytes
  correctLabels : List Bytes

namespace TestPage

/-- Convert the record of a test. -/
def convertThis (test : TestPage) (o : Obj) : Option TestPage := do
  let objs ← Codec.items o
  let questionUuid ← Codec.string.field objs 0 test.questionUuid
  let answerUuids ← (Codec.vector Codec.string).field objs 1 test.answerUuids
  let correctLabels ← (Codec.vector Codec.string).field objs 2 test.correctLabels
  return { test with questionUuid, answerUuids, correctLabels }

/-- The record of a test. -/
def thisObj (test : TestPage) : Obj :=
  .array [Codec.string.toObj test.questionUuid,
    (Codec.vector Codec.string).toObj test.answerUuids,
    (Codec.vector Codec.string).toObj test.correctLabels]

/-- `GetMsgPackData` of a test, as far as it writes. -/
def data (test : TestPage) : Bytes :=
  packAll [.raw test.thisObj.pack, .raw test.page.data]

/-- One turn of the loop in `SetMsgPackData` of a test: the first raw object is its record, the
others are pages.  The number counts the pages. -/
def next (load : Nat → Page → Bytes → Except LoadFault Page) (s : TestPage × Bool × Nat) (object : Obj) :
    Except LoadFault (TestPage × Bool × Nat) :=
  match s, object with
  | (test, false, n), .raw bytes =>
    match unpackOne bytes with
    | none => .error (.throws .unpackError)
    | some msg =>
      match test.convertThis msg with
      | none => .error (.throws .typeError)
      | some test => .ok (test, true, n)
  | (test, true, n), .raw bytes =>
    (load n test.page bytes).map fun page => ({ test with page }, true, n + 1)
  | s, _ => .ok s

/-- `SetMsgPackData` of a new test. -/
def loadWith (load : Nat → Page → Bytes → Except LoadFault Page) (page : Page) (bytes : Bytes) :
    Except LoadFault TestPage :=
  match (unpackAll bytes).1.foldlM (next load) (⟨page, [], [], []⟩, false, 0) with
  | .error fault => .error fault
  | .ok s => if (unpackAll bytes).2 = .malformed then .error (.throws .unpackError) else .ok s.1

end TestPage

/-! ## Creating elements -/

namespace BanMembers

/-- A width or height that is not positive becomes one. -/
def positive (i : Int32) : Int32 := if i ≤ 0 then 1 else i

/-- `InitViewer`. -/
def initViewer (env : Surroundings) (viewer : Page) (data : Bytes) (b : BanMembers) : BanMembers :=
  let (leftTop, width, height) := env.unitedRect viewer
  { b with
    leftTopInSc := leftTop
    width := positive width
    height := positive height
    zoomWidth := env.doubles.product (positive width) b.xZoom
    zoomHeight := env.doubles.product (positive height) b.yZoom
    data := .ofData data }

/-- `UpdateDataFromMsgPack` of a `BanElement`. -/
def update (env : Surroundings) (load : Page → Bytes → Except LoadFault Page) (page : Page)
    (b : BanMembers) : Except LoadFault BanMembers :=
  (load page b.data.data).map fun viewer => b.initViewer env viewer viewer.data

/-- `UpdateDataFromMsgPack` of a `TestBanElement`. -/
def updateTest (env : Surroundings) (load : Nat → Page → Bytes → Except LoadFault Page) (page : Page)
    (b : BanMembers) : Except LoadFault BanMembers :=
  (TestPage.loadWith load page b.data.data).map fun test => b.initViewer env test.page test.data

end BanMembers

namespace Element

/-- `UpdateDataFromMsgPack`: a `BanElement` loads its page. -/
def updateDataFromMsgPack (env : Surroundings) (load : Nat → Page → Bytes → Except LoadFault Page)
    (page : Page) (e : Element) : Except LoadFault Element :=
  match e.body with
  | .ban b => (b.update env (load 0) page).map fun b => { e with body := .ban b }
  | .banWithLabel b label =>
    (b.update env (load 0) page).map fun b => { e with body := .banWithLabel b label }
  | .testBan b => (b.updateTest env load page).map fun b => { e with body := .testBan b }
  | .testBanWithLabel b label =>
    (b.updateTest env load page).map fun b => { e with body := .testBanWithLabel b label }
  | _ => .ok e

/-- `CreateFromType` of the element at a place in the data: the record is unpacked outside the `try`
block, and so is what a `BanElement` loads.  The fuel bounds the length of the record. -/
def createFromType (env : Surroundings) :
    Nat → List Nat → Int32 → Bytes → Except LoadFault (Option Element)
  | 0, _, _, _ => .error (.throws .unpackError)
  | fuel + 1, place, type, buffer =>
    match unpackOne buffer with
    | none => .error (.throws .unpackError)
    | some msg =>
      match (ElementType.ofInt? type).bind
          (convert env.uninitialised (env.newUuid place) msg) with
      | none => .ok none
      | some e =>
        let load (n : Nat) : Page → Bytes → Except LoadFault Page :=
          Page.loadWith env.quuid (fun i => env.address (i :: n :: place))
            fun i => createFromType env fuel (i :: n :: place)
        (e.updateDataFromMsgPack env load (.new (env.newUuid (0 :: place)))).map some

end Element

/-- `SetMsgPackData`. -/
def Page.setMsgPackData (env : Surroundings) (page : Page) (bytes : Bytes) : Except LoadFault Page :=
  page.loadWith env.quuid (fun i => env.address [i])
    (fun i => Element.createFromType env bytes.length [i]) bytes

end Liangshi
