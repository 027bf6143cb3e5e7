import Liangshi.Board.TestBaseWidget
import Liangshi.MessagePack.TypedTrack

/-!
# Board files

`BanFile` of `Client/src/hera`, as far as the file `this` of a board file goes: a header, a version,
random bytes that fill it up, and sections, each a type and a raw payload.  `LoadScDocument` makes a
document of it, `LoadScElements` the elements that show it on another page, and `SaveThisFile` writes it
with one section.

Both readers go over the objects of the file with flags for what they have seen.  What they do with a
payload differs and is a parameter of the loop.  The `else if` of `LoadScElements` assigns the type of
tests to the type instead of comparing the two.
-/

namespace Liangshi

open Wire MessagePack

/-! ## Documents -/

/-- `ScType`. -/
inductive ScType where
  | basic
  | script
  | test
deriving DecidableEq

namespace ScType

/-- The value of a type. -/
def toInt : ScType → Int32
  | basic => 1024
  | script => 1025
  | test => 1026

/-- The type with a value. -/
def ofInt? (type : Int32) : Option ScType :=
  if type = 1024 then some basic
  else if type = 1025 then some script
  else if type = 1026 then some test
  else none

end ScType

/-- `BanDocument`: a script has the folder its dependencies were copied from. -/
inductive BanDocument where
  | basic (page : Page)
  | script (page : Page) (deps : Option Bytes)
  | test (test : TestBaseWidget)

namespace BanDocument

/-- The constructor of a document of a type, with the uuid that was made for its page. -/
def new (uuid : Bytes) (deps : Option Bytes) : ScType → BanDocument
  | .basic => .basic (.new uuid)
  | .script => .script (.new uuid) deps
  | .test => .test (.new uuid)

/-- `SetMsgPackData`. -/
def setMsgPackData (env : Surroundings) (d : BanDocument) (bytes : Bytes) :
    Except LoadFault BanDocument :=
  match d with
  | basic page => (page.setMsgPackData env bytes).map .basic
  | script page deps => (page.setMsgPackData env bytes).map (.script · deps)
  | test t => (t.setMsgPackData env bytes).map .test

/-- `UpdateDataFromMsgPack`: the pages of tests collect their answers. -/
def updateDataFromMsgPack : BanDocument → BanDocument
  | test t => .test t.updateDataFromMsgPack
  | d => d

end BanDocument

/-- What the surroundings decide while a file is loaded: for the payloads, one by one, what they
decide for a page, and the uuids of the document and of the element and the cursor. -/
structure FileSurroundings where
  page : Nat → Surroundings
  documentUuid : Nat → Bytes
  elementUuid : Nat → Bytes
  cursor : Nat → SPoint

/-! ## Reading -/

/-- What ends a reader before the end of the file: a version that is refused, or a fault. -/
inductive ThisEnd where
  | refused
  | fault (fault : LoadFault)
deriving DecidableEq

/-- The variables of the loops, `loaded` being what has been made of the payloads so far. -/
structure ThisLoad (σ : Type) where
  getHeader : Bool
  getVersion : Bool
  getRandom : Bool
  type : Int32
  loaded : σ

/-- What a reader does with the payload that comes next, given the type before it: the type after it
and what has been made. -/
abbrev PayloadReader (σ : Type) := Int32 → σ → Bytes → Except LoadFault (Int32 × σ)

namespace BanFile

/-- `MATERIAL_FILE_CURREN_VERSION`. -/
def materialFileCurrenVersion : Int32 := 5

section Loop

variable {σ : Type} (read : PayloadReader σ)

/-- One turn of the loops. -/
def nextObject (s : ThisLoad σ) (object : Obj) : Except ThisEnd (ThisLoad σ) :=
  match object with
  | .posInt _ =>
    match Codec.int32.convert object with
    | none => .error (.fault (.throws .typeError))
    | some n =>
      if s.getVersion then .ok { s with type := n }
      else if keFileMinVersion < n then .error .refused
      else .ok { s with getVersion := true }
  | .raw bytes =>
    if !s.getHeader then .ok { s with getHeader := true }
    else if !s.getRandom && s.type = 0 then .ok { s with getRandom := true }
    else if s.type ≠ 0 then
      match read s.type s.loaded bytes with
      | .error fault => .error (.fault fault)
      | .ok (type, loaded) => .ok { s with type, loaded }
    else
      .ok s
  | _ => .ok s

/-- The loops, up to a malformed object. -/
def readThis (loaded : σ) (bytes : Bytes) : Except ThisEnd (ThisLoad σ) :=
  match (unpackAll bytes).1.foldlM (nextObject read) ⟨false, false, false, 0, loaded⟩ with
  | .error e => .error e
  | .ok s =>
    if (unpackAll bytes).2 = .malformed then .error (.fault (.throws .unpackError)) else .ok s

end Loop

/-- What `LoadScDocument` does with a payload.  A payload of another type goes to the document that
was made last.  The number counts the payloads. -/
def readDocument (env : FileSurroundings) (deps : Option Bytes) :
    PayloadReader (Nat × Option BanDocument) := fun type s payload =>
  let new := BanDocument.new (env.documentUuid s.1) deps
  let document :=
    if type = ScType.toInt .basic then some (new .basic)
    else if type = ScType.toInt .script then some (new .script)
    else if type = ScType.toInt .test then some (new .test)
    else s.2
  match document with
  | none => .ok (type, s.1 + 1, none)
  | some d => (d.setMsgPackData (env.page s.1) payload).map fun d => (type, s.1 + 1, some d)

/-- `"/scriptDeps"`. -/
def scriptDeps : Bytes := [0x2f, 0x73, 0x63, 0x72, 0x69, 0x70, 0x74, 0x44, 0x65, 0x70, 0x73]

/-- `LoadScDocument`, with the folder of a file that is opened directly. -/
def loadScDocument (env : FileSurroundings) (tempFolder : Bytes) (direct : Bool) (bytes : Bytes) :
    Except LoadFault (Option BanDocument) :=
  let deps := if direct then some (tempFolder ++ scriptDeps) else none
  match readThis (readDocument env deps) (0, none) bytes with
  | .error .refused => .ok none
  | .error (.fault fault) => .error fault
  | .ok s => .ok (s.loaded.2.map (·.updateDataFromMsgPack))

/-- The element for a page of a file, which is the one after `n` others. -/
def banElement (env : FileSurroundings) (needTitle : Bool) (n : Nat) (payload : Bytes) :
    Except LoadFault Element :=
  ((Page.new (env.documentUuid n)).setMsgPackData (env.page n) payload).map fun document =>
    let b := BanMembers.ofViewer (env.page n) (env.cursor n) document document.data
    .new (env.elementUuid n) (if needTitle then .banWithLabel b [] else .ban b)

/-- The element for a test of a file, which is the one after `n` others. -/
def testBanElement (env : FileSurroundings) (needTitle : Bool) (n : Nat) (payload : Bytes) :
    Except LoadFault Element :=
  ((TestBaseWidget.new (env.documentUuid n)).setMsgPackData (env.page n) payload).map fun document =>
    let b := BanMembers.ofViewer (env.page n) (env.cursor n) document.page document.data
    .new (env.elementUuid n) (if needTitle then .testBanWithLabel b [] else .testBan b)

/-- What `LoadScElements` does with a payload: the second condition is an assignment. -/
def readElement (env : FileSurroundings) (needTitle : Bool) : PayloadReader (List Element) :=
  fun type elements payload =>
    if type = ScType.toInt .basic ∨ type = ScType.toInt .script then
      (banElement env needTitle elements.length payload).map fun e => (type, elements ++ [e])
    else
      (testBanElement env needTitle elements.length payload).map fun e =>
        (ScType.toInt .test, elements ++ [e])

/-- `LoadScElements`: whether the version was accepted, and the elements. -/
def loadScElements (env : FileSurroundings) (needTitle : Bool) (bytes : Bytes) :
    Except LoadFault (Bool × List Element) :=
  match readThis (readElement env needTitle) [] bytes with
  | .error .refused => .ok (false, [])
  | .error (.fault fault) => .error fault
  | .ok s => .ok (true, s.loaded)

/-! ## Writing -/

/-- The objects of a file with sections. -/
def thisObjects (header : Bytes) (version : Int32) (filler : Bytes) (sections : List Entry) :
    List Obj :=
  .raw header :: Codec.int32.toObj version :: .raw filler :: sections.flatMap Entry.objects

/-- The header `"GY"`. -/
def header : Bytes := [0x47, 0x59]

/-- What `SaveThisFile` of `BanFile` and of `KeFile` write, with the random bytes that fill the file
up, the type and the data of the document. -/
def packThis (filler : Bytes) (type : Int32) (payload : Bytes) : Bytes :=
  packAll (thisObjects header materialFileCurrenVersion filler [(type, payload)])

/-- `SaveThisFile` of a document, by its type and its data. -/
def saveThisFile (filler : Bytes) (type : ScType) (payload : Bytes) : Bytes :=
  packThis filler type.toInt payload

end BanFile

end Liangshi
