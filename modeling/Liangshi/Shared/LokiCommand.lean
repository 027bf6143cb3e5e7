import Liangshi.MessagePack.Convert

/-!
# Commands

The commands of `SharedCode/LokiCommand.h`, their MessagePack records and the factory
`LokiCommand::CreateFromType`.

The default constructors leave integer and boolean fields uninitialised, and converting a record
with fewer items than fields keeps what the constructor left.  The parameter `Uninitialised`
stands for what such a field holds.  The factory unpacks the body outside its `try` block, so an
empty, truncated or malformed body throws, while a body whose record does not convert is caught
and gives no command.
-/

namespace Liangshi

open Wire MessagePack

/-- `LokiBuffer`: a byte string kept as a vector of signed characters. -/
structure LokiBuffer where
  buffer : List Int8
deriving DecidableEq

namespace LokiBuffer

/-- The constructor from a pointer and a size. -/
def ofData (data : Bytes) : LokiBuffer := ⟨data.map UInt8.toInt8⟩

/-- `LokiBuffer::Data`. -/
def data (b : LokiBuffer) : Bytes := b.buffer.map Int8.toUInt8

/-- A buffer of bytes has these bytes. -/
@[simp] lemma data_ofData (bytes : Bytes) : (ofData bytes).data = bytes := by
  simp [ofData, data, Function.comp_def]

/-- A buffer is a record of one vector. -/
def codec : Codec LokiBuffer where
  toObj b := .array [(Codec.vector Codec.int8).toObj b.buffer]
  convert o := do
    let objs ← Codec.items o
    let buffer ← (Codec.vector Codec.int8).field objs 0 []
    return ⟨buffer⟩
  convert_toObj b := by simp

end LokiBuffer

/-- What a field holds that no constructor has set. -/
structure Uninitialised where
  int : Int32
  bool : Bool

/-! ## Command types -/

/-- `LokiCommand::CommandType`. -/
inductive CommandType where
  | login
  | chat
  | getFriendList
  | boradLogin
  | hadesData
  | boardData
  | applyBoard
  | takeBoard
  | serverNotifyRelogin
  | serverNotifyLostConnection
deriving DecidableEq

namespace CommandType

/-- The value of an enumerator. -/
def toInt : CommandType → Int32
  | login => 23311
  | chat => 23312
  | getFriendList => 23313
  | boradLogin => 23314
  | hadesData => 23315
  | boardData => 23316
  | applyBoard => 23317
  | takeBoard => 23318
  | serverNotifyRelogin => 23319
  | serverNotifyLostConnection => 23320

/-- The enumerators in order. -/
def all : List CommandType :=
  [login, chat, getFriendList, boradLogin, hadesData, boardData, applyBoard, takeBoard,
    serverNotifyRelogin, serverNotifyLostConnection]

/-- The enumerator an integer stands for. -/
def ofInt? (type : Int32) : Option CommandType :=
  all.find? fun t => t.toInt == type

/-- Every enumerator is found by its value. -/
@[simp] lemma ofInt?_toInt (t : CommandType) : ofInt? t.toInt = some t := by
  cases t <;> rfl

/-- No enumerator has the value zero, which the scanners use for "no type yet". -/
lemma toInt_ne_zero (t : CommandType) : t.toInt ≠ 0 := by
  cases t <;> decide

end CommandType

/-! ## Command records -/

/-- `LoginCommand`. -/
structure LoginCommand where
  userId : Int32
  version : Int32
  username : Bytes
  password : Bytes
  displayName : Bytes
  message : Bytes
  result : Bool
deriving DecidableEq

/-- The record of a `LoginCommand`. -/
def LoginCommand.toObj (c : LoginCommand) : Obj :=
  .array [Codec.int32.toObj c.userId, Codec.int32.toObj c.version,
    Codec.string.toObj c.username, Codec.string.toObj c.password,
    Codec.string.toObj c.displayName, Codec.string.toObj c.message, Codec.bool.toObj c.result]

/-- Packing and converting back a `LoginCommand`. -/
def LoginCommand.codec (u : Uninitialised) : Codec LoginCommand where
  toObj := LoginCommand.toObj
  convert o := do
    let objs ← Codec.items o
    let userId ← Codec.int32.field objs 0 u.int
    let version ← Codec.int32.field objs 1 u.int
    let username ← Codec.string.field objs 2 []
    let password ← Codec.string.field objs 3 []
    let displayName ← Codec.string.field objs 4 []
    let message ← Codec.string.field objs 5 []
    let result ← Codec.bool.field objs 6 u.bool
    return ⟨userId, version, username, password, displayName, message, result⟩
  convert_toObj c := by simp [LoginCommand.toObj]

/-- `ChatCommand`. -/
structure ChatCommand where
  fromId : Int32
  toId : Int32
  message : Bytes
deriving DecidableEq

/-- The record of a `ChatCommand`. -/
def ChatCommand.toObj (c : ChatCommand) : Obj :=
  .array [Codec.int32.toObj c.fromId, Codec.int32.toObj c.toId,
    Codec.string.toObj c.message]

/-- Packing and converting back a `ChatCommand`. -/
def ChatCommand.codec (u : Uninitialised) : Codec ChatCommand where
  toObj := ChatCommand.toObj
  convert o := do
    let objs ← Codec.items o
    let fromId ← Codec.int32.field objs 0 u.int
    let toId ← Codec.int32.field objs 1 u.int
    let message ← Codec.string.field objs 2 []
    return ⟨fromId, toId, message⟩
  convert_toObj c := by simp [ChatCommand.toObj]

/-- `LokiFriend`. -/
structure LokiFriend where
  userId : Int32
  status : Int32
  displayName : Bytes
  commentName : Bytes
  groupName : Bytes
deriving DecidableEq

/-- The record of a `LokiFriend`. -/
def LokiFriend.toObj (c : LokiFriend) : Obj :=
  .array [Codec.int32.toObj c.userId, Codec.int32.toObj c.status,
    Codec.string.toObj c.displayName, Codec.string.toObj c.commentName,
    Codec.string.toObj c.groupName]

/-- Converting back a `LokiFriend`; resizing the vector of friends has zeroed its integers. -/
def LokiFriend.codec : Codec LokiFriend where
  toObj := LokiFriend.toObj
  convert o := do
    let objs ← Codec.items o
    let userId ← Codec.int32.field objs 0 0
    let status ← Codec.int32.field objs 1 0
    let displayName ← Codec.string.field objs 2 []
    let commentName ← Codec.string.field objs 3 []
    let groupName ← Codec.string.field objs 4 []
    return ⟨userId, status, displayName, commentName, groupName⟩
  convert_toObj c := by simp [LokiFriend.toObj]

/-- `GetFriendListCommand`. -/
structure GetFriendListCommand where
  friends : List LokiFriend
deriving DecidableEq

/-- The record of a `GetFriendListCommand`. -/
def GetFriendListCommand.toObj (c : GetFriendListCommand) : Obj :=
  .array [(Codec.vector LokiFriend.codec).toObj c.friends]

/-- Packing and converting back a `GetFriendListCommand`. -/
def GetFriendListCommand.codec : Codec GetFriendListCommand where
  toObj := GetFriendListCommand.toObj
  convert o := do
    let objs ← Codec.items o
    let friends ← (Codec.vector LokiFriend.codec).field objs 0 []
    return ⟨friends⟩
  convert_toObj c := by simp [GetFriendListCommand.toObj]

/-- `BoardLoginCommand`. -/
structure BoardLoginCommand where
  sessionId : Bytes
  result : Bool
  peer : Bool
  userId : Bytes
  isTeacher : Bool
  hasVideo : Bool
  allTeachers : Bool
  nickname : Bytes
  classId : Bytes
deriving DecidableEq

/-- The record of a `BoardLoginCommand`. -/
def BoardLoginCommand.toObj (c : BoardLoginCommand) : Obj :=
  .array [Codec.string.toObj c.sessionId, Codec.bool.toObj c.result,
    Codec.bool.toObj c.peer, Codec.string.toObj c.userId, Codec.bool.toObj c.isTeacher,
    Codec.bool.toObj c.hasVideo, Codec.bool.toObj c.allTeachers, Codec.string.toObj c.nickname,
    Codec.string.toObj c.classId]

/-- Packing and converting back a `BoardLoginCommand`. -/
def BoardLoginCommand.codec (u : Uninitialised) : Codec BoardLoginCommand where
  toObj := BoardLoginCommand.toObj
  convert o := do
    let objs ← Codec.items o
    let sessionId ← Codec.string.field objs 0 []
    let result ← Codec.bool.field objs 1 u.bool
    let peer ← Codec.bool.field objs 2 u.bool
    let userId ← Codec.string.field objs 3 []
    let isTeacher ← Codec.bool.field objs 4 u.bool
    let hasVideo ← Codec.bool.field objs 5 u.bool
    let allTeachers ← Codec.bool.field objs 6 u.bool
    let nickname ← Codec.string.field objs 7 []
    let classId ← Codec.string.field objs 8 []
    return ⟨sessionId, result, peer, userId, isTeacher, hasVideo, allTeachers, nickname, classId⟩
  convert_toObj c := by simp [BoardLoginCommand.toObj]

/-- `HadesDataCommand`. -/
structure HadesDataCommand where
  classId : Bytes
  nickname : Bytes
  fromId : Bytes
  toId : Bytes
  data : LokiBuffer
deriving DecidableEq

/-- The record of a `HadesDataCommand`. -/
def HadesDataCommand.toObj (c : HadesDataCommand) : Obj :=
  .array [Codec.string.toObj c.classId, Codec.string.toObj c.nickname,
    Codec.string.toObj c.fromId, Codec.string.toObj c.toId, LokiBuffer.codec.toObj c.data]

/-- Packing and converting back a `HadesDataCommand`. -/
def HadesDataCommand.codec : Codec HadesDataCommand where
  toObj := HadesDataCommand.toObj
  convert o := do
    let objs ← Codec.items o
    let classId ← Codec.string.field objs 0 []
    let nickname ← Codec.string.field objs 1 []
    let fromId ← Codec.string.field objs 2 []
    let toId ← Codec.string.field objs 3 []
    let data ← LokiBuffer.codec.field objs 4 ⟨[]⟩
    return ⟨classId, nickname, fromId, toId, data⟩
  convert_toObj c := by simp [HadesDataCommand.toObj]

/-- `BoardDataCommand`. -/
structure BoardDataCommand where
  classId : Bytes
  data : LokiBuffer
deriving DecidableEq

/-- The record of a `BoardDataCommand`. -/
def BoardDataCommand.toObj (c : BoardDataCommand) : Obj :=
  .array [Codec.string.toObj c.classId, LokiBuffer.codec.toObj c.data]

/-- Packing and converting back a `BoardDataCommand`. -/
def BoardDataCommand.codec : Codec BoardDataCommand where
  toObj := BoardDataCommand.toObj
  convert o := do
    let objs ← Codec.items o
    let classId ← Codec.string.field objs 0 []
    let data ← LokiBuffer.codec.field objs 1 ⟨[]⟩
    return ⟨classId, data⟩
  convert_toObj c := by simp [BoardDataCommand.toObj]

/-- `ApplyBoardCommand`. -/
structure ApplyBoardCommand where
  classId : Bytes
  studentId : Bytes
  fromTeacher : Bool
  agree : Bool
  nickname : Bytes
deriving DecidableEq

/-- The record of an `ApplyBoardCommand`. -/
def ApplyBoardCommand.toObj (c : ApplyBoardCommand) : Obj :=
  .array [Codec.string.toObj c.classId, Codec.string.toObj c.studentId,
    Codec.bool.toObj c.fromTeacher, Codec.bool.toObj c.agree, Codec.string.toObj c.nickname]

/-- Packing and converting back an `ApplyBoardCommand`. -/
def ApplyBoardCommand.codec (u : Uninitialised) : Codec ApplyBoardCommand where
  toObj := ApplyBoardCommand.toObj
  convert o := do
    let objs ← Codec.items o
    let classId ← Codec.string.field objs 0 []
    let studentId ← Codec.string.field objs 1 []
    let fromTeacher ← Codec.bool.field objs 2 u.bool
    let agree ← Codec.bool.field objs 3 u.bool
    let nickname ← Codec.string.field objs 4 []
    return ⟨classId, studentId, fromTeacher, agree, nickname⟩
  convert_toObj c := by simp [ApplyBoardCommand.toObj]

/-- `TakeBoardCommand`. -/
structure TakeBoardCommand where
  classId : Bytes
deriving DecidableEq

/-- The record of a `TakeBoardCommand`. -/
def TakeBoardCommand.toObj (c : TakeBoardCommand) : Obj :=
  .array [Codec.string.toObj c.classId]

/-- Packing and converting back a `TakeBoardCommand`. -/
def TakeBoardCommand.codec : Codec TakeBoardCommand where
  toObj := TakeBoardCommand.toObj
  convert o := do
    let objs ← Codec.items o
    let classId ← Codec.string.field objs 0 []
    return ⟨classId⟩
  convert_toObj c := by simp [TakeBoardCommand.toObj]

/-- The fields `ServerNotifyLostRelogin` and `ServerNotifyLostConnectionCommand` share. -/
structure ServerNotifyCommand where
  userId : Int32
  displayName : Bytes
deriving DecidableEq

/-- The record of a server notification. -/
def ServerNotifyCommand.toObj (c : ServerNotifyCommand) : Obj :=
  .array [Codec.int32.toObj c.userId, Codec.string.toObj c.displayName]

/-- Packing and converting back a server notification. -/
def ServerNotifyCommand.codec (u : Uninitialised) : Codec ServerNotifyCommand where
  toObj := ServerNotifyCommand.toObj
  convert o := do
    let objs ← Codec.items o
    let userId ← Codec.int32.field objs 0 u.int
    let displayName ← Codec.string.field objs 1 []
    return ⟨userId, displayName⟩
  convert_toObj c := by simp [ServerNotifyCommand.toObj]

/-! ## Commands -/

/-- `LokiCommand`: one of the commands, without the user it came from. -/
inductive LokiCommand where
  | login (c : LoginCommand)
  | chat (c : ChatCommand)
  | getFriendList (c : GetFriendListCommand)
  | boradLogin (c : BoardLoginCommand)
  | hadesData (c : HadesDataCommand)
  | boardData (c : BoardDataCommand)
  | applyBoard (c : ApplyBoardCommand)
  | takeBoard (c : TakeBoardCommand)
  | serverNotifyRelogin (c : ServerNotifyCommand)
  | serverNotifyLostConnection (c : ServerNotifyCommand)
deriving DecidableEq

namespace LokiCommand

/-- `LokiCommand::GetType`. -/
def getType : LokiCommand → CommandType
  | login _ => .login
  | chat _ => .chat
  | getFriendList _ => .getFriendList
  | boradLogin _ => .boradLogin
  | hadesData _ => .hadesData
  | boardData _ => .boardData
  | applyBoard _ => .applyBoard
  | takeBoard _ => .takeBoard
  | serverNotifyRelogin _ => .serverNotifyRelogin
  | serverNotifyLostConnection _ => .serverNotifyLostConnection

/-- The record of a command. -/
def toObj : LokiCommand → Obj
  | login c => c.toObj
  | chat c => c.toObj
  | getFriendList c => c.toObj
  | boradLogin c => c.toObj
  | hadesData c => c.toObj
  | boardData c => c.toObj
  | applyBoard c => c.toObj
  | takeBoard c => c.toObj
  | serverNotifyRelogin c => c.toObj
  | serverNotifyLostConnection c => c.toObj

/-- Convert a record to the command of a type. -/
def convert (u : Uninitialised) (o : Obj) : CommandType → Option LokiCommand
  | .login => ((LoginCommand.codec u).convert o).map login
  | .chat => ((ChatCommand.codec u).convert o).map chat
  | .getFriendList => (GetFriendListCommand.codec.convert o).map getFriendList
  | .boradLogin => ((BoardLoginCommand.codec u).convert o).map boradLogin
  | .hadesData => (HadesDataCommand.codec.convert o).map hadesData
  | .boardData => (BoardDataCommand.codec.convert o).map boardData
  | .applyBoard => ((ApplyBoardCommand.codec u).convert o).map applyBoard
  | .takeBoard => (TakeBoardCommand.codec.convert o).map takeBoard
  | .serverNotifyRelogin => ((ServerNotifyCommand.codec u).convert o).map serverNotifyRelogin
  | .serverNotifyLostConnection =>
    ((ServerNotifyCommand.codec u).convert o).map serverNotifyLostConnection

/-- The record of a command converts back to the command. -/
@[simp] lemma convert_toObj (u : Uninitialised) (c : LokiCommand) :
    convert u c.toObj c.getType = some c := by
  cases c with
  | login c => exact congrArg (Option.map login) ((LoginCommand.codec u).convert_toObj c)
  | chat c => exact congrArg (Option.map chat) ((ChatCommand.codec u).convert_toObj c)
  | getFriendList c =>
    exact congrArg (Option.map getFriendList) (GetFriendListCommand.codec.convert_toObj c)
  | boradLogin c =>
    exact congrArg (Option.map boradLogin) ((BoardLoginCommand.codec u).convert_toObj c)
  | hadesData c => exact congrArg (Option.map hadesData) (HadesDataCommand.codec.convert_toObj c)
  | boardData c => exact congrArg (Option.map boardData) (BoardDataCommand.codec.convert_toObj c)
  | applyBoard c =>
    exact congrArg (Option.map applyBoard) ((ApplyBoardCommand.codec u).convert_toObj c)
  | takeBoard c => exact congrArg (Option.map takeBoard) (TakeBoardCommand.codec.convert_toObj c)
  | serverNotifyRelogin c =>
    exact congrArg (Option.map serverNotifyRelogin) ((ServerNotifyCommand.codec u).convert_toObj c)
  | serverNotifyLostConnection c =>
    exact congrArg (Option.map serverNotifyLostConnection) ((ServerNotifyCommand.codec u).convert_toObj c)

/-- `GetMsgPackData`. -/
def getMsgPackData (c : LokiCommand) : Bytes := c.toObj.pack

/-- What MessagePack throws. -/
inductive MsgpackException where
  | unpackError
  | typeError
deriving DecidableEq

/-- `LokiCommand::CreateFromType`. -/
def createFromType (u : Uninitialised) (type : Int32) (buffer : Bytes) :
    Except MsgpackException (Option LokiCommand) :=
  match unpackOne buffer with
  | none => .error .unpackError
  | some msg => .ok ((CommandType.ofInt? type).bind (convert u msg))

end LokiCommand

end Liangshi
