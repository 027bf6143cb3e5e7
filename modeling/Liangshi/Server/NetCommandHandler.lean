import Liangshi.Server.ClassSessionManager
import Liangshi.Server.User

/-!
# The command handler

The state of the server, `SocketManager` and `NetCommandHandler::HandlThread`.

The heap maps the addresses of live `User` objects to what the handler uses of them.  Looking at
an address that is not in the heap is a `Fault`, a use after free.  `HandlThread` yields the new
state and the commands it writes, each with the user it is written to; a user whose handle is
closing is skipped, as `WriteData` does.
-/

namespace Liangshi

open Wire Ordered

/-- A `User` object: its parser, `_user_id` and whether its handle is closing. -/
structure UserObject where
  parser : User
  userId : Bytes
  closing : Bool
deriving DecidableEq

/-- What is left when the program looks at a deleted object. -/
inductive Fault where
  | useAfterFree (user : Address)
deriving DecidableEq

/-- A command written to a user. -/
abbrev Sent := Address × LokiCommand

/-! ## The database -/

/-- The outputs of `DatabaseEngine::IsTeacher`. -/
structure TeacherRow where
  classId : Bytes
  userId : Bytes
  nickname : Bytes
  hasVideo : Bool

/-- The outputs of `DatabaseEngine::IsStudent`. -/
structure StudentRow where
  classId : Bytes
  userId : Bytes
  nickname : Bytes
  hasVideo : Bool
  allTeachers : Bool

/-- The database, by the answers to the two queries of a board login. -/
structure Database where
  isTeacher : Bytes → Option TeacherRow
  isStudent : Bytes → Option StudentRow

/-- Who a session id belongs to. -/
structure Identity where
  classId : Bytes
  userId : Bytes
  nickname : Bytes
  hasVideo : Bool
  isTeacher : Bool
  allTeachers : Bool
deriving DecidableEq

/-- The queries of a board login: a session that is not a teacher's may be a student's. -/
def Database.identify (db : Database) (sessionId : Bytes) : Option Identity :=
  match db.isTeacher sessionId with
  | some row => some ⟨row.classId, row.userId, row.nickname, row.hasVideo, true, false⟩
  | none =>
    match db.isStudent sessionId with
    | some row =>
      some ⟨row.classId, row.userId, row.nickname, row.hasVideo, false, row.allTeachers⟩
    | none => none

/-! ## The server -/

/-- The live users, `SocketManager::_users` by handle (the handle is a member of its user, so the
user's address stands for it) and the class sessions. -/
structure Server where
  heap : OrderedMap Address UserObject
  users : OrderedMap Address Address
  sessions : ClassSessionManager
deriving DecidableEq

namespace Server

/-- The server before any connection. -/
def new : Server := ⟨OrderedMap.empty, OrderedMap.empty, ClassSessionManager.new⟩

/-- `OnConnection`: a user is allocated at an address and added under its handle. -/
def onConnection (s : Server) (user : Address) : Server where
  heap := s.heap.insert user ⟨User.new, [], false⟩
  users := if (s.users.find user).isSome then s.users else s.users.insert user user
  sessions := s.sessions

/-- `OnRead` of an error: the handle is being closed. -/
def startClosing (s : Server) (user : Address) : Server :=
  match s.heap.find user with
  | some o => { s with heap := s.heap.insert user { o with closing := true } }
  | none => s

/-- `DeleteUserByHandle`, called by `OnClose`. -/
def deleteUserByHandle (s : Server) (handle : Address) : Server :=
  match s.users.find handle with
  | some user =>
    ⟨s.heap.erase user, s.users.erase handle, s.sessions.removeUser user⟩
  | none => { s with users := s.users.erase handle }

/-- `SetUserID`. -/
def setUserId (s : Server) (user : Address) (userId : Bytes) : Server :=
  match s.heap.find user with
  | some o => { s with heap := s.heap.insert user { o with userId } }
  | none => s

/-- `SendCommand` to the user set on a command: nothing is written to a closing handle. -/
def sendCommand (s : Server) (user : Address) (c : LokiCommand) : Except Fault (List Sent) :=
  match s.heap.find user with
  | some o => .ok (if o.closing then [] else [(user, c)])
  | none => .error (.useAfterFree user)

/-- The loops of `HandlThread` over the users of a class. -/
def sendAll (s : Server) (c : LokiCommand) : List Address → Except Fault (List Sent)
  | [] => .ok []
  | user :: users =>
    match s.sendCommand user c with
    | .error fault => .error fault
    | .ok first =>
      match s.sendAll c users with
      | .error fault => .error fault
      | .ok others => .ok (first ++ others)

/-- The users of a list with a given user id, which is read from each of them. -/
def usersWithId (s : Server) (userId : Bytes) : List Address → Except Fault (List Address)
  | [] => .ok []
  | user :: users =>
    match s.heap.find user with
    | none => .error (.useAfterFree user)
    | some o =>
      match s.usersWithId userId users with
      | .error fault => .error fault
      | .ok others => .ok (if o.userId = userId then user :: others else others)

end Server

namespace NetCommandHandler

/-- `WriteData` to an open handle: the bytes with their length in front. -/
def writeData (buffer : Bytes) : Bytes :=
  let with4Head := ((LokiReceiveBuffer.mk []).insertNetworkUInt32
    (UInt32.ofNat buffer.length)).insertData buffer
  (with4Head.getBuffer with4Head.size).1

/-- `WriteData` writes a frame. -/
lemma writeData_eq {buffer : Bytes} (h : buffer.length + 4 < 2 ^ 31) :
    writeData buffer = frame buffer := by
  have hhead : (UInt32.ofNat buffer.length).toNat = buffer.length := by
    rw [UInt32.toNat_ofNat', Nat.mod_eq_of_lt (by omega)]
  have hqueue : (((LokiReceiveBuffer.mk []).insertNetworkUInt32
      (UInt32.ofNat buffer.length)).insertData buffer).queue = frame buffer := by
    simp only [LokiReceiveBuffer.insertData, LokiReceiveBuffer.insertNetworkUInt32_eq, hhead,
      List.nil_append, frame]
  have hsize := LokiReceiveBuffer.size_eq (b := ((LokiReceiveBuffer.mk []).insertNetworkUInt32
    (UInt32.ofNat buffer.length)).insertData buffer) (by rw [hqueue, length_frame]; exact h)
  simp only [writeData, LokiReceiveBuffer.getBuffer, le_refl, if_true]
  rw [hsize, Int.toNat_natCast, List.take_length, hqueue]

/-- The users of a class but one. -/
def otherClassUsers (s : Server) (classId : Bytes) (user : Address) : List Address :=
  (s.sessions.getClassUsers classId).elems.filter fun other => decide (other ≠ user)

/-- The reply to a board login that the database does not know. -/
def rejected (login : BoardLoginCommand) : BoardLoginCommand :=
  { login with result := false, peer := false }

/-- The reply to an accepted board login. -/
def accepted (login : BoardLoginCommand) (identity : Identity) : BoardLoginCommand where
  sessionId := login.sessionId
  result := true
  peer := false
  userId := identity.userId
  isTeacher := identity.isTeacher
  hasVideo := identity.hasVideo
  allTeachers := identity.allTeachers
  nickname := identity.nickname
  classId := identity.classId

/-- The notice of an accepted board login to the other users of the class. -/
def peerNotice (login : BoardLoginCommand) (identity : Identity) : BoardLoginCommand :=
  { accepted login identity with peer := true }

/-- The `BORADLOGIN` branch. -/
def handleBoradLogin (db : Database) (s : Server) (fromUser : Address)
    (login : BoardLoginCommand) : Except Fault (Server × List Sent) :=
  match db.identify login.sessionId with
  | none =>
    (s.sendCommand fromUser (.boradLogin (rejected login))).map fun sent => (s, sent)
  | some identity =>
    let s' : Server := { s.setUserId fromUser identity.userId with
      sessions := s.sessions.addClassUser identity.classId fromUser identity.isTeacher }
    match s'.sendCommand fromUser (.boradLogin (accepted login identity)) with
    | .error fault => .error fault
    | .ok reply =>
      (s'.sendAll (.boradLogin (peerNotice login identity))
        (otherClassUsers s' identity.classId fromUser)).map fun notices => (s', reply ++ notices)

/-- The `HADESDATA` branch: every user of the class with the id the command is for. -/
def handleHadesData (s : Server) (hades : HadesDataCommand) : Except Fault (List Sent) :=
  match s.usersWithId hades.toId (s.sessions.getClassUsers hades.classId).elems with
  | .error fault => .error fault
  | .ok users => s.sendAll (.hadesData hades) users

/-- The `BOARDDATA` branch: every user of the class but the sender. -/
def handleBoardData (s : Server) (fromUser : Address) (data : BoardDataCommand) :
    Except Fault (List Sent) :=
  s.sendAll (.boardData data) (otherClassUsers s data.classId fromUser)

/-- The `APPLYBOARD` branch: from a teacher to every user of the class, otherwise to the
teacher. -/
def handleApplyBoard (s : Server) (apply : ApplyBoardCommand) : Except Fault (List Sent) :=
  if apply.fromTeacher then
    s.sendAll (.applyBoard apply) (s.sessions.getClassUsers apply.classId).elems
  else
    match s.sessions.getClassTeacher apply.classId with
    | some teacher => s.sendCommand teacher (.applyBoard apply)
    | none => .ok []

/-- The `TAKEBOARD` branch: every user of the class but the sender. -/
def handleTakeBoard (s : Server) (fromUser : Address) (take : TakeBoardCommand) :
    Except Fault (List Sent) :=
  s.sendAll (.takeBoard take) (otherClassUsers s take.classId fromUser)

/-- `HandlThread`: the other commands have empty branches. -/
def handlThread (db : Database) (s : Server) (fromUser : Address) (c : LokiCommand) :
    Except Fault (Server × List Sent) :=
  match c with
  | .boradLogin login => handleBoradLogin db s fromUser login
  | .hadesData hades => (handleHadesData s hades).map fun sent => (s, sent)
  | .boardData data => (handleBoardData s fromUser data).map fun sent => (s, sent)
  | .applyBoard apply => (handleApplyBoard s apply).map fun sent => (s, sent)
  | .takeBoard take => (handleTakeBoard s fromUser take).map fun sent => (s, sent)
  | .login _ => .ok (s, [])
  | .chat _ => .ok (s, [])
  | .getFriendList _ => .ok (s, [])
  | .serverNotifyRelogin _ => .ok (s, [])
  | .serverNotifyLostConnection _ => .ok (s, [])

end NetCommandHandler

end Liangshi
