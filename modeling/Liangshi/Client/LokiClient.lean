import Liangshi.Shared.LokiCommand

/-!
# The client's commands

`LokiClient` of `Client/src/common`: what a client remembers of its login, the commands its
methods send and the signals it emits for the commands it receives.  Text is a byte string, on
both sides of the conversions between `QString` and `std::string`.
-/

namespace Liangshi

open Wire

/-- `LokiClient`, with what it remembers of its login. -/
structure LokiClient where
  userId : Bytes
  nickname : Bytes
  classId : Bytes
  isTeacher : Bool
  allTeachers : Bool
deriving DecidableEq

/-- The signals a `LiveWidget` is connected to. -/
inductive LokiSignal where
  | onBoardLogin (login : BoardLoginCommand)
  | onHadesData (peerId nickname : Bytes) (data : LokiBuffer)
  | onBoardData (data : LokiBuffer)
  | onTeacherAgreeBoard (another agree : Bool)
  | onApplyBoard (studentId nickname : Bytes)
  | onTakeBoard
deriving DecidableEq

namespace LokiClient

/-- The constructor. -/
def new : LokiClient := ⟨[], [], [], false, false⟩

/-- The `BORADLOGIN` branch of `OnCommandTriggered`: an accepted login of its own is remembered. -/
def boardLoginTriggered (client : LokiClient) (login : BoardLoginCommand) : LokiClient :=
  if login.result && !login.peer then
    ⟨login.userId, login.nickname, login.classId, login.isTeacher, login.allTeachers⟩
  else
    client

/-- The `APPLYBOARD` branch of `OnCommandTriggered`. -/
def applyBoardTriggered (client : LokiClient) (apply : ApplyBoardCommand) : Option LokiSignal :=
  if apply.fromTeacher then
    if !client.isTeacher then
      some (.onTeacherAgreeBoard (decide (apply.studentId ≠ client.userId)) apply.agree)
    else
      none
  else
    some (.onApplyBoard apply.studentId apply.nickname)

/-- `OnCommandTriggered`, for the commands the server sends. -/
def onCommandTriggered (client : LokiClient) : LokiCommand → LokiClient × Option LokiSignal
  | .boradLogin login => (client.boardLoginTriggered login, some (.onBoardLogin login))
  | .hadesData hades => (client, some (.onHadesData hades.fromId hades.nickname hades.data))
  | .boardData board => (client, some (.onBoardData board.data))
  | .applyBoard apply => (client, client.applyBoardTriggered apply)
  | .takeBoard _ => (client, some .onTakeBoard)
  | _ => (client, none)

/-! ## What a client sends -/

/-- `BoardLogin`: the command's other fields are as its constructor leaves them. -/
def boardLogin (u : Uninitialised) (sessionId : Bytes) : LokiCommand :=
  .boradLogin ⟨sessionId, u.bool, u.bool, [], u.bool, u.bool, u.bool, [], []⟩

/-- `HadesData`. -/
def hadesData (client : LokiClient) (peerId : Bytes) (buffer : LokiBuffer) : LokiCommand :=
  .hadesData ⟨client.classId, client.nickname, client.userId, peerId, buffer⟩

/-- `BoardData`. -/
def boardData (client : LokiClient) (buffer : LokiBuffer) : LokiCommand :=
  .boardData ⟨client.classId, buffer⟩

/-- `ApplyBoard`. -/
def applyBoard (client : LokiClient) : LokiCommand :=
  .applyBoard ⟨client.classId, client.userId, client.isTeacher, false, client.nickname⟩

/-- `AgreeBoard`. -/
def agreeBoard (client : LokiClient) (studentId : Bytes) (agree : Bool) : LokiCommand :=
  .applyBoard ⟨client.classId, studentId, true, agree, []⟩

/-- `TakeBoard`. -/
def takeBoard (client : LokiClient) : LokiCommand := .takeBoard ⟨client.classId⟩

end LokiClient

end Liangshi
