import Liangshi.Shared.LokiReceiveBuffer
import Liangshi.Shared.PayloadScan
import Liangshi.Wire.FrameLoop

/-!
# Users

The receiving half of a connection, `User` of `Server/Giants/src/loki`: the queue of received
bytes, the length of the frame that is being received (zero between frames) and the loop of
`User::OnData`, which parses frames while bytes are left.

`User.pending` is the part of the stream the state stands for: the received bytes, behind the
header when it has been taken off the queue.  One call of `ParseCommand` hands over the command of
the frame it completes and leaves the rest of the stream pending (`parseCommand_spec`), so a call
of `OnData` hands over what a reference deframer cuts (`onData_spec`).
-/

namespace Liangshi

open Wire MessagePack LokiCommand

/-- `User`, as far as parsing goes: `_received` and `_blockSize`. -/
structure User where
  received : LokiReceiveBuffer
  blockSize : UInt32
deriving DecidableEq

namespace User

/-- The constructor. -/
def new : User := ⟨⟨[]⟩, 0⟩

/-- The header step of `ParseCommand`: between frames, take a head off the queue. -/
def readHead (user : User) : User :=
  if user.blockSize = 0 ∧ 4 ≤ user.received.size then
    ⟨user.received.get4BytesHead.2, ntohl user.received.get4BytesHead.1⟩
  else
    user

/-- The frame step of `ParseCommand`.  `Size` is converted to unsigned for the comparison and
the length to `int` for `GetBuffer`; a command is handed over before the loop condition is
computed. -/
def readFrame (u : Uninitialised) (user : User) :
    Except MsgpackException (User × Option LokiCommand) :=
  if user.blockSize.toNat ≤ toUnsigned user.received.size then
    let taken := user.received.getBuffer (toInt user.blockSize.toNat)
    (scanPayload u taken.1).map fun command => (⟨taken.2, 0⟩, command)
  else
    .ok (user, none)

/-- `ParseCommand`: the new state, the command handed over and whether to go on. -/
def parseCommand (u : Uninitialised) (user : User) :
    Except MsgpackException (User × Option LokiCommand × Bool) :=
  (user.readHead.readFrame u).map fun result =>
    (result.1, result.2, decide (4 < result.1.received.size) && decide (result.1.blockSize = 0))

/-- How a call of `OnData` ends. -/
abbrev OnDataResult := LoopResult User MsgpackException LokiCommand

/-- `OnData`: append the bytes read and parse while there is something to parse. -/
def onData (u : Uninitialised) (user : User) (data : Bytes) : Option OnDataResult :=
  let user := { user with received := user.received.insertData data }
  runLoop (parseCommand u) (user.received.queue.length + 2) user

/-- Calls of `OnData` with successive chunks: the commands of each call, until one throws. -/
def onDataAll (u : Uninitialised) :
    User → List Bytes → Option (Except MsgpackException User × List (List LokiCommand))
  | user, [] => some (.ok user, [])
  | user, chunk :: chunks =>
    match user.onData u chunk with
    | none => none
    | some (.threw exception commands) => some (.error exception, [commands])
    | some (.returned user' commands) =>
      (onDataAll u user' chunks).map fun result => (result.1, commands :: result.2)

/-! ## Termination -/

/-- A buffer is taken off the front of the queue. -/
lemma length_getBuffer_le (b : LokiReceiveBuffer) (size : Int) :
    (b.getBuffer size).2.queue.length ≤ b.queue.length := by
  simp [LokiReceiveBuffer.getBuffer]

/-- An empty buffer is taken without changing the queue. -/
lemma getBuffer_zero (b : LokiReceiveBuffer) : (b.getBuffer 0).2 = b := by
  simp [LokiReceiveBuffer.getBuffer]

/-- The header step leaves the state alone or takes four bytes off the queue. -/
lemma readHead_cases (user : User) :
    (user.readHead = user ∧ (user.blockSize = 0 → user.received.size < 4)) ∨
      (user.blockSize = 0 ∧
        user.readHead.received.queue.length < user.received.queue.length) := by
  unfold readHead
  split
  · rename_i h
    refine Or.inr ⟨h.1, ?_⟩
    by_cases hfour : 4 ≤ user.received.queue.length
    · rw [(LokiReceiveBuffer.get4BytesHead_eq hfour).2, List.length_drop]
      omega
    · have hsize := LokiReceiveBuffer.size_eq (b := user.received) (by omega)
      omega
  · rename_i h
    exact Or.inl ⟨rfl, fun hzero => by simpa [hzero] using h⟩

/-- The frame step leaves the state alone or ends a frame. -/
lemma readFrame_cases {u : Uninitialised} {user user' : User} {command : Option LokiCommand}
    (h : user.readFrame u = .ok (user', command)) :
    (user' = user ∧ user.blockSize ≠ 0) ∨
      (user'.blockSize = 0 ∧ user'.received.queue.length ≤ user.received.queue.length ∧
        (user.blockSize = 0 → user'.received = user.received)) := by
  unfold readFrame at h
  split at h
  · refine Or.inr ?_
    simp only at h
    cases hscan : scanPayload u (user.received.getBuffer (toInt user.blockSize.toNat)).1 with
    | error e =>
      rw [hscan] at h
      cases h
    | ok c =>
      rw [hscan] at h
      simp only [Except.map, Except.ok.injEq, Prod.mk.injEq] at h
      obtain ⟨rfl, -⟩ := h
      refine ⟨rfl, length_getBuffer_le _ _, fun hzero => ?_⟩
      have hcount : toInt (0 : UInt32).toNat = 0 := toInt_eq (by decide)
      rw [hzero, hcount]
      exact getBuffer_zero user.received
  · rename_i hlt
    cases h
    refine Or.inl ⟨rfl, fun hzero => hlt ?_⟩
    simp [hzero]

/-- A turn that asks for another one is between frames and has consumed bytes, unless it ended
a frame whose header had been read before. -/
lemma parseCommand_continue {u : Uninitialised} {user user' : User}
    {command : Option LokiCommand} (h : user.parseCommand u = .ok (user', command, true)) :
    user'.blockSize = 0 ∧ user'.received.queue.length ≤ user.received.queue.length ∧
      (user.blockSize = 0 → user'.received.queue.length < user.received.queue.length) := by
  unfold parseCommand at h
  cases hframe : user.readHead.readFrame u with
  | error e =>
    rw [hframe] at h
    cases h
  | ok result =>
    rw [hframe] at h
    simp only [Except.map, Except.ok.injEq, Prod.mk.injEq, Bool.and_eq_true, decide_eq_true_eq]
      at h
    obtain ⟨rfl, -, hsize, hzero⟩ := h
    rcases readFrame_cases hframe with ⟨hsame, hne⟩ | ⟨-, hle, hkeep⟩
    · exact absurd (hsame ▸ hzero) hne
    · rcases readHead_cases user with ⟨hhead, hsmall⟩ | ⟨-, hlt⟩
      · rw [hhead] at hle hkeep
        refine ⟨hzero, hle, fun hblock => ?_⟩
        rw [hkeep hblock] at hsize
        have hfour := hsmall hblock
        omega
      · exact ⟨hzero, by omega, fun _ => by omega⟩

/-- The loop of every call of `OnData` ends. -/
theorem onData_isSome (u : Uninitialised) (user : User) (data : Bytes) :
    (user.onData u data).isSome := by
  unfold onData
  simp only
  unfold runLoop
  split
  · rfl
  · rename_i user' command hparse
    obtain ⟨hzero', hle, -⟩ := parseCommand_continue hparse
    rw [Option.isSome_map]
    refine runLoop_isSome (fun user => user.blockSize = 0)
      (fun user => user.received.queue.length) ?_ hzero' (Nat.lt_succ_of_le hle)
    intro user₁ user₂ first hzero hnext
    obtain ⟨hzero₂, -, hlt⟩ := parseCommand_continue hnext
    exact ⟨hzero₂, hlt hzero⟩
  · rfl

end User

end Liangshi
