import Liangshi.Shared.LokiReceiveBuffer
import Liangshi.Shared.PayloadScan
import Liangshi.Wire.FrameLoop

/-!
# The client's socket

`LokiSocket` of `Client/src/common`: the frames `SendData` writes, and the loop of
`OnDataReadTriggered`, which parses frames off the buffer of the Qt socket while bytes are left.

`ParseCommand` differs from the server's in its header step: it reads a header only when more
than four bytes are available, so it leaves a complete empty frame at the end of the buffer.  It
is a `FrameParser` all the same (`frameParser`).
-/

namespace Liangshi

open Wire MessagePack LokiCommand

/-- Writing a `quint32` to a `QDataStream`: four bytes, most significant first. -/
def QDataStream.writeUInt32 (value : UInt32) : Bytes := bigEndian 4 value.toNat

/-- `LokiSocket`, as far as parsing goes: the bytes the Qt socket has buffered and
`_blockSize`. -/
structure LokiSocket where
  buffer : Bytes
  blockSize : UInt32
deriving DecidableEq

namespace LokiSocket

/-- The constructor, with a socket that has received nothing. -/
def new : LokiSocket := ⟨[], 0⟩

/-- `SendData`: a block with a zero length in front, which is then overwritten. -/
def sendData (buffer : Bytes) : Bytes :=
  let block := QDataStream.writeUInt32 0 ++ buffer
  let length := UInt32.ofNat (block.length - 4)
  QDataStream.writeUInt32 length ++ block.drop 4

/-- The header step of `ParseCommand`, with what is available after it. -/
def readHead (socket : LokiSocket) : LokiSocket × Int :=
  let available := toInt socket.buffer.length
  if socket.blockSize = 0 ∧ 4 < available then
    (⟨socket.buffer.drop 4, UInt32.ofNat (ofBigEndian (socket.buffer.take 4))⟩, available - 4)
  else
    (socket, available)

/-- `ParseCommand`, with the scan of the slot connected to `OnDataRead`: the new state, the
command that is handed over and whether to go on. -/
def parseCommand (u : Uninitialised) (socket : LokiSocket) :
    Except MsgpackException (LokiSocket × Option LokiCommand × Bool) :=
  let (socket, available) := socket.readHead
  if toUnsigned available < socket.blockSize.toNat then
    .ok (socket, none, false)
  else
    let data := socket.buffer.take socket.blockSize.toNat
    let socket : LokiSocket := ⟨socket.buffer.drop socket.blockSize.toNat, 0⟩
    (scanPayload u data).map fun command =>
      (socket, command, decide (4 < socket.buffer.length) && decide (socket.blockSize = 0))

/-- `OnDataReadTriggered` when bytes have arrived: parse while there is something to parse. -/
def onDataReadTriggered (u : Uninitialised) (socket : LokiSocket) (arrived : Bytes) :
    Option (LoopResult LokiSocket MsgpackException LokiCommand) :=
  let socket := { socket with buffer := socket.buffer ++ arrived }
  runLoop (parseCommand u) (socket.buffer.length + 2) socket

/-! ## Framing -/

/-- `SendData` writes a frame. -/
lemma sendData_eq {buffer : Bytes} (h : buffer.length < 2 ^ 32) : sendData buffer = frame buffer := by
  have hzero : (QDataStream.writeUInt32 0).length = 4 := length_bigEndian _ _
  have hlength : (UInt32.ofNat ((QDataStream.writeUInt32 0 ++ buffer).length - 4)).toNat =
      buffer.length := by
    rw [List.length_append, hzero, Nat.add_sub_cancel_left, UInt32.toNat_ofNat',
      Nat.mod_eq_of_lt h]
  have hdrop : (QDataStream.writeUInt32 0 ++ buffer).drop 4 = buffer := by
    rw [← hzero, List.drop_left]
  simp only [sendData, hdrop, frame, header]
  rw [QDataStream.writeUInt32, hlength]

/-- The part of the stream a parser state stands for. -/
def pending (socket : LokiSocket) : Bytes :=
  if socket.blockSize = 0 then socket.buffer
  else header socket.blockSize.toNat ++ socket.buffer

/-- Between frames the pending bytes are the buffer. -/
lemma pending_of_zero {socket : LokiSocket} (h : socket.blockSize = 0) :
    socket.pending = socket.buffer := by
  rw [pending, if_pos h]

/-- Inside a frame the pending bytes start with its header. -/
lemma pending_of_ne_zero {socket : LokiSocket} (h : socket.blockSize ≠ 0) :
    socket.pending = header socket.blockSize.toNat ++ socket.buffer := by
  rw [pending, if_neg h]

/-- Bytes that arrive are appended to the pending bytes. -/
lemma pending_arrived (socket : LokiSocket) (arrived : Bytes) :
    ({ socket with buffer := socket.buffer ++ arrived } : LokiSocket).pending =
      socket.pending ++ arrived := by
  unfold pending
  split <;> simp

variable {u : Uninitialised}

/-- The header step: with four bytes at most between frames nothing happens, and otherwise the
pending bytes are the header of the current frame and the buffer. -/
lemma readHead_spec {socket : LokiSocket} (h : socket.buffer.length < 2 ^ 31) :
    ∃ next : LokiSocket, socket.readHead = (next, (next.buffer.length : Int)) ∧
      next.buffer.length < 2 ^ 31 ∧
        ((next = socket ∧ socket.blockSize = 0 ∧ socket.buffer.length ≤ 4) ∨
          socket.pending = header next.blockSize.toNat ++ next.buffer) := by
  have havailable := toInt_eq h
  unfold readHead
  simp only [havailable]
  split_ifs with hcond
  · obtain ⟨hzero, hmore⟩ := hcond
    have hfour : (socket.buffer.take 4).length = 4 := by simp; omega
    have hlt := ofBigEndian_lt (socket.buffer.take 4)
    have hback := bigEndian_ofBigEndian (socket.buffer.take 4)
    rw [hfour] at hlt hback
    have hlt32 : ofBigEndian (socket.buffer.take 4) < 2 ^ 32 := by omega
    refine ⟨_, Prod.mk.injEq .. |>.mpr ⟨rfl, ?_⟩, ?_, Or.inr ?_⟩
    · rw [List.length_drop]
      omega
    · rw [List.length_drop]
      omega
    · have hhead : (UInt32.ofNat (ofBigEndian (socket.buffer.take 4))).toNat =
          ofBigEndian (socket.buffer.take 4) := by
        rw [UInt32.toNat_ofNat', Nat.mod_eq_of_lt hlt32]
      rw [pending_of_zero hzero, hhead, header, hback, List.take_append_drop]
  · refine ⟨socket, rfl, h, ?_⟩
    by_cases hzero : socket.blockSize = 0
    · exact Or.inl ⟨rfl, hzero, by by_contra hlong; exact hcond ⟨hzero, by omega⟩⟩
    · exact Or.inr (pending_of_ne_zero hzero)

/-- The frame step, after the header step. -/
lemma parseCommand_of_readHead {socket next : LokiSocket} (hlt : next.buffer.length < 2 ^ 31)
    (hread : socket.readHead = (next, (next.buffer.length : Int))) :
    socket.parseCommand u =
      if next.buffer.length < next.blockSize.toNat then .ok (next, none, false)
      else (scanPayload u (next.buffer.take next.blockSize.toNat)).map fun command =>
        (⟨next.buffer.drop next.blockSize.toNat, 0⟩, command,
          decide (4 < (next.buffer.drop next.blockSize.toNat).length)) := by
  simp only [parseCommand, hread, toUnsigned_natCast hlt, decide_true, Bool.and_true]

/-- Four bytes at most between frames: an empty read that ends the loop. -/
lemma parseCommand_of_short {socket : LokiSocket} (hzero : socket.blockSize = 0)
    (hshort : socket.buffer.length ≤ 4) : socket.parseCommand u = .ok (socket, none, false) := by
  have hlt : socket.buffer.length < 2 ^ 31 := by omega
  have hread : socket.readHead = (socket, (socket.buffer.length : Int)) := by
    have hcond : ¬ (socket.blockSize = 0 ∧ (4 : Int) < socket.buffer.length) := by omega
    unfold readHead
    rw [toInt_eq hlt]
    exact if_neg hcond
  have hempty : socket.blockSize.toNat = 0 := by rw [hzero]; rfl
  have hless : ¬ 4 < socket.buffer.length := by omega
  rw [parseCommand_of_readHead hlt hread, hempty, if_neg (Nat.not_lt_zero _), List.take_zero,
    List.drop_zero, scanPayload_nil, ← hzero, decide_eq_false hless]
  rfl

/-- A turn without a complete frame hands over nothing, keeps what is pending and ends the
loop. -/
lemma parseCommand_of_none {socket : LokiSocket} (h : socket.buffer.length < 2 ^ 31)
    (hsplit : splitFrame socket.pending = none) :
    ∃ socket', socket.parseCommand u = .ok (socket', none, false) ∧
      socket'.pending = socket.pending := by
  obtain ⟨next, hread, hlt, ⟨rfl, hzero, hshort⟩ | hpending⟩ := readHead_spec h
  · exact ⟨next, parseCommand_of_short hzero hshort, rfl⟩
  · have hless : next.buffer.length < next.blockSize.toNat := by
      rw [hpending, splitFrame_header next.blockSize.toNat_lt] at hsplit
      by_contra hle
      rw [if_neg hle] at hsplit
      cases hsplit
    have hne : next.blockSize ≠ 0 := by
      intro hzero
      rw [hzero] at hless
      exact Nat.not_lt_zero _ hless
    refine ⟨next, ?_, (pending_of_ne_zero hne).trans hpending.symm⟩
    rw [parseCommand_of_readHead hlt hread, if_pos hless]

/-- A turn with a complete frame scans its payload and leaves the rest of the bytes, or leaves an
empty frame that ends the buffer. -/
lemma parseCommand_of_some {socket : LokiSocket} {payload rest : Bytes}
    (h : socket.buffer.length < 2 ^ 31)
    (hsplit : splitFrame socket.pending = some (payload, rest)) :
    socket.parseCommand u = (scanPayload u payload).map
        (fun command => (⟨rest, 0⟩, command, decide (4 < rest.length))) ∨
      payload = [] ∧ rest = [] ∧
        ∃ socket', socket.parseCommand u = .ok (socket', none, false) ∧
          socket'.pending = frame [] := by
  obtain ⟨next, hread, hlt, ⟨rfl, hzero, hshort⟩ | hpending⟩ := readHead_spec h
  · obtain ⟨heq, -⟩ := eq_frame_of_splitFrame hsplit
    rw [pending_of_zero hzero] at heq
    have hlength := congrArg List.length heq
    rw [List.length_append, length_frame] at hlength
    obtain rfl : payload = [] := List.length_eq_zero_iff.mp (by omega)
    obtain rfl : rest = [] := List.length_eq_zero_iff.mp (by omega)
    refine Or.inr ⟨rfl, rfl, next, parseCommand_of_short hzero hshort, ?_⟩
    rw [pending_of_zero hzero, heq, List.append_nil]
  · rw [hpending, splitFrame_header next.blockSize.toNat_lt] at hsplit
    split_ifs at hsplit with hless
    obtain ⟨rfl, rfl⟩ := Prod.mk.inj (Option.some.inj hsplit)
    refine Or.inl ?_
    rw [parseCommand_of_readHead hlt hread, if_neg hless]

/-- What is left behind a complete frame has been in the buffer. -/
lemma length_rest_le {socket : LokiSocket} {payload rest : Bytes}
    (hsplit : splitFrame socket.pending = some (payload, rest)) :
    rest.length ≤ socket.buffer.length := by
  obtain ⟨heq, -⟩ := eq_frame_of_splitFrame hsplit
  have hpending : socket.pending.length ≤ socket.buffer.length + 4 := by
    unfold pending
    split <;> simp [header]; omega
  rw [heq, List.length_append, length_frame] at hpending
  omega

/-- `ParseCommand` parses frames while the buffer is shorter than `2 ^ 31` bytes. -/
def frameParser (u : Uninitialised) : FrameParser (parseCommand u) (scanPayload u) (2 ^ 31) where
  queue := buffer
  pending := pending
  between bytes := ⟨bytes, 0⟩
  queue_between _ := rfl
  pending_between _ := rfl
  decode_nil := scanPayload_nil u
  turn_of_none _ h hsplit := parseCommand_of_none h hsplit
  turn_of_some _ _ _ h hsplit := ⟨length_rest_le hsplit, parseCommand_of_some h hsplit⟩

end LokiSocket

end Liangshi
