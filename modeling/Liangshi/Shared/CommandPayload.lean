import Liangshi.Shared.PayloadScan
import Liangshi.Wire.FrameChannel

/-!
# The payload of a command's frame

`LokiClient::SendData` and `NetCommandHandler::SendCommand` pack a command in the same way: its
type, and its record as a raw object.  A command within the bounds of the format (`Sendable`) is
the command a scan of its payload makes.
-/

namespace Liangshi

open Wire MessagePack

namespace LokiCommand

/-- What is packed for a command: the type and the raw record. -/
def payload (c : LokiCommand) : Bytes :=
  packAll [Codec.int32.toObj c.getType.toInt, .raw c.getMsgPackData]

/-- A command whose record MessagePack reads back and whose frame fits a queue. -/
structure Sendable (c : LokiCommand) : Prop where
  packable : c.toObj.Packable embedStackSize
  length_lt : c.payload.length + 4 < 2 ^ 31

/-- The record is part of the payload. -/
lemma length_getMsgPackData_le (c : LokiCommand) : c.getMsgPackData.length ≤ c.payload.length := by
  simp only [payload, packAll, Obj.pack, List.length_append]
  omega

/-- The type of a command is packed as a positive integer. -/
lemma toObj_type (t : CommandType) : ∃ n : Nat, Codec.int32.toObj t.toInt = .posInt n ∧
    n < 2 ^ 31 ∧ Int32.ofInt n = t.toInt := by
  cases t <;> exact ⟨_, rfl, by decide, by decide⟩

/-- A packed object is not empty. -/
lemma pack_posInt_ne_nil (n : Nat) : (Obj.posInt n).pack ≠ [] := by
  rw [Obj.pack]
  unfold packUnsigned
  split_ifs <;> exact List.cons_ne_nil _ _

/-- A payload begins with the type of its command. -/
lemma payload_ne_nil (c : LokiCommand) : c.payload ≠ [] := by
  obtain ⟨n, htype, -, -⟩ := toObj_type c.getType
  rw [payload, packAll, htype]
  exact List.append_ne_nil_of_left_ne_nil (pack_posInt_ne_nil n) _

/-- A scan of the payload of a command makes the command. -/
theorem scanPayload_payload (u : Uninitialised) {c : LokiCommand} (h : c.Sendable) :
    scanPayload u c.payload = .ok (some c) := by
  obtain ⟨n, htype, hn, hofInt⟩ := toObj_type c.getType
  have hraw : c.getMsgPackData.length < 2 ^ 32 := by
    have hle := length_getMsgPackData_le c
    have hlt := h.length_lt
    omega
  have hint : n < 2 ^ 64 := by omega
  have hobjects : unpackAll c.payload = ([.posInt n, .raw c.getMsgPackData], .finished) := by
    rw [payload, htype]
    exact unpackAll_packAll ⟨hint, hraw, trivial⟩
  have hbodies : bodies 0 (unpackAll c.payload).1 = [(c.getType.toInt, c.getMsgPackData)] := by
    rw [hobjects]
    simp only [bodies, hofInt, ne_eq, CommandType.toInt_ne_zero, not_false_eq_true, if_true]
  have hrecord : unpackOne c.getMsgPackData = some c.toObj := by
    have hunpack := unpackOne_pack h.packable []
    rw [List.append_nil] at hunpack
    exact hunpack
  have hdecodes : Decodes c.payload := by
    refine ⟨⟨fun m hm => ?_, fun body hbody => ?_⟩, ?_⟩
    · rw [hobjects] at hm
      obtain rfl : m = n := by simpa using hm
      exact hn
    · rw [hbodies, List.mem_singleton] at hbody
      rw [hbody, hrecord]
      rfl
    · rw [hobjects]
      exact Ending.noConfusion
  rw [scanPayload_of_decodes hdecodes, payloadCommand, hbodies, List.getLast?_singleton,
    Option.bind_some, bodyCommand, hrecord, Option.bind_some, CommandType.ofInt?_toInt,
    Option.bind_some, convert_toObj]

/-- A channel of frames can carry the payload of a command. -/
lemma Sendable.payload (u : Uninitialised) {c : LokiCommand} (h : c.Sendable) :
    Payload (scanPayload u) c.payload where
  nonempty := c.payload_ne_nil
  length_lt := by
    have hlt := h.length_lt
    omega
  decodes := ⟨some c, scanPayload_payload u h⟩

/-- Scanning the payloads of commands makes the commands in order. -/
lemma flatMap_decoded_payload (u : Uninitialised) {commands : List LokiCommand}
    (h : ∀ c ∈ commands, c.Sendable) :
    (commands.map LokiCommand.payload).flatMap (decoded (scanPayload u)) = commands := by
  induction commands with
  | nil => rfl
  | cons c commands ih =>
    obtain ⟨hfirst, hothers⟩ := List.forall_mem_cons.mp h
    rw [List.map_cons, List.flatMap_cons, ih hothers, decoded, scanPayload_payload u hfirst]
    rfl

/-! ## Channels of commands -/

section

variable {u : Uninitialised} {σ : Type} {turn : Turn σ MsgpackException LokiCommand} {bound : Nat}

/-- The commands on their way through a channel of frames. -/
structure OnTheirWay (P : FrameParser turn (scanPayload u) bound) (s : σ) (pipe : Bytes)
    (waiting : List LokiCommand) : Prop where
  sendable : ∀ c ∈ waiting, c.Sendable
  carries : P.Carries s pipe (waiting.map LokiCommand.payload)

variable {P : FrameParser turn (scanPayload u) bound} {s : σ} {pipe : Bytes}
  {waiting : List LokiCommand}

/-- A command that is sent is the last on its way. -/
lemma OnTheirWay.send (h : OnTheirWay P s pipe waiting) {c : LokiCommand} (hc : c.Sendable) :
    OnTheirWay P s (pipe ++ frame c.payload) (waiting ++ [c]) := by
  refine ⟨by simpa [or_imp, forall_and] using ⟨h.sendable, hc⟩, ?_⟩
  rw [List.map_append]
  exact h.carries.send (hc.payload u)

/-- Commands that are sent are the last on their way. -/
lemma OnTheirWay.sendAll (h : OnTheirWay P s pipe waiting) {commands : List LokiCommand}
    (hcommands : ∀ c ∈ commands, c.Sendable) :
    OnTheirWay P s (pipe ++ commands.flatMap fun c => frame c.payload) (waiting ++ commands) := by
  induction commands generalizing pipe waiting with
  | nil => simpa using h
  | cons c commands ih =>
    obtain ⟨hfirst, hothers⟩ := List.forall_mem_cons.mp hcommands
    have hsent := ih (h.send hfirst) hothers
    rw [List.append_assoc, List.append_assoc] at hsent
    exact hsent

/-- No command is on its way through an empty pipe. -/
lemma OnTheirWay.eq_nil (h : OnTheirWay P s [] waiting) : waiting = [] :=
  List.map_eq_nil_iff.mp h.carries.eq_nil

/-- A call of the loop after a chunk has arrived hands over the first commands on their way and
leaves the others. -/
theorem OnTheirWay.receive (h : OnTheirWay P s pipe waiting) {s₁ : σ} {chunk rest : Bytes}
    (hpipe : pipe = chunk ++ rest) (harrived : P.pending s₁ = P.pending s ++ chunk)
    (hroom : (P.queue s₁).length < bound) {fuel : Nat} (hfuel : (P.queue s₁).length < fuel) :
    ∃ s' done others, waiting = done ++ others ∧
      runLoop turn (fuel + 1) s₁ = some (.returned s' done) ∧ OnTheirWay P s' rest others := by
  obtain ⟨s', cut, left, hcut, hloop, hcarries⟩ :=
    h.carries.receive hpipe harrived hroom hfuel
  obtain ⟨done, others, rfl, rfl, rfl⟩ := List.map_eq_append_iff.mp hcut
  have hsendable := List.forall_mem_append.mp h.sendable
  rw [flatMap_decoded_payload u hsendable.1] at hloop
  exact ⟨s', done, others, rfl, hloop, hsendable.2, hcarries⟩

end

end LokiCommand

end Liangshi
