import Liangshi.Client.LokiSocket
import Liangshi.Shared.CommandPayload
import Liangshi.Transition.System

/-!
# Connecting again

`LokiClient::Init`, `LokiSocket::ConnectToHost` and the slots of `LokiSocket`, over any order of
connection attempts, losses and arriving bytes.  Qt calls a slot once for every `connect` made.

`Init` connects the slots again each time it is called, and nothing disconnects them, so after the
second call every command is dispatched twice.  `_blockSize` belongs to the `LokiSocket` and
outlives its `QTcpSocket`, so a connection lost inside a payload leaves a length behind for the
next one.  `exactlyOnce_iff` says which runs are free of both.
-/

namespace Liangshi

open Wire Transition LokiCommand

/-- A `QTcpSocket`: the bytes it has buffered, whether it is connected to a host and how often its
`readyRead` is connected to `OnDataReadTriggered`. -/
structure QTcpSocket where
  buffer : Bytes
  connected : Bool
  readyRead : Nat
deriving DecidableEq

/-- The history of a connection: the framing state it began with, the bytes that have arrived and
the commands dispatched. -/
structure ConnectionRecord where
  start : LokiSocket
  received : Bytes
  dispatched : List LokiCommand
deriving DecidableEq

/-- A `LokiClient` and its `LokiSocket`: `_socket`, `_blockSize`, how often `OnDataRead` is connected
to `LokiClient::OnDataReadTriggered`, whether an exception has left a slot, and the history of the
connections, the latest first. -/
structure LokiConnection where
  socket : Option QTcpSocket
  blockSize : UInt32
  onDataRead : Nat
  escaped : Bool
  records : List ConnectionRecord
deriving DecidableEq

/-- What happens to a client: `Init` is called, the connection is lost (and the `QTcpSocket` says
whether it is still valid), bytes arrive. -/
inductive ConnectionEvent where
  | init
  | lost (isValid : Bool)
  | arrive (bytes : Bytes)

namespace LokiConnection

/-- Before `Init`. -/
def new : LokiConnection := ⟨none, 0, 0, false, []⟩

/-- `LokiClient::InitSocketSlot`. -/
def initSocketSlot (s : LokiConnection) : LokiConnection :=
  { s with onDataRead := s.onDataRead + 1 }

/-- `ConnectToHost`: a `QTcpSocket` is made if there is none, and its signals are connected.  Qt
ignores the call on a connected socket; a new connection begins with an empty buffer. -/
def connectToHost (s : LokiConnection) : LokiConnection :=
  let socket := s.socket.getD ⟨[], false, 0⟩
  let socket := { socket with readyRead := socket.readyRead + 1 }
  if socket.connected then
    { s with socket := some socket }
  else
    { s with
      socket := some { socket with buffer := [], connected := true }
      records := ⟨⟨[], s.blockSize⟩, [], []⟩ :: s.records }

/-- `LokiClient::Init`. -/
def init (s : LokiConnection) : LokiConnection := s.initSocketSlot.connectToHost

/-- `OnClientDisconnectTriggered` and `OnSocketErrorTriggered`: an invalid socket is forgotten. -/
def lost (s : LokiConnection) (isValid : Bool) : LokiConnection :=
  match s.socket with
  | some socket =>
    { s with socket := if isValid then some { socket with connected := false } else none }
  | none => s

/-- `OnDataReadTriggered`, called a number of times in a row. -/
def readyRead (u : Uninitialised) :
    Nat → LokiSocket → Option (LoopResult LokiSocket MsgpackException LokiCommand)
  | 0, socket => some (.returned socket [])
  | calls + 1, socket =>
    match socket.onDataReadTriggered u [] with
    | some (.returned socket handed) =>
      match readyRead u calls socket with
      | some (.returned socket others) => some (.returned socket (handed ++ others))
      | some (.threw exception others) => some (.threw exception (handed ++ others))
      | none => none
    | stopped => stopped

/-- Bytes have arrived and commands have been dispatched on the current connection. -/
def record (bytes : Bytes) (dispatched : List LokiCommand) :
    List ConnectionRecord → List ConnectionRecord
  | [] => []
  | r :: records =>
    { r with received := r.received ++ bytes, dispatched := r.dispatched ++ dispatched } :: records

/-- Bytes arrive: the slots of `readyRead` are called, and every `OnDataRead` calls its own. -/
def arrive (u : Uninitialised) (s : LokiConnection) (socket : QTcpSocket) (bytes : Bytes) :
    Option LokiConnection :=
  match readyRead u socket.readyRead ⟨socket.buffer ++ bytes, s.blockSize⟩ with
  | some (.returned parser handed) =>
    some { s with
      socket := some { socket with buffer := parser.buffer }
      blockSize := parser.blockSize
      records := record bytes (handed.flatMap (List.replicate s.onDataRead)) s.records }
  | some (.threw _ _) => some { s with escaped := true }
  | none => none

/-- What an event does. -/
def next (u : Uninitialised) (s : LokiConnection) : ConnectionEvent → Option LokiConnection
  | .init => some s.init
  | .lost isValid => some (s.lost isValid)
  | .arrive bytes =>
    match s.socket with
    | some socket => s.arrive u socket bytes
    | none => none

/-- An event that can happen: only a connection can be lost or deliver bytes, and the buffer of a
`QTcpSocket` is shorter than `2 ^ 31` bytes.  After an exception nothing happens. -/
def Enabled (s : LokiConnection) : ConnectionEvent → Prop
  | .init => s.escaped = false
  | .lost _ => s.escaped = false ∧ ∃ socket, s.socket = some socket ∧ socket.connected = true
  | .arrive bytes => s.escaped = false ∧ ∃ socket, s.socket = some socket ∧
      socket.connected = true ∧ socket.buffer.length + bytes.length < 2 ^ 31

/-- The client as a transition system. -/
def system (u : Uninitialised) : System LokiConnection ConnectionEvent where
  init s := s = new
  step s e t := s.Enabled e ∧ s.next u e = some t

/-! ## What a clean reconnection is -/

/-- The commands of frames. -/
abbrev commandsOf (u : Uninitialised) (payloads : List Bytes) : List LokiCommand :=
  payloads.flatMap (decoded (scanPayload u))

/-- A connection that began with a clean framing state and whose complete frames have each been
dispatched once. -/
structure ExactlyOnce (u : Uninitialised) (r : ConnectionRecord) : Prop where
  start : r.start = LokiSocket.new
  dispatched : r.dispatched = commandsOf u (deframe r.received).1

/-- Every connection is clean and no exception has left a slot. -/
def Clean (u : Uninitialised) (s : LokiConnection) : Prop :=
  s.escaped = false ∧ ∀ r ∈ s.records, ExactlyOnce u r

/-- The frames of a connection that the next bytes complete. -/
def completed (r : ConnectionRecord) (bytes : Bytes) : List Bytes :=
  (deframe ((deframe r.received).2 ++ bytes)).1

/-- A connection begins between frames, and the bytes that arrive complete frames that can be
unpacked, while `Init` has been called once or none of them is a command. -/
def Undisturbed (u : Uninitialised) (s : LokiConnection) : ConnectionEvent → Prop
  | .init => (∀ socket, s.socket = some socket → socket.connected = false) → s.blockSize = 0
  | .arrive bytes => ∀ r, s.records.head? = some r →
      (∀ payload ∈ completed r bytes, ∃ first, scanPayload u payload = .ok first) ∧
        (s.onDataRead = 1 ∨ commandsOf u (completed r bytes) = [])
  | .lost _ => True

/-! ## The slots of `readyRead` -/

section

variable {u : Uninitialised} {socket : LokiSocket} {leftover bytes : Bytes}

/-- Parsing takes bytes off the buffer. -/
lemma length_buffer_parseCommand {next : LokiSocket} {first : Option LokiCommand} {more : Bool}
    (h : socket.parseCommand u = .ok (next, first, more)) :
    next.buffer.length ≤ socket.buffer.length := by
  have hread : socket.readHead.1.buffer.length ≤ socket.buffer.length := by
    unfold LokiSocket.readHead
    dsimp only
    split_ifs
    · simp
    · exact le_rfl
  unfold LokiSocket.parseCommand at h
  dsimp only at h
  split_ifs at h
  · cases h
    exact hread
  · cases hscan : scanPayload u
        (socket.readHead.1.buffer.take socket.readHead.1.blockSize.toNat) with
    | error exception =>
      rw [hscan] at h
      cases h
    | ok command =>
      rw [hscan] at h
      cases h
      simp only [List.length_drop]
      omega

/-- A call of the slot hands over the frames that have arrived, and stands for what they leave
over. -/
lemma onDataReadTriggered_eq (htracks : (LokiSocket.frameParser u).Tracks socket leftover)
    (hroom : socket.buffer.length + bytes.length < 2 ^ 31) :
    ∃ next, LokiSocket.onDataReadTriggered u socket bytes =
        some (handOver (scanPayload u) next (deframe (leftover ++ bytes)).1) ∧
      (LokiSocket.frameParser u).Tracks next (deframe (leftover ++ bytes)).2 := by
  have harrived := LokiSocket.pending_arrived socket bytes
  have hqueue : (socket.buffer ++ bytes).length < 2 ^ 31 := by
    rw [List.length_append]
    exact hroom
  obtain ⟨next, hloop, htracks', -⟩ := htracks.call harrived hqueue (Nat.lt_succ_self _)
  exact ⟨next, hloop, htracks'⟩

/-- A call that returns leaves no longer a buffer. -/
lemma length_buffer_onDataReadTriggered {next : LokiSocket} {handed : List LokiCommand}
    (h : LokiSocket.onDataReadTriggered u socket bytes = some (.returned next handed)) :
    next.buffer.length ≤ socket.buffer.length + bytes.length := by
  have hlength : (socket.buffer ++ bytes).length ≤ socket.buffer.length + bytes.length := by
    rw [List.length_append]
  have hturn : ∀ (s s' : LokiSocket) (first : Option LokiCommand) (more : Bool),
      s.buffer.length ≤ socket.buffer.length + bytes.length →
      s.parseCommand u = .ok (s', first, more) →
      s'.buffer.length ≤ socket.buffer.length + bytes.length :=
    fun s s' first more hs hparse => (length_buffer_parseCommand hparse).trans hs
  exact runLoop_invariant hturn hlength h

/-- Further calls of the slot hand over nothing. -/
lemma readyRead_idle (htracks : (LokiSocket.frameParser u).Tracks socket leftover)
    (hleft : splitFrame leftover = none) (hroom : socket.buffer.length < 2 ^ 31) (calls : Nat) :
    ∃ next, readyRead u calls socket = some (.returned next []) ∧
      (LokiSocket.frameParser u).Tracks next leftover := by
  induction calls generalizing socket with
  | zero => exact ⟨socket, rfl, htracks⟩
  | succ calls ih =>
    have hroom' : socket.buffer.length + ([] : Bytes).length < 2 ^ 31 := hroom
    obtain ⟨next, hcall, htracks'⟩ := onDataReadTriggered_eq htracks hroom'
    rw [List.append_nil, deframe_of_none hleft] at hcall htracks'
    have hlength := length_buffer_onDataReadTriggered hcall
    obtain ⟨last, hothers, hlast⟩ := ih htracks' (by simpa using lt_of_le_of_lt hlength hroom)
    refine ⟨last, ?_, hlast⟩
    simp only [readyRead, hcall, handOver, hothers, List.append_nil]

/-- Bytes that have arrived before the call arrive with it. -/
lemma onDataReadTriggered_arrived : LokiSocket.onDataReadTriggered u
    ⟨socket.buffer ++ bytes, socket.blockSize⟩ [] = LokiSocket.onDataReadTriggered u socket bytes := by
  simp only [LokiSocket.onDataReadTriggered, List.append_nil]

/-- The slots hand over the frames the bytes complete, if they can all be unpacked. -/
lemma readyRead_eq (htracks : (LokiSocket.frameParser u).Tracks socket leftover)
    (hroom : socket.buffer.length + bytes.length < 2 ^ 31)
    (hok : ∀ payload ∈ (deframe (leftover ++ bytes)).1, ∃ first, scanPayload u payload = .ok first)
    (calls : Nat) :
    ∃ next, readyRead u (calls + 1) ⟨socket.buffer ++ bytes, socket.blockSize⟩ =
        some (.returned next (commandsOf u (deframe (leftover ++ bytes)).1)) ∧
      (LokiSocket.frameParser u).Tracks next (deframe (leftover ++ bytes)).2 := by
  obtain ⟨next, hcall, htracks'⟩ := onDataReadTriggered_eq htracks hroom
  rw [handOver_of_ok hok] at hcall
  have hlength := length_buffer_onDataReadTriggered hcall
  obtain ⟨last, hothers, hlast⟩ :=
    readyRead_idle htracks' (splitFrame_deframe _) (lt_of_le_of_lt hlength hroom) calls
  refine ⟨last, ?_, hlast⟩
  simp only [readyRead, onDataReadTriggered_arrived, hcall, hothers, List.append_nil]

/-- They throw if one of the frames cannot be unpacked. -/
lemma readyRead_throws (htracks : (LokiSocket.frameParser u).Tracks socket leftover)
    (hroom : socket.buffer.length + bytes.length < 2 ^ 31)
    (hbad : ¬ ∀ payload ∈ (deframe (leftover ++ bytes)).1,
      ∃ first, scanPayload u payload = .ok first) (calls : Nat) :
    ∃ exception handed, readyRead u (calls + 1) ⟨socket.buffer ++ bytes, socket.blockSize⟩ =
      some (.threw exception handed) := by
  obtain ⟨next, hcall, -⟩ := onDataReadTriggered_eq htracks hroom
  obtain ⟨exception, handed, hthrew⟩ := handOver_of_error hbad
  rw [hthrew] at hcall
  refine ⟨exception, handed, ?_⟩
  simp only [readyRead, onDataReadTriggered_arrived, hcall]

end

/-! ## The invariant -/

variable {u : Uninitialised} {s t : LokiConnection}

/-- A `QTcpSocket` has been connected to the slots, and the framing state of a connection stands for
what the frames that have arrived on it leave over. -/
structure Framed (u : Uninitialised) (s : LokiConnection) : Prop where
  connects : ∀ socket, s.socket = some socket → 1 ≤ s.onDataRead ∧ 1 ≤ socket.readyRead
  tracks : ∀ socket, s.socket = some socket → socket.connected = true →
    ∃ r records, s.records = r :: records ∧
      (LokiSocket.frameParser u).Tracks ⟨socket.buffer, s.blockSize⟩ (deframe r.received).2

/-- A new client has received nothing. -/
lemma framed_new : Framed u new where
  connects _ h := by cases h
  tracks _ h := by cases h

/-- A new client is clean. -/
lemma clean_new : Clean u new := ⟨rfl, fun _ h => absurd h List.not_mem_nil⟩

/-- A connection has been clean from its begin when nothing has arrived and nothing was left. -/
lemma exactlyOnce_start {blockSize : UInt32} :
    ExactlyOnce u ⟨⟨[], blockSize⟩, [], []⟩ ↔ blockSize = 0 := by
  constructor
  · intro h
    exact congrArg LokiSocket.blockSize h.start
  · rintro rfl
    exact ⟨rfl, rfl⟩

/-- `Init` on a connected socket connects the slots once more. -/
lemma init_of_connected {socket : QTcpSocket} (hsocket : s.socket = some socket)
    (hconnected : socket.connected = true) : s.init =
      { s with
        socket := some { socket with readyRead := socket.readyRead + 1 }
        onDataRead := s.onDataRead + 1 } := by
  simp [init, initSocketSlot, connectToHost, hsocket, hconnected]

/-- `Init` without a connection begins one. -/
lemma init_of_starts (h : ∀ socket, s.socket = some socket → socket.connected = false) :
    ∃ calls, s.init =
      { s with
        socket := some ⟨[], true, calls + 1⟩
        onDataRead := s.onDataRead + 1
        records := ⟨⟨[], s.blockSize⟩, [], []⟩ :: s.records } := by
  cases hsocket : s.socket with
  | none => exact ⟨0, by simp [init, initSocketSlot, connectToHost, hsocket]⟩
  | some socket =>
    exact ⟨socket.readyRead, by simp [init, initSocketSlot, connectToHost, hsocket, h socket hsocket]⟩

/-- `Init` keeps the connections clean exactly if it begins none or no length is left from the
last one. -/
lemma step_init (hs : Framed u s) (hgood : Clean u s) :
    (Undisturbed u s .init ↔ Clean u s.init) ∧ (Undisturbed u s .init → Framed u s.init) := by
  by_cases hstarts : ∀ socket, s.socket = some socket → socket.connected = false
  · obtain ⟨calls, heq⟩ := init_of_starts hstarts
    rw [heq]
    constructor
    · rw [Undisturbed, Clean, List.forall_mem_cons, exactlyOnce_start]
      exact ⟨fun h => ⟨hgood.1, h hstarts, hgood.2⟩, fun h _ => h.2.1⟩
    · intro hclean
      refine ⟨fun socket hsocket => ?_, fun socket hsocket _ => ?_⟩
      · obtain rfl := Option.some.inj hsocket
        exact ⟨Nat.succ_pos _, Nat.succ_pos _⟩
      · obtain rfl := Option.some.inj hsocket
        exact ⟨_, _, rfl, Or.inl (LokiSocket.pending_of_zero (hclean hstarts))⟩
  · push Not at hstarts
    obtain ⟨socket, hsocket, hne⟩ := hstarts
    have hconnected : socket.connected = true := by simpa using hne
    have hnot : Undisturbed u s .init := by
      intro h
      rw [h socket hsocket] at hconnected
      cases hconnected
    rw [init_of_connected hsocket hconnected]
    refine ⟨iff_of_true hnot hgood, fun _ => ⟨fun socket' hsocket' => ?_, fun socket' hsocket' _ => ?_⟩⟩
    · obtain rfl := Option.some.inj hsocket'
      exact ⟨Nat.succ_pos _, Nat.succ_pos _⟩
    · obtain rfl := Option.some.inj hsocket'
      exact hs.tracks socket hsocket hconnected

/-- A loss ends the connection and dispatches nothing. -/
lemma step_lost (hs : Framed u s) (hgood : Clean u s) (isValid : Bool) :
    Clean u (s.lost isValid) ∧ Framed u (s.lost isValid) := by
  unfold lost
  cases hsocket : s.socket with
  | none => exact ⟨hgood, hs⟩
  | some socket =>
    refine ⟨hgood, fun socket' hsocket' => ?_, fun socket' hsocket' hconnected => ?_⟩
    · cases isValid with
      | false => cases hsocket'
      | true =>
        obtain rfl := Option.some.inj hsocket'
        exact hs.connects socket hsocket
    · cases isValid with
      | false => cases hsocket'
      | true =>
        obtain rfl := Option.some.inj hsocket'
        cases hconnected

/-- Every call of a slot dispatches all commands. -/
lemma length_flatMap_replicate (calls : Nat) (commands : List LokiCommand) :
    (commands.flatMap (List.replicate calls)).length = commands.length * calls := by
  induction commands with
  | nil => simp
  | cons command commands ih =>
    rw [List.flatMap_cons, List.length_append, List.length_replicate, ih, List.length_cons,
      Nat.succ_mul, Nat.add_comm]

/-- Commands dispatched a positive number of times are dispatched once exactly if the number is one
or there are none. -/
lemma flatMap_replicate_eq {calls : Nat} (hcalls : 1 ≤ calls) {commands : List LokiCommand} :
    commands.flatMap (List.replicate calls) = commands ↔ calls = 1 ∨ commands = [] := by
  constructor
  · intro h
    have hlength := length_flatMap_replicate calls commands
    rw [h] at hlength
    rcases Nat.eq_zero_or_pos commands.length with hnil | hpos
    · exact Or.inr (List.length_eq_zero_iff.mp hnil)
    · exact Or.inl (Nat.eq_of_mul_eq_mul_left hpos (by rw [← hlength, Nat.mul_one]))
  · rintro (rfl | rfl)
    · induction commands with
      | nil => rfl
      | cons command commands ih =>
        rw [List.flatMap_cons, ih]
        rfl
    · rfl

/-- The bytes that arrive keep the connections clean exactly if they complete frames that can be
unpacked and dispatch their commands once. -/
lemma step_arrive (hs : Framed u s) (hgood : Clean u s) {bytes : Bytes}
    (henabled : s.Enabled (.arrive bytes)) (hnext : s.next u (.arrive bytes) = some t) :
    (Undisturbed u s (.arrive bytes) ↔ Clean u t) ∧
      (Undisturbed u s (.arrive bytes) → Framed u t) := by
  obtain ⟨-, socket, hsocket, hconnected, hroom⟩ := henabled
  obtain ⟨r, records, hrecords, htracks⟩ := hs.tracks socket hsocket hconnected
  obtain ⟨honDataRead, hreadyRead⟩ := hs.connects socket hsocket
  obtain ⟨calls, hcalls⟩ := Nat.exists_eq_add_of_le' hreadyRead
  simp only [next, hsocket, arrive, hcalls] at hnext
  have hundisturbed : Undisturbed u s (.arrive bytes) ↔
      (∀ payload ∈ completed r bytes, ∃ first, scanPayload u payload = .ok first) ∧
        (s.onDataRead = 1 ∨ commandsOf u (completed r bytes) = []) := by
    simp [Undisturbed, hrecords]
  rw [hundisturbed]
  by_cases hok : ∀ payload ∈ completed r bytes, ∃ first, scanPayload u payload = .ok first
  · obtain ⟨parser, hread, hparser⟩ := readyRead_eq htracks hroom hok calls
    rw [hread] at hnext
    obtain rfl := Option.some.inj hnext
    have hstream : (deframe (r.received ++ bytes)).1 =
        (deframe r.received).1 ++ completed r bytes := by
      rw [deframe_append]
      rfl
    have hleft : (deframe (r.received ++ bytes)).2 =
        (deframe ((deframe r.received).2 ++ bytes)).2 := by
      rw [deframe_append]
    have hr : ExactlyOnce u r := hgood.2 r (hrecords ▸ List.mem_cons_self)
    have hexact : ExactlyOnce u ⟨r.start, r.received ++ bytes, r.dispatched ++
        (commandsOf u (completed r bytes)).flatMap (List.replicate s.onDataRead)⟩ ↔
          s.onDataRead = 1 ∨ commandsOf u (completed r bytes) = [] := by
      rw [← flatMap_replicate_eq honDataRead]
      constructor
      · intro h
        have heq := h.dispatched
        simp only [hstream, commandsOf, List.flatMap_append] at heq
        rw [hr.dispatched] at heq
        exact List.append_cancel_left heq
      · intro h
        refine ⟨hr.start, ?_⟩
        simp only [hstream, commandsOf, List.flatMap_append]
        rw [hr.dispatched]
        exact congrArg _ h
    rw [hrecords, record]
    refine ⟨?_, fun _ => ⟨fun socket' hsocket' => ?_, fun socket' hsocket' _ => ?_⟩⟩
    · rw [Clean, List.forall_mem_cons, and_iff_right hok]
      refine ⟨fun h => ⟨hgood.1, hexact.mpr h, fun r' hr' => hgood.2 r' ?_⟩, fun h => hexact.mp h.2.1⟩
      rw [hrecords]
      exact List.mem_cons_of_mem r hr'
    · obtain rfl := Option.some.inj hsocket'
      exact ⟨honDataRead, Nat.succ_pos calls⟩
    · obtain rfl := Option.some.inj hsocket'
      exact ⟨_, _, rfl, hleft ▸ hparser⟩
  · obtain ⟨exception, handed, hthrew⟩ := readyRead_throws htracks hroom hok calls
    rw [hthrew] at hnext
    obtain rfl := Option.some.inj hnext
    exact ⟨iff_of_false (fun h => hok h.1) (fun h => by cases h.1), fun h => absurd h.1 hok⟩

/-- Over every order of events, each connection begins with a clean framing state and dispatches
each of its complete frames once, exactly when every connection begins between frames and bytes
that complete a command arrive only while `Init` has been called once. -/
theorem exactlyOnce_iff (u : Uninitialised) (es : List ConnectionEvent) :
    (system u).EveryState (Clean u) new es ↔ (system u).EveryStep (Undisturbed u) new es := by
  refine System.everyState_iff (I := Framed u) ⟨framed_new, clean_new⟩
    (fun s e t hs hgood hstep => ?_) es
  obtain ⟨henabled, hnext⟩ := hstep
  cases e with
  | init =>
    obtain rfl := Option.some.inj hnext
    exact step_init hs hgood
  | lost isValid =>
    obtain rfl := Option.some.inj hnext
    obtain ⟨hclean, hframed⟩ := step_lost hs hgood isValid
    exact ⟨iff_of_true trivial hclean, fun _ => hframed⟩
  | arrive bytes => exact step_arrive hs hgood henabled hnext

/-! ## Connecting again -/

/-- The frame of a request to take the board. -/
def takeBoardFrame : Bytes := LokiSocket.sendData (LokiCommand.takeBoard ⟨[11]⟩).payload

/-- A value for fields that nothing has set. -/
def unset : Uninitialised := ⟨0, false⟩

/-- The connection is lost between frames, `Init` is called again and one command arrives. -/
def retried : List ConnectionEvent := [.init, .lost false, .init, .arrive takeBoardFrame]

/-- The client after it: the command is dispatched twice. -/
def retriedClient : LokiConnection where
  socket := some ⟨[], true, 1⟩
  blockSize := 0
  onDataRead := 2
  escaped := false
  records := [⟨LokiSocket.new, takeBoardFrame, [.takeBoard ⟨[11]⟩, .takeBoard ⟨[11]⟩]⟩,
    ⟨LokiSocket.new, [], []⟩]

/-- The client that has tried again. -/
lemma run_retried : (system unset).Run new retried retriedClient := by
  have hinit : (system unset).step new .init new.init := ⟨rfl, rfl⟩
  have hlost : (system unset).step new.init (.lost false) (new.init.lost false) :=
    ⟨⟨rfl, _, rfl, rfl⟩, rfl⟩
  have hagain : (system unset).step (new.init.lost false) .init (new.init.lost false).init :=
    ⟨rfl, rfl⟩
  have harrive : (system unset).step (new.init.lost false).init (.arrive takeBoardFrame)
      retriedClient := ⟨⟨rfl, _, rfl, rfl, by decide +kernel⟩, by decide +kernel⟩
  exact ((((System.Run.nil _).snoc hinit).snoc hlost).snoc hagain).snoc harrive

/-- The connection is lost after the first bytes of a payload and `Init` is called again. -/
def cutOff : List ConnectionEvent := [.init, .arrive (takeBoardFrame.take 6), .lost false, .init]

/-- The client inside the payload. -/
def insideClient : LokiConnection where
  socket := some ⟨[205, 91], true, 1⟩
  blockSize := 7
  onDataRead := 1
  escaped := false
  records := [⟨LokiSocket.new, takeBoardFrame.take 6, []⟩]

/-- The client after it: a length is left. -/
def cutOffClient : LokiConnection where
  socket := some ⟨[], true, 1⟩
  blockSize := 7
  onDataRead := 2
  escaped := false
  records := [⟨⟨[], 7⟩, [], []⟩, ⟨LokiSocket.new, takeBoardFrame.take 6, []⟩]

/-- The client that has been cut off. -/
lemma run_cutOff : (system unset).Run new cutOff cutOffClient := by
  have hinit : (system unset).step new .init new.init := ⟨rfl, rfl⟩
  have harrive : (system unset).step new.init (.arrive (takeBoardFrame.take 6)) insideClient :=
    ⟨⟨rfl, _, rfl, rfl, by decide +kernel⟩, by decide +kernel⟩
  have hlost : (system unset).step insideClient (.lost false) (insideClient.lost false) :=
    ⟨⟨rfl, _, rfl, rfl⟩, rfl⟩
  have hagain : (system unset).step (insideClient.lost false) .init cutOffClient := ⟨rfl, rfl⟩
  exact ((((System.Run.nil _).snoc hinit).snoc harrive).snoc hlost).snoc hagain

/-- After the second `Init` a command is dispatched twice, and a connection that follows one lost
inside a payload begins with a length left over. -/
theorem reconnection_disturbed :
    ¬ (system unset).EveryState (Clean unset) new retried ∧
      ¬ (system unset).EveryState (Clean unset) new cutOff := by
  constructor
  · intro h
    have hclean := h retried [] retriedClient rfl run_retried
    have hlength := congrArg List.length (hclean.2 _ List.mem_cons_self).dispatched
    revert hlength
    decide +kernel
  · intro h
    have hclean := h cutOff [] cutOffClient rfl run_cutOff
    have hstart := (hclean.2 _ List.mem_cons_self).start
    revert hstart
    decide +kernel

end LokiConnection

end Liangshi
