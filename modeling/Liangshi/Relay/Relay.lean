import Liangshi.Client.LokiSocket
import Liangshi.Relay.Dispatch
import Liangshi.Shared.CommandPayload
import Liangshi.Server.UserFraming

/-!
# The relay

The server with its connections, at the level of bytes.  A `Link` is one connection as its client
sees it: the bytes in flight in both directions and the client's parser, together with the
history of what the client has sent and what has been delivered to it.  Clients send commands,
and either side reads what has arrived in chunks of any size, in any order.

The connections stay open, and a side reads a chunk only while its queue stays shorter than
`2 ^ 31` bytes.
-/

namespace Liangshi

open Wire Ordered Transition LokiCommand

namespace Server

/-- The parser of a user after a call of `OnData`. -/
def setParser (s : Server) (user : Address) (parser : User) : Server :=
  match s.heap.find user with
  | some o => { s with heap := s.heap.insert user { o with parser } }
  | none => s

/-- The commands a call of `OnData` hands over, handled one after the other.  Handling a command
does not look at the parser, so it does not matter that it happens inside the parsing loop. -/
def handleAll (db : Database) (user : Address) :
    Server → List LokiCommand → Except Fault (Server × List Sent)
  | s, [] => .ok (s, [])
  | s, c :: commands =>
    match NetCommandHandler.handlThread db s user c with
    | .error fault => .error fault
    | .ok (t, sent) => (handleAll db user t commands).map fun rest => (rest.1, sent ++ rest.2)

end Server

/-- A connection seen from its client. -/
structure Link where
  up : Bytes
  down : Bytes
  socket : LokiSocket
  sent : List LokiCommand
  delivered : List LokiCommand

/-- A connection that has carried nothing. -/
def Link.new : Link := ⟨[], [], LokiSocket.new, [], []⟩

/-- The server, the connections and the commands handled so far. -/
structure Relay where
  server : Server
  links : Address → Link
  handled : List Handled

/-- What happens in the relay: a connection is opened, a client sends a command, the server or a
client reads a number of bytes. -/
inductive RelayEvent where
  | connect (user : Address)
  | send (user : Address) (c : LokiCommand)
  | serverRead (user : Address) (count : Nat)
  | clientRead (user : Address) (count : Nat)

namespace Relay

/-- The relay before any connection. -/
def new : Relay := ⟨Server.new, fun _ => Link.new, []⟩

/-- The bytes the server writes to a user. -/
def written (sent : List Sent) (user : Address) : Bytes :=
  (Server.sentTo user sent).flatMap fun c => NetCommandHandler.writeData c.payload

/-- An event that can happen. -/
def Enabled (s : Relay) : RelayEvent → Prop
  | .connect user => s.server.heap.find user = none
  | .send user c => (s.server.heap.find user).isSome ∧ c.Sendable
  | .serverRead user count => ∃ o, s.server.heap.find user = some o ∧
      count ≤ (s.links user).up.length ∧ o.parser.received.queue.length + count < 2 ^ 31
  | .clientRead user count => (s.server.heap.find user).isSome ∧
      count ≤ (s.links user).down.length ∧ (s.links user).socket.buffer.length + count < 2 ^ 31

/-- A client has sent a command. -/
def afterSend (s : Relay) (user : Address) (c : LokiCommand) : Relay :=
  let link := s.links user
  let sending : Link :=
    { link with up := link.up ++ LokiSocket.sendData c.payload, sent := link.sent ++ [c] }
  { s with links := Function.update s.links user sending }

/-- The server has read bytes of a user and handled the commands they complete. -/
def afterServerRead (s : Relay) (user : Address) (count : Nat) (commands : List LokiCommand)
    (server : Server) (sent : List Sent) : Relay :=
  let link := s.links user
  let links := Function.update s.links user { link with up := link.up.drop count }
  let writing (other : Address) : Link :=
    { links other with down := (links other).down ++ written sent other }
  ⟨server, writing, s.handled ++ commands.map fun c => (user, c)⟩

/-- A client has read bytes and got the commands they complete. -/
def afterClientRead (s : Relay) (user : Address) (count : Nat) (commands : List LokiCommand)
    (socket : LokiSocket) : Relay :=
  let link := s.links user
  let reading : Link :=
    { link with down := link.down.drop count, socket, delivered := link.delivered ++ commands }
  { s with links := Function.update s.links user reading }

/-- What an event does; `none` when something throws or a deleted user is looked at. -/
def next (db : Database) (u : Uninitialised) (s : Relay) : RelayEvent → Option Relay
  | .connect user => some { s with server := s.server.onConnection user }
  | .send user c => some (s.afterSend user c)
  | .serverRead user count =>
    match s.server.heap.find user with
    | none => none
    | some o =>
      match o.parser.onData u ((s.links user).up.take count) with
      | some (.returned parser commands) =>
        match (s.server.setParser user parser).handleAll db user commands with
        | .error _ => none
        | .ok (server, sent) => some (s.afterServerRead user count commands server sent)
      | _ => none
  | .clientRead user count =>
    match (s.links user).socket.onDataReadTriggered u ((s.links user).down.take count) with
    | some (.returned socket commands) => some (s.afterClientRead user count commands socket)
    | _ => none

/-- The commands the server reads are handled one after the other. -/
lemma next_serverRead {db : Database} {u : Uninitialised} {s : Relay} {user : Address} {count : Nat}
    {o : UserObject} {parser : User} {commands : List LokiCommand} {server : Server}
    {sent : List Sent} (ho : s.server.heap.find user = some o)
    (hread : o.parser.onData u ((s.links user).up.take count) = some (.returned parser commands))
    (hhandled : (s.server.setParser user parser).handleAll db user commands = .ok (server, sent)) :
    s.next db u (.serverRead user count) =
      some (s.afterServerRead user count commands server sent) := by
  simp only [next, ho, hread, hhandled]

/-! ## What the events change -/

section

variable {s : Relay} {user other : Address} {count : Nat} {commands : List LokiCommand}

/-- Only the bytes to the server and what has been sent change when a client sends. -/
lemma links_afterSend (c : LokiCommand) : (s.afterSend user c).links other =
    { s.links other with
      up := (s.links other).up ++ if other = user then LokiSocket.sendData c.payload else []
      sent := (s.links other).sent ++ if other = user then [c] else [] } := by
  by_cases heq : other = user
  · subst heq
    simp [afterSend]
  · simp [afterSend, heq]

/-- A read by the server takes bytes off one connection and writes bytes to any. -/
lemma links_afterServerRead (server : Server) (sent : List Sent) :
    (s.afterServerRead user count commands server sent).links other =
      { s.links other with
        up := (s.links other).up.drop (if other = user then count else 0)
        down := (s.links other).down ++ written sent other } := by
  by_cases heq : other = user
  · subst heq
    simp [afterServerRead]
  · simp [afterServerRead, heq]

/-- A read by a client changes its own connection only. -/
lemma links_afterClientRead_self (socket : LokiSocket) :
    (s.afterClientRead user count commands socket).links user =
      { s.links user with
        down := (s.links user).down.drop count
        socket
        delivered := (s.links user).delivered ++ commands } := by
  simp [afterClientRead]

/-- A client that reads leaves the links of the others. -/
lemma links_afterClientRead_of_ne (socket : LokiSocket) (h : other ≠ user) :
    (s.afterClientRead user count commands socket).links other = s.links other := by
  simp [afterClientRead, h]

end

/-- The relay as a transition system. -/
def system (db : Database) (u : Uninitialised) : System Relay RelayEvent where
  init s := s = new
  step s e t := s.Enabled e ∧ s.next db u e = some t

/-- The commands handled that came from a user. -/
def handledFrom (s : Relay) (user : Address) : List LokiCommand :=
  (s.handled.filter fun h => decide (h.1 = user)).map Prod.snd

/-- What a user is to receive for the commands handled. -/
def expected (db : Database) (s : Relay) (user : Address) : List LokiCommand :=
  Roster.empty.received db user s.handled

end Relay

end Liangshi
