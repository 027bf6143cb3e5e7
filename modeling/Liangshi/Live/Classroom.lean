import Liangshi.Live.LiveWidget
import Liangshi.Relay.Dispatch

/-!
# A class at work

One class of a live lesson: a teacher and any number of students, each with a `LiveWidget`, around
the server.  Commands travel in order over connections, as `Liangshi.Relay.Exactness` shows of the
bytes.

A participant connects (and logs in at once), loses its connection and connects again; the server
notices a lost connection later, or never, and still reads what had been sent on it.  `up` and
`down` hold the commands on their way; of a lost connection the server may get only the first.
Connections are named by the address of their user, and names are not used twice.
-/

namespace Liangshi

open Wire Ordered Transition

/-- A class: its participants, one of them the teacher, and their session ids in the database. -/
structure Lecture (P : Type) where
  db : Database
  classId : Bytes
  teacher : P
  session : P → Bytes
  identity : P → Identity
  identify_session : ∀ p, db.identify (session p) = some (identity p)
  classId_eq : ∀ p, (identity p).classId = classId
  isTeacher_iff : ∀ p, (identity p).isTeacher = true ↔ p = teacher
  allTeachers_eq : ∀ p, (identity p).allTeachers = false
  userId_injective : Function.Injective fun p => (identity p).userId

/-- The server, the commands on their way, the widgets of the participants with their current
connections, and who opened every connection. -/
structure Classroom (P : Type) where
  server : Server
  up : Address → List LokiCommand
  down : Address → List LokiCommand
  widget : P → LiveWidget
  connection : P → Option Address
  opener : Address → Option P

/-- What happens in a class: connections, the server and the clients taking in a command each,
and what the participants do. -/
inductive ClassEvent (P : Type) where
  | connect (p : P) (a : Address)
  | disconnect (p : P) (kept : Nat)
  | serverRead (a : Address)
  | readError (a : Address)
  | close (a : Address)
  | deliver (p : P) (page : LokiBuffer)
  | apply (p : P)
  | take (p : P)
  | answer (p : P) (position : Nat) (yes : Bool)
  | draw (p : P) (board : BoardData)
  | hades (p : P) (peerId : Bytes) (data : LokiBuffer)

namespace Classroom

variable {P : Type}

/-- Nobody has connected. -/
def new : Classroom P :=
  ⟨Server.new, fun _ => [], fun _ => [], fun _ => LiveWidget.new, fun _ => none, fun _ => none⟩

/-- An event that can happen.  Connections get new names; the buttons are those of the title; a
page's record fits the format. -/
def Enabled (s : Classroom P) : ClassEvent P → Prop
  | .connect p a => s.connection p = none ∧ s.opener a = none
  | .disconnect p _ => (s.connection p).isSome
  | .serverRead a => s.server.isOpen a = true ∧ s.up a ≠ []
  | .readError a => s.server.isOpen a = true
  | .close a => ∃ o, s.server.heap.find a = some o ∧ o.closing = true
  | .deliver p page => (∃ a, s.connection p = some a ∧ s.down a ≠ []) ∧
      page.buffer.length < 2 ^ 32
  | .apply p => (s.widget p).button = some .apply
  | .take p => (s.widget p).button = some .take
  | .answer p position _ => position < (s.widget p).applications.length
  | .draw _ _ => True
  | .hades _ _ _ => True

variable [DecidableEq P]

/-- `SendData` of a participant: without a connection nothing is sent. -/
def send (s : Classroom P) (p : P) (commands : List LokiCommand) : Classroom P :=
  match s.connection p with
  | none => s
  | some a => { s with up := Function.update s.up a (s.up a ++ commands) }

/-- A participant's widget has run a slot. -/
def act (s : Classroom P) (p : P) (result : LiveWidget × List LokiCommand) : Classroom P :=
  { s.send p result.2 with widget := Function.update s.widget p result.1 }

/-- `OnConnected` logs in. -/
def connected (room : Lecture P) (u : Uninitialised) (s : Classroom P) (p : P) (a : Address) :
    Classroom P where
  server := s.server.onConnection a
  up := Function.update s.up a [LokiClient.boardLogin u (room.session p)]
  down := s.down
  widget := s.widget
  connection := Function.update s.connection p (some a)
  opener := Function.update s.opener a (some p)

/-- The server has handled a command. -/
def handled (s : Classroom P) (a : Address) (rest : List LokiCommand) (server : Server)
    (sent : List Sent) : Classroom P :=
  { s with
    server
    up := Function.update s.up a rest
    down := fun r => s.down r ++ Server.sentTo r sent }

/-- What an event does; `none` when it cannot happen or the handler faults. -/
def next (room : Lecture P) (u : Uninitialised) (s : Classroom P) :
    ClassEvent P → Option (Classroom P)
  | .connect p a => some (s.connected room u p a)
  | .disconnect p kept =>
    match s.connection p with
    | none => none
    | some a =>
      some { s with
        up := Function.update s.up a ((s.up a).take kept)
        connection := Function.update s.connection p none }
  | .serverRead a =>
    match s.up a with
    | [] => none
    | c :: rest =>
      match NetCommandHandler.handlThread room.db s.server a c with
      | .error _ => none
      | .ok (server, sent) => some (s.handled a rest server sent)
  | .readError a => some { s with server := s.server.startClosing a }
  | .close a => some { s with server := s.server.deleteUserByHandle a }
  | .deliver p page =>
    match s.connection p with
    | none => none
    | some a =>
      match s.down a with
      | [] => none
      | c :: rest =>
        some (({ s with down := Function.update s.down a rest } : Classroom P).act p
          ((s.widget p).receive u page c))
  | .apply p => some (s.act p (s.widget p, (s.widget p).onApplyBoardTriggered))
  | .take p => some (s.act p (s.widget p).onTakeBoardTriggered)
  | .answer p position yes => some (s.act p ((s.widget p).answerApplication position yes))
  | .draw p board => some (s.act p (s.widget p, (s.widget p).addActionTriggered u board))
  | .hades p peerId data =>
    some (s.act p (s.widget p, [(s.widget p).lokiClient.hadesData peerId data]))

/-- A class as a transition system. -/
def system (room : Lecture P) (u : Uninitialised) : System (Classroom P) (ClassEvent P) where
  init s := s = new
  step s e t := s.Enabled e ∧ s.next room u e = some t

/-- A participant whose connection is open at the server. -/
def Connected (s : Classroom P) (p : P) : Prop :=
  ∃ a, s.connection p = some a ∧ s.server.isOpen a = true

/-- No command is on its way, to the server or to a client. -/
def Quiet (s : Classroom P) : Prop :=
  (∀ a, s.server.isOpen a = true → s.up a = []) ∧ ∀ p a, s.connection p = some a → s.down a = []

end Classroom

end Liangshi
