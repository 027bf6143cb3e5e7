import Liangshi.Live.ClassBoards

/-!
# The messages of a login

The server tells the class of a login, the teacher answers the notice with the page it shows, and the
server sends the answer to every student.  `WatchedClass` follows these messages from one login on, any
one: the notice on its way to the teacher, the answer on its way to the server, the copies on their way
to the students.

`Synchronised` says what the messages are for: everybody who takes in the answer shows the page that the
teacher showed.  A teacher who does not hold the board answers nothing, and nobody else answers;
`Condition` excludes the steps that leave a login without an answer.
-/

namespace Liangshi

open Wire Ordered Transition

/-! ## The messages of a login -/

/-- What has become of an answer for a participant: it is not sent one, it is on its way behind other
commands, or it has been taken in, when the participant showed a page. -/
inductive PageCopy where
  | none
  | onItsWay (behind : Nat)
  | takenIn (shown : Page)

/-- The messages that a login causes, of the participant `p` over the connection `a`: the notice is on
its way to the teacher behind other commands, the answer with a page is on its way to the server behind
other commands, the copies of the answer are on their way; or there will be no answer. -/
inductive LoginTrace (P : Type) where
  | quiet
  | notice (p : P) (a teacher : Address) (behind : Nat)
  | answer (p : P) (a teacher : Address) (page : Page) (behind : Nat)
  | relayed (p : P) (a : Address) (page : Page) (copy : P → PageCopy)
  | unanswered

namespace Classroom

variable {P : Type} [DecidableEq P]

/-- Whether an event ends a connection. -/
def Ends (s : Classroom P) (a : Address) : ClassEvent P → Prop
  | .disconnect p _ => s.connection p = some a
  | .readError b | .close b => b = a
  | .connect _ _ | .serverRead _ | .deliver _ _ | .apply _ | .take _ | .answer _ _ _ => False
  | .draw _ _ | .hades _ _ _ => False

instance (s : Classroom P) (a : Address) (e : ClassEvent P) : Decidable (s.Ends a e) :=
  match e with
  | .disconnect p _ => inferInstanceAs (Decidable (s.connection p = some a))
  | .readError b | .close b => inferInstanceAs (Decidable (b = a))
  | .connect _ _ | .serverRead _ | .deliver _ _ | .apply _ | .take _ | .answer _ _ _
  | .draw _ _ | .hades _ _ _ => inferInstanceAs (Decidable False)

/-- No other participant is in the class. -/
def Alone (room : Lecture P) (s : Classroom P) (p : P) : Prop :=
  ∀ b ∈ (s.users room).elems, ∀ q ∈ s.opener b, s.Member room q b → q = p

instance (room : Lecture P) (s : Classroom P) (p : P) : Decidable (s.Alone room p) := by
  delta Alone
  infer_instance

/-- The connection of a teacher who is in the class. -/
def teacherIn (room : Lecture P) (s : Classroom P) : Option Address :=
  (s.connection room.teacher).filter fun b => decide (s.Member room room.teacher b)

/-- What follows when the server reads from a connection: a participant may log in over its own
connection, which is a matter for the teacher of the class unless nobody else is there. -/
def begins (room : Lecture P) (s : Classroom P) (a : Address) : LoginTrace P :=
  match s.opener a, (s.up a).head?, s.teacherIn room with
  | some p, some c, teacher =>
    if c.isLogin = false ∨ s.connection p ≠ some a ∨ s.Alone room p then .quiet
    else if p = room.teacher then .unanswered
    else teacher.elim .unanswered fun b => .notice p a b (s.down b).length
  | _, _, _ => .quiet

/-- Whether the login that the server reads from a connection finds a teacher who can answer it. -/
def FindsTeacher (room : Lecture P) (s : Classroom P) (a : Address) : Prop :=
  ∀ p ∈ s.opener a, ∀ c ∈ (s.up a).head?, c.isLogin = true → s.connection p = some a →
    ¬ s.Alone room p → p ≠ room.teacher ∧ (s.teacherIn room).isSome = true

instance (room : Lecture P) (s : Classroom P) (a : Address) : Decidable (s.FindsTeacher room a) := by
  delta FindsTeacher
  infer_instance

/-- The copies of an answer that the server sends to the students who are in the class. -/
def copies (room : Lecture P) (s : Classroom P) (q : P) : PageCopy :=
  match s.connection q with
  | some b =>
    if q ≠ room.teacher ∧ s.Member room q b then .onItsWay (s.down b).length else .none
  | none => .none

end Classroom

namespace ClassEvent

variable {P : Type}

/-- The participant that takes in a command. -/
def receiver : ClassEvent P → Option P
  | .deliver p _ => some p
  | _ => none

/-- The connection that the server reads from. -/
def readFrom : ClassEvent P → Option Address
  | .serverRead a => some a
  | _ => none

/-- The participant that loses its connection. -/
def loser : ClassEvent P → Option P
  | .disconnect p _ => some p
  | _ => none

end ClassEvent

namespace PageCopy

/-- A copy after its participant has taken in a command and shows a page. -/
def takeIn (shown : Page) : PageCopy → PageCopy
  | .none => .none
  | .onItsWay 0 => .takenIn shown
  | .onItsWay (behind + 1) => .onItsWay behind
  | .takenIn page => .takenIn page

/-- A copy after its participant has lost its connection. -/
def lose : PageCopy → PageCopy
  | .none | .onItsWay _ => .none
  | .takenIn page => .takenIn page

/-- A participant's copy after an event, when it shows a page. -/
def after {P : Type} [DecidableEq P] (e : ClassEvent P) (q : P) (shown : Page) (copy : PageCopy) :
    PageCopy :=
  if e.receiver = some q then copy.takeIn shown
  else if e.loser = some q then copy.lose
  else copy

variable {shown page : Page} {copy : PageCopy} {n : Nat}

/-- A copy that is still on its way has come one place nearer. -/
lemma takeIn_eq_onItsWay : copy.takeIn shown = .onItsWay n ↔ copy = .onItsWay (n + 1) := by
  rcases copy with _ | (_ | _) | _ <;> simp [takeIn]

/-- A copy that has been taken in was the next one, or had been taken in before. -/
lemma takeIn_eq_takenIn : copy.takeIn shown = .takenIn page ↔
    copy = .onItsWay 0 ∧ shown = page ∨ copy = .takenIn page := by
  rcases copy with _ | (_ | _) | _ <;> simp [takeIn]

/-- A copy does not vanish when something is taken in. -/
lemma takeIn_ne_none (h : copy ≠ .none) : copy.takeIn shown ≠ .none := by
  rcases copy with _ | (_ | _) | _ <;> simp [takeIn] at h ⊢

/-- Nothing is on its way over a connection that is lost. -/
lemma lose_ne_onItsWay : copy.lose ≠ .onItsWay n := by
  rcases copy with _ | _ | _ <;> simp [lose]

/-- What had been taken in is not lost. -/
lemma lose_eq_takenIn : copy.lose = .takenIn page ↔ copy = .takenIn page := by
  rcases copy with _ | _ | _ <;> simp [lose]

end PageCopy

/-- The messages of a login after an event of the class that leads to the given boards.  The teacher
answers with the page it shows, if it holds the board. -/
def LoginTrace.after {P : Type} [DecidableEq P] (room : Lecture P) (s : Classroom P)
    (board : P → LiveBoard) (watch : Bool) (e : ClassEvent P) : LoginTrace P → LoginTrace P
  | .quiet => if watch then e.readFrom.elim .quiet (s.begins room) else .quiet
  | .notice p a b behind =>
    if s.Ends b e then .unanswered
    else if e.receiver ≠ some room.teacher then .notice p a b behind
    else if behind ≠ 0 then .notice p a b (behind - 1)
    else if (s.widget room.teacher).controlingBoard then
      .answer p a b (board room.teacher).current (s.up b).length
    else .unanswered
  | .answer p a b page behind =>
    if s.Ends b e then .unanswered
    else if e.readFrom ≠ some b then .answer p a b page behind
    else if behind ≠ 0 then .answer p a b page (behind - 1)
    else .relayed p a page (s.copies room)
  | .relayed p a page copy => .relayed p a page fun q => (copy q).after e q (board q).current
  | .unanswered => .unanswered

/-- A class with boards, and the messages of a login that is followed. -/
structure WatchedClass (P : Type) where
  boards : ClassBoards P
  trace : LoginTrace P

namespace WatchedClass

variable {P : Type} [DecidableEq P]

/-- What an event does; the login that the server reads may be the one that is followed. -/
def next (room : Lecture P) (machine : BoardMachine) (s : WatchedClass P) :
    ClassBoardsEvent P × Bool → Option (WatchedClass P)
  | (.event e env, watch) => (s.boards.next room machine (.event e env)).map fun t =>
      ⟨t, s.trace.after room s.boards.room t.board watch e⟩
  | (.work p e, _) => (s.boards.next room machine (.work p e)).map (⟨·, s.trace⟩)

/-- A class of which one login is followed, from any time on. -/
def system (room : Lecture P) (machine : BoardMachine) :
    System (WatchedClass P) (ClassBoardsEvent P × Bool) where
  init s := (ClassBoards.system room machine).init s.boards ∧ s.trace = .quiet
  step s e t := s.boards.Enabled machine e.1 ∧ s.next room machine e = some t

/-- The login that is followed is answered.  The newcomer, while it is connected, is sent the page that
the teacher showed when it answered or has taken it in, which does not fail, and everybody who has taken
it in showed that page. -/
structure Synchronised (room : Lecture P) (machine : BoardMachine)
    (s : WatchedClass P) : Prop where
  answered : s.trace ≠ .unanswered
  reached : ∀ p a page copy, s.trace = .relayed p a page copy → s.boards.room.connection p = some a →
    s.boards.room.server.isOpen a = true → copy p ≠ .none
  succeeds : ∀ p a page copy, s.trace = .relayed p a page copy → ∀ q, copy q = .onItsWay 0 →
    ∀ record env, s.boards.Enabled machine (.event (.deliver q record) env) →
      (s.boards.next room machine (.event (.deliver q record) env)).isSome = true
  shown : ∀ p a page copy, s.trace = .relayed p a page copy → ∀ q page', copy q = .takenIn page' →
    page.Shows page'

/-- The steps that leave the login that is followed an answer: it finds the teacher in the class, the
teacher holds the board when it takes in the notice and shows a page that can be sent, and the teacher's
connection does not end before the server has read the answer. -/
def Condition (room : Lecture P) (machine : BoardMachine) (s : WatchedClass P) :
    ClassBoardsEvent P × Bool → Prop
  | (.event e _, watch) =>
    match s.trace with
    | .quiet => watch = true → ∀ a, e.readFrom = some a → s.boards.room.FindsTeacher room a
    | .notice _ _ b behind => ¬ s.boards.room.Ends b e ∧
        (behind = 0 → e.receiver = some room.teacher →
          (s.boards.room.widget room.teacher).controlingBoard = true ∧
            (s.boards.board room.teacher).current.getMsgPackData.1.Portable machine.quuid)
    | .answer _ _ b _ _ => ¬ s.boards.room.Ends b e
    | .relayed _ _ _ _ => True
    | .unanswered => True
  | (.work _ _, _) => True

end WatchedClass

end Liangshi
