import Liangshi.Relay.Registry

/-!
# Who is heard in a class

The server relays a command to the users of the class the command names, and never asks whether
its sender may send it.

An application with `from_teacher` set and a request to take the board steer the board of a class.
Only the teacher is to send them, but anyone who does is relayed: `onlyTeacherSteers_iff` says which
runs only the teachers steer.  For the four kinds of commands that are relayed within a class,
`relays_iff` says who receives them, in terms of the logins of a run: the sender's login plays no
part.
-/

namespace Liangshi

open Wire Ordered Transition

/-- A class whose students are to act as teachers. -/
def Database.AllTeachers (db : Database) (classId : Bytes) : Prop :=
  ∃ sessionId row, db.isStudent sessionId = some row ∧ row.classId = classId ∧
    row.allTeachers = true

/-- The class whose board a command steers. -/
def LokiCommand.steeredClass : LokiCommand → Option Bytes
  | .applyBoard apply => if apply.fromTeacher then some apply.classId else none
  | .takeBoard take => some take.classId
  | _ => none

/-- The class a command is relayed in. -/
def LokiCommand.relayedClass : LokiCommand → Option Bytes
  | .hadesData hades => some hades.classId
  | .boardData data => some data.classId
  | .applyBoard apply => some apply.classId
  | .takeBoard take => some take.classId
  | _ => none

namespace Server

/-- Handling a command writes it to a user. -/
def Relays (s : Server) (db : Database) (sender : Address) (c : LokiCommand)
    (receiver : Address) : Prop :=
  ∃ t sent, NetCommandHandler.handlThread db s sender c = .ok (t, sent) ∧ (receiver, c) ∈ sent

variable {s t : Server} {db : Database} {sender receiver : Address} {c : LokiCommand}

/-- Writing to a list of users does not fail only if they are live. -/
lemma isSome_of_sendAll {users : List Address} {sent : List Sent}
    (h : s.sendAll c users = .ok sent) : ∀ user ∈ users, (s.heap.find user).isSome := by
  induction users generalizing sent with
  | nil => simp
  | cons user users ih =>
    unfold sendAll at h
    cases hfind : s.heap.find user with
    | none => simp [sendCommand, hfind] at h
    | some o =>
      cases hothers : s.sendAll c users with
      | error fault => simp [sendCommand, hfind, hothers] at h
      | ok others => exact List.forall_mem_cons.mpr ⟨by simp [hfind], ih hothers⟩

/-- Writing to a list of users, if it does not fail, writes to the open ones. -/
lemma eq_of_sendAll {users : List Address} {sent : List Sent} (h : s.sendAll c users = .ok sent) :
    sent = (users.filter s.isOpen).map fun user => (user, c) := by
  rw [sendAll_eq (isSome_of_sendAll h) c] at h
  exact (Except.ok.inj h).symm

/-! ## Steering the board -/

/-- The users a command that steers the board is relayed to: the open users of the class, but for
the sender of a request to take the board. -/
def Hears (s : Server) (sender receiver : Address) : LokiCommand → Prop
  | .applyBoard apply => apply.fromTeacher = true ∧
      receiver ∈ s.sessions.getClassUsers apply.classId ∧ s.isOpen receiver = true
  | .takeBoard take => receiver ≠ sender ∧
      receiver ∈ s.sessions.getClassUsers take.classId ∧ s.isOpen receiver = true
  | _ => False

/-- A command that steers the board of a class with a teacher is relayed to the users of the class
only if its sender is the teacher. -/
def OnlyTeacherSteers (s : Server) : ServerEvent → Prop
  | .command db sender c => ∀ classId teacher receiver, c.steeredClass = some classId →
      ¬ db.AllTeachers classId → s.sessions.getClassTeacher classId = some teacher →
      receiver ∈ s.sessions.getClassUsers classId → s.Relays db sender c receiver →
      sender = teacher
  | _ => True

/-- The sender of a command that steers the board of a class with a teacher is the teacher, or
nobody hears it. -/
def SteersAsTeacher (s : Server) : ServerEvent → Prop
  | .command db sender c => ∀ classId teacher, c.steeredClass = some classId →
      ¬ db.AllTeachers classId → s.sessions.getClassTeacher classId = some teacher →
      sender = teacher ∨ ∀ receiver, ¬ s.Hears sender receiver c
  | _ => True

/-- A command that steers the board is relayed to whoever hears it. -/
lemma relays_iff_hears {sent : List Sent} (hc : c.steeredClass.isSome)
    (h : NetCommandHandler.handlThread db s sender c = .ok (t, sent)) :
    s.Relays db sender c receiver ↔ s.Hears sender receiver c := by
  have hrelays : s.Relays db sender c receiver ↔ (receiver, c) ∈ sent := by
    simp [Relays, h]
  rw [hrelays]
  cases c with
  | applyBoard apply =>
    have hteacher : apply.fromTeacher = true := by
      by_contra hnot
      simp [LokiCommand.steeredClass, hnot] at hc
    simp only [NetCommandHandler.handlThread, NetCommandHandler.handleApplyBoard, hteacher,
      if_true] at h
    cases hsent : s.sendAll (.applyBoard apply) (s.sessions.getClassUsers apply.classId).elems with
    | error fault => simp [hsent, Except.map] at h
    | ok sent' =>
      simp only [hsent, Except.map, Except.ok.injEq, Prod.mk.injEq] at h
      rw [← h.2, eq_of_sendAll hsent]
      simp [Hears, hteacher, OrderedSet.mem_def]
  | takeBoard take =>
    simp only [NetCommandHandler.handlThread, NetCommandHandler.handleTakeBoard] at h
    cases hsent : s.sendAll (.takeBoard take)
        (NetCommandHandler.otherClassUsers s take.classId sender) with
    | error fault => simp [hsent, Except.map] at h
    | ok sent' =>
      simp only [hsent, Except.map, Except.ok.injEq, Prod.mk.injEq] at h
      rw [← h.2, eq_of_sendAll hsent]
      simp [Hears, NetCommandHandler.otherClassUsers, OrderedSet.mem_def, and_comm, and_left_comm]
  | _ => cases hc

/-- Whoever hears a command is a user of the class it steers. -/
lemma mem_of_hears {classId : Bytes} (hc : c.steeredClass = some classId)
    (h : s.Hears sender receiver c) : receiver ∈ s.sessions.getClassUsers classId := by
  cases c with
  | applyBoard apply =>
    obtain ⟨hteacher, hmem, -⟩ := h
    simp only [LokiCommand.steeredClass, hteacher, if_true, Option.some.injEq] at hc
    exact hc ▸ hmem
  | takeBoard take =>
    obtain ⟨-, hmem, -⟩ := h
    exact Option.some.inj hc ▸ hmem
  | _ => cases hc

/-- Only the teachers steer the boards in a run exactly when at every step the sender of a command
that steers a board is the teacher or nobody hears it. -/
theorem onlyTeacherSteers_iff (es : List ServerEvent) :
    system.EveryStep OnlyTeacherSteers new es ↔ system.EveryStep SteersAsTeacher new es := by
  refine System.everyStep_congr (fun s e t hstep => ?_) new es
  obtain ⟨-, sent, hhandle⟩ := hstep
  cases e with
  | command db sender c =>
    constructor
    · intro honly classId teacher hc hall hteacher
      by_contra hnot
      obtain ⟨hne, hheard⟩ := not_or.mp hnot
      obtain ⟨receiver, hhears⟩ := not_forall_not.mp hheard
      have hrelays := (relays_iff_hears (by simp [hc]) hhandle).mpr hhears
      exact hne (honly classId teacher receiver hc hall hteacher (mem_of_hears hc hhears) hrelays)
    · intro hsteers classId teacher receiver hc hall hteacher hmem hrelays
      rcases hsteers classId teacher hc hall hteacher with heq | hunheard
      · exact heq
      · exact absurd ((relays_iff_hears (by simp [hc]) hhandle).mp hrelays) (hunheard receiver)
  | _ => exact Iff.rfl

/-! ## A student who takes the board -/

/-- A database with the sessions of a teacher and of a student of one class. -/
def classDatabase : Database where
  isTeacher sessionId := if sessionId = [1] then some ⟨[11], [7], [], false⟩ else none
  isStudent sessionId := if sessionId = [2] then some ⟨[11], [8], [], false, false⟩ else none

/-- A board login with a session id. -/
def sessionLogin (sessionId : Bytes) : LokiCommand :=
  .boradLogin ⟨sessionId, false, false, [], false, false, false, [], []⟩

/-- The teacher and the student log in; a third connection does not. -/
def lesson : List ServerEvent :=
  [.connection 1, .connection 2, .connection 3, .command classDatabase 1 (sessionLogin [1]),
    .command classDatabase 2 (sessionLogin [2])]

/-- The server after it. -/
def lessonServer : Server :=
  ((((new.onConnection 1).onConnection 2).onConnection 3).loggedIn 1
    ⟨[11], [7], [], false, true, false⟩).loggedIn 2 ⟨[11], [8], [], false, false, false⟩

/-- The server after the lesson. -/
lemma run_lesson : (system.guarded RemovesAll).Run new lesson lessonServer := by
  have hconnection : ∀ s user, s.heap.find user = none →
      (system.guarded RemovesAll).step s (.connection user) (s.onConnection user) :=
    fun s user hfresh => ⟨trivial, hfresh, [], rfl⟩
  have hteacher : (system.guarded RemovesAll).step
      (((new.onConnection 1).onConnection 2).onConnection 3)
      (.command classDatabase 1 (sessionLogin [1]))
      ((((new.onConnection 1).onConnection 2).onConnection 3).loggedIn 1
        ⟨[11], [7], [], false, true, false⟩) := ⟨trivial, ⟨rfl, _, rfl, rfl⟩, _, rfl⟩
  have hstudent : (system.guarded RemovesAll).step
      ((((new.onConnection 1).onConnection 2).onConnection 3).loggedIn 1
        ⟨[11], [7], [], false, true, false⟩)
      (.command classDatabase 2 (sessionLogin [2])) lessonServer :=
    ⟨trivial, ⟨rfl, _, rfl, rfl⟩, _, rfl⟩
  exact (((((System.Run.nil _).snoc (hconnection _ 1 rfl)).snoc (hconnection _ 2 rfl)).snoc
    (hconnection _ 3 rfl)).snoc hteacher).snoc hstudent

/-- The student of a class with a teacher, who is not to act as a teacher, takes the board, and the
request is relayed to the teacher. -/
theorem student_steers : ¬ ∀ es, system.EveryStep OnlyTeacherSteers new es := by
  intro h
  have hstep : system.step lessonServer (.command classDatabase 2 (.takeBoard ⟨[11]⟩))
      lessonServer := ⟨⟨rfl, _, rfl, rfl⟩, [(1, .takeBoard ⟨[11]⟩)], rfl⟩
  have honly := h (lesson ++ [.command classDatabase 2 (.takeBoard ⟨[11]⟩)]) lesson _ [] _ _ rfl
    run_lesson.of_guarded hstep
  have hstudents : ¬ classDatabase.AllTeachers [11] := by
    rintro ⟨sessionId, row, hrow, -, hall⟩
    simp only [classDatabase, Option.ite_none_right_eq_some, Option.some.injEq] at hrow
    rw [← hrow.2] at hall
    cases hall
  have heq : (2 : Address) = 1 := honly [11] 1 1 rfl hstudents rfl (by decide)
    ⟨lessonServer, [(1, .takeBoard ⟨[11]⟩)], rfl, List.mem_cons_self⟩
  cases heq

/-! ## Class isolation -/

/-- Which users of the class a command is for: a peer's id, everyone but the sender, or the
teacher. -/
def Selects (s : Server) (sender receiver : Address) : LokiCommand → Prop
  | .hadesData hades => s.userIdOf receiver = some hades.toId
  | .applyBoard apply =>
    apply.fromTeacher = true ∨ s.sessions.getClassTeacher apply.classId = some receiver
  | .boardData _ | .takeBoard _ => receiver ≠ sender
  | _ => False

/-- A command is written to a user if it is one of those written to it. -/
lemma mem_sentTo {sent : List Sent} : c ∈ sentTo receiver sent ↔ (receiver, c) ∈ sent := by
  unfold sentTo
  refine ⟨fun h => ?_, fun h => List.mem_map.mpr ⟨(receiver, c), ?_, rfl⟩⟩
  · obtain ⟨p, hp, rfl⟩ := List.mem_map.mp h
    obtain ⟨hmem, heq⟩ := List.mem_filter.mp hp
    rwa [← of_decide_eq_true heq]
  · exact List.mem_filter.mpr ⟨h, decide_eq_true rfl⟩

/-- In a consistent state a command is relayed to the open users of the class it selects. -/
lemma Consistent.relays_iff_selects (hs : s.Consistent) (hholds : s.Holds sender) {classId : Bytes}
    (hteacher : ∀ user, s.sessions.getClassTeacher classId = some user →
      user ∈ s.sessions.getClassUsers classId) (hc : c.relayedClass = some classId) :
    s.Relays db sender c receiver ↔ receiver ∈ s.sessions.getClassUsers classId ∧
      s.isOpen receiver = true ∧ s.Selects sender receiver c := by
  obtain ⟨t, sent, hhandled⟩ := handlThread_intended db hs s.represents_roster hholds c
  have hrelays : s.Relays db sender c receiver ↔
      s.isOpen receiver = true ∧ c ∈ s.roster.intended db sender receiver c := by
    simp only [Relays, hhandled.handled, Except.ok.injEq, Prod.mk.injEq, ← mem_sentTo]
    constructor
    · rintro ⟨_, _, ⟨rfl, rfl⟩, hmem⟩
      rw [hhandled.sentTo_eq] at hmem
      split_ifs at hmem with hopen
      · exact ⟨hopen, hmem⟩
      · cases hmem
    · rintro ⟨hopen, hmem⟩
      refine ⟨t, sent, ⟨rfl, rfl⟩, ?_⟩
      rw [hhandled.sentTo_eq, if_pos hopen]
      exact hmem
  rw [hrelays, and_left_comm]
  refine and_congr_right fun hopen => ?_
  cases c with
  | hadesData hades =>
    obtain rfl := Option.some.inj hc
    simp only [Roster.intended, Selects, List.mem_ite_nil_right, List.mem_singleton, and_true,
      mem_members_roster]
    refine and_congr_right fun hmem => ?_
    obtain ⟨o, ho⟩ := Option.isSome_iff_exists.mp (hs.isSome_of_mem hades.classId hmem)
    simp [roster, userIdOf, ho]
  | boardData data =>
    obtain rfl := Option.some.inj hc
    simp [Roster.intended, Selects]
  | applyBoard apply =>
    obtain rfl := Option.some.inj hc
    cases hfrom : apply.fromTeacher with
    | true => simp [Roster.intended, Selects, hfrom]
    | false =>
      have hmem : s.sessions.getClassTeacher apply.classId = some receiver →
          receiver ∈ s.sessions.getClassUsers apply.classId := hteacher receiver
      simp only [Roster.intended, Selects, hfrom, Bool.false_eq_true, if_false, false_or]
      split_ifs with hreceiver
      · exact iff_of_true List.mem_cons_self ⟨hmem hreceiver, hreceiver⟩
      · exact iff_of_false List.not_mem_nil fun h => hreceiver h.2
  | takeBoard take =>
    obtain rfl := Option.some.inj hc
    simp [Roster.intended, Selects]
  | _ => cases hc

/-- In every run whose deletions remove every reference, a command is relayed to the connections
that have logged in to the class it names, are open and are selected by it.  Whether its sender has
logged in to the class makes no difference. -/
theorem relays_iff {es : List ServerEvent} (h : (system.guarded RemovesAll).Run new es s)
    (hholds : s.Holds sender) {classId : Bytes} (hc : c.relayedClass = some classId) :
    s.Relays db sender c receiver ↔ (Registry.after es).LoggedIn receiver classId ∧
      s.isOpen receiver = true ∧ s.Selects sender receiver c := by
  obtain ⟨hconsistent, hlists⟩ := Registry.lists_of_run h
  rw [hconsistent.relays_iff_selects hholds (hlists.teacher_mem classId) hc, hlists.users]

/-- Board data from a connection that has logged in to no class is relayed to the teacher. -/
theorem relays_iff_lesson :
    lessonServer.Relays classDatabase 3 (.boardData ⟨[11], ⟨[]⟩⟩) 1 := by
  refine (relays_iff (c := .boardData ⟨[11], ⟨[]⟩⟩) run_lesson (show lessonServer.Holds 3 from rfl)
    rfl).mpr ⟨?_, rfl, show (1 : Address) ≠ 3 by decide⟩
  unfold Registry.LoggedIn
  decide

/-- A connection that has logged in to no class is heard by the users of one. -/
theorem stranger_heard : ∃ es s sender receiver c, system.Run new es s ∧
    s.Enabled (.command classDatabase sender c) ∧ c.relayedClass = some [11] ∧
    (∀ classId, ¬ (Registry.after es).LoggedIn sender classId) ∧
    receiver ∈ s.sessions.getClassUsers [11] ∧ s.Relays classDatabase sender c receiver := by
  refine ⟨lesson, lessonServer, 3, 1, .boardData ⟨[11], ⟨[]⟩⟩, run_lesson.of_guarded,
    ⟨rfl, _, rfl, rfl⟩, rfl, ?_, by decide,
    ⟨lessonServer, [(1, .boardData ⟨[11], ⟨[]⟩⟩), (2, .boardData ⟨[11], ⟨[]⟩⟩)], rfl,
      List.mem_cons_self⟩⟩
  rintro classId ⟨r, hr, -, huser, -⟩
  have hrecords : ∀ r ∈ Registry.after lesson, r.user ≠ 3 := by
    rw [show Registry.after lesson = [⟨1, [11], true, true⟩, ⟨2, [11], false, true⟩] from rfl]
    decide
  exact hrecords r hr huser

end Server

end Liangshi
