import Liangshi.Server.NetCommandHandler
import Liangshi.Transition.System

/-!
# References to users

Which users the class sessions refer to, over every run of the server: connections are opened
and closed and commands are handled in any order, and the allocator may reuse the address of a
deleted user.

`Consistent` says that the class sessions, the heap and `SocketManager::_users` agree: whoever a
class refers to is a live user held under its handle.  Every event keeps it but the deletion of a
user who is the teacher of several classes, because `RemoveUser` erases only the first of its
entries (`ClassSessionManager.not_mentions_removeUser_iff`).  In a consistent state no command
makes the handler look at a deleted user (`handlThread_ok`).
-/

namespace Liangshi

open Wire Ordered Transition

/-- What happens to the server. -/
inductive ServerEvent where
  | connection (user : Address)
  | command (db : Database) (user : Address) (c : LokiCommand)
  | readError (user : Address)
  | close (handle : Address)

namespace Server

/-- An event the loop can deliver: a connection gets an address that is not in use, commands come
from users that are held and not closing, and the close callback follows a read error. -/
def Enabled (s : Server) : ServerEvent → Prop
  | .connection user => s.heap.find user = none
  | .command _ user _ => s.users.find user = some user ∧
      ∃ o, s.heap.find user = some o ∧ o.closing = false
  | .readError user => s.users.find user = some user ∧
      ∃ o, s.heap.find user = some o ∧ o.closing = false
  | .close handle => ∃ user o, s.users.find handle = some user ∧ s.heap.find user = some o ∧
      o.closing = true

/-- What the server does at an event: its new state and the commands it writes. -/
def handle (s : Server) : ServerEvent → Except Fault (Server × List Sent)
  | .connection user => .ok (s.onConnection user, [])
  | .command db user c => NetCommandHandler.handlThread db s user c
  | .readError user => .ok (s.startClosing user, [])
  | .close handle => .ok (s.deleteUserByHandle handle, [])

/-- The server as a transition system. -/
def system : System Server ServerEvent where
  init s := s = new
  step s e t := s.Enabled e ∧ ∃ sent, s.handle e = .ok (t, sent)

/-- A user `SocketManager` holds under its handle. -/
def Holds (s : Server) (user : Address) : Prop := s.users.find user = some user

/-- The class sessions, the heap and the users held agree. -/
structure Consistent (s : Server) : Prop where
  self : ∀ handle user, s.users.find handle = some user → user = handle
  live : ∀ user, s.Holds user ↔ (s.heap.find user).isSome
  held : ∀ user, s.sessions.Mentions user → s.Holds user

/-! ## Sending -/

/-- A user commands can be written to. -/
def isOpen (s : Server) (user : Address) : Bool :=
  match s.heap.find user with
  | some o => !o.closing
  | none => false

/-- The id of a user, where it is live. -/
def userIdOf (s : Server) (user : Address) : Option Bytes := (s.heap.find user).map UserObject.userId

/-- A command for a live user is written to it if it is open. -/
lemma sendCommand_eq {s : Server} {user : Address} (h : (s.heap.find user).isSome)
    (c : LokiCommand) :
    s.sendCommand user c = .ok (([user].filter s.isOpen).map fun u => (u, c)) := by
  obtain ⟨o, ho⟩ := Option.isSome_iff_exists.mp h
  unfold sendCommand
  rw [ho]
  cases hclosing : o.closing <;> simp [isOpen, ho, hclosing]

/-- A command for live users is written to the open ones in order. -/
lemma sendAll_eq {s : Server} {users : List Address}
    (h : ∀ user ∈ users, (s.heap.find user).isSome) (c : LokiCommand) :
    s.sendAll c users = .ok ((users.filter s.isOpen).map fun u => (u, c)) := by
  induction users with
  | nil => rfl
  | cons user users ih =>
    obtain ⟨hfirst, hothers⟩ := List.forall_mem_cons.mp h
    rw [sendAll, sendCommand_eq hfirst, ih hothers]
    simp only [← List.map_append, ← List.filter_append, List.singleton_append]

/-- The ids of live users can be read. -/
lemma usersWithId_eq {s : Server} {users : List Address}
    (h : ∀ user ∈ users, (s.heap.find user).isSome) (userId : Bytes) :
    s.usersWithId userId users =
      .ok (users.filter fun user => decide (s.userIdOf user = some userId)) := by
  induction users with
  | nil => rfl
  | cons user users ih =>
    obtain ⟨hfirst, hothers⟩ := List.forall_mem_cons.mp h
    obtain ⟨o, ho⟩ := Option.isSome_iff_exists.mp hfirst
    rw [usersWithId, ho, ih hothers]
    by_cases hid : o.userId = userId <;> simp [userIdOf, ho, hid]

/-! ## Consistency -/

/-- Whoever a class refers to is live. -/
lemma Consistent.isSome_of_mem {s : Server} (h : s.Consistent) (classId : Bytes)
    {user : Address} (hmem : user ∈ s.sessions.getClassUsers classId) : (s.heap.find user).isSome :=
  (h.live user).mp (h.held user ⟨classId, Or.inl hmem⟩)

/-- The teacher of a class is live. -/
lemma Consistent.isSome_of_teacher {s : Server} (h : s.Consistent) {classId : Bytes}
    {user : Address} (hteacher : s.sessions.getClassTeacher classId = some user) :
    (s.heap.find user).isSome :=
  (h.live user).mp (h.held user ⟨classId, Or.inr hteacher⟩)

/-- A new server is consistent. -/
lemma consistent_new : new.Consistent where
  self handle user h := by cases h
  live user := by simp [Holds, new]
  held user h := absurd h ClassSessionManager.not_mentions_new

/-- Setting a user id keeps the set of live users. -/
@[simp] lemma isSome_heap_setUserId (s : Server) (user user' : Address) (userId : Bytes) :
    ((s.setUserId user userId).heap.find user').isSome = (s.heap.find user').isSome := by
  unfold setUserId
  cases h : s.heap.find user with
  | none => rfl
  | some o =>
    simp only [OrderedMap.find_insert]
    split_ifs with heq
    · subst heq
      simp [h]
    · rfl

/-- Setting the id of a user leaves the handles. -/
@[simp] lemma users_setUserId (s : Server) (user : Address) (userId : Bytes) :
    (s.setUserId user userId).users = s.users := by
  unfold setUserId
  split <;> rfl

/-- Setting the id of a user leaves the sessions. -/
@[simp] lemma sessions_setUserId (s : Server) (user : Address) (userId : Bytes) :
    (s.setUserId user userId).sessions = s.sessions := by
  unfold setUserId
  split <;> rfl

/-- The state after an accepted login is consistent again. -/
lemma Consistent.login {s : Server} (h : s.Consistent) {user : Address} (hholds : s.Holds user)
    (identity : Identity) :
    Consistent { s.setUserId user identity.userId with
      sessions := s.sessions.addClassUser identity.classId user identity.isTeacher } where
  self handle user' hfind := h.self handle user' (by simpa using hfind)
  live user' := by simpa [Holds] using h.live user'
  held user' hmentions := by
    rcases ClassSessionManager.mentions_addClassUser hmentions with hold | rfl
    · simpa [Holds] using h.held user' hold
    · simpa [Holds] using hholds

/-- A new connection keeps the state consistent. -/
lemma Consistent.onConnection {s : Server} (h : s.Consistent) {user : Address}
    (hfresh : s.heap.find user = none) : (s.onConnection user).Consistent := by
  have hnot : ¬ s.Holds user := by
    rw [h.live user, hfresh]
    exact Bool.false_ne_true
  have hfree : s.users.find user = none := by
    rw [Option.eq_none_iff_forall_ne_some]
    intro other hother
    obtain rfl := h.self user other hother
    exact hnot hother
  have husers : (s.onConnection user).users = s.users.insert user user := by
    simp [Server.onConnection, hfree]
  refine ⟨fun handle other hfind => ?_, fun other => ?_, fun other hmentions => ?_⟩
  · rw [husers, OrderedMap.find_insert] at hfind
    split_ifs at hfind with heq
    · rw [← Option.some.inj hfind, heq]
    · exact h.self handle other hfind
  · unfold Holds
    rw [husers, OrderedMap.find_insert]
    by_cases heq : user = other
    · subst heq
      simp [Server.onConnection]
    · simpa [heq, Server.onConnection, Holds] using h.live other
  · have hold := h.held other hmentions
    have hne : user ≠ other := fun heq => hnot (heq ▸ hold)
    unfold Holds
    rw [husers, OrderedMap.find_insert, if_neg hne]
    exact hold

/-- A read error keeps the state consistent. -/
lemma Consistent.startClosing {s : Server} (h : s.Consistent) (user : Address) :
    (s.startClosing user).Consistent := by
  unfold Server.startClosing
  cases hfind : s.heap.find user with
  | none => exact h
  | some o =>
    refine ⟨h.self, fun other => ?_, h.held⟩
    have hlive := h.live other
    simp only [OrderedMap.find_insert]
    split_ifs with heq
    · subst heq
      rw [hfind] at hlive
      simpa [Holds] using hlive
    · exact hlive

/-- Deleting a user who is the teacher of one class at most keeps the state consistent. -/
lemma Consistent.deleteUserByHandle {s : Server} (h : s.Consistent) {user : Address}
    (hholds : s.Holds user) (hteaches : (s.sessions.taughtClasses user).length ≤ 1) :
    (s.deleteUserByHandle user).Consistent := by
  have hgone := ClassSessionManager.not_mentions_removeUser_iff.mpr hteaches
  unfold Server.deleteUserByHandle
  rw [show s.users.find user = some user from hholds]
  refine ⟨fun handle other hfind => ?_, fun other => ?_, fun other hmentions => ?_⟩
  · rw [OrderedMap.find_erase] at hfind
    split_ifs at hfind
    exact h.self handle other hfind
  · unfold Holds
    rw [OrderedMap.find_erase, OrderedMap.find_erase]
    split_ifs
    · simp
    · exact h.live other
  · have hold := h.held other (ClassSessionManager.mentions_of_removeUser hmentions)
    have hne : user ≠ other := by
      rintro rfl
      exact hgone hmentions
    unfold Holds
    rw [OrderedMap.find_erase, if_neg hne]
    exact hold

/-! ## Commands -/

/-- The users of a class but one are live. -/
lemma Consistent.isSome_of_mem_other {s : Server} (h : s.Consistent) {classId : Bytes}
    {user other : Address} (hmem : other ∈ NetCommandHandler.otherClassUsers s classId user) :
    (s.heap.find other).isSome :=
  h.isSome_of_mem classId (List.mem_filter.mp hmem).1

section Branches

open NetCommandHandler

variable {s : Server}

/-- Board data is written to the open users of the class but the sender. -/
lemma Consistent.handleBoardData_eq (h : s.Consistent) (user : Address) (data : BoardDataCommand) :
    handleBoardData s user data = .ok (((otherClassUsers s data.classId user).filter s.isOpen).map
      fun other => (other, .boardData data)) :=
  sendAll_eq (fun _ hmem => h.isSome_of_mem_other hmem) _

/-- A request for the board is written to the open users of the class but the sender. -/
lemma Consistent.handleTakeBoard_eq (h : s.Consistent) (user : Address) (take : TakeBoardCommand) :
    handleTakeBoard s user take = .ok (((otherClassUsers s take.classId user).filter s.isOpen).map
      fun other => (other, .takeBoard take)) :=
  sendAll_eq (fun _ hmem => h.isSome_of_mem_other hmem) _

/-- Peer data is written to the open users of the class with the id it is for. -/
lemma Consistent.handleHadesData_eq (h : s.Consistent) (hades : HadesDataCommand) :
    handleHadesData s hades = .ok ((((s.sessions.getClassUsers hades.classId).elems.filter
      fun other => decide (s.userIdOf other = some hades.toId)).filter s.isOpen).map
        fun other => (other, .hadesData hades)) := by
  have husers : ∀ other ∈ (s.sessions.getClassUsers hades.classId).elems,
      (s.heap.find other).isSome := fun other hmem =>
    h.isSome_of_mem hades.classId hmem
  simp only [handleHadesData, usersWithId_eq husers]
  exact sendAll_eq (fun other hmem => husers other (List.mem_filter.mp hmem).1) _

/-- An application is written to the open users of the class, or to its teacher. -/
lemma Consistent.handleApplyBoard_eq (h : s.Consistent) (apply : ApplyBoardCommand) :
    handleApplyBoard s apply = .ok (((if apply.fromTeacher then
        (s.sessions.getClassUsers apply.classId).elems
      else (s.sessions.getClassTeacher apply.classId).toList).filter s.isOpen).map
        fun other => (other, .applyBoard apply)) := by
  unfold handleApplyBoard
  split_ifs
  · exact sendAll_eq (fun _ hmem => h.isSome_of_mem apply.classId hmem) _
  · cases hteacher : s.sessions.getClassTeacher apply.classId with
    | none => rfl
    | some teacher => exact sendCommand_eq (h.isSome_of_teacher hteacher) _

/-- The state after an accepted login. -/
def loggedIn (s : Server) (user : Address) (identity : Identity) : Server :=
  { s.setUserId user identity.userId with
    sessions := s.sessions.addClassUser identity.classId user identity.isTeacher }

/-- The branch of an accepted login. -/
lemma handleBoradLogin_some {db : Database} {user : Address} {login : BoardLoginCommand}
    {identity : Identity} (hidentity : db.identify login.sessionId = some identity) :
    handleBoradLogin db s user login =
      match (s.loggedIn user identity).sendCommand user (.boradLogin (accepted login identity)) with
      | .error fault => .error fault
      | .ok reply => ((s.loggedIn user identity).sendAll (.boradLogin (peerNotice login identity))
          (otherClassUsers (s.loggedIn user identity) identity.classId user)).map
            fun notices => (s.loggedIn user identity, reply ++ notices) := by
  simp only [handleBoradLogin, hidentity]
  rfl

/-- An accepted login is answered, and the other open users of the class are notified, if all of
them are live. -/
lemma handleBoradLogin_of_live {db : Database} {user : Address} {login : BoardLoginCommand}
    {identity : Identity} (hself : ((s.loggedIn user identity).heap.find user).isSome)
    (hothers : ∀ other ∈ otherClassUsers (s.loggedIn user identity) identity.classId user,
      ((s.loggedIn user identity).heap.find other).isSome)
    (hidentity : db.identify login.sessionId = some identity) :
    handleBoradLogin db s user login = .ok (s.loggedIn user identity,
      (([user].filter (s.loggedIn user identity).isOpen).map
        fun other => (other, .boradLogin (accepted login identity))) ++
      ((otherClassUsers (s.loggedIn user identity) identity.classId user).filter
        (s.loggedIn user identity).isOpen).map
          fun other => (other, .boradLogin (peerNotice login identity))) := by
  have hreply := sendCommand_eq hself (.boradLogin (accepted login identity))
  have hnotices := sendAll_eq hothers (.boradLogin (peerNotice login identity))
  rw [handleBoradLogin_some hidentity, hreply, hnotices]
  rfl

/-- In a consistent state all of them are live. -/
lemma Consistent.handleBoradLogin_eq (h : s.Consistent) {db : Database} {user : Address}
    (hholds : s.Holds user) {login : BoardLoginCommand} {identity : Identity}
    (hidentity : db.identify login.sessionId = some identity) :
    handleBoradLogin db s user login = .ok (s.loggedIn user identity,
      (([user].filter (s.loggedIn user identity).isOpen).map
        fun other => (other, .boradLogin (accepted login identity))) ++
      ((otherClassUsers (s.loggedIn user identity) identity.classId user).filter
        (s.loggedIn user identity).isOpen).map
          fun other => (other, .boradLogin (peerNotice login identity))) := by
  have hlogin : (s.loggedIn user identity).Consistent := h.login hholds identity
  have hself : ((s.loggedIn user identity).heap.find user).isSome :=
    (hlogin.live user).mp (by simpa [Holds, loggedIn] using hholds)
  exact handleBoradLogin_of_live hself (fun _ hmem => hlogin.isSome_of_mem_other hmem) hidentity

/-- A rejected login is answered. -/
lemma Consistent.handleBoradLogin_rejected (h : s.Consistent) {db : Database} {user : Address}
    (hholds : s.Holds user) {login : BoardLoginCommand}
    (hidentity : db.identify login.sessionId = none) :
    handleBoradLogin db s user login = .ok (s,
      ([user].filter s.isOpen).map fun other => (other, .boradLogin (rejected login))) := by
  simp only [handleBoradLogin, hidentity, sendCommand_eq ((h.live user).mp hholds), Except.map]

/-- In a consistent state no command makes the handler look at a deleted user, and the state
after it is consistent. -/
theorem handlThread_ok (h : s.Consistent) (db : Database) {user : Address}
    (hholds : s.Holds user) (c : LokiCommand) :
    ∃ t sent, handlThread db s user c = .ok (t, sent) ∧ t.Consistent := by
  cases c with
  | boradLogin login =>
    cases hidentity : db.identify login.sessionId with
    | none => exact ⟨s, _, h.handleBoradLogin_rejected hholds hidentity, h⟩
    | some identity =>
      exact ⟨_, _, h.handleBoradLogin_eq hholds hidentity, h.login hholds identity⟩
  | hadesData hades =>
    exact ⟨s, _, congrArg (Except.map fun sent => (s, sent)) (h.handleHadesData_eq hades), h⟩
  | boardData data =>
    exact ⟨s, _, congrArg (Except.map fun sent => (s, sent)) (h.handleBoardData_eq user data), h⟩
  | applyBoard apply =>
    exact ⟨s, _, congrArg (Except.map fun sent => (s, sent)) (h.handleApplyBoard_eq apply), h⟩
  | takeBoard take =>
    exact ⟨s, _, congrArg (Except.map fun sent => (s, sent)) (h.handleTakeBoard_eq user take), h⟩
  | login c => exact ⟨s, [], rfl, h⟩
  | chat c => exact ⟨s, [], rfl, h⟩
  | getFriendList c => exact ⟨s, [], rfl, h⟩
  | serverNotifyRelogin c => exact ⟨s, [], rfl, h⟩
  | serverNotifyLostConnection c => exact ⟨s, [], rfl, h⟩

end Branches

/-! ## Runs -/

/-- A deletion that removes every reference: the user is the teacher of one class at most. -/
def RemovesAll (s : Server) : ServerEvent → Prop
  | .close handle => (s.sessions.taughtClasses handle).length ≤ 1
  | _ => True

/-- Every event keeps the state consistent, if a deletion removes every reference. -/
lemma Consistent.step {s t : Server} {e : ServerEvent} (h : s.Consistent)
    (hremoves : s.RemovesAll e) (hstep : system.step s e t) : t.Consistent := by
  obtain ⟨henabled, sent, hhandle⟩ := hstep
  cases e with
  | connection user =>
    cases hhandle
    exact h.onConnection henabled
  | command db user c =>
    obtain ⟨t', sent', hok, ht'⟩ := handlThread_ok h db henabled.1 c
    rw [handle, hok] at hhandle
    cases hhandle
    exact ht'
  | readError user =>
    cases hhandle
    exact h.startClosing user
  | close handle =>
    cases hhandle
    obtain ⟨user, o, hfind, -, -⟩ := henabled
    obtain rfl := h.self handle user hfind
    exact h.deleteUserByHandle hfind hremoves

/-- In every run whose deletions are of users who are the teacher of one class at most, every
state refers only to users that are held, no enabled event fails, and a deletion leaves no
reference to the deleted user. -/
theorem references_held {s : Server} (h : (system.guarded RemovesAll).Reachable s) :
    (∀ classId user, (user ∈ s.sessions.getClassUsers classId → s.Holds user) ∧
      (s.sessions.getClassTeacher classId = some user → s.Holds user)) ∧
    (∀ e, s.Enabled e → ∃ t sent, s.handle e = .ok (t, sent)) ∧
    ∀ user t, (system.guarded RemovesAll).step s (.close user) t → ¬ t.sessions.Mentions user := by
  have hconsistent : s.Consistent :=
    h.invariant (fun s hinit => hinit ▸ consistent_new)
      fun s e t hs hstep => hs.step hstep.1 hstep.2
  refine ⟨fun classId user => ⟨fun hmem => hconsistent.held user ⟨classId, Or.inl hmem⟩,
    fun hteacher => hconsistent.held user ⟨classId, Or.inr hteacher⟩⟩, ?_, ?_⟩
  · intro e henabled
    cases e with
    | connection user => exact ⟨_, _, rfl⟩
    | command db user c =>
      obtain ⟨t, sent, hok, -⟩ := handlThread_ok hconsistent db henabled.1 c
      exact ⟨t, sent, hok⟩
    | readError user => exact ⟨_, _, rfl⟩
    | close handle => exact ⟨_, _, rfl⟩
  · rintro user t ⟨hremoves, henabled, sent, hhandle⟩
    obtain ⟨user', o, hfind, -, -⟩ := henabled
    obtain rfl := hconsistent.self user user' hfind
    cases hhandle
    unfold Server.deleteUserByHandle
    rw [hfind]
    exact ClassSessionManager.not_mentions_removeUser_iff.mpr hremoves

/-! ## A teacher of two classes -/

/-- A database with a teacher of two classes, one session each. -/
def twoClassesDatabase : Database where
  isTeacher sessionId :=
    if sessionId = [1] then some ⟨[11], [7], [], false⟩
    else if sessionId = [2] then some ⟨[12], [7], [], false⟩
    else none
  isStudent _ := none

/-- The login with a session id. -/
def loginWith (sessionId : Bytes) : ServerEvent :=
  .command twoClassesDatabase 1
    (.boradLogin ⟨sessionId, false, false, [], false, false, false, [], []⟩)

/-- The states after a connection and its logins to both classes. -/
def connected : Server := new.onConnection 1

/-- The teacher is logged in to one class. -/
def teachesOne : Server := connected.loggedIn 1 ⟨[11], [7], [], false, true, false⟩

/-- The teacher is logged in to another class over the same connection. -/
def teachesTwo : Server := teachesOne.loggedIn 1 ⟨[12], [7], [], false, true, false⟩

/-- The connection comes. -/
lemma step_connected : system.step new (.connection 1) connected := ⟨rfl, [], rfl⟩

/-- The teacher logs in to the first class. -/
lemma step_teachesOne : system.step connected (loginWith [1]) teachesOne :=
  ⟨⟨rfl, _, rfl, rfl⟩, _, rfl⟩

/-- The teacher logs in to the second class. -/
lemma step_teachesTwo : system.step teachesOne (loginWith [2]) teachesTwo :=
  ⟨⟨rfl, _, rfl, rfl⟩, _, rfl⟩

/-- After one login as a teacher, the class refers to a user that is held; when its connection has broken,
nothing refers to the user any more. -/
theorem references_held_teachesOne :
    teachesOne.sessions.getClassTeacher [11] = some 1 ∧ teachesOne.Holds 1 ∧
      (system.guarded RemovesAll).Reachable ((teachesOne.startClosing 1).deleteUserByHandle 1) ∧
      ¬ ((teachesOne.startClosing 1).deleteUserByHandle 1).sessions.Mentions 1 := by
  have hconnected : (system.guarded RemovesAll).step new (.connection 1) connected :=
    ⟨trivial, step_connected⟩
  have hteaches : (system.guarded RemovesAll).step connected (loginWith [1]) teachesOne :=
    ⟨trivial, step_teachesOne⟩
  have hreach : (system.guarded RemovesAll).Reachable teachesOne :=
    .step (.step (.of_init rfl) hconnected) hteaches
  have hclosing : (system.guarded RemovesAll).step teachesOne (.readError 1) (teachesOne.startClosing 1) :=
    ⟨trivial, ⟨rfl, _, rfl, rfl⟩, [], rfl⟩
  have hclose : (system.guarded RemovesAll).step (teachesOne.startClosing 1) (.close 1)
      ((teachesOne.startClosing 1).deleteUserByHandle 1) :=
    ⟨by show (teachesOne.sessions.taughtClasses 1).length ≤ 1; decide, ⟨1, _, rfl, rfl, rfl⟩, [], rfl⟩
  exact ⟨rfl, ((references_held hreach).1 [11] 1).2 rfl, (hreach.step hclosing).step hclose,
    (references_held (hreach.step hclosing)).2.2 1 _ hclose⟩

/-- A connection that logs in as the teacher of two classes and closes leaves the second class
with a deleted teacher. -/
theorem references_dangle :
    ¬ ∀ s, system.Reachable s → ∀ classId user,
      s.sessions.getClassTeacher classId = some user → s.Holds user := by
  intro h
  have htwo : system.Reachable teachesTwo :=
    .step (.step (.step (.of_init rfl) step_connected) step_teachesOne) step_teachesTwo
  have hclosing : system.step teachesTwo (.readError 1) (teachesTwo.startClosing 1) :=
    ⟨⟨rfl, _, rfl, rfl⟩, [], rfl⟩
  have hclose : system.step (teachesTwo.startClosing 1) (.close 1)
      ((teachesTwo.startClosing 1).deleteUserByHandle 1) := ⟨⟨1, _, rfl, rfl, rfl⟩, [], rfl⟩
  have hdangling := h _ ((htwo.step hclosing).step hclose) [12] 1 rfl
  cases hdangling

end Server

end Liangshi
