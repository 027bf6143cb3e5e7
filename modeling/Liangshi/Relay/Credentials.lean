import Liangshi.Relay.Authority
import Liangshi.Relay.Relay

/-!
# The session id of a login

The reply to an accepted board login and the notices to the other users of the class are one
command object, the client's own, so they carry the `session_id` the client presented.
`sameBut_announced` compares two runs that differ in it only: the server ends in the same state, and
all it writes to any connection is the same but for that reply and those notices.
-/

namespace Liangshi

open Wire Ordered Transition

namespace Server

/-- An event with what the server writes at it. -/
def Writes (s : Server) (e : ServerEvent) (sent : List Sent) (t : Server) : Prop :=
  s.Enabled e ∧ s.handle e = .ok (t, sent)

/-- What an accepted login writes to a connection: the reply to its own, the notice to the other
open users of the class. -/
def announced (s : Server) (user : Address) (identity : Identity) (login : BoardLoginCommand)
    (receiver : Address) : List LokiCommand :=
  if receiver = user then [.boradLogin (NetCommandHandler.accepted login identity)]
  else if receiver ∈ s.sessions.getClassUsers identity.classId ∧ s.isOpen receiver = true then
    [.boradLogin (NetCommandHandler.peerNotice login identity)]
  else []

variable {s t : Server} {db : Database} {user receiver : Address} {login : BoardLoginCommand}
  {identity : Identity} {sent : List Sent}

/-- Handling an accepted login does not fail only if the other users of the class are live. -/
lemma isSome_of_handleBoradLogin (hidentity : db.identify login.sessionId = some identity)
    (h : NetCommandHandler.handleBoradLogin db s user login = .ok (t, sent)) :
    ∀ other ∈ NetCommandHandler.otherClassUsers (s.loggedIn user identity) identity.classId user,
      ((s.loggedIn user identity).heap.find other).isSome := by
  rw [handleBoradLogin_some hidentity] at h
  split at h
  · cases h
  · cases hnotices : (s.loggedIn user identity).sendAll
        (.boradLogin (NetCommandHandler.peerNotice login identity))
        (NetCommandHandler.otherClassUsers (s.loggedIn user identity) identity.classId user) with
    | error fault =>
      rw [hnotices] at h
      cases h
    | ok notices => exact isSome_of_sendAll hnotices

/-- What is written to a connection at an accepted login is what is announced to it. -/
lemma sentTo_announced (hopen : s.isOpen user = true) :
    sentTo receiver ((([user].filter (s.loggedIn user identity).isOpen).map
        fun other => (other, .boradLogin (NetCommandHandler.accepted login identity))) ++
      ((NetCommandHandler.otherClassUsers (s.loggedIn user identity) identity.classId user).filter
        (s.loggedIn user identity).isOpen).map
          fun other => (other, .boradLogin (NetCommandHandler.peerNotice login identity))) =
      announced s user identity login receiver := by
  have hreply : sentTo receiver ((([user].filter (s.loggedIn user identity).isOpen).map
      fun other => (other, LokiCommand.boradLogin (NetCommandHandler.accepted login identity)))) =
        if receiver = user then [.boradLogin (NetCommandHandler.accepted login identity)] else [] := by
    rw [sentTo_open (List.nodup_singleton user)]
    simp only [isOpen_loggedIn, List.mem_singleton]
    by_cases heq : receiver = user <;> simp [heq, hopen]
  have hmember : receiver ≠ user →
      (receiver ∈ (s.loggedIn user identity).sessions.getClassUsers identity.classId ↔
        receiver ∈ s.sessions.getClassUsers identity.classId) := by
    intro hne
    simp [loggedIn, hne]
  rw [sentTo_append, hreply, NetCommandHandler.otherClassUsers,
    sentTo_class (Server.represents_roster _)]
  simp only [isOpen_loggedIn, mem_members_roster, decide_eq_true_eq, announced]
  by_cases heq : receiver = user
  · simp [heq]
  · simp [heq, hmember heq, ← ite_and, and_comm]

/-- An accepted login announces itself. -/
lemma Writes.announced (hidentity : db.identify login.sessionId = some identity)
    (h : s.Writes (.command db user (.boradLogin login)) sent t) : t = s.loggedIn user identity ∧
      ∀ receiver, sentTo receiver sent = s.announced user identity login receiver := by
  obtain ⟨⟨hholds, o, ho, hclosing⟩, hhandle⟩ := h
  have hopen : s.isOpen user = true := by simp [isOpen, ho, hclosing]
  have hself : ((s.loggedIn user identity).heap.find user).isSome := by simp [loggedIn, ho]
  have heq := handleBoradLogin_of_live hself (isSome_of_handleBoradLogin hidentity hhandle)
    hidentity
  obtain ⟨rfl, rfl⟩ := Prod.mk.inj (Except.ok.inj (hhandle.symm.trans heq))
  exact ⟨rfl, fun receiver => sentTo_announced hopen⟩

/-- Another accepted login of the same user, with another session id, leads to the same state. -/
lemma Writes.sameBut (hidentity : db.identify login.sessionId = some identity)
    (h : s.Writes (.command db user (.boradLogin login)) sent t) {db' : Database}
    {sessionId : Bytes} (hidentity' : db'.identify sessionId = some identity) :
    ∃ sent', s.Writes (.command db' user (.boradLogin { login with sessionId })) sent' t := by
  obtain ⟨rfl, -⟩ := h.announced hidentity
  obtain ⟨henabled, hhandle⟩ := h
  have hself : ((s.loggedIn user identity).heap.find user).isSome := by
    obtain ⟨-, o, ho, -⟩ := henabled
    simp [loggedIn, ho]
  exact ⟨_, henabled, handleBoradLogin_of_live hself
    (isSome_of_handleBoradLogin hidentity hhandle) hidentity'⟩

/-! ## Two runs -/

/-- The bytes of commands. -/
def bytesOf (commands : List LokiCommand) : Bytes :=
  commands.flatMap fun c => NetCommandHandler.writeData c.payload

/-- Two runs that differ only in the session id of one accepted login end in the same state, and
the bytes written to a connection are the same but for the announcements of that login. -/
theorem sameBut_announced {first others : List ServerEvent}
    (h : Trace Writes new (first ++ .command db user (.boradLogin login) :: others) sent t)
    (hidentity : db.identify login.sessionId = some identity) {db' : Database} {sessionId : Bytes}
    (hidentity' : db'.identify sessionId = some identity) :
    ∃ sent' s, Trace Writes new
        (first ++ .command db' user (.boradLogin { login with sessionId }) :: others) sent' t ∧
      system.Run new first s ∧ ∀ receiver, ∃ before later,
        Relay.written sent receiver =
          before ++ bytesOf (s.announced user identity login receiver) ++ later ∧
        Relay.written sent' receiver =
          before ++ bytesOf (s.announced user identity { login with sessionId } receiver) ++ later := by
  obtain ⟨s, before, rest, hfirst, hrest, rfl⟩ := h.of_append
  rcases hrest with _ | ⟨hlogin, hothers⟩
  rename_i announcements later
  obtain ⟨sent', hlogin'⟩ := hlogin.sameBut hidentity hidentity'
  refine ⟨before ++ (sent' ++ later), s, hfirst.append (.cons hlogin' hothers),
    hfirst.run (S := system) fun s e sent t hwrites => ⟨hwrites.1, sent, hwrites.2⟩,
    fun receiver => ?_⟩
  refine ⟨Relay.written before receiver, Relay.written later receiver, ?_, ?_⟩
  · rw [← (hlogin.announced hidentity).2 receiver]
    simp [Relay.written, bytesOf]
  · rw [← (hlogin'.announced hidentity').2 receiver]
    simp [Relay.written, bytesOf]

/-! ## A notice with a session id -/

/-- A database in which one student has two sessions. -/
def sessionsDatabase : Database where
  isTeacher _ := none
  isStudent sessionId :=
    if sessionId = [1] then some ⟨[11], [7], [], false, false⟩
    else if sessionId = [2] ∨ sessionId = [3] then some ⟨[11], [8], [], false, false⟩
    else none

/-- A student is in the class and another one has a connection. -/
def beforeLogin : List ServerEvent :=
  [.connection 1, .connection 2, .command sessionsDatabase 1 (sessionLogin [1])]

/-- The fields of a board login other than the session id. -/
def loginFields : BoardLoginCommand := ⟨[2], false, false, [], false, false, false, [], []⟩

/-- The identity of the other student. -/
def studentIdentity : Identity := ⟨[11], [8], [], false, false, false⟩

/-- What is written when the other student logs in with a session id. -/
def loginWritten (sessionId : Bytes) : List Sent :=
  [(1, .boradLogin (NetCommandHandler.accepted ⟨[1], false, false, [], false, false, false, [], []⟩
      ⟨[11], [7], [], false, false, false⟩)),
    (2, .boradLogin (NetCommandHandler.accepted { loginFields with sessionId } studentIdentity)),
    (1, .boradLogin (NetCommandHandler.peerNotice { loginFields with sessionId } studentIdentity))]

/-- The server after both logins. -/
def afterLogin : Server :=
  (((new.onConnection 1).onConnection 2).loggedIn 1 ⟨[11], [7], [], false, false, false⟩).loggedIn 2
    studentIdentity

/-- What is written before and at the login. -/
lemma trace_beforeLogin (sessionId : Bytes) (h : sessionsDatabase.identify sessionId =
    some studentIdentity) : Trace Writes new (beforeLogin ++
      [.command sessionsDatabase 2 (.boradLogin { loginFields with sessionId })])
        (loginWritten sessionId) afterLogin := by
  have hlogin : Writes (((new.onConnection 1).onConnection 2).loggedIn 1
      ⟨[11], [7], [], false, false, false⟩)
      (.command sessionsDatabase 2 (.boradLogin { loginFields with sessionId }))
      (loginWritten sessionId).tail afterLogin := by
    refine ⟨⟨rfl, _, rfl, rfl⟩, ?_⟩
    exact handleBoradLogin_of_live rfl (by decide) h
  have hfirst : Writes ((new.onConnection 1).onConnection 2)
      (.command sessionsDatabase 1 (sessionLogin [1])) [(loginWritten sessionId).head (List.cons_ne_nil _ _)]
      (((new.onConnection 1).onConnection 2).loggedIn 1 ⟨[11], [7], [], false, false, false⟩) :=
    ⟨⟨rfl, _, rfl, rfl⟩, rfl⟩
  have hconnection : Writes new (.connection 1) [] (new.onConnection 1) := ⟨rfl, rfl⟩
  have hconnection' : Writes (new.onConnection 1) (.connection 2) []
      ((new.onConnection 1).onConnection 2) := ⟨rfl, rfl⟩
  exact .cons hconnection (.cons hconnection' (.cons hfirst (.cons hlogin (.nil _))))

/-- The two sessions of the student. -/
theorem sameBut_announced_student : ∃ sent' s, Trace Writes new (beforeLogin ++
      .command sessionsDatabase 2 (.boradLogin { loginFields with sessionId := [3] }) :: [])
        sent' afterLogin ∧
    system.Run new beforeLogin s ∧ ∀ receiver, ∃ before later,
      Relay.written (loginWritten [2]) receiver =
        before ++ bytesOf (s.announced 2 studentIdentity loginFields receiver) ++ later ∧
      Relay.written sent' receiver = before ++ bytesOf
        (s.announced 2 studentIdentity { loginFields with sessionId := [3] } receiver) ++ later :=
  sameBut_announced (trace_beforeLogin [2] rfl) rfl rfl

/-- With the one session or the other the student in the class is written different bytes. -/
theorem sessionId_leaks : ∃ first db user receiver sessionId sessionId' identity sent sent' t,
    db.identify sessionId = some identity ∧ db.identify sessionId' = some identity ∧
    Trace Writes new (first ++ [.command db user
      (.boradLogin { loginFields with sessionId })]) sent t ∧
    Trace Writes new (first ++ [.command db user
      (.boradLogin { loginFields with sessionId := sessionId' })]) sent' t ∧
    receiver ≠ user ∧ Relay.written sent receiver ≠ Relay.written sent' receiver :=
  ⟨beforeLogin, sessionsDatabase, 2, 1, [2], [3], studentIdentity, loginWritten [2],
    loginWritten [3], afterLogin, rfl, rfl, trace_beforeLogin [2] rfl, trace_beforeLogin [3] rfl,
    by decide, by decide +kernel⟩

end Server

end Liangshi
