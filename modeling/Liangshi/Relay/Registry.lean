import Liangshi.Relay.Dispatch

/-!
# Who is registered in a class

A `Registry` is the history of the accepted logins: who logged in to which class, as its teacher
or not, and whether the connection is still open.  It is folded over the events of a run and
knows nothing of the class sessions.

While every connection logs in at most once, the class sessions agree with it: the users of a class
are the open connections that logged in to it, and its teacher is the connection of the last
teacher's login, as long as that connection is open.  A teacher whose place another one has taken
does not get it back when the other one leaves.
-/

namespace Liangshi

open Wire Ordered Transition

/-- An accepted login. -/
structure LoginRecord where
  user : Address
  classId : Bytes
  isTeacher : Bool
  isOpen : Bool
deriving DecidableEq

/-- The accepted logins in order. -/
abbrev Registry := List LoginRecord

/-- Only a login changes the state of the server. -/
lemma NetCommandHandler.eq_of_handlThread {db : Database} {s t : Server} {user : Address}
    {c : LokiCommand} {sent : List Sent} (hc : ∀ login, c ≠ .boradLogin login)
    (h : handlThread db s user c = .ok (t, sent)) : t = s := by
  have hmap : ∀ x : Except Fault (List Sent), x.map (fun sent => (s, sent)) = .ok (t, sent) →
      t = s := by
    intro x hx
    cases x with
    | error fault => cases hx
    | ok sent' =>
      cases hx
      rfl
  cases c with
  | boradLogin login => exact absurd rfl (hc login)
  | hadesData hades => exact hmap _ h
  | boardData data => exact hmap _ h
  | applyBoard apply => exact hmap _ h
  | takeBoard take => exact hmap _ h
  | _ =>
    cases h
    rfl

/-- What an event does to the class sessions. -/
def ClassSessionManager.next (sessions : ClassSessionManager) : ServerEvent → ClassSessionManager
  | .command db user (.boradLogin login) =>
    match db.identify login.sessionId with
    | some identity => sessions.addClassUser identity.classId user identity.isTeacher
    | none => sessions
  | .close user => sessions.removeUser user
  | _ => sessions

/-- In a consistent state, an event changes the class sessions in this way. -/
lemma Server.Consistent.sessions_step {s t : Server} (h : s.Consistent) {e : ServerEvent}
    (hstep : Server.system.step s e t) : t.sessions = s.sessions.next e := by
  obtain ⟨henabled, sent, hhandle⟩ := hstep
  cases e with
  | connection user =>
    cases hhandle
    rfl
  | command db user c =>
    replace hhandle : NetCommandHandler.handlThread db s user c = .ok (t, sent) := hhandle
    cases c with
    | boradLogin login =>
      simp only [NetCommandHandler.handlThread] at hhandle
      simp only [ClassSessionManager.next]
      cases hidentity : db.identify login.sessionId with
      | some identity =>
        rw [h.handleBoradLogin_eq henabled.1 hidentity] at hhandle
        cases hhandle
        simp [Server.loggedIn]
      | none =>
        rw [h.handleBoradLogin_rejected henabled.1 hidentity] at hhandle
        cases hhandle
        rfl
    | _ =>
      obtain rfl := NetCommandHandler.eq_of_handlThread (fun login heq => by cases heq) hhandle
      rfl
  | readError user =>
    cases hhandle
    unfold Server.startClosing
    split <;> rfl
  | close handle =>
    cases hhandle
    obtain ⟨user, o, hfind, -, -⟩ := henabled
    obtain rfl := h.self handle user hfind
    unfold Server.deleteUserByHandle
    rw [hfind]
    rfl

namespace Registry

/-- A login whose connection may have been closed. -/
def closing (user : Address) (r : LoginRecord) : LoginRecord :=
  if r.user = user then { r with isOpen := false } else r

/-- What an event adds to the history. -/
def next (registry : Registry) : ServerEvent → Registry
  | .command db user (.boradLogin login) =>
    match db.identify login.sessionId with
    | some identity => registry ++ [⟨user, identity.classId, identity.isTeacher, true⟩]
    | none => registry
  | .close user => registry.map (closing user)
  | _ => registry

/-- The history after a run. -/
def after (es : List ServerEvent) : Registry := es.foldl next []

/-- The logins to a class as its teacher. -/
def teachers (registry : Registry) (classId : Bytes) : Registry :=
  registry.filter fun r => r.isTeacher && decide (r.classId = classId)

/-- The connection of the last login as the teacher of a class, if it is open. -/
def teacherOf (registry : Registry) (classId : Bytes) : Option Address :=
  (registry.teachers classId).getLast?.bind fun r => if r.isOpen then some r.user else none

/-- A connection that logs in has not logged in before. -/
def FirstLogin (registry : Registry) : ServerEvent → Prop
  | .command db user (.boradLogin login) => (db.identify login.sessionId).isSome →
    ∀ r ∈ registry, r.user = user → r.isOpen = false
  | _ => True

/-- Each connection logs in at most once. -/
def LogInOnce (es : List ServerEvent) : Prop :=
  ∀ first e others, es = first ++ e :: others → (after first).FirstLogin e

/-- One more event. -/
@[simp] lemma after_append (es : List ServerEvent) (e : ServerEvent) :
    after (es ++ [e]) = (after es).next e := by
  simp [after]

/-- The events before the last one. -/
lemma LogInOnce.init {es : List ServerEvent} {e : ServerEvent} (h : LogInOnce (es ++ [e])) :
    LogInOnce es := by
  intro first e' others hes
  exact h first e' (others ++ [e]) (by rw [hes]; simp)

/-- The last event is no second login. -/
lemma LogInOnce.last {es : List ServerEvent} {e : ServerEvent} (h : LogInOnce (es ++ [e])) :
    (after es).FirstLogin e :=
  h es e [] rfl

/-- Without events nobody logs in. -/
lemma logInOnce_nil : LogInOnce [] := by
  rintro first e others hes
  simp at hes

/-- One more event that is no second login. -/
lemma LogInOnce.snoc {es : List ServerEvent} {e : ServerEvent} (h : LogInOnce es)
    (hlast : (after es).FirstLogin e) : LogInOnce (es ++ [e]) := by
  intro first e' others hes
  rcases List.eq_nil_or_concat others with rfl | ⟨others', e'', rfl⟩
  · obtain ⟨rfl, heq⟩ := List.append_inj' hes rfl
    obtain rfl := List.singleton_injective heq
    exact hlast
  · rw [List.concat_eq_append, ← List.cons_append, ← List.append_assoc] at hes
    exact h first e' others' (List.append_inj' hes rfl).1

/-! ## Closing -/

variable {registry : Registry} {user : Address} {r : LoginRecord} {classId : Bytes}

/-- A login is open after a close if it was before and its connection is another one. -/
lemma isOpen_closing : (closing user r).isOpen = true ↔ r.isOpen = true ∧ r.user ≠ user := by
  unfold closing
  split_ifs with h <;> simp [h]

/-- Closing leaves the user of a record. -/
@[simp] lemma user_closing : (closing user r).user = r.user := by
  unfold closing
  split_ifs <;> rfl

/-- Closing leaves the class of a record. -/
@[simp] lemma classId_closing : (closing user r).classId = r.classId := by
  unfold closing
  split_ifs <;> rfl

/-- Closing leaves the role of a record. -/
@[simp] lemma isTeacher_closing : (closing user r).isTeacher = r.isTeacher := by
  unfold closing
  split_ifs <;> rfl

/-- A close keeps the logins as teacher. -/
lemma teachers_map_closing : Registry.teachers (registry.map (closing user)) classId =
    (registry.teachers classId).map (closing user) := by
  simp [teachers, List.filter_map, Function.comp_def]

/-- The connection that closes is the teacher no more; the others still are. -/
lemma teacherOf_map_closing : Registry.teacherOf (registry.map (closing user)) classId =
    if registry.teacherOf classId = some user then none else registry.teacherOf classId := by
  unfold teacherOf
  rw [teachers_map_closing, List.getLast?_map]
  cases (registry.teachers classId).getLast? with
  | none => rfl
  | some r =>
    simp only [Option.map_some, Option.bind_some, user_closing]
    have hopen : (closing user r).isOpen = true ↔ r.isOpen = true ∧ r.user ≠ user :=
      isOpen_closing
    cases hr : r.isOpen with
    | false =>
      have hnot : (closing user r).isOpen ≠ true := fun h => by simp [hopen.mp h |>.1] at hr
      simp [hnot]
    | true =>
      by_cases heq : r.user = user
      · have hnot : (closing user r).isOpen ≠ true := fun h => (hopen.mp h).2 heq
        simp [hnot, heq]
      · have hstill : (closing user r).isOpen = true := hopen.mpr ⟨hr, heq⟩
        simp [hstill, heq]

/-- The teacher of a class has logged in to it as its teacher and is open. -/
lemma exists_of_teacherOf (h : registry.teacherOf classId = some user) :
    ∃ r ∈ registry, r.isOpen = true ∧ r.user = user ∧ r.classId = classId ∧ r.isTeacher = true := by
  obtain ⟨r, hr, hopen⟩ := Option.bind_eq_some_iff.mp h
  split_ifs at hopen with hisOpen
  have hmem := List.mem_of_getLast? hr
  simp only [teachers, List.mem_filter, Bool.and_eq_true, decide_eq_true_eq] at hmem
  exact ⟨r, hmem.1, hisOpen, Option.some.inj hopen, hmem.2.2, hmem.2.1⟩

/-- A login as the teacher of a class makes its connection the teacher. -/
lemma teacherOf_append (new : LoginRecord) : Registry.teacherOf (registry ++ [new]) classId =
    if new.isTeacher = true ∧ new.classId = classId then
      if new.isOpen = true then some new.user else none
    else registry.teacherOf classId := by
  unfold teacherOf teachers
  rw [List.filter_append]
  by_cases hnew : new.isTeacher = true ∧ new.classId = classId
  · simp [hnew]
  · have hnot : (new.isTeacher && decide (new.classId = classId)) = false := by
      rw [← Bool.not_eq_true, Bool.and_eq_true, decide_eq_true_eq]
      exact hnew
    simp [hnew, hnot]

/-! ## The users of a class -/

/-- A connection that is open and has logged in to a class. -/
def LoggedIn (registry : Registry) (user : Address) (classId : Bytes) : Prop :=
  ∃ r ∈ registry, r.isOpen = true ∧ r.user = user ∧ r.classId = classId

/-- Who is logged in once there is one more record that is open. -/
lemma loggedIn_append {new : LoginRecord} (hopen : new.isOpen = true) :
    LoggedIn (registry ++ [new]) user classId ↔
      registry.LoggedIn user classId ∨ new.user = user ∧ new.classId = classId := by
  simp only [LoggedIn, List.mem_append, List.mem_singleton, or_and_right, exists_or,
    exists_eq_left, hopen, true_and]

/-- A connection that closes is logged in no more; the others still are. -/
lemma loggedIn_map_closing {other : Address} :
    LoggedIn (registry.map (closing user)) other classId ↔
      registry.LoggedIn other classId ∧ other ≠ user := by
  constructor
  · rintro ⟨r', hr', hopen, huser, hclass⟩
    obtain ⟨r, hr, rfl⟩ := List.mem_map.mp hr'
    rw [user_closing] at huser
    rw [classId_closing] at hclass
    obtain ⟨hopen, hne⟩ := isOpen_closing.mp hopen
    exact ⟨⟨r, hr, hopen, huser, hclass⟩, huser ▸ hne⟩
  · rintro ⟨⟨r, hr, hopen, rfl, hclass⟩, hne⟩
    exact ⟨closing user r, List.mem_map_of_mem hr, isOpen_closing.mpr ⟨hopen, hne⟩,
      user_closing, classId_closing.trans hclass⟩

/-- The class sessions of a history: the users of a class are the open connections that have logged
in to it, and its teacher is one of them. -/
structure Lists (sessions : ClassSessionManager) (registry : Registry) : Prop where
  users : ∀ classId user, user ∈ sessions.getClassUsers classId ↔ registry.LoggedIn user classId
  teacher_mem : ∀ classId user, sessions.getClassTeacher classId = some user →
    user ∈ sessions.getClassUsers classId

variable {sessions : ClassSessionManager} {s t : Server}

/-- A new manager lists nobody. -/
lemma lists_new : Lists ClassSessionManager.new [] where
  users classId user := by simp [LoggedIn]
  teacher_mem _ _ h := by cases h

/-- An accepted login is one more. -/
lemma Lists.login (h : Lists sessions registry) (isTeacher : Bool) :
    Lists (sessions.addClassUser classId user isTeacher)
      (registry ++ [⟨user, classId, isTeacher, true⟩]) where
  users classId' other := by
    rw [ClassSessionManager.mem_getClassUsers_addClassUser, loggedIn_append rfl, h.users]
    exact or_congr_right (and_comm.trans (and_congr_left' eq_comm))
  teacher_mem classId' other hteacher := by
    rw [ClassSessionManager.getClassTeacher_addClassUser] at hteacher
    rw [ClassSessionManager.mem_getClassUsers_addClassUser]
    split_ifs at hteacher with hnew
    · exact Or.inr ⟨hnew.2, (Option.some.inj hteacher).symm⟩
    · exact Or.inl (h.teacher_mem classId' other hteacher)

/-- A deletion that removes every reference takes the connection off the list. -/
lemma Lists.close (h : Lists sessions registry) (hteaches : (sessions.taughtClasses user).length ≤ 1) :
    Lists (sessions.removeUser user) (registry.map (closing user)) where
  users classId other := by
    rw [ClassSessionManager.mem_getClassUsers_removeUser, h.users, loggedIn_map_closing]
  teacher_mem classId other hteacher := by
    refine ClassSessionManager.mem_getClassUsers_removeUser.mpr ⟨h.teacher_mem classId other
      (ClassSessionManager.getClassTeacher_of_removeUser hteacher), ?_⟩
    rintro rfl
    exact ClassSessionManager.not_mentions_removeUser_iff.mpr hteaches ⟨classId, Or.inr hteacher⟩

/-- Every event keeps the list, if a deletion removes every reference. -/
lemma Lists.next (h : Lists s.sessions registry) {e : ServerEvent} (hremoves : s.RemovesAll e) :
    Lists (s.sessions.next e) (registry.next e) := by
  cases e with
  | command db user c =>
    cases c with
    | boradLogin login =>
      simp only [ClassSessionManager.next, Registry.next]
      split
      · exact h.login _
      · exact h
    | _ => exact h
  | close handle => exact h.close hremoves
  | _ => exact h

/-- In every run whose deletions remove every reference, the users of a class are the open
connections that have logged in to it. -/
theorem lists_of_run {es : List ServerEvent}
    (h : (Server.system.guarded Server.RemovesAll).Run Server.new es s) :
    s.Consistent ∧ Lists s.sessions (after es) := by
  generalize hnew : Server.new = start at h
  induction h with
  | nil =>
    subst hnew
    exact ⟨Server.consistent_new, lists_new⟩
  | snoc hrun hlast ih =>
    obtain ⟨hconsistent, hlists⟩ := ih
    obtain ⟨hremoves, hstep⟩ := hlast
    rw [after_append, hconsistent.sessions_step hstep]
    exact ⟨hconsistent.step hremoves hstep, hlists.next hremoves⟩

/-! ## The last teacher of a class -/

/-- The class sessions of a history in which every connection logs in at most once. -/
structure Agrees (sessions : ClassSessionManager) (registry : Registry) : Prop
    extends Lists sessions registry where
  teacher : ∀ classId, sessions.getClassTeacher classId = registry.teacherOf classId
  once : ∀ r ∈ registry, ∀ r' ∈ registry, r.isOpen = true → r'.isOpen = true → r.user = r'.user →
    r.classId = r'.classId

/-- A new manager agrees with an empty registry. -/
lemma agrees_new : Agrees ClassSessionManager.new [] where
  toLists := lists_new
  teacher _ := rfl
  once _ h := absurd h List.not_mem_nil

/-- A connection is the teacher of one class at most. -/
lemma Agrees.taughtClasses_le (h : Agrees sessions registry) (user : Address) :
    (sessions.taughtClasses user).length ≤ 1 := by
  refine ClassSessionManager.length_taughtClasses_le_one fun classId classId' ht ht' => ?_
  rw [h.teacher] at ht ht'
  obtain ⟨r, hr, hopen, huser, hclass, -⟩ := exists_of_teacherOf ht
  obtain ⟨r', hr', hopen', huser', hclass', -⟩ := exists_of_teacherOf ht'
  rw [← hclass, ← hclass']
  exact h.once r hr r' hr' hopen hopen' (huser.trans huser'.symm)

/-- So no deletion leaves a reference. -/
lemma Agrees.removesAll (h : Agrees s.sessions registry) (e : ServerEvent) : s.RemovesAll e := by
  cases e with
  | close handle => exact h.taughtClasses_le handle
  | _ => trivial

/-- An accepted login is one more. -/
lemma Agrees.login (h : Agrees sessions registry) (isTeacher : Bool)
    (hfirst : ∀ r ∈ registry, r.user = user → r.isOpen = false) :
    Agrees (sessions.addClassUser classId user isTeacher)
      (registry ++ [⟨user, classId, isTeacher, true⟩]) where
  toLists := h.toLists.login isTeacher
  teacher classId' := by
    rw [ClassSessionManager.getClassTeacher_addClassUser, teacherOf_append, ← h.teacher classId']
    rfl
  once r hr r' hr' hopen hopen' heq := by
    rw [List.mem_append, List.mem_singleton] at hr hr'
    rcases hr with hr | rfl <;> rcases hr' with hr' | rfl
    · exact h.once r hr r' hr' hopen hopen' heq
    · rw [hfirst r hr heq] at hopen
      cases hopen
    · rw [hfirst r' hr' heq.symm] at hopen'
      cases hopen'
    · rfl

/-- The teacher of a class after a deletion that removes every reference. -/
lemma getClassTeacher_removeUser (hteaches : (sessions.taughtClasses user).length ≤ 1) :
    (sessions.removeUser user).getClassTeacher classId =
      if sessions.getClassTeacher classId = some user then none
      else sessions.getClassTeacher classId := by
  have hgone := ClassSessionManager.not_mentions_removeUser_iff.mpr hteaches
  refine Option.ext fun other => ?_
  by_cases hother : other = user
  · subst hother
    have hnot : (sessions.removeUser other).getClassTeacher classId ≠ some other :=
      fun h => hgone ⟨classId, Or.inr h⟩
    split_ifs with hteacher
    · simpa using hnot
    · exact iff_of_false hnot hteacher
  · rw [ClassSessionManager.getClassTeacher_removeUser_of_ne hother]
    split_ifs with hteacher
    · rw [hteacher]
      simpa using fun h : user = other => hother h.symm
    · rfl

/-- A connection that closes is registered no more. -/
lemma Agrees.close (h : Agrees sessions registry) (user : Address) :
    Agrees (sessions.removeUser user) (registry.map (closing user)) where
  toLists := h.toLists.close (h.taughtClasses_le user)
  teacher classId := by
    rw [getClassTeacher_removeUser (h.taughtClasses_le user), teacherOf_map_closing,
      ← h.teacher classId]
  once r hr r' hr' hopen hopen' heq := by
    obtain ⟨o, ho, rfl⟩ := List.mem_map.mp hr
    obtain ⟨o', ho', rfl⟩ := List.mem_map.mp hr'
    rw [user_closing, user_closing] at heq
    rw [classId_closing, classId_closing]
    exact h.once o ho o' ho' (isOpen_closing.mp hopen).1 (isOpen_closing.mp hopen').1 heq

/-- Every event of a connection that logs in at most once keeps the agreement. -/
lemma Agrees.next (h : Agrees s.sessions registry) {e : ServerEvent}
    (hfirst : registry.FirstLogin e) : Agrees (s.sessions.next e) (registry.next e) := by
  cases e with
  | command db user c =>
    cases c with
    | boradLogin login =>
      simp only [FirstLogin] at hfirst
      simp only [ClassSessionManager.next, Registry.next]
      cases hidentity : db.identify login.sessionId with
      | some identity =>
        rw [hidentity] at hfirst
        exact h.login _ (hfirst rfl)
      | none => exact h
    | _ => exact h
  | close handle => exact h.close handle
  | _ => exact h

/-- While every connection logs in at most once, the users of a class are the open connections that
have logged in to it, and its teacher is the connection of the last teacher's login if that is
open. -/
theorem registered_iff {es : List ServerEvent} (h : Server.system.Run Server.new es s)
    (honce : LogInOnce es) (classId : Bytes) :
    (∀ user, user ∈ s.sessions.getClassUsers classId ↔
      ∃ r ∈ after es, r.isOpen = true ∧ r.user = user ∧ r.classId = classId) ∧
    s.sessions.getClassTeacher classId = (after es).teacherOf classId := by
  have hagrees : s.Consistent ∧ Agrees s.sessions (after es) := by
    generalize hnew : Server.new = start at h
    induction h with
    | nil =>
      subst hnew
      exact ⟨Server.consistent_new, agrees_new⟩
    | snoc hrun hlast ih =>
      obtain ⟨hconsistent, hagrees⟩ := ih honce.init
      rw [after_append, hconsistent.sessions_step hlast]
      exact ⟨hconsistent.step (hagrees.removesAll _) hlast, hagrees.next honce.last⟩
  exact ⟨hagrees.2.users classId, hagrees.2.teacher classId⟩

/-! ## A teacher who comes back -/

/-- The identity of the teacher of a class. -/
def teacherIdentity : Identity := ⟨[11], [7], [], false, true, false⟩

/-- A database with one teacher's session. -/
def teacherDatabase : Database where
  isTeacher sessionId := if sessionId = [1] then some ⟨[11], [7], [], false⟩ else none
  isStudent _ := none

/-- The teacher's login over a connection. -/
def teacherLogin (user : Address) : ServerEvent :=
  .command teacherDatabase user (.boradLogin ⟨[1], false, false, [], false, false, false, [], []⟩)

/-- The teacher logs in over one connection and over another one. -/
def twice : List ServerEvent := [.connection 1, .connection 2, teacherLogin 1, teacherLogin 2]

/-- The server after both logins. -/
def twiceServer : Server := (((Server.new.onConnection 1).onConnection 2).loggedIn 1
  teacherIdentity).loggedIn 2 teacherIdentity

/-- The server after the two logins. -/
lemma run_twice : Server.system.Run Server.new twice twiceServer := by
  have hfirst : Server.system.step Server.new (.connection 1) (Server.new.onConnection 1) :=
    ⟨rfl, [], rfl⟩
  have hsecond : Server.system.step (Server.new.onConnection 1) (.connection 2)
      ((Server.new.onConnection 1).onConnection 2) := ⟨rfl, [], rfl⟩
  have hlogin : Server.system.step ((Server.new.onConnection 1).onConnection 2) (teacherLogin 1)
      (((Server.new.onConnection 1).onConnection 2).loggedIn 1 teacherIdentity) :=
    ⟨⟨rfl, _, rfl, rfl⟩, _, rfl⟩
  have hlogin' : Server.system.step
      (((Server.new.onConnection 1).onConnection 2).loggedIn 1 teacherIdentity) (teacherLogin 2)
      twiceServer := ⟨⟨rfl, _, rfl, rfl⟩, _, rfl⟩
  exact ((((System.Run.nil _).snoc hfirst).snoc hsecond).snoc hlogin).snoc hlogin'

/-- No connection logs in twice there. -/
lemma logInOnce_twice : LogInOnce twice := by
  have hsecond : (after [.connection 1, .connection 2, teacherLogin 1]).FirstLogin
      (teacherLogin 2) := by
    intro _ r hr heq
    obtain rfl : r = ⟨1, [11], true, true⟩ := List.mem_singleton.mp hr
    cases heq
  exact (((logInOnce_nil.snoc (e := .connection 1) trivial).snoc (e := .connection 2) trivial).snoc
    (e := teacherLogin 1) (fun _ r hr => by cases hr)).snoc hsecond

/-- Both connections are users of the class, and the second one is its teacher. -/
theorem registered_iff_twice : (1 ∈ twiceServer.sessions.getClassUsers [11] ∧
    2 ∈ twiceServer.sessions.getClassUsers [11]) ∧
      twiceServer.sessions.getClassTeacher [11] = some 2 := by
  obtain ⟨husers, hteacher⟩ := registered_iff run_twice logInOnce_twice [11]
  refine ⟨⟨(husers 1).mpr ?_, (husers 2).mpr ?_⟩, hteacher.trans rfl⟩
  · exact ⟨⟨1, [11], true, true⟩, by decide, rfl, rfl, rfl⟩
  · exact ⟨⟨2, [11], true, true⟩, by decide, rfl, rfl, rfl⟩

/-- When the second connection closes, the first one is still open and logged in as the teacher,
but the class has no teacher. -/
theorem teacher_forgotten : ∃ es s, Server.system.Run Server.new es s ∧ LogInOnce es ∧
    s.sessions.getClassTeacher [11] = none ∧ (s.heap.find 1).isSome = true ∧
      ∃ r ∈ after es, r.isOpen = true ∧ r.user = 1 ∧ r.classId = [11] ∧ r.isTeacher = true := by
  have hclosing : Server.system.step twiceServer (.readError 2) (twiceServer.startClosing 2) :=
    ⟨⟨rfl, _, rfl, rfl⟩, [], rfl⟩
  have hclose : Server.system.step (twiceServer.startClosing 2) (.close 2)
      ((twiceServer.startClosing 2).deleteUserByHandle 2) := ⟨⟨2, _, rfl, rfl, rfl⟩, [], rfl⟩
  refine ⟨_, _, (run_twice.snoc hclosing).snoc hclose,
    (logInOnce_twice.snoc (e := .readError 2) trivial).snoc (e := .close 2) trivial, rfl, rfl, ?_⟩
  exact ⟨⟨1, [11], true, true⟩, by decide, rfl, rfl, rfl, rfl⟩

end Registry

end Liangshi
