import Liangshi.Relay.Roster

/-!
# The handler sends what is intended

`Represents s roster` says that the class sessions and the user ids of a server agree with a
roster.  The handler sends every connection that is not closing exactly what the roster intends
for it, and its new state represents the next roster (`handlThread_intended`); it keeps the parser
of every connection (`SameParsers`).
-/

namespace Liangshi

open Wire Ordered

namespace Server

/-- The commands among those written that are written to one user, in order. -/
def sentTo (receiver : Address) (sent : List Sent) : List LokiCommand :=
  (sent.filter fun p => decide (p.1 = receiver)).map Prod.snd

/-- No handle is closing. -/
def AllOpen (s : Server) : Prop :=
  ∀ user o, s.heap.find user = some o → o.closing = false

/-- The class sessions and the user ids agree with a roster. -/
structure Represents (s : Server) (roster : Roster) : Prop where
  members : ∀ classId user, user ∈ s.sessions.getClassUsers classId ↔ user ∈ roster.members classId
  teacher : ∀ classId, s.sessions.getClassTeacher classId = roster.teacher classId
  userId : ∀ user, (s.userIdOf user).getD [] = roster.userId user

/-- Two states have the same live users with the same parsers. -/
def SameParsers (s t : Server) : Prop :=
  ∀ user, (t.heap.find user).map UserObject.parser = (s.heap.find user).map UserObject.parser

/-- The roster of a server. -/
def roster (s : Server) : Roster where
  members classId := (s.sessions.getClassUsers classId).elems.toFinset
  teacher classId := s.sessions.getClassTeacher classId
  userId user := (s.userIdOf user).getD []

/-- A server is represented by its roster. -/
lemma represents_roster (s : Server) : s.Represents s.roster where
  members classId user := by
    simp [roster, OrderedSet.mem_def]
  teacher _ := rfl
  userId _ := rfl

/-- The members of a class are its users. -/
@[simp] lemma mem_members_roster {s : Server} {classId : Bytes} {user : Address} :
    user ∈ s.roster.members classId ↔ user ∈ s.sessions.getClassUsers classId :=
  (s.represents_roster.members classId user).symm

variable {s : Server} {receiver : Address}

/-! ## One command for several users -/

/-- Nothing is sent to anybody. -/
@[simp] lemma sentTo_nil : sentTo receiver [] = [] := rfl

/-- What is sent to somebody first, and what is sent then. -/
@[simp] lemma sentTo_append (first others : List Sent) :
    sentTo receiver (first ++ others) = sentTo receiver first ++ sentTo receiver others := by
  simp [sentTo]

/-- A command written once to each user of a list is written once to a member. -/
lemma sentTo_map {users : List Address} (h : users.Nodup) (c : LokiCommand) :
    sentTo receiver (users.map fun user => (user, c)) = if receiver ∈ users then [c] else [] := by
  induction users with
  | nil => rfl
  | cons user users ih =>
    obtain ⟨hnot, hnodup⟩ := List.nodup_cons.mp h
    have htail := ih hnodup
    by_cases heq : user = receiver
    · subst heq
      rw [if_neg hnot] at htail
      simp only [sentTo, List.map_cons, List.filter_cons, decide_true, if_true, List.mem_cons,
        true_or]
      exact congrArg (c :: ·) htail
    · have hne : receiver ≠ user := fun h' => heq h'.symm
      simp only [sentTo, List.map_cons, List.filter_cons, decide_eq_false heq, Bool.false_eq_true,
        if_false, List.mem_cons, hne, false_or]
      exact htail

/-- A command written to the open users of a list is written once to an open member. -/
lemma sentTo_open {users : List Address} (h : users.Nodup) (c : LokiCommand) :
    sentTo receiver ((users.filter s.isOpen).map fun user => (user, c)) =
      if s.isOpen receiver = true then if receiver ∈ users then [c] else [] else [] := by
  rw [sentTo_map (h.filter _)]
  by_cases hopen : s.isOpen receiver = true <;> simp [hopen]

/-! ## Logging in -/

/-- A login keeps handles open. -/
lemma isOpen_loggedIn (user : Address) (identity : Identity) (other : Address) :
    (s.loggedIn user identity).isOpen other = s.isOpen other := by
  unfold isOpen Server.loggedIn setUserId
  cases hfind : s.heap.find user with
  | none => rfl
  | some o =>
    simp only [OrderedMap.find_insert]
    split_ifs with heq
    · subst heq
      rw [hfind]
    · rfl

/-- A login keeps the parsers. -/
lemma sameParsers_loggedIn (user : Address) (identity : Identity) :
    SameParsers s (s.loggedIn user identity) := by
  intro other
  unfold Server.loggedIn setUserId
  cases hfind : s.heap.find user with
  | none => rfl
  | some o =>
    simp only [OrderedMap.find_insert]
    split_ifs with heq
    · subst heq
      rw [hfind]
      rfl
    · rfl

/-- A login makes the roster's login. -/
lemma Represents.loggedIn {roster : Roster} (h : s.Represents roster) {user : Address}
    (hlive : (s.heap.find user).isSome) (identity : Identity) :
    (s.loggedIn user identity).Represents (roster.login user identity) where
  members classId other := by
    simp only [Server.loggedIn, ClassSessionManager.mem_getClassUsers_addClassUser, Roster.login,
      h.members]
    split_ifs with hclass <;> simp [hclass, or_comm]
  teacher classId := by
    simp only [Server.loggedIn, ClassSessionManager.getClassTeacher_addClassUser, Roster.login,
      h.teacher]
  userId other := by
    obtain ⟨o, ho⟩ := Option.isSome_iff_exists.mp hlive
    have hother := h.userId other
    simp only [userIdOf, Server.loggedIn, setUserId, ho, OrderedMap.find_insert, Roster.login]
      at hother ⊢
    split_ifs with heq
    · rfl
    · exact hother

/-! ## The handler -/

/-- What handling a command does, seen from a roster. -/
structure HandledAs (db : Database) (s : Server) (roster : Roster) (sender : Address)
    (c : LokiCommand) (t : Server) (sent : List Sent) : Prop where
  handled : NetCommandHandler.handlThread db s sender c = .ok (t, sent)
  consistent : t.Consistent
  represents : t.Represents (roster.next db sender c)
  sameParsers : SameParsers s t
  isOpen_eq : ∀ user, t.isOpen user = s.isOpen user
  sentTo_eq : ∀ receiver, sentTo receiver sent =
    if s.isOpen receiver = true then roster.intended db sender receiver c else []

/-- A command written to a class, but for some of its users, is written once to each other open
member. -/
lemma sentTo_class {roster : Roster} (hr : s.Represents roster) (classId : Bytes)
    (p : Address → Bool) (c : LokiCommand) :
    sentTo receiver ((((s.sessions.getClassUsers classId).elems.filter p).filter s.isOpen).map
      fun user => (user, c)) =
        if s.isOpen receiver = true then
          if receiver ∈ roster.members classId ∧ p receiver then [c] else []
        else [] := by
  have hmembers := hr.members classId receiver
  rw [OrderedSet.mem_def] at hmembers
  rw [sentTo_open ((s.sessions.getClassUsers classId).nodup.filter p)]
  simp only [List.mem_filter, hmembers]

section

variable {roster : Roster} {db : Database} {sender : Address}

/-- A command that changes nothing in the server. -/
lemma handledAs_of_same (hs : s.Consistent) (hr : s.Represents roster)
    {c : LokiCommand} {sent : List Sent}
    (hhandled : NetCommandHandler.handlThread db s sender c = .ok (s, sent))
    (hnext : roster.next db sender c = roster)
    (hsent : ∀ receiver, sentTo receiver sent =
      if s.isOpen receiver = true then roster.intended db sender receiver c else []) :
    HandledAs db s roster sender c s sent where
  handled := hhandled
  consistent := hs
  represents := by
    rw [hnext]
    exact hr
  sameParsers _ := rfl
  isOpen_eq _ := rfl
  sentTo_eq := hsent

/-- A command that is ignored. -/
lemma handledAs_of_ignored (hs : s.Consistent) (hr : s.Represents roster) {c : LokiCommand}
    (hhandled : NetCommandHandler.handlThread db s sender c = .ok (s, []))
    (hnext : roster.next db sender c = roster)
    (hintended : ∀ receiver, roster.intended db sender receiver c = []) :
    HandledAs db s roster sender c s [] :=
  handledAs_of_same hs hr hhandled hnext fun receiver => by rw [hintended, ite_self, sentTo_nil]

/-- A board login is answered, and an accepted one is announced to the other members. -/
lemma handledAs_boradLogin (hs : s.Consistent) (hr : s.Represents roster)
    (hholds : s.Holds sender) (login : BoardLoginCommand) :
    ∃ t sent, HandledAs db s roster sender (.boradLogin login) t sent := by
  cases hidentity : db.identify login.sessionId with
  | none =>
    refine ⟨s, _, handledAs_of_same hs hr (hs.handleBoradLogin_rejected hholds hidentity) ?_ ?_⟩
    · simp only [Roster.next, hidentity]
    · intro receiver
      rw [sentTo_open (List.nodup_singleton sender)]
      simp only [Roster.intended, hidentity, List.mem_singleton]
  | some identity =>
    have hlive : (s.heap.find sender).isSome := (hs.live sender).mp hholds
    refine ⟨_, _, ⟨hs.handleBoradLogin_eq hholds hidentity, hs.login hholds identity, ?_,
      sameParsers_loggedIn sender identity, isOpen_loggedIn sender identity, ?_⟩⟩
    · simp only [Roster.next, hidentity]
      exact hr.loggedIn hlive identity
    · intro receiver
      rw [sentTo_append, sentTo_open (List.nodup_singleton sender),
        NetCommandHandler.otherClassUsers, sentTo_class (hr.loggedIn hlive identity)]
      simp only [isOpen_loggedIn, Roster.intended, hidentity, Roster.login, if_true,
        List.mem_singleton, Finset.mem_insert, decide_eq_true_eq]
      by_cases hopen : s.isOpen receiver = true <;> by_cases heq : receiver = sender <;>
        simp [hopen, heq]

/-- An application is written to every member, or to the teacher. -/
lemma handledAs_applyBoard (hs : s.Consistent) (hr : s.Represents roster)
    (apply : ApplyBoardCommand) :
    ∃ t sent, HandledAs db s roster sender (.applyBoard apply) t sent := by
  have hhandled := hs.handleApplyBoard_eq apply
  refine ⟨s, _, handledAs_of_same hs hr
    (congrArg (Except.map fun sent => (s, sent)) hhandled) rfl fun receiver => ?_⟩
  by_cases hteacher : apply.fromTeacher = true
  · have hmembers := hr.members apply.classId receiver
    rw [OrderedSet.mem_def] at hmembers
    rw [if_pos hteacher, sentTo_open (s.sessions.getClassUsers apply.classId).nodup]
    simp only [Roster.intended, hteacher, if_true, hmembers]
  · have hnodup : (s.sessions.getClassTeacher apply.classId).toList.Nodup := by
      cases s.sessions.getClassTeacher apply.classId <;> simp
    rw [if_neg hteacher, sentTo_open hnodup]
    simp only [Roster.intended, if_neg hteacher, Option.mem_toList, hr.teacher]

/-- In a state that a roster represents, the handler sends every connection that is not closing
what is intended for it, and its new state represents the next roster. -/
theorem handlThread_intended (db : Database) (hs : s.Consistent) (hr : s.Represents roster)
    (hholds : s.Holds sender) (c : LokiCommand) :
    ∃ t sent, HandledAs db s roster sender c t sent := by
  cases c with
  | boradLogin login => exact handledAs_boradLogin hs hr hholds login
  | hadesData hades =>
    refine ⟨s, _, handledAs_of_same hs hr
      (congrArg (Except.map fun sent => (s, sent)) (hs.handleHadesData_eq hades)) rfl ?_⟩
    intro receiver
    rw [sentTo_class hr]
    simp only [Roster.intended, decide_eq_true_eq]
    refine if_congr Iff.rfl (if_congr (and_congr_right fun hmem => ?_) rfl rfl) rfl
    obtain ⟨o, ho⟩ := Option.isSome_iff_exists.mp
      (hs.isSome_of_mem hades.classId ((hr.members _ _).mpr hmem))
    rw [← hr.userId receiver, userIdOf, ho, Option.map_some, Option.some.injEq, Option.getD_some]
  | boardData data =>
    refine ⟨s, _, handledAs_of_same hs hr
      (congrArg (Except.map fun sent => (s, sent)) (hs.handleBoardData_eq sender data)) rfl ?_⟩
    intro receiver
    rw [NetCommandHandler.otherClassUsers, sentTo_class hr]
    simp only [Roster.intended, decide_eq_true_eq]
  | applyBoard apply => exact handledAs_applyBoard hs hr apply
  | takeBoard take =>
    refine ⟨s, _, handledAs_of_same hs hr
      (congrArg (Except.map fun sent => (s, sent)) (hs.handleTakeBoard_eq sender take)) rfl ?_⟩
    intro receiver
    rw [NetCommandHandler.otherClassUsers, sentTo_class hr]
    simp only [Roster.intended, decide_eq_true_eq]
  | login c => exact ⟨s, [], handledAs_of_ignored hs hr rfl rfl fun _ => rfl⟩
  | chat c => exact ⟨s, [], handledAs_of_ignored hs hr rfl rfl fun _ => rfl⟩
  | getFriendList c => exact ⟨s, [], handledAs_of_ignored hs hr rfl rfl fun _ => rfl⟩
  | serverNotifyRelogin c => exact ⟨s, [], handledAs_of_ignored hs hr rfl rfl fun _ => rfl⟩
  | serverNotifyLostConnection c => exact ⟨s, [], handledAs_of_ignored hs hr rfl rfl fun _ => rfl⟩

/-! ## Without closing handles -/

/-- A command is intended for live users only. -/
lemma Represents.isSome_of_intended (hs : s.Consistent) (hr : s.Represents roster)
    (hholds : s.Holds sender) {c : LokiCommand}
    (hintended : roster.intended db sender receiver c ≠ []) : (s.heap.find receiver).isSome := by
  have hsender : receiver = sender → (s.heap.find receiver).isSome := by
    rintro rfl
    exact (hs.live receiver).mp hholds
  have hmember : ∀ classId, receiver ∈ roster.members classId → (s.heap.find receiver).isSome :=
    fun classId hmem => hs.isSome_of_mem classId ((hr.members classId receiver).mpr hmem)
  cases c with
  | boradLogin login =>
    simp only [Roster.intended] at hintended
    split at hintended
    · split_ifs at hintended with heq
      · exact hsender heq
      · exact absurd rfl hintended
    · split_ifs at hintended with heq hmem
      · exact hsender heq
      · exact hmember _ hmem
      · exact absurd rfl hintended
  | hadesData hades =>
    simp only [Roster.intended] at hintended
    split_ifs at hintended with hmem
    · exact hmember _ hmem.1
    · exact absurd rfl hintended
  | boardData data =>
    simp only [Roster.intended] at hintended
    split_ifs at hintended with hmem
    · exact hmember _ hmem.1
    · exact absurd rfl hintended
  | applyBoard apply =>
    simp only [Roster.intended] at hintended
    split_ifs at hintended with hteacher hmem hmem
    · exact hmember _ hmem
    · exact absurd rfl hintended
    · exact hs.isSome_of_teacher ((hr.teacher _).trans hmem)
    · exact absurd rfl hintended
  | takeBoard take =>
    simp only [Roster.intended] at hintended
    split_ifs at hintended with hmem
    · exact hmember _ hmem.1
    · exact absurd rfl hintended
  | login c => exact absurd rfl hintended
  | chat c => exact absurd rfl hintended
  | getFriendList c => exact absurd rfl hintended
  | serverNotifyRelogin c => exact absurd rfl hintended
  | serverNotifyLostConnection c => exact absurd rfl hintended

/-- While no handle is closing, live users are open. -/
lemma AllOpen.isOpen (hopen : s.AllOpen) {user : Address} (hlive : (s.heap.find user).isSome) :
    s.isOpen user = true := by
  obtain ⟨o, ho⟩ := Option.isSome_iff_exists.mp hlive
  simp only [Server.isOpen, ho, hopen user o ho, Bool.not_false]

/-- The handler closes no handle. -/
lemma HandledAs.allOpen {c : LokiCommand} {t : Server} {sent : List Sent}
    (h : HandledAs db s roster sender c t sent) (hopen : s.AllOpen) : t.AllOpen := by
  intro user o ho
  have hlive : (s.heap.find user).isSome := by
    rw [← Option.isSome_map, ← h.sameParsers user, Option.isSome_map, ho]
    rfl
  have hstill := h.isOpen_eq user
  rw [hopen.isOpen hlive, Server.isOpen, ho] at hstill
  simpa using hstill

/-- While no handle is closing, every connection is sent what is intended for it. -/
lemma HandledAs.sentTo_of_allOpen {c : LokiCommand} {t : Server} {sent : List Sent}
    (h : HandledAs db s roster sender c t sent) (hopen : s.AllOpen) (hs : s.Consistent)
    (hr : s.Represents roster) (hholds : s.Holds sender) (receiver : Address) :
    sentTo receiver sent = roster.intended db sender receiver c := by
  rw [h.sentTo_eq]
  by_cases hintended : roster.intended db sender receiver c = []
  · rw [hintended, ite_self]
  · rw [if_pos (hopen.isOpen (hr.isSome_of_intended hs hholds hintended))]

end

end Server

end Liangshi
