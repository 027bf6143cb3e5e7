import Liangshi.Live.BoardControl

/-!
# Well-formed classes

`Classroom.WellFormed` says how the connections, the commands on their way and the widgets of a
class fit together: commands on their way to the server are those a participant may send, commands
on their way to a client are addressed to it, and the first command a new widget receives is the
reply to its login.  Every event keeps it (`WellFormed.next`), and in a well-formed class no event
fails.
-/

namespace Liangshi

open Wire Ordered Transition

namespace Classroom

variable {P : Type} {room : Lecture P} {u : Uninitialised} {s : Classroom P}

/-! ## Proper commands -/

section

variable {a : Address} {p : P} {c : LokiCommand}

/-- What the server sends for a proper login. -/
lemma intended_login {roster : Roster} {login : BoardLoginCommand}
    (h : room.Proper p (.boradLogin login)) (r : Address) :
    roster.intended room.db a r (.boradLogin login) =
      if r = a then
        [.boradLogin (NetCommandHandler.accepted login (room.identity p))]
      else if r ∈ roster.members room.classId then
        [.boradLogin (NetCommandHandler.peerNotice login (room.identity p))]
      else [] := by
  have hidentity : room.db.identify login.sessionId = some (room.identity p) := by
    rw [show login.sessionId = room.session p from h, room.identify_session]
  simp only [Roster.intended, hidentity, room.classId_eq]

/-- The roster after a proper login. -/
lemma next_login {roster : Roster} {login : BoardLoginCommand}
    (h : room.Proper p (.boradLogin login)) :
    roster.next room.db a (.boradLogin login) = roster.login a (room.identity p) := by
  have hidentity : room.db.identify login.sessionId = some (room.identity p) := by
    rw [show login.sessionId = room.session p from h, room.identify_session]
  simp only [Roster.next, hidentity]

/-- Other commands change nothing in the roster. -/
lemma next_of_not_login {roster : Roster} (h : c.isLogin = false) :
    roster.next room.db a c = roster := by
  cases c with
  | boradLogin login => cases h
  | _ => rfl

end

/-! ## Well-formed classes -/

/-- The connections in the class. -/
def users (room : Lecture P) (s : Classroom P) : OrderedSet Address :=
  s.server.sessions.getClassUsers room.classId

section

variable [DecidableEq P]

/-- What the connections, the commands on their way and the widgets have to do with each other. -/
structure WellFormed (room : Lecture P) (s : Classroom P) : Prop where
  consistent : s.server.Consistent
  users_class : ∀ classId a, a ∈ s.server.sessions.getClassUsers classId → classId = room.classId
  teacher : ∀ classId a, s.server.sessions.getClassTeacher classId = some a →
    classId = room.classId ∧ s.opener a = some room.teacher ∧ a ∈ s.users room
  opened : ∀ a, (s.server.heap.find a).isSome → (s.opener a).isSome
  unopened : ∀ a, s.opener a = none → s.down a = []
  connection : ∀ p a, s.connection p = some a → s.opener a = some p
  proper : ∀ a p, s.opener a = some p → ∀ c ∈ s.up a, room.Proper p c
  addressed : ∀ a p, s.opener a = some p → ∀ c ∈ s.down a, room.Addressed p c
  known : ∀ p, s.widget p = LiveWidget.new ∨ room.KnownAs p (s.widget p)
  greeted : ∀ p a, s.connection p = some a → s.widget p = LiveWidget.new →
    ∀ c, (s.down a).head? = some c → c.isReply = true
  welcomed : ∀ p a, s.connection p = some a → s.widget p = LiveWidget.new → a ∈ s.users room →
    s.down a ≠ []
  waiting : ∀ p a, s.connection p = some a → s.server.isOpen a = true →
    a ∈ s.users room ∨ ∃ c ∈ s.up a, c.isLogin = true

/-- A new classroom is well formed. -/
lemma wellFormed_new : (new : Classroom P).WellFormed room where
  consistent := Server.consistent_new
  users_class _ _ h := absurd h (OrderedSet.not_mem_empty _)
  teacher _ _ h := by cases h
  opened _ h := by cases h
  unopened _ _ := rfl
  connection _ _ h := by cases h
  proper _ _ h := by cases h
  addressed _ _ h := by cases h
  known _ := Or.inl rfl
  greeted _ _ h := by cases h
  welcomed _ _ h := by cases h
  waiting _ _ h := by cases h

variable {a : Address} {p : P} {c : LokiCommand} {rest : List LokiCommand}

/-- What the server sends is addressed properly. -/
lemma WellFormed.addressed_intended (h : s.WellFormed room) (hopener : s.opener a = some p)
    (hproper : room.Proper p c) {r : Address} {q : P} (hr : s.opener r = some q)
    {x : LokiCommand} (hx : x ∈ s.server.roster.intended room.db a r c) : room.Addressed q x := by
  cases c with
  | boradLogin login =>
    rw [intended_login hproper] at hx
    split_ifs at hx with heq
    · obtain rfl := List.mem_singleton.mp hx
      rw [heq, hopener, Option.some.injEq] at hr
      subst hr
      exact ⟨rfl, fun _ => rfl⟩
    · obtain rfl := List.mem_singleton.mp hx
      exact ⟨rfl, fun hpeer => by cases hpeer⟩
    · cases hx
  | applyBoard apply =>
    simp only [Roster.intended] at hx
    split_ifs at hx with hteacher hmem hmem
    · obtain rfl := List.mem_singleton.mp hx
      exact fun hstudent => by rw [hstudent] at hteacher; cases hteacher
    · cases hx
    · obtain rfl := List.mem_singleton.mp hx
      obtain ⟨-, hopener', -⟩ := h.teacher _ _ hmem
      rw [hr, Option.some.injEq] at hopener'
      exact fun _ => hopener'
    · cases hx
  | boardData board =>
    simp only [Roster.intended] at hx
    split_ifs at hx
    · obtain rfl := List.mem_singleton.mp hx
      trivial
    · cases hx
  | takeBoard take =>
    simp only [Roster.intended] at hx
    split_ifs at hx
    · obtain rfl := List.mem_singleton.mp hx
      trivial
    · cases hx
  | hadesData hades =>
    simp only [Roster.intended] at hx
    split_ifs at hx
    · obtain rfl := List.mem_singleton.mp hx
      trivial
    · cases hx
  | _ => cases hx

/-- A connection outside the class is sent nothing but the reply to its login. -/
lemma WellFormed.isReply_intended (h : s.WellFormed room) (hproper : room.Proper p c) {r : Address}
    (hout : r ∉ s.users room) {x : LokiCommand}
    (hx : x ∈ s.server.roster.intended room.db a r c) : x.isReply = true := by
  have hnobody : ∀ classId, r ∉ s.server.roster.members classId := by
    intro classId hmem
    rw [Server.mem_members_roster] at hmem
    obtain rfl := h.users_class classId r hmem
    exact hout hmem
  cases c with
  | boradLogin login =>
    rw [intended_login hproper] at hx
    split_ifs at hx with heq hmem
    · obtain rfl := List.mem_singleton.mp hx
      rfl
    · exact absurd hmem (hnobody _)
    · cases hx
  | applyBoard apply =>
    simp only [Roster.intended] at hx
    split_ifs at hx with hteacher hmem hmem
    · exact absurd hmem (hnobody _)
    · cases hx
    · exact absurd (h.teacher _ _ hmem).2.2 hout
    · cases hx
  | boardData board =>
    simp only [Roster.intended, hnobody, false_and, if_false] at hx
    cases hx
  | takeBoard take =>
    simp only [Roster.intended, hnobody, false_and, if_false] at hx
    cases hx
  | hadesData hades =>
    simp only [Roster.intended, hnobody, false_and, if_false] at hx
    cases hx
  | _ => cases hx

omit [DecidableEq P] in
/-- What the handler sends to a connection. -/
lemma mem_sentTo {t : Server} {sent : List Sent}
    (h : Server.HandledAs room.db s.server s.server.roster a c t sent) {r : Address}
    {x : LokiCommand} (hx : x ∈ Server.sentTo r sent) :
    s.server.isOpen r = true ∧ x ∈ s.server.roster.intended room.db a r c := by
  rw [h.sentTo_eq] at hx
  split_ifs at hx with hopen
  · exact ⟨hopen, hx⟩
  · cases hx

omit [DecidableEq P] in
/-- The users of a class after a proper command. -/
lemma mem_users_handled {t : Server} {sent : List Sent}
    (h : Server.HandledAs room.db s.server s.server.roster a c t sent)
    (hproper : room.Proper p c) (classId : Bytes) (r : Address) :
    r ∈ t.sessions.getClassUsers classId ↔
      r ∈ s.server.sessions.getClassUsers classId ∨
        c.isLogin = true ∧ classId = room.classId ∧ r = a := by
  rw [h.represents.members]
  cases hlogin : c.isLogin with
  | false => simp [next_of_not_login hlogin]
  | true =>
    cases c with
    | boradLogin login =>
      rw [next_login hproper]
      simp only [Roster.login, room.classId_eq]
      split_ifs with hclass
      · subst hclass
        simp [or_comm]
      · simp [Ne.symm hclass]
    | _ => cases hlogin

omit [DecidableEq P] in
/-- The teacher of a class after a proper command. -/
lemma teacher_handled {t : Server} {sent : List Sent}
    (h : Server.HandledAs room.db s.server s.server.roster a c t sent)
    (hproper : room.Proper p c) {classId : Bytes} {r : Address}
    (hteacher : t.sessions.getClassTeacher classId = some r) :
    s.server.sessions.getClassTeacher classId = some r ∨
      c.isLogin = true ∧ p = room.teacher ∧ classId = room.classId ∧ r = a := by
  rw [h.represents.teacher] at hteacher
  cases hlogin : c.isLogin with
  | false =>
    rw [next_of_not_login hlogin] at hteacher
    exact Or.inl hteacher
  | true =>
    cases c with
    | boradLogin login =>
      rw [next_login hproper] at hteacher
      simp only [Roster.login] at hteacher
      split_ifs at hteacher with hnew
      · obtain ⟨hteaches, hclass⟩ := hnew
        rw [room.classId_eq] at hclass
        exact Or.inr ⟨rfl, (room.isTeacher_iff p).mp hteaches, hclass.symm,
          (Option.some.inj hteacher).symm⟩
      · exact Or.inl hteacher
    | _ => cases hlogin

omit [DecidableEq P] in
/-- A user that is open is live. -/
lemma isSome_of_isOpen (h : s.server.isOpen a = true) : (s.server.heap.find a).isSome := by
  unfold Server.isOpen at h
  split at h
  · rename_i o ho
    rw [ho]
    rfl
  · cases h

/-- Handling a command from a connection keeps a class well-formed. -/
lemma WellFormed.handled (h : s.WellFormed room) (hup : s.up a = c :: rest)
    (hopener : s.opener a = some p) {t : Server} {sent : List Sent}
    (hhandled : Server.HandledAs room.db s.server s.server.roster a c t sent)
    (hopen : s.server.isOpen a = true) : (s.handled a rest t sent).WellFormed room := by
  have hproper : room.Proper p c := h.proper a p hopener c (by rw [hup]; exact List.mem_cons_self)
  have hrest : ∀ r, ∀ x ∈ Function.update s.up a rest r, x ∈ s.up r := by
    intro r x hx
    by_cases heq : r = a
    · subst heq
      rw [Function.update_self] at hx
      rw [hup]
      exact List.mem_cons_of_mem c hx
    · rwa [Function.update_of_ne heq] at hx
  have hlive : ∀ r, (t.heap.find r).isSome = (s.server.heap.find r).isSome := by
    intro r
    rw [← Option.isSome_map, hhandled.sameParsers r, Option.isSome_map]
  refine ⟨hhandled.consistent, ?_, ?_, ?_, ?_, h.connection, ?_, ?_, h.known, ?_, ?_, ?_⟩
  · intro classId r hr
    rcases (mem_users_handled hhandled hproper classId r).mp hr with hold | ⟨-, hclass, -⟩
    · exact h.users_class classId r hold
    · exact hclass
  · intro classId r hr
    have hstays := (mem_users_handled hhandled hproper room.classId r).mpr
    rcases teacher_handled hhandled hproper hr with hold | ⟨hlogin, hp, hclass, rfl⟩
    · obtain ⟨hclass, hteacher, hmem⟩ := h.teacher classId r hold
      exact ⟨hclass, hteacher, hstays (Or.inl hmem)⟩
    · subst hp
      exact ⟨hclass, hopener, hstays (Or.inr ⟨hlogin, rfl, rfl⟩)⟩
  · intro r hr
    exact h.opened r (by rw [← hlive]; exact hr)
  · intro r hr
    have hunopened : s.opener r = none := hr
    have hnone : Server.sentTo r sent = [] := by
      rw [List.eq_nil_iff_forall_not_mem]
      intro x hx
      have hopened := h.opened r (isSome_of_isOpen (mem_sentTo hhandled hx).1)
      rw [hunopened] at hopened
      cases hopened
    show s.down r ++ Server.sentTo r sent = []
    rw [h.unopened r hr, hnone]
    rfl
  · intro r q hr x hx
    exact h.proper r q hr x (hrest r x hx)
  · intro r q hr x hx
    rcases List.mem_append.mp hx with hold | hnew
    · exact h.addressed r q hr x hold
    · exact h.addressed_intended hopener hproper hr (mem_sentTo hhandled hnew).2
  · intro q r hconnection hnew x hx
    have hx' : (s.down r ++ Server.sentTo r sent).head? = some x := hx
    cases hdown : s.down r with
    | cons first others =>
      rw [hdown] at hx'
      exact h.greeted q r hconnection hnew x (by rw [hdown]; exact hx')
    | nil =>
      rw [hdown, List.nil_append] at hx'
      have hout : r ∉ s.users room := fun hmem => h.welcomed q r hconnection hnew hmem hdown
      exact h.isReply_intended hproper hout (mem_sentTo hhandled (List.mem_of_mem_head? hx')).2
  · intro q r hconnection hnew hr
    show s.down r ++ Server.sentTo r sent ≠ []
    rcases (mem_users_handled hhandled hproper room.classId r).mp hr with hold | ⟨hlogin, -, rfl⟩
    · exact List.append_ne_nil_of_left_ne_nil (h.welcomed q r hconnection hnew hold) _
    · cases c with
      | boradLogin login =>
        rw [hhandled.sentTo_eq, if_pos hopen, intended_login hproper, if_pos rfl]
        exact List.append_ne_nil_of_right_ne_nil _ (List.cons_ne_nil _ _)
      | _ => cases hlogin
  · intro q r hconnection hr
    have hstays := (mem_users_handled hhandled hproper room.classId r).mpr
    have hr' : s.server.isOpen r = true := by
      rw [← hhandled.isOpen_eq]
      exact hr
    rcases h.waiting q r hconnection hr' with hmem | ⟨x, hx, hlogin⟩
    · exact Or.inl (hstays (Or.inl hmem))
    · by_cases heq : r = a
      · subst heq
        rw [hup] at hx
        rcases List.mem_cons.mp hx with rfl | hlater
        · exact Or.inl (hstays (Or.inr ⟨hlogin, rfl, rfl⟩))
        · refine Or.inr ⟨x, ?_, hlogin⟩
          simp only [Classroom.handled, Function.update_self]
          exact hlater
      · refine Or.inr ⟨x, ?_, hlogin⟩
        simp only [Classroom.handled, Function.update_of_ne heq]
        exact hx

/-! ## Connections -/

omit [DecidableEq P] in
/-- A new connection is open, and keeps the others as they are. -/
lemma isOpen_onConnection (server : Server) (r : Address) :
    (server.onConnection a).isOpen r = if a = r then true else server.isOpen r := by
  unfold Server.isOpen Server.onConnection
  rw [OrderedMap.find_insert]
  split_ifs <;> rfl

omit [DecidableEq P] in
/-- A read error closes a connection for writing. -/
lemma isOpen_startClosing (server : Server) (r : Address) :
    (server.startClosing a).isOpen r = if a = r then false else server.isOpen r := by
  unfold Server.isOpen Server.startClosing
  cases hfind : server.heap.find a with
  | none =>
    split_ifs with heq
    · subst heq
      rw [hfind]
    · rfl
  | some o =>
    simp only [OrderedMap.find_insert]
    split_ifs <;> rfl

/-- A new connection keeps a class well-formed. -/
lemma WellFormed.connected (h : s.WellFormed room) (hfresh : s.opener a = none)
    (hconnection : s.connection p = none) : (s.connected room u p a).WellFormed room := by
  have hdead : s.server.heap.find a = none := by
    rw [← Option.not_isSome_iff_eq_none]
    intro hlive
    have hopened := h.opened a hlive
    rw [hfresh] at hopened
    cases hopened
  have hout : ∀ classId, a ∉ s.server.sessions.getClassUsers classId := by
    intro classId hmem
    have hlive := h.consistent.isSome_of_mem classId hmem
    rw [hdead] at hlive
    cases hlive
  -- another participant's connection is not the new one
  have hother : ∀ q r, q ≠ p → Function.update s.connection p (some a) q = some r →
      s.connection q = some r ∧ r ≠ a := by
    intro q r hq hr
    rw [Function.update_of_ne hq] at hr
    refine ⟨hr, ?_⟩
    rintro rfl
    have hopener := h.connection q r hr
    rw [hfresh] at hopener
    cases hopener
  have hself : ∀ r, Function.update s.connection p (some a) p = some r → r = a := by
    intro r hr
    rw [Function.update_self] at hr
    exact (Option.some.inj hr).symm
  refine ⟨h.consistent.onConnection hdead, h.users_class, ?_, ?_, ?_, ?_, ?_, ?_, h.known, ?_, ?_, ?_⟩
  · intro classId r hr
    obtain ⟨hclass, hopener, hmem⟩ := h.teacher classId r hr
    refine ⟨hclass, ?_, hmem⟩
    have hne : r ≠ a := fun heq => hout _ (heq ▸ hmem)
    simp only [Classroom.connected, Function.update_of_ne hne]
    exact hopener
  · intro r hr
    simp only [Classroom.connected, Server.onConnection, OrderedMap.find_insert] at hr ⊢
    by_cases heq : r = a
    · subst heq
      rw [Function.update_self]
      rfl
    · rw [if_neg (Ne.symm heq)] at hr
      rw [Function.update_of_ne heq]
      exact h.opened r hr
  · intro r hr
    have hne : r ≠ a := by
      rintro rfl
      simp only [Classroom.connected, Function.update_self] at hr
      cases hr
    simp only [Classroom.connected, Function.update_of_ne hne] at hr
    exact h.unopened r hr
  · intro q r hr
    simp only [Classroom.connected] at hr ⊢
    by_cases hq : q = p
    · subst hq
      rw [hself r hr, Function.update_self]
    · obtain ⟨hold, hne⟩ := hother q r hq hr
      rw [Function.update_of_ne hne]
      exact h.connection q r hold
  · intro r q hr x hx
    simp only [Classroom.connected] at hr hx
    by_cases heq : r = a
    · subst heq
      rw [Function.update_self, Option.some.injEq] at hr
      rw [Function.update_self] at hx
      obtain rfl := List.mem_singleton.mp hx
      subst hr
      rfl
    · rw [Function.update_of_ne heq] at hr hx
      exact h.proper r q hr x hx
  · intro r q hr x hx
    simp only [Classroom.connected] at hr hx
    by_cases heq : r = a
    · subst heq
      rw [h.unopened r hfresh] at hx
      cases hx
    · rw [Function.update_of_ne heq] at hr
      exact h.addressed r q hr x hx
  · intro q r hr hnew x hx
    simp only [Classroom.connected] at hr hx
    by_cases hq : q = p
    · subst hq
      rw [hself r hr, h.unopened a hfresh] at hx
      cases hx
    · exact h.greeted q r (hother q r hq hr).1 hnew x hx
  · intro q r hr hnew hmem
    simp only [Classroom.connected] at hr
    by_cases hq : q = p
    · subst hq
      rw [hself r hr] at hmem
      exact absurd hmem (hout room.classId)
    · exact h.welcomed q r (hother q r hq hr).1 hnew hmem
  · intro q r hr hopen
    simp only [Classroom.connected] at hr hopen ⊢
    by_cases hq : q = p
    · subst hq
      rw [hself r hr, Function.update_self]
      exact Or.inr ⟨_, List.mem_singleton.mpr rfl, rfl⟩
    · obtain ⟨hold, hne⟩ := hother q r hq hr
      rw [isOpen_onConnection, if_neg (Ne.symm hne)] at hopen
      rw [Function.update_of_ne hne]
      exact h.waiting q r hold hopen

/-- A lost connection keeps a class well-formed. -/
lemma WellFormed.disconnected (h : s.WellFormed room) (hconnection : s.connection p = some a)
    (kept : Nat) : WellFormed room { s with
      up := Function.update s.up a ((s.up a).take kept)
      connection := Function.update s.connection p none } := by
  have hold : ∀ q r, Function.update s.connection p none q = some r →
      s.connection q = some r ∧ r ≠ a := by
    intro q r hr
    have hq : q ≠ p := by
      rintro rfl
      rw [Function.update_self] at hr
      cases hr
    rw [Function.update_of_ne hq] at hr
    refine ⟨hr, ?_⟩
    rintro rfl
    have hopener := h.connection q r hr
    rw [h.connection p r hconnection, Option.some.injEq] at hopener
    exact hq hopener.symm
  refine ⟨h.consistent, h.users_class, h.teacher, h.opened, h.unopened, ?_, ?_, h.addressed,
    h.known, ?_, ?_, ?_⟩
  · intro q r hr
    exact h.connection q r (hold q r hr).1
  · intro r q hr x hx
    refine h.proper r q hr x ?_
    by_cases heq : r = a
    · subst heq
      simp only [Function.update_self] at hx
      exact List.mem_of_mem_take hx
    · simpa only [Function.update_of_ne heq] using hx
  · intro q r hr
    exact h.greeted q r (hold q r hr).1
  · intro q r hr
    exact h.welcomed q r (hold q r hr).1
  · intro q r hr hopen
    obtain ⟨hold, hne⟩ := hold q r hr
    simp only [Function.update_of_ne hne]
    exact h.waiting q r hold hopen

/-- A read error keeps a class well-formed. -/
lemma WellFormed.readError (h : s.WellFormed room) (a : Address) :
    WellFormed room { s with server := s.server.startClosing a } := by
  have hsessions : (s.server.startClosing a).sessions = s.server.sessions := by
    unfold Server.startClosing
    split <;> rfl
  refine ⟨h.consistent.startClosing a, ?_, ?_, ?_, h.unopened, h.connection, h.proper, h.addressed,
    h.known, h.greeted, ?_, ?_⟩
  · rw [hsessions]
    exact h.users_class
  · unfold users
    rw [hsessions]
    exact h.teacher
  · intro r hr
    refine h.opened r ?_
    have hlive := (h.consistent.startClosing a).live r
    rwa [← hlive, Server.Holds, show (s.server.startClosing a).users = s.server.users from by
      unfold Server.startClosing; split <;> rfl, ← Server.Holds, h.consistent.live] at hr
  · unfold users
    rw [hsessions]
    exact h.welcomed
  · intro q r hconnection hopen
    unfold users
    rw [hsessions]
    have hopen' : s.server.isOpen r = true := by
      rw [isOpen_startClosing] at hopen
      split_ifs at hopen
      exact hopen
    exact h.waiting q r hconnection hopen'

/-- In one class, a user is the teacher of one class at most. -/
lemma WellFormed.taughtClasses_le (h : s.WellFormed room) (a : Address) :
    (s.server.sessions.taughtClasses a).length ≤ 1 :=
  ClassSessionManager.length_taughtClasses_le_one fun classId classId' hteacher hteacher' =>
    (h.teacher classId a hteacher).1.trans (h.teacher classId' a hteacher').1.symm

omit [DecidableEq P] in
/-- Deleting a user keeps the other connections as they are. -/
lemma isOpen_deleteUserByHandle {server : Server} (h : server.Holds a) (r : Address) :
    (server.deleteUserByHandle a).isOpen r = if a = r then false else server.isOpen r := by
  unfold Server.isOpen Server.deleteUserByHandle
  rw [show server.users.find a = some a from h]
  simp only [OrderedMap.find_erase]
  split_ifs <;> rfl

/-- The close callback keeps a class well-formed. -/
lemma WellFormed.closed (h : s.WellFormed room) (hholds : s.server.Holds a) :
    WellFormed room { s with server := s.server.deleteUserByHandle a } := by
  have hsessions : (s.server.deleteUserByHandle a).sessions = s.server.sessions.removeUser a := by
    unfold Server.deleteUserByHandle
    rw [show s.server.users.find a = some a from hholds]
  have hconsistent := h.consistent.deleteUserByHandle hholds (h.taughtClasses_le a)
  refine ⟨hconsistent, ?_, ?_, ?_, h.unopened, h.connection, h.proper, h.addressed,
    h.known, h.greeted, ?_, ?_⟩
  · intro classId r hr
    rw [hsessions, ClassSessionManager.mem_getClassUsers_removeUser] at hr
    exact h.users_class classId r hr.1
  · intro classId r hr
    have hmentions : (s.server.deleteUserByHandle a).sessions.Mentions r := ⟨classId, Or.inr hr⟩
    have hlive := (hconsistent.live r).mp (hconsistent.held r hmentions)
    rw [hsessions] at hr
    obtain ⟨hclass, hopener, hmem⟩ :=
      h.teacher classId r (ClassSessionManager.getClassTeacher_of_removeUser hr)
    refine ⟨hclass, hopener, ?_⟩
    simp only [users, hsessions, ClassSessionManager.mem_getClassUsers_removeUser]
    refine ⟨hmem, ?_⟩
    rintro rfl
    simp only [Server.deleteUserByHandle, show s.server.users.find r = some r from hholds,
      OrderedMap.find_erase, if_true] at hlive
    cases hlive
  · intro r hr
    refine h.opened r ?_
    simp only [Server.deleteUserByHandle, show s.server.users.find a = some a from hholds,
      OrderedMap.find_erase] at hr
    split_ifs at hr with heq
    · cases hr
    · exact hr
  · intro q r hconnection hnew hmem
    simp only [users, hsessions, ClassSessionManager.mem_getClassUsers_removeUser] at hmem
    exact h.welcomed q r hconnection hnew hmem.1
  · intro q r hconnection hopen
    simp only [isOpen_deleteUserByHandle hholds] at hopen
    split_ifs at hopen with heq
    simp only [users, hsessions, ClassSessionManager.mem_getClassUsers_removeUser]
    rcases h.waiting q r hconnection hopen with hmem | hlogin
    · exact Or.inl ⟨hmem, Ne.symm heq⟩
    · exact Or.inr hlogin

/-! ## Widgets at work -/

section

variable {result : LiveWidget × List LokiCommand}

/-- A participant that acts leaves the server. -/
@[simp] lemma server_act : (s.act p result).server = s.server := by
  unfold act send
  split <;> rfl

/-- A participant that acts leaves what is on the way to the others. -/
@[simp] lemma down_act : (s.act p result).down = s.down := by
  unfold act send
  split <;> rfl

/-- A participant that acts leaves the connections. -/
@[simp] lemma connection_act : (s.act p result).connection = s.connection := by
  unfold act send
  split <;> rfl

/-- A participant that acts leaves the owners of the connections. -/
@[simp] lemma opener_act : (s.act p result).opener = s.opener := by
  unfold act send
  split <;> rfl

/-- The widget of a participant that has acted. -/
@[simp] lemma widget_act_self : (s.act p result).widget p = result.1 := by
  simp [act]

/-- The widgets of the others. -/
lemma widget_act_of_ne {q : P} (h : q ≠ p) : (s.act p result).widget q = s.widget q := by
  unfold act send
  split <;> simp [Function.update_of_ne h]

/-- What a participant sends goes on its connection. -/
lemma up_act (r : Address) : (s.act p result).up r =
    if s.connection p = some r then s.up r ++ result.2 else s.up r := by
  unfold act send
  cases hconnection : s.connection p with
  | none => rfl
  | some a =>
    simp only [Option.some.injEq]
    split_ifs with heq
    · subst heq
      rw [Function.update_self]
    · rw [Function.update_of_ne (Ne.symm heq)]

end

/-- A known widget is not new. -/
lemma ne_new_of_knownAs {widget : LiveWidget} (h : room.KnownAs p widget) :
    widget ≠ LiveWidget.new := by
  rintro rfl
  cases h.button

/-- A widget that runs a slot keeps a class well-formed; it may take commands off its connection
when it is known. -/
lemma WellFormed.act (h : s.WellFormed room) {down' : Address → List LokiCommand}
    {result : LiveWidget × List LokiCommand}
    (hdown : ∀ r, down' r = s.down r ∨
      s.connection p = some r ∧ room.KnownAs p result.1 ∧ down' r <:+ s.down r)
    (hknown : room.KnownAs p result.1 ∨ result.1 = LiveWidget.new ∧ s.widget p = LiveWidget.new)
    (hproper : ∀ c ∈ result.2, room.Proper p c) :
    WellFormed room (({ s with down := down' } : Classroom P).act p result) := by
  have hsub : ∀ r, down' r <:+ s.down r := by
    intro r
    rcases hdown r with hsame | ⟨-, -, hsuffix⟩
    · rw [hsame]
    · exact hsuffix
  -- a widget that is new still was new, and its connection is as it was
  have hnew : ∀ q r, s.connection q = some r →
      (({ s with down := down' } : Classroom P).act p result).widget q = LiveWidget.new →
        s.widget q = LiveWidget.new ∧ down' r = s.down r := by
    intro q r hr hq
    have hbefore : s.widget q = LiveWidget.new ∧ (q = p → ¬ room.KnownAs p result.1) := by
      by_cases heq : q = p
      · subst heq
        rw [widget_act_self] at hq
        have hnot : ¬ room.KnownAs q result.1 := fun hk => ne_new_of_knownAs hk hq
        exact ⟨(hknown.resolve_left hnot).2, fun _ => hnot⟩
      · rw [widget_act_of_ne heq] at hq
        exact ⟨hq, fun h => absurd h heq⟩
    refine ⟨hbefore.1, ?_⟩
    rcases hdown r with hsame | ⟨hp, hk, -⟩
    · exact hsame
    · have hopener := h.connection q r hr
      rw [h.connection p r hp, Option.some.injEq] at hopener
      exact absurd hk (hbefore.2 hopener.symm)
  refine ⟨?_, ?_, ?_, ?_, ?_, ?_, ?_, ?_, ?_, ?_, ?_, ?_⟩
  · simpa only [server_act] using h.consistent
  · simpa only [server_act] using h.users_class
  · simpa only [server_act, opener_act, users] using h.teacher
  · simpa only [server_act, opener_act] using h.opened
  · intro r hr
    simp only [opener_act] at hr
    rw [down_act]
    exact List.suffix_nil.mp (h.unopened r hr ▸ hsub r)
  · simpa only [connection_act, opener_act] using h.connection
  · intro r q hr c hc
    simp only [opener_act] at hr
    rw [up_act] at hc
    split_ifs at hc with hp
    · rcases List.mem_append.mp hc with hold | hnew
      · exact h.proper r q hr c hold
      · have hopener := h.connection p r hp
        rw [hr, Option.some.injEq] at hopener
        rw [hopener]
        exact hproper c hnew
    · exact h.proper r q hr c hc
  · intro r q hr c hc
    simp only [opener_act] at hr
    rw [down_act] at hc
    exact h.addressed r q hr c ((hsub r).subset hc)
  · intro q
    by_cases heq : q = p
    · subst heq
      rw [widget_act_self]
      exact hknown.symm.imp And.left id
    · rw [widget_act_of_ne heq]
      exact h.known q
  · intro q r hr hq c hc
    simp only [connection_act] at hr
    obtain ⟨hold, hsame⟩ := hnew q r hr hq
    rw [down_act] at hc
    exact h.greeted q r hr hold c (hsame ▸ hc)
  · intro q r hr hq hmem
    simp only [connection_act] at hr
    obtain ⟨hold, hsame⟩ := hnew q r hr hq
    rw [down_act]
    simp only [users, server_act] at hmem
    show down' r ≠ []
    rw [hsame]
    exact h.welcomed q r hr hold hmem
  · intro q r hr hopen
    simp only [connection_act] at hr
    simp only [server_act] at hopen
    simp only [users, server_act]
    refine (h.waiting q r hr hopen).imp_right ?_
    rintro ⟨c, hc, hlogin⟩
    refine ⟨c, ?_, hlogin⟩
    rw [up_act]
    split_ifs
    · exact List.mem_append_left _ hc
    · exact hc

/-! ## Steps -/

/-- What an event does to a well-formed class. -/
inductive Steps (room : Lecture P) (u : Uninitialised) (s : Classroom P) :
    ClassEvent P → Classroom P → Prop where
  | connected {p : P} {a : Address} (hconnection : s.connection p = none)
      (hfresh : s.opener a = none) : Steps room u s (.connect p a) (s.connected room u p a)
  | disconnected {p : P} {a : Address} (kept : Nat) (hconnection : s.connection p = some a) :
      Steps room u s (.disconnect p kept) { s with
        up := Function.update s.up a ((s.up a).take kept)
        connection := Function.update s.connection p none }
  | handled {a : Address} {q : P} {c : LokiCommand} {rest : List LokiCommand} {t : Server}
      {sent : List Sent} (hopen : s.server.isOpen a = true) (hup : s.up a = c :: rest)
      (hopener : s.opener a = some q)
      (hhandled : Server.HandledAs room.db s.server s.server.roster a c t sent) :
      Steps room u s (.serverRead a) (s.handled a rest t sent)
  | readError (a : Address) :
      Steps room u s (.readError a) { s with server := s.server.startClosing a }
  | closed {a : Address} (hholds : s.server.Holds a) :
      Steps room u s (.close a) { s with server := s.server.deleteUserByHandle a }
  | delivered {p : P} {a : Address} {c : LokiCommand} {rest : List LokiCommand} {page : LokiBuffer}
      (hconnection : s.connection p = some a) (hdown : s.down a = c :: rest)
      (hpage : page.buffer.length < 2 ^ 32) (htakes : room.TakesIn u p (s.widget p) page c) :
      Steps room u s (.deliver p page)
        (({ s with down := Function.update s.down a rest } : Classroom P).act p
          ((s.widget p).receive u page c))
  | acted {e : ClassEvent P} {p : P} {result : LiveWidget × List LokiCommand}
      (hacts : room.Acts p (s.widget p) result) : Steps room u s e (s.act p result)

/-- In a well-formed class the server handles what it reads from an open connection. -/
lemma WellFormed.exists_handled (h : s.WellFormed room) {a : Address} {c : LokiCommand}
    {rest : List LokiCommand} (hopen : s.server.isOpen a = true) (hup : s.up a = c :: rest) :
    ∃ q t sent, s.opener a = some q ∧
      Server.HandledAs room.db s.server s.server.roster a c t sent ∧
        s.next room u (.serverRead a) = some (s.handled a rest t sent) := by
  have hlive := isSome_of_isOpen hopen
  obtain ⟨q, hopener⟩ := Option.isSome_iff_exists.mp (h.opened a hlive)
  obtain ⟨t, sent, hhandled⟩ := Server.handlThread_intended room.db h.consistent
    s.server.represents_roster ((h.consistent.live a).mpr hlive) c
  refine ⟨q, t, sent, hopener, hhandled, ?_⟩
  simp only [next, hup, hhandled.handled]

/-- In a well-formed class a participant takes in the command that comes next as it should. -/
lemma WellFormed.takesIn (h : s.WellFormed room) {p : P} {a : Address} {c : LokiCommand}
    {rest : List LokiCommand} (page : LokiBuffer) (hconnection : s.connection p = some a)
    (hdown : s.down a = c :: rest) : room.TakesIn u p (s.widget p) page c := by
  have haddressed := h.addressed a p (h.connection p a hconnection) c
    (by rw [hdown]; exact List.mem_cons_self)
  rcases h.known p with hnew | hknown
  · rw [hnew]
    exact Lecture.receive_new (h.greeted p a hconnection hnew c (by rw [hdown]; rfl)) haddressed
  · exact Lecture.receive_known hknown haddressed

/-- In a well-formed class an event that can happen does not fail. -/
theorem WellFormed.steps (h : s.WellFormed room) {e : ClassEvent P} (henabled : s.Enabled e) :
    ∃ t, s.next room u e = some t ∧ s.Steps room u e t := by
  cases e with
  | connect p a => exact ⟨_, rfl, .connected henabled.1 henabled.2⟩
  | disconnect p kept =>
    obtain ⟨a, hconnection⟩ := Option.isSome_iff_exists.mp henabled
    refine ⟨_, ?_, .disconnected kept hconnection⟩
    simp only [next, hconnection]
  | serverRead a =>
    obtain ⟨hopen, hsome⟩ := henabled
    obtain ⟨c, rest, hup⟩ := List.exists_cons_of_ne_nil hsome
    obtain ⟨q, t, sent, hopener, hhandled, hnext⟩ := h.exists_handled hopen hup
    exact ⟨_, hnext, .handled hopen hup hopener hhandled⟩
  | readError a => exact ⟨_, rfl, .readError a⟩
  | close a =>
    obtain ⟨o, ho, -⟩ := henabled
    exact ⟨_, rfl, .closed ((h.consistent.live a).mpr (ho ▸ rfl))⟩
  | deliver p page =>
    obtain ⟨⟨a, hconnection, hsome⟩, hpage⟩ := henabled
    obtain ⟨c, rest, hdown⟩ := List.exists_cons_of_ne_nil hsome
    refine ⟨_, ?_, .delivered hconnection hdown hpage (h.takesIn page hconnection hdown)⟩
    simp only [next, hconnection, hdown]
  | apply p => exact ⟨_, rfl, .acted (Lecture.acts_apply (h.known p) henabled)⟩
  | take p => exact ⟨_, rfl, .acted (Lecture.acts_take (h.known p) henabled)⟩
  | answer p position yes => exact ⟨_, rfl, .acted (Lecture.acts_answer (h.known p) henabled yes)⟩
  | draw p board => exact ⟨_, rfl, .acted (Lecture.acts_draw (h.known p) u board)⟩
  | hades p peerId data => exact ⟨_, rfl, .acted (Lecture.acts_hades (h.known p) peerId data)⟩

/-- What a step of the system does to a well-formed class. -/
lemma WellFormed.steps_of_step (h : s.WellFormed room) {e : ClassEvent P} {t : Classroom P}
    (hstep : (system room u).step s e t) : s.Steps room u e t := by
  obtain ⟨henabled, hnext⟩ := hstep
  obtain ⟨t', ht', hsteps⟩ := h.steps (u := u) henabled
  rw [hnext, Option.some.injEq] at ht'
  rwa [ht']

/-- Every step keeps a class well-formed. -/
theorem WellFormed.next (h : s.WellFormed room) {e : ClassEvent P} {t : Classroom P}
    (hsteps : s.Steps room u e t) : t.WellFormed room := by
  cases hsteps with
  | connected hconnection hfresh => exact h.connected hfresh hconnection
  | disconnected kept hconnection => exact h.disconnected hconnection kept
  | handled hopen hup hopener hhandled => exact h.handled hup hopener hhandled hopen
  | readError a => exact h.readError a
  | closed hholds => exact h.closed hholds
  | @delivered p a c rest page hconnection hdown hpage htakes =>
    refine h.act (fun r => ?_) (Or.inl htakes.known)
      fun x hx => (htakes.proper (h.known p) x hx).1
    by_cases heq : r = a
    · subst heq
      rw [Function.update_self, hdown]
      exact Or.inr ⟨hconnection, htakes.known, List.suffix_cons c rest⟩
    · rw [Function.update_of_ne heq]
      exact Or.inl rfl
  | acted hacts => exact h.act (fun r => Or.inl rfl) hacts.known hacts.proper

end

end Classroom

end Liangshi
