import Liangshi.Live.LoginTrace

/-!
# Participants who join a class late

In a run whose steps all meet the condition the login that is followed is answered, and the newcomer
and everybody in the class show the page that the teacher showed when it answered, once they have taken
in the answer (`synchronised_of_reachable`).  The messages stay where they are followed to (`Followed`):
an event leaves a command in its place on its way, or moves it up, or takes it in.

While a student holds the board, a newcomer is left with a page of its own (`not_synchronised_granting`).
-/

namespace Liangshi

open Wire Ordered Transition

/-! ## What events keep -/

/-- What has a place in a list keeps it when more comes behind. -/
lemma getElem?_append_of_some {α : Type} {l : List α} {n : Nat} {x : α} (others : List α)
    (h : l[n]? = some x) : (l ++ others)[n]? = some x := by
  rwa [List.getElem?_append_left (List.getElem?_eq_some_iff.mp h).1]

namespace Classroom

variable {P : Type} [DecidableEq P] {room : Lecture P} {u : Uninitialised} {s t : Classroom P}
  {e : ClassEvent P} {p q : P} {a b : Address} {c : LokiCommand} {n : Nat}

/-- Connections keep their openers. -/
lemma opener_of_steps (hsteps : s.Steps room u e t) (h : s.opener a = some p) :
    t.opener a = some p := by
  cases hsteps with
  | @connected q b hconnection hfresh =>
    have hne : a ≠ b := by
      rintro rfl
      rw [hfresh] at h
      cases h
    show Function.update s.opener b (some q) a = some p
    rwa [Function.update_of_ne hne]
  | delivered | acted => rwa [opener_act]
  | _ => exact h

/-- A participant keeps its connection until it loses it. -/
lemma connection_of_steps (hsteps : s.Steps room u e t) (h : s.connection q = some b)
    (hloser : e.loser ≠ some q) : t.connection q = some b := by
  cases hsteps with
  | @connected p a hconnection hfresh =>
    have hne : q ≠ p := by
      rintro rfl
      rw [hconnection] at h
      cases h
    show Function.update s.connection p (some a) q = some b
    rwa [Function.update_of_ne hne]
  | @disconnected p a kept hconnection =>
    have hne : q ≠ p := by
      rintro rfl
      exact hloser rfl
    show Function.update s.connection p none q = some b
    rwa [Function.update_of_ne hne]
  | delivered | acted => rwa [connection_act]
  | _ => exact h

/-- A participant is at an open connection it has opened only if it was before. -/
lemma connected_of_steps (hsteps : s.Steps room u e t) (hopener : s.opener a = some p)
    (hconnection : t.connection p = some a) (hopen : t.server.isOpen a = true) :
    s.connection p = some a ∧ s.server.isOpen a = true := by
  cases hsteps with
  | @connected q b hconnection' hfresh =>
    have hne : b ≠ a := by
      rintro rfl
      rw [hfresh] at hopener
      cases hopener
    have hq : p ≠ q := by
      rintro rfl
      simp only [Classroom.connected, Function.update_self, Option.some.injEq] at hconnection
      exact hne hconnection
    simp only [Classroom.connected, Function.update_of_ne hq] at hconnection
    simp only [Classroom.connected, isOpen_onConnection, if_neg hne] at hopen
    exact ⟨hconnection, hopen⟩
  | @disconnected q b kept hconnection' =>
    refine ⟨?_, hopen⟩
    by_cases hq : p = q
    · subst hq
      simp only [Function.update_self] at hconnection
      cases hconnection
    · simpa only [Function.update_of_ne hq] using hconnection
  | handled _ _ _ hhandled => exact ⟨hconnection, (hhandled.isOpen_eq a).symm.trans hopen⟩
  | readError b =>
    simp only [isOpen_startClosing] at hopen
    split_ifs at hopen
    exact ⟨hconnection, hopen⟩
  | closed hholds =>
    simp only [isOpen_deleteUserByHandle hholds] at hopen
    split_ifs at hopen
    exact ⟨hconnection, hopen⟩
  | delivered | acted =>
    rw [connection_act] at hconnection
    rw [server_act] at hopen
    exact ⟨hconnection, hopen⟩

/-- The users of the class stay there while their connections are open. -/
lemma users_of_steps (hsteps : s.Steps room u e t) (hs : s.WellFormed room)
    (hmem : a ∈ s.users room) (hopen : t.server.isOpen a = true) : a ∈ t.users room := by
  cases hsteps with
  | connected => exact hmem
  | disconnected => exact hmem
  | handled _ hup hopener hhandled =>
    have hproper := hs.proper _ _ hopener _ (by rw [hup]; exact List.mem_cons_self)
    exact (mem_users_handled hhandled hproper room.classId a).mpr (.inl hmem)
  | readError b =>
    have hsessions : (s.server.startClosing b).sessions = s.server.sessions := by
      unfold Server.startClosing
      split <;> rfl
    show a ∈ (s.server.startClosing b).sessions.getClassUsers room.classId
    rwa [hsessions]
  | @closed b hholds =>
    have hsessions : (s.server.deleteUserByHandle b).sessions = s.server.sessions.removeUser b := by
      unfold Server.deleteUserByHandle
      rw [show s.server.users.find b = some b from hholds]
    simp only [isOpen_deleteUserByHandle hholds] at hopen
    split_ifs at hopen with hne
    show a ∈ (s.server.deleteUserByHandle b).sessions.getClassUsers room.classId
    rw [hsessions, ClassSessionManager.mem_getClassUsers_removeUser]
    exact ⟨hmem, Ne.symm hne⟩
  | delivered | acted =>
    unfold users
    rw [server_act]
    exact hmem

/-- A participant stays in the class until its connection ends. -/
lemma member_of_steps (hsteps : s.Steps room u e t) (hs : s.WellFormed room)
    (h : s.Member room q b) (hends : ¬ s.Ends b e) : t.Member room q b := by
  obtain ⟨hconnection, hopen, hmem⟩ := h
  have hloser : e.loser ≠ some q := by
    intro hloser
    cases e with
    | disconnect p kept =>
      obtain rfl := Option.some.inj hloser
      exact hends hconnection
    | _ => cases hloser
  have hopen' : t.server.isOpen b = true := by
    cases hsteps with
    | connected => simp only [Classroom.connected, isOpen_onConnection, hopen, ite_self]
    | disconnected => exact hopen
    | handled _ _ _ hhandled => exact (hhandled.isOpen_eq b).trans hopen
    | readError a =>
      have hne : a ≠ b := hends
      show (s.server.startClosing a).isOpen b = true
      rwa [isOpen_startClosing, if_neg hne]
    | @closed a hholds =>
      have hne : a ≠ b := hends
      show (s.server.deleteUserByHandle a).isOpen b = true
      rwa [isOpen_deleteUserByHandle hholds, if_neg hne]
    | delivered | acted => rwa [server_act]
  exact ⟨connection_of_steps hsteps hconnection hloser, hopen', users_of_steps hsteps hs hmem hopen'⟩

/-- A command stays on its way to a participant that takes in none. -/
lemma down_of_steps (hsteps : s.Steps room u e t) (hs : s.WellFormed room)
    (hconnection : s.connection q = some b) (hreceiver : e.receiver ≠ some q)
    (h : (s.down b)[n]? = some c) : (t.down b)[n]? = some c := by
  cases hsteps with
  | handled => exact getElem?_append_of_some _ h
  | @delivered p a x rest page hp hdown =>
    have hne : b ≠ a := by
      rintro rfl
      rw [hs.eq_of_connection hp hconnection] at hreceiver
      exact hreceiver rfl
    rw [down_act]
    show (Function.update s.down a rest b)[n]? = some c
    rwa [Function.update_of_ne hne]
  | acted => rwa [down_act]
  | _ => exact h

/-- A command stays on its way to the server until the server reads from the connection. -/
lemma up_of_steps (hsteps : s.Steps room u e t) (hopener : s.opener b = some q)
    (hends : ¬ s.Ends b e) (hread : e.readFrom ≠ some b) (h : (s.up b)[n]? = some c) :
    (t.up b)[n]? = some c := by
  have hact : ∀ (s : Classroom P) (p : P) (result : LiveWidget × List LokiCommand),
      (s.up b)[n]? = some c → ((s.act p result).up b)[n]? = some c := by
    intro s p result h
    rw [up_act]
    split_ifs
    · exact getElem?_append_of_some _ h
    · exact h
  cases hsteps with
  | @connected p a hconnection hfresh =>
    have hne : b ≠ a := by
      rintro rfl
      rw [hfresh] at hopener
      cases hopener
    show (Function.update s.up a _ b)[n]? = some c
    rwa [Function.update_of_ne hne]
  | @disconnected p a kept hconnection =>
    have hne : b ≠ a := by
      rintro rfl
      exact hends hconnection
    show (Function.update s.up a _ b)[n]? = some c
    rwa [Function.update_of_ne hne]
  | @handled a p x rest server sent hopen hup hopener' hhandled =>
    have hne : b ≠ a := by
      rintro rfl
      exact hread rfl
    show (Function.update s.up a rest b)[n]? = some c
    rwa [Function.update_of_ne hne]
  | delivered => exact hact _ _ _ h
  | acted => exact hact _ _ _ h
  | _ => exact h

/-! ## Messages that are followed -/

/-- A participant that has logged in over a connection: it is in the class while it is connected. -/
structure Newcomer (room : Lecture P) (s : Classroom P) (p : P) (a : Address) : Prop where
  opener : s.opener a = some p
  member : s.connection p = some a → s.server.isOpen a = true → a ∈ s.users room

/-- Newcomers stay. -/
lemma Newcomer.steps (h : s.Newcomer room p a) (hs : s.WellFormed room)
    (hsteps : s.Steps room u e t) : t.Newcomer room p a where
  opener := opener_of_steps hsteps h.opener
  member hconnection hopen := by
    obtain ⟨hold, hopen'⟩ := connected_of_steps hsteps h.opener hconnection hopen
    exact users_of_steps hsteps hs (h.member hold hopen') hopen

end Classroom

/-- A command that brings a page to those who take it in. -/
def Lecture.Carries {P : Type} (room : Lecture P) (machine : BoardMachine) (page : Page)
    (c : LokiCommand) : Prop :=
  page.Portable machine.quuid ∧ ∃ sent : Page, sent.getMsgPackData.1 = page ∧
    (sent.switchRecord machine).buffer.length < 2 ^ 32 ∧
      c = .boardData ⟨room.classId, sent.switchData machine⟩

/-- The copies of the answer with a page are on their way to the participants, the newcomer among them,
and everybody who has taken in the answer showed the page. -/
structure Classroom.Copied {P : Type} (room : Lecture P) (machine : BoardMachine) (s : Classroom P)
    (p : P) (a : Address) (page : Page) (copy : P → PageCopy) : Prop where
  opener : s.opener a = some p
  reached : s.connection p = some a → s.server.isOpen a = true → copy p ≠ .none
  onItsWay : ∀ q behind, copy q = .onItsWay behind → ∃ b c, s.connection q = some b ∧
    (s.down b)[behind]? = some c ∧ room.Carries machine page c
  shown : ∀ q page', copy q = .takenIn page' → page.Shows page'

/-- The messages are where they are followed to. -/
inductive Classroom.Followed {P : Type} (room : Lecture P) (machine : BoardMachine)
    (s : Classroom P) : LoginTrace P → Prop
  | quiet : Followed room machine s .quiet
  | notice {p : P} {a b : Address} {behind : Nat} {c : LokiCommand}
    (newcomer : s.Newcomer room p a) (student : p ≠ room.teacher)
    (teacher : s.Member room room.teacher b) (onItsWay : (s.down b)[behind]? = some c)
    (isNotice : c.isNotice = true) : Followed room machine s (.notice p a b behind)
  | answer {p : P} {a b : Address} {page : Page} {behind : Nat} {c : LokiCommand}
    (newcomer : s.Newcomer room p a) (student : p ≠ room.teacher)
    (teacher : s.Member room room.teacher b) (onItsWay : (s.up b)[behind]? = some c)
    (carries : room.Carries machine page c) : Followed room machine s (.answer p a b page behind)
  | relayed {p : P} {a : Address} {page : Page} {copy : P → PageCopy}
    (copied : s.Copied room machine p a page copy) : Followed room machine s (.relayed p a page copy)

/-- The copies are on their way. -/
lemma Classroom.Followed.copied {P : Type} {room : Lecture P} {machine : BoardMachine} {s : Classroom P}
    {p : P} {a : Address} {page : Page} {copy : P → PageCopy}
    (h : s.Followed room machine (.relayed p a page copy)) : s.Copied room machine p a page copy := by
  cases h with
  | relayed hcopied => exact hcopied

/-! ## Steps -/

namespace Classroom

variable {P : Type} [DecidableEq P] {room : Lecture P} {u : Uninitialised} {machine : BoardMachine}
  {s t : Classroom P} {e : ClassEvent P} {p q : P} {a b : Address} {c : LokiCommand}

/-- A command moves up when its participant takes in the one that comes first. -/
lemma down_of_deliver {record : LokiBuffer} {n : Nat} (h : s.next room u (.deliver q record) = some t)
    (hconnection : s.connection q = some b) (hdown : (s.down b)[n + 1]? = some c) :
    (t.down b)[n]? = some c := by
  obtain ⟨a, x, rest, ha, hfirst, rfl⟩ := of_next_deliver h
  obtain rfl := Option.some.inj (ha.symm.trans hconnection)
  rw [hfirst, List.getElem?_cons_succ] at hdown
  rw [down_act]
  show (Function.update s.down a rest a)[n]? = some c
  rwa [Function.update_self]

/-- A command moves up when the server reads the one that comes first. -/
lemma up_of_serverRead {n : Nat} (h : s.next room u (.serverRead b) = some t)
    (hup : (s.up b)[n + 1]? = some c) : (t.up b)[n]? = some c := by
  unfold next at h
  dsimp only at h
  split at h
  · cases h
  · rename_i x rest hfirst
    split at h
    · cases h
    · obtain rfl := Option.some.inj h
      rw [hfirst, List.getElem?_cons_succ] at hup
      show (Function.update s.up b rest b)[n]? = some c
      rwa [Function.update_self]

omit [DecidableEq P] in
/-- The teacher of a class is in it over its own connection. -/
lemma teacherIn_eq_some : s.teacherIn room = some b ↔ s.Member room room.teacher b := by
  rw [teacherIn, Option.filter_eq_some_iff, decide_eq_true_iff]
  exact ⟨And.right, fun h => ⟨h.1, h⟩⟩

/-- A login that finds the teacher brings it a notice. -/
lemma followed_begins (hs : s.WellFormed room) (henabled : s.Enabled (.serverRead a))
    (hfinds : s.FindsTeacher room a) (hnext : s.next room u (.serverRead a) = some t) :
    t.Followed room machine (s.begins room a) := by
  obtain ⟨hopen, hsome⟩ := henabled
  obtain ⟨c, rest, hup⟩ := List.exists_cons_of_ne_nil hsome
  obtain ⟨p, server, sent, hopener, hhandled, hafter⟩ := hs.exists_handled (u := u) hopen hup
  obtain rfl := Option.some.inj (hnext.symm.trans hafter)
  have hbegins : s.begins room a =
      if c.isLogin = false ∨ s.connection p ≠ some a ∨ s.Alone room p then .quiet
      else if p = room.teacher then .unanswered
      else (s.teacherIn room).elim .unanswered fun b => .notice p a b (s.down b).length := by
    rw [begins, hopener, hup]
    rfl
  rw [hbegins]
  split_ifs with hquiet hteacher
  · exact .quiet
  · rw [not_or, not_or, Bool.not_eq_false, not_not] at hquiet
    exact absurd hteacher (hfinds p hopener c (by rw [hup]; rfl) hquiet.1 hquiet.2.1 hquiet.2.2).1
  · rw [not_or, not_or, Bool.not_eq_false, not_not] at hquiet
    obtain ⟨hlogin, hconnection, halone⟩ := hquiet
    obtain ⟨b, hb⟩ := Option.isSome_iff_exists.mp
      (hfinds p hopener c (by rw [hup]; rfl) hlogin hconnection halone).2
    have hmember := teacherIn_eq_some.mp hb
    have hproper := hs.proper a p hopener c (by rw [hup]; exact List.mem_cons_self)
    have hsteps : s.Steps room u (.serverRead a) (s.handled a rest server sent) :=
      .handled hopen hup hopener hhandled
    have hne : b ≠ a := by
      rintro rfl
      exact hteacher (Option.some.inj (hopener.symm.trans (hs.connection _ _ hmember.1)))
    cases c with
    | boradLogin login =>
      have hin : b ∈ s.server.roster.members room.classId := Server.mem_members_roster.mpr hmember.2.2
      have hnotice : ((s.handled a rest server sent).down b)[(s.down b).length]? =
          some (.boradLogin (NetCommandHandler.peerNotice login (room.identity p))) := by
        show (s.down b ++ Server.sentTo b sent)[_]? = _
        rw [hhandled.sentTo_eq, if_pos hmember.2.1, intended_login hproper, if_neg hne, if_pos hin,
          List.getElem?_concat_length]
      rw [hb]
      refine .notice ⟨opener_of_steps hsteps hopener, fun _ _ => ?_⟩ hteacher
        (member_of_steps hsteps hs hmember id) hnotice rfl
      exact (mem_users_handled hhandled hproper room.classId a).mpr (.inr ⟨rfl, rfl, rfl⟩)
    | _ => cases hlogin

/-- The server sends the answer it reads to the students in the class. -/
lemma copied_of_serverRead {page : Page} (hs : s.WellFormed room) (hnewcomer : s.Newcomer room p a)
    (hstudent : p ≠ room.teacher) (hteacher : s.Member room room.teacher b)
    (hup : (s.up b)[0]? = some c) (hcarries : room.Carries machine page c)
    (hnext : s.next room u (.serverRead b) = some t) :
    t.Copied room machine p a page (s.copies room) := by
  obtain ⟨rest, hup⟩ : ∃ rest, s.up b = c :: rest := by
    obtain ⟨hpos, hc⟩ := List.getElem?_eq_some_iff.mp hup
    obtain ⟨x, rest, hx⟩ := List.exists_cons_of_length_pos hpos
    simp only [hx, List.getElem_cons_zero] at hc
    exact ⟨rest, hc ▸ hx⟩
  obtain ⟨q, server, sent, hopener, hhandled, hafter⟩ := hs.exists_handled (u := u) hteacher.2.1 hup
  obtain rfl := Option.some.inj (hnext.symm.trans hafter)
  have hsteps : s.Steps room u (.serverRead b) (s.handled b rest server sent) :=
    .handled hteacher.2.1 hup hopener hhandled
  refine ⟨opener_of_steps hsteps hnewcomer.opener, ?_, ?_, ?_⟩
  · intro hconnection hopen
    obtain ⟨hold, hopen'⟩ := connected_of_steps hsteps hnewcomer.opener hconnection hopen
    have hmember : s.Member room p a := ⟨hold, hopen', hnewcomer.member hold hopen'⟩
    rw [copies, hold]
    simp [hstudent, hmember]
  · intro q behind hcopy
    unfold copies at hcopy
    split at hcopy
    · rename_i d hconnection
      split_ifs at hcopy with hthere
      obtain ⟨hq, hmember⟩ := hthere
      obtain rfl := PageCopy.onItsWay.inj hcopy
      have hne : d ≠ b := by
        rintro rfl
        exact hq (hs.eq_of_connection hmember.1 hteacher.1)
      obtain ⟨-, sentPage, -, -, rfl⟩ := id hcarries
      have hin : d ∈ s.server.roster.members room.classId := Server.mem_members_roster.mpr hmember.2.2
      refine ⟨d, _, hconnection, ?_, hcarries⟩
      show (s.down d ++ Server.sentTo d sent)[_]? = _
      rw [hhandled.sentTo_eq, if_pos hmember.2.1, Roster.intended, if_pos ⟨hin, hne⟩,
        List.getElem?_concat_length]
    · cases hcopy
  · intro q page' hcopy
    unfold copies at hcopy
    split at hcopy
    · split_ifs at hcopy
    · cases hcopy

/-- Who loses its connection is not connected. -/
lemma connection_of_loser (h : s.next room u e = some t) (hloser : e.loser = some p) :
    t.connection p = none := by
  cases e with
  | disconnect q kept =>
    obtain rfl := Option.some.inj hloser
    unfold next at h
    dsimp only at h
    split at h
    · cases h
    · obtain rfl := Option.some.inj h
      exact Function.update_self _ _ _
  | _ => cases hloser

end Classroom

namespace ClassBoards

variable {P : Type} [DecidableEq P] {room : Lecture P} {machine : BoardMachine} {s t : ClassBoards P}
  {env : Surroundings} {q : P} {b : Address} {c : LokiCommand} {record : LokiBuffer}

/-- A teacher who holds the board shows the page that it sends, without a highlight, once it has taken in
a notice. -/
lemma current_of_notice (hagree : s.Agree)
    (hknown : room.KnownAs room.teacher (s.room.widget room.teacher))
    (hnext : s.next room machine (.event (.deliver room.teacher record) env) = some t)
    (hconnection : s.room.connection room.teacher = some b) (hdown : (s.room.down b)[0]? = some c)
    (hnotice : c.isNotice = true) (hflag : (s.room.widget room.teacher).controlingBoard = true) :
    (t.board room.teacher).current = (s.board room.teacher).current.getMsgPackData.1 := by
  obtain ⟨pages, hreceive, hboard⟩ := receive_of_deliver hnext hconnection hdown
  cases c with
  | boradLogin login =>
    obtain ⟨hresult, hpeer⟩ := Bool.and_eq_true_iff.mp hnotice
    have hclient : (s.room.widget room.teacher).lokiClient.boardLoginTriggered login =
        room.client room.teacher := by
      simp [LokiClient.boardLoginTriggered, hpeer, hknown.lokiClient]
    have hteaches : ((room.client room.teacher).isTeacher &&
        !(room.client room.teacher).allTeachers) = true := by
      simp [Lecture.client, room.allTeachers_eq, room.isTeacher_iff]
    have hholds : (s.board room.teacher).controlingBoard = true := (hagree _).trans hflag
    have hpages : pages = ⟨room.client room.teacher, (s.board room.teacher).setCurrent
        (s.board room.teacher).current.getMsgPackData.1⟩ := by
      rw [LivePages.receive, LokiClient.onCommandTriggered, hclient] at hreceive
      rw [← Except.ok.inj hreceive]
      simp only [LiveBoard.onBoardLoginTriggered, hresult, hpeer, if_true, Bool.not_true,
        Bool.false_eq_true, if_false, hteaches, LiveBoard.sendSwitchPageAnimation, hholds]
    rw [hboard, hpages]
    exact LiveBoard.current_showPage _ _ (s.board room.teacher).currentPage.isLt
  | _ => cases hnotice

/-- A teacher who holds the board sends the page it shows when it takes in a notice. -/
lemma up_of_notice (hs : s.room.WellFormed room)
    (hknown : room.KnownAs room.teacher (s.room.widget room.teacher))
    (henabled : s.Enabled machine (.event (.deliver room.teacher record) env))
    (hnext : s.next room machine (.event (.deliver room.teacher record) env) = some t)
    (hconnection : s.room.connection room.teacher = some b) (hdown : (s.room.down b)[0]? = some c)
    (hnotice : c.isNotice = true) (hflag : (s.room.widget room.teacher).controlingBoard = true) :
    t.room.up b = s.room.up b ++ [.boardData ⟨room.classId,
      (s.board room.teacher).current.switchData machine⟩] := by
  have hrecord : record = (s.board room.teacher).current.switchRecord machine := henabled.2.2 _ _ rfl
  obtain ⟨a, x, rest, ha, hfirst, hafter⟩ := Classroom.of_next_deliver (of_next_event hnext).1
  obtain rfl := Option.some.inj (ha.symm.trans hconnection)
  rw [hfirst] at hdown
  obtain rfl := Option.some.inj hdown
  have htakes : room.TakesIn machine.uninitialised room.teacher (s.room.widget room.teacher) record x :=
    hs.takesIn record ha hfirst
  have hsent := htakes.sent
  rw [if_pos ⟨rfl, hnotice, hflag⟩] at hsent
  rw [hafter, Classroom.up_act, if_pos ha, hsent, LiveWidget.sendSwitchPageAnimation,
    LiveWidget.addActionTriggered, hflag, hrecord]
  show _ ++ [LokiCommand.boardData ⟨(s.room.widget room.teacher).lokiClient.classId, _⟩] = _
  rw [hknown.classId]
  rfl

/-- A teacher who holds the board answers a notice with the page it shows. -/
lemma answers_notice (hs : s.room.WellFormed room) (hagree : s.Agree)
    (henabled : s.Enabled machine (.event (.deliver room.teacher record) env))
    (hnext : s.next room machine (.event (.deliver room.teacher record) env) = some t)
    (hconnection : s.room.connection room.teacher = some b) (hdown : (s.room.down b)[0]? = some c)
    (hnotice : c.isNotice = true) (hflag : (s.room.widget room.teacher).controlingBoard = true)
    (hportable : (s.board room.teacher).current.getMsgPackData.1.Portable machine.quuid) :
    ∃ answer, (t.room.up b)[(s.room.up b).length]? = some answer ∧
      room.Carries machine (t.board room.teacher).current answer := by
  have hlength : record.buffer.length < 2 ^ 32 := henabled.1.2
  rw [henabled.2.2 _ _ rfl] at hlength
  have hknown : room.KnownAs room.teacher (s.room.widget room.teacher) := by
    refine Lecture.knownAs_of_ne (hs.known room.teacher) fun hnew => ?_
    rw [hnew] at hflag
    cases hflag
  have hup := up_of_notice hs hknown henabled hnext hconnection hdown hnotice hflag
  refine ⟨_, by rw [hup, List.getElem?_concat_length], ?_⟩
  rw [current_of_notice hagree hknown hnext hconnection hdown hnotice hflag]
  exact ⟨hportable, _, rfl, hlength, rfl⟩

omit [DecidableEq P] in
/-- A participant takes in the answer without a fault, and shows the page that was sent. -/
lemma receive_of_carries {page : Page} (henv : machine.Runs env) (hcarries : room.Carries machine page c)
    (client : LokiClient) (board : LiveBoard) : ∃ board',
      LivePages.receive env machine.unzip ⟨client, board⟩ c = .ok ⟨client, board'⟩ ∧
        page.Shows board'.current := by
  obtain ⟨hportable, sent, rfl, hlength, rfl⟩ := hcarries
  obtain ⟨board', hdata, hshows⟩ := @LiveBoard.exists_onBoardDataTriggered _ env board
    henv sent hlength hportable
  refine ⟨board', ?_, hshows⟩
  rw [LivePages.receive, LokiClient.onCommandTriggered]
  simp only [LiveBoard.onSignal, hdata]
  rfl

/-- A participant that has taken in the answer shows the page that was sent. -/
lemma shows_of_carries {page : Page} (henabled : s.Enabled machine (.event (.deliver q record) env))
    (hnext : s.next room machine (.event (.deliver q record) env) = some t)
    (hconnection : s.room.connection q = some b) (hdown : (s.room.down b)[0]? = some c)
    (hcarries : room.Carries machine page c) : page.Shows (t.board q).current := by
  obtain ⟨pages, hreceive, hboard⟩ := receive_of_deliver hnext hconnection hdown
  obtain ⟨board', hanswer, hshows⟩ := receive_of_carries henabled.2.1 hcarries
    (s.room.widget q).lokiClient (s.board q)
  rw [hanswer] at hreceive
  rw [hboard, ← Except.ok.inj hreceive]
  exact hshows

/-- A participant that can take in the answer does. -/
lemma isSome_of_carries {page : Page} (hs : s.room.WellFormed room)
    (henabled : s.Enabled machine (.event (.deliver q record) env))
    (hconnection : s.room.connection q = some b) (hdown : (s.room.down b)[0]? = some c)
    (hcarries : room.Carries machine page c) :
    (s.next room machine (.event (.deliver q record) env)).isSome = true := by
  obtain ⟨after, hafter, -⟩ := hs.steps (u := machine.uninitialised) henabled.1
  obtain ⟨board', hanswer, -⟩ := receive_of_carries henabled.2.1 hcarries
    (s.room.widget q).lokiClient (s.board q)
  have hevent : s.boardEvent env (.deliver q record) = some (q, .command env c) := by
    simp [boardEvent, hconnection, List.head?_eq_getElem?, hdown]
  simp only [next, hafter, Option.bind_some, hevent, boardsAfter, LivePages.next, hanswer,
    Except.toOption, Option.map_some, Option.isSome_some]

/-- Every step keeps a class well-formed. -/
lemma wellFormed_of_step (hs : s.room.WellFormed room) {e : ClassBoardsEvent P}
    (hstep : (system room machine).step s e t) : t.room.WellFormed room := by
  obtain ⟨henabled, hnext⟩ := hstep
  cases e with
  | event e env =>
    exact hs.next (hs.steps_of_step ⟨henabled.1, (of_next_event hnext).1⟩)
  | work p e =>
    obtain ⟨boards, -, rfl⟩ := Option.map_eq_some_iff.mp hnext
    exact hs

/-- The copies of the answer are where they are followed to. -/
lemma copied_after {p : P} {a : Address} {page : Page} {copy : P → PageCopy} {e : ClassEvent P}
    (hs : s.room.WellFormed room) (h : s.room.Copied room machine p a page copy)
    (henabled : s.Enabled machine (.event e env))
    (hnext : s.next room machine (.event e env) = some t) :
    t.room.Copied room machine p a page fun q => (copy q).after e q (t.board q).current := by
  have hroom := (of_next_event hnext).1
  have hsteps := hs.steps_of_step ⟨henabled.1, hroom⟩
  refine ⟨Classroom.opener_of_steps hsteps h.opener, ?_, ?_, ?_⟩
  · intro hconnection hopen
    obtain ⟨hold, hopen'⟩ := Classroom.connected_of_steps hsteps h.opener hconnection hopen
    have hcopy := h.reached hold hopen'
    unfold PageCopy.after
    split_ifs with hreceiver hloser
    · exact PageCopy.takeIn_ne_none hcopy
    · rw [Classroom.connection_of_loser hroom hloser] at hconnection
      cases hconnection
    · exact hcopy
  · intro q behind hcopy
    unfold PageCopy.after at hcopy
    split_ifs at hcopy with hreceiver hloser
    · obtain ⟨b, c, hconnection, hdown, hcarries⟩ :=
        h.onItsWay q _ (PageCopy.takeIn_eq_onItsWay.mp hcopy)
      cases e with
      | deliver q' record =>
        obtain rfl := Option.some.inj hreceiver
        exact ⟨b, c, Classroom.connection_of_steps hsteps hconnection (by rintro ⟨⟩),
          Classroom.down_of_deliver hroom hconnection hdown, hcarries⟩
      | _ => cases hreceiver
    · exact absurd hcopy PageCopy.lose_ne_onItsWay
    · obtain ⟨b, c, hconnection, hdown, hcarries⟩ := h.onItsWay q _ hcopy
      exact ⟨b, c, Classroom.connection_of_steps hsteps hconnection hloser,
        Classroom.down_of_steps hsteps hs hconnection hreceiver hdown, hcarries⟩
  · intro q page' hcopy
    unfold PageCopy.after at hcopy
    split_ifs at hcopy with hreceiver hloser
    · rcases PageCopy.takeIn_eq_takenIn.mp hcopy with ⟨hfirst, rfl⟩ | hold
      · obtain ⟨b, c, hconnection, hdown, hcarries⟩ := h.onItsWay q 0 hfirst
        cases e with
        | deliver q' record =>
          obtain rfl := Option.some.inj hreceiver
          exact shows_of_carries henabled hnext hconnection hdown hcarries
        | _ => cases hreceiver
      · exact h.shown q page' hold
    · exact h.shown q page' (PageCopy.lose_eq_takenIn.mp hcopy)
    · exact h.shown q page' hcopy

end ClassBoards

namespace WatchedClass

variable {P : Type} [DecidableEq P] {room : Lecture P} {machine : BoardMachine} {s t : WatchedClass P}

/-- A step of a class of which a login is followed is a step of the class. -/
lemma boards_of_step {e : ClassBoardsEvent P × Bool} (h : (system room machine).step s e t) :
    (ClassBoards.system room machine).step s.boards e.1 t.boards := by
  obtain ⟨henabled, hnext⟩ := h
  obtain ⟨e, watch⟩ := e
  cases e with
  | event e env =>
    obtain ⟨boards, hboards, rfl⟩ := Option.map_eq_some_iff.mp hnext
    exact ⟨henabled, hboards⟩
  | work p e =>
    obtain ⟨boards, hboards, rfl⟩ := Option.map_eq_some_iff.mp hnext
    exact ⟨henabled, hboards⟩

/-- Every step that meets the condition leaves the messages where they are followed to. -/
lemma followed_next (hs : s.boards.room.WellFormed room) (hagree : s.boards.Agree)
    (h : s.boards.room.Followed room machine s.trace) {e : ClassBoardsEvent P × Bool}
    (hcondition : s.Condition room machine e) (hstep : (system room machine).step s e t) :
    t.boards.room.Followed room machine t.trace := by
  obtain ⟨henabled, hnext⟩ := hstep
  obtain ⟨e, watch⟩ := e
  cases e with
  | work p e =>
    obtain ⟨boards, hboards, rfl⟩ := Option.map_eq_some_iff.mp hnext
    obtain ⟨board, -, rfl⟩ := Option.map_eq_some_iff.mp hboards
    exact h
  | event e env =>
    obtain ⟨boards, hboards, rfl⟩ := Option.map_eq_some_iff.mp hnext
    have hroom := (ClassBoards.of_next_event hboards).1
    have hsteps := hs.steps_of_step ⟨henabled.1, hroom⟩
    obtain ⟨before, trace⟩ := s
    dsimp only at *
    cases h with
    | quiet =>
      cases watch with
      | false => exact .quiet
      | true =>
        cases e with
        | serverRead a => exact Classroom.followed_begins hs henabled.1 (hcondition rfl a rfl) hroom
        | _ => exact .quiet
    | @notice p a b behind c hnewcomer hstudent hteacher hway hnotice =>
      obtain ⟨hends, hanswers⟩ := hcondition
      have hnewcomer' := hnewcomer.steps hs hsteps
      have hteacher' := Classroom.member_of_steps hsteps hs hteacher hends
      simp only [LoginTrace.after, if_neg hends]
      split_ifs with hreceiver hlater hflag
      -- the teacher takes in nothing, a command before the notice, or the notice
      · exact .notice hnewcomer' hstudent hteacher'
          (Classroom.down_of_steps hsteps hs hteacher.1 hreceiver hway) hnotice
      · rw [not_not] at hreceiver
        obtain ⟨n, rfl⟩ := Nat.exists_eq_succ_of_ne_zero hlater
        cases e with
        | deliver q record =>
          obtain rfl := Option.some.inj hreceiver
          exact .notice hnewcomer' hstudent hteacher'
            (Classroom.down_of_deliver hroom hteacher.1 hway) hnotice
        | _ => cases hreceiver
      · rw [not_not] at hreceiver hlater
        subst hlater
        cases e with
        | deliver q record =>
          obtain rfl := Option.some.inj hreceiver
          obtain ⟨answer, hup, hcarries⟩ := ClassBoards.answers_notice hs hagree henabled hboards
            hteacher.1 hway hnotice hflag (hanswers rfl rfl).2
          exact .answer hnewcomer' hstudent hteacher' hup hcarries
        | _ => cases hreceiver
      · rw [not_not] at hreceiver hlater
        exact absurd (hanswers hlater hreceiver).1 hflag
    | @answer p a b page behind c hnewcomer hstudent hteacher hway hcarries =>
      have hends : ¬ before.room.Ends b e := hcondition
      have hnewcomer' := hnewcomer.steps hs hsteps
      have hteacher' := Classroom.member_of_steps hsteps hs hteacher hends
      simp only [LoginTrace.after, if_neg hends]
      split_ifs with hread hlater
      -- the server reads elsewhere, a command before the answer, or the answer
      · have hopener := hs.connection _ _ hteacher.1
        exact .answer hnewcomer' hstudent hteacher'
          (Classroom.up_of_steps hsteps hopener hends hread hway) hcarries
      · rw [not_not] at hread
        obtain ⟨n, rfl⟩ := Nat.exists_eq_succ_of_ne_zero hlater
        cases e with
        | serverRead d =>
          obtain rfl := Option.some.inj hread
          exact .answer hnewcomer' hstudent hteacher' (Classroom.up_of_serverRead hroom hway) hcarries
        | _ => cases hread
      · rw [not_not] at hread hlater
        subst hlater
        cases e with
        | serverRead d =>
          obtain rfl := Option.some.inj hread
          exact .relayed
            (Classroom.copied_of_serverRead hs hnewcomer hstudent hteacher hway hcarries hroom)
        | _ => cases hread
    | relayed hcopied => exact .relayed (ClassBoards.copied_after hs hcopied henabled hboards)

/-- In every run whose steps all meet the condition, the messages of the login that is followed are
where they are followed to, and the login is answered: the newcomer and everybody in the class shows the
page that the teacher showed when it answered once it has taken in the answer. -/
theorem synchronised_of_reachable
    (h : ((system room machine).guarded fun s e => s.Condition room machine e).Reachable s) :
    s.boards.room.Followed room machine s.trace ∧ s.Synchronised room machine := by
  have hinvariant := h.invariant (I := fun s : WatchedClass P => s.boards.room.WellFormed room ∧
    s.boards.Agree ∧ s.boards.room.Followed room machine s.trace) ?_ ?_
  · obtain ⟨hs, -, hfollowed⟩ := hinvariant
    refine ⟨hfollowed, ?_, ?_, ?_, ?_⟩
    · intro htrace
      rw [htrace] at hfollowed
      cases hfollowed
    · intro p a page copy htrace
      rw [htrace] at hfollowed
      exact hfollowed.copied.reached
    · intro p a page copy htrace q hcopy record env henabled
      rw [htrace] at hfollowed
      obtain ⟨b, c, hconnection, hdown, hcarries⟩ := hfollowed.copied.onItsWay q 0 hcopy
      exact ClassBoards.isSome_of_carries hs henabled hconnection hdown hcarries
    · intro p a page copy htrace
      rw [htrace] at hfollowed
      exact hfollowed.copied.shown
  · rintro s ⟨⟨hroom, hboard⟩, htrace⟩
    have hreachable : (ClassBoards.system room machine).Reachable s.boards :=
      .of_init ⟨hroom, hboard⟩
    refine ⟨?_, ClassBoards.agree_of_reachable hreachable, ?_⟩
    · rw [hroom]
      exact Classroom.wellFormed_new
    · rw [htrace]
      exact .quiet
  · rintro s e t ⟨hs, hagree, hfollowed⟩ ⟨hcondition, hstep⟩
    have hboards := boards_of_step hstep
    exact ⟨ClassBoards.wellFormed_of_step hs hboards, hagree.step hboards,
      followed_next hs hagree hfollowed hcondition hstep⟩

/-! ## Two runs -/

/-- A class of a teacher, `0`, and two students. -/
def trio : Lecture (Fin 3) where
  db := ⟨fun id => if id = [0] then some ⟨[7], [0], [], false⟩ else none,
    fun id => if id = [1] ∨ id = [2] then some ⟨[7], id, [], false, false⟩ else none⟩
  classId := [7]
  teacher := 0
  session p := [UInt8.ofNat p]
  identity p := ⟨[7], [UInt8.ofNat p], [], false, p = 0, false⟩
  identify_session := by decide
  classId_eq := by decide
  isTeacher_iff := by decide
  allTeachers_eq := by decide
  userId_injective := by decide

/-- Machines with an archive that stores what is put in it behind its mark. -/
def storing : BoardMachine where
  uninitialised := ⟨0, false⟩
  quuid := id
  zip bytes := [0x50, 0x4b, 3, 4] ++ bytes
  unzip bytes := bytes.drop 4
  unzip_zip _ := rfl

/-- The surroundings of a participant, whose first page has a uuid of its own. -/
def desk (p : Fin 3) : Surroundings :=
  { emptyViewers Encodable.encode with newUuid := fun _ => nullUuid.set 1 (0x31 + UInt8.ofNat p) }

/-- The machine runs at every desk. -/
lemma runs_desk (p : Fin 3) : storing.Runs (desk p) where
  uninitialised := rfl
  quuid := rfl
  regular := ⟨fun _ => rfl, fun _ _ _ => rfl, Encodable.encode_injective⟩

/-- Nobody has connected, and everybody has a page of its own. -/
def atStart : WatchedClass (Fin 3) := ⟨⟨.new, fun p => LiveBoard.new (desk p)⟩, .quiet⟩

/-- An event at the desks, with the page that is shown. -/
def atDesk (s : WatchedClass (Fin 3)) : ClassBoardsEvent (Fin 3) → ClassBoardsEvent (Fin 3)
  | .event (.deliver p _) _ =>
    .event (.deliver p ((s.boards.board p).current.switchRecord storing)) (desk p)
  | .event e _ => .event e (desk 0)
  | .work p e => .work p e

/-- Whether an event at the desks can happen. -/
def canHappen (s : WatchedClass (Fin 3)) : ClassBoardsEvent (Fin 3) → Bool
  | .event e _ => decide (s.boards.room.Enabled e)
  | .work _ e => e.isWork

/-- An event at the desks that can happen and that passes a test. -/
def perform (test : WatchedClass (Fin 3) → ClassBoardsEvent (Fin 3) × Bool → Bool)
    (s : WatchedClass (Fin 3)) (e : ClassBoardsEvent (Fin 3) × Bool) : Option (WatchedClass (Fin 3)) :=
  let event := (s.atDesk e.1, e.2)
  if test s event = true ∧ s.canHappen event.1 = true then s.next trio storing event else none

/-- An event at the desks is enabled. -/
lemma enabled_atDesk {s : WatchedClass (Fin 3)} {e : ClassBoardsEvent (Fin 3)}
    (h : s.canHappen (s.atDesk e) = true) : s.boards.Enabled storing (s.atDesk e) := by
  cases e with
  | work p e => exact h
  | event e env =>
    cases e with
    | deliver p record =>
      refine ⟨of_decide_eq_true h, runs_desk p, ?_⟩
      rintro q page heq
      obtain ⟨rfl, rfl⟩ := ClassEvent.deliver.inj heq
      rfl
    | _ => exact ⟨of_decide_eq_true h, runs_desk 0, by rintro q page ⟨⟩⟩

/-- What is performed is a step. -/
lemma step_perform {test : WatchedClass (Fin 3) → ClassBoardsEvent (Fin 3) × Bool → Bool}
    {s t : WatchedClass (Fin 3)} {e : ClassBoardsEvent (Fin 3) × Bool} (h : perform test s e = some t) :
    test s (s.atDesk e.1, e.2) = true ∧ (system trio storing).step s (s.atDesk e.1, e.2) t := by
  unfold perform at h
  dsimp only at h
  split_ifs at h with hcan
  exact ⟨hcan.1, enabled_atDesk hcan.2, h⟩

/-- The page has no states and no nested pages, everything on it is painted, and its data are short. -/
def plainly (page : Page) : Bool :=
  decide (page.data.length < 2 ^ 32) && page.shown.all fun e =>
    !e.body.isState && e.body.viewer?.isNone && e.canPaint

/-- What is computed to be plain is portable. -/
lemma portable_of_plainly {page : Page} (h : plainly page = true) : page.Portable storing.quuid := by
  simp only [plainly, Bool.and_eq_true, decide_eq_true_eq, List.all_eq_true,
    Bool.not_eq_true', Option.isNone_iff_eq_none] at h
  exact .of_plain rfl h.1 (fun e he => ⟨(h.2 e he).2, (h.2 e he).1.1⟩) fun e he => (h.2 e he).1.2

/-- A test of the condition. -/
def meets (s : WatchedClass (Fin 3)) : ClassBoardsEvent (Fin 3) × Bool → Bool
  | (.event e _, watch) =>
    match s.trace with
    | .quiet => !watch || e.readFrom.all fun a => decide (s.boards.room.FindsTeacher trio a)
    | .notice _ _ b behind => !decide (s.boards.room.Ends b e) &&
        (decide (behind ≠ 0) || decide (e.receiver ≠ some 0) ||
          (s.boards.room.widget 0).controlingBoard &&
            plainly (s.boards.board 0).current.getMsgPackData.1)
    | .answer _ _ b _ _ => !decide (s.boards.room.Ends b e)
    | .relayed _ _ _ _ => true
    | .unanswered => true
  | (.work _ _, _) => true

/-- What is computed to be met is the condition. -/
lemma condition_of_meets {s : WatchedClass (Fin 3)} {e : ClassBoardsEvent (Fin 3) × Bool}
    (h : s.meets e = true) : s.Condition trio storing e := by
  obtain ⟨e, watch⟩ := e
  obtain ⟨boards, trace⟩ := s
  cases e with
  | work p e => trivial
  | event e env =>
    cases trace with
    | quiet =>
      rintro rfl a hread
      simp only [meets, hread, Bool.not_true, Bool.false_or, Option.all_some] at h
      exact of_decide_eq_true h
    | notice p a b behind =>
      simp only [meets, Bool.and_eq_true, Bool.or_eq_true, Bool.not_eq_true', decide_eq_false_iff_not,
        decide_eq_true_eq] at h
      refine ⟨h.1, fun hfirst hreceiver => ?_⟩
      obtain ⟨hflag, hplain⟩ := (h.2.resolve_left (by tauto))
      exact ⟨hflag, portable_of_plainly hplain⟩
    | answer p a b page behind =>
      simp only [meets, Bool.not_eq_true', decide_eq_false_iff_not] at h
      exact h
    | relayed | unanswered => trivial

/-- A student joins a class whose teacher has drawn a line. -/
def joining (watch : Bool) : List (ClassBoardsEvent (Fin 3) × Bool) :=
  [(.event (.connect 0 1) (desk 0), false), (.event (.serverRead 1) (desk 0), false),
    (.event (.deliver 0 ⟨[]⟩) (desk 0), false),
    (.work 0 (.edit (.addNew 1 (Element.new [1] (.line ⟨0, 0⟩ ⟨9, 9⟩)) false false) trivial),
      false),
    (.event (.connect 1 2) (desk 0), false), (.event (.serverRead 2) (desk 0), watch),
    (.event (.deliver 1 ⟨[]⟩) (desk 0), false), (.event (.deliver 0 ⟨[]⟩) (desk 0), false),
    (.event (.serverRead 1) (desk 0), false), (.event (.deliver 1 ⟨[]⟩) (desk 0), false)]

/-- The teacher grants the student the board, and another student joins the class. -/
def granting : List (ClassBoardsEvent (Fin 3) × Bool) :=
  [(.event (.apply 1) (desk 0), false), (.event (.serverRead 2) (desk 0), false),
    (.event (.deliver 0 ⟨[]⟩) (desk 0), false), (.event (.answer 0 0 true) (desk 0), false),
    (.event (.serverRead 1) (desk 0), false), (.event (.deliver 0 ⟨[]⟩) (desk 0), false),
    (.event (.deliver 1 ⟨[]⟩) (desk 0), false), (.event (.connect 2 3) (desk 0), false),
    (.event (.serverRead 3) (desk 0), true), (.event (.deliver 2 ⟨[]⟩) (desk 0), false),
    (.event (.deliver 0 ⟨[]⟩) (desk 0), false), (.event (.deliver 1 ⟨[]⟩) (desk 0), false)]

/-- The page that was sent and the page a participant showed when it had taken it in. -/
def brought (q : Fin 3) (s : WatchedClass (Fin 3)) : Option (Page × Page) :=
  match s.trace with
  | .relayed _ _ page copy =>
    match copy q with
    | .takenIn shown => some (page, shown)
    | .none | .onItsWay _ => none
  | .quiet | .notice _ _ _ _ | .answer _ _ _ _ _ | .unanswered => none

/-- The student who has joined the class shows the line. -/
theorem synchronised_joining : ∃ (s : WatchedClass (Fin 3)) (page shown : Page),
    s.brought 1 = some (page, shown) ∧ page.Shows shown ∧ page.visible.length = 1 := by
  have hrun : (((joining true).foldlM (perform meets) atStart).bind (brought 1)).map
      (fun pages => pages.1.visible.length) = some 1 := by
    decide +kernel
  obtain ⟨⟨page, shown⟩, hpages, hline⟩ := Option.map_eq_some_iff.mp hrun
  obtain ⟨s, hs, hbrought⟩ := Option.bind_eq_some_iff.mp hpages
  have hreachable : ((system trio storing).guarded fun s e => s.Condition trio storing e).Reachable s := by
    refine (System.Reachable.of_init ?_).of_foldlM (fun s e t h => ?_) hs
    · exact ⟨⟨rfl, fun p => ⟨desk p, rfl⟩⟩, rfl⟩
    · obtain ⟨htest, hstep⟩ := step_perform h
      exact ⟨_, condition_of_meets htest, hstep⟩
  refine ⟨s, page, shown, hbrought, ?_, hline⟩
  unfold brought at hbrought
  split at hbrought
  · rename_i p a page' copy htrace
    split at hbrought
    · rename_i shown' hcopy
      obtain ⟨rfl, rfl⟩ := Prod.mk.inj (Option.some.inj hbrought)
      exact (synchronised_of_reachable hreachable).2.shown p a page' copy htrace 1 shown' hcopy
    · cases hbrought
    · cases hbrought
  · cases hbrought
  · cases hbrought
  · cases hbrought
  · cases hbrought

/-- Nothing is on its way, by the connections the server knows and the current ones. -/
def settled (s : WatchedClass (Fin 3)) : Bool :=
  (s.boards.room.server.heap.entries.all fun e => decide (s.boards.room.up e.1 = [])) &&
    decide (∀ p, ∀ a ∈ s.boards.room.connection p, s.boards.room.down a = [])

/-- What is computed to be settled is quiet. -/
lemma quiet_of_settled {s : WatchedClass (Fin 3)} (h : s.settled = true) : s.boards.room.Quiet := by
  simp only [settled, Bool.and_eq_true, List.all_eq_true, decide_eq_true_eq] at h
  refine ⟨fun a hopen => ?_, fun p a hconnection => h.2 p a hconnection⟩
  obtain ⟨o, ho⟩ := Option.isSome_iff_exists.mp (Classroom.isSome_of_isOpen hopen)
  exact h.1 (a, o) (OrderedMap.find_eq_some.mp ho)

/-- While a student holds the board, nobody answers the login of another one, who is left with a page of
its own when nothing is on its way any more. -/
theorem not_synchronised_granting : ∃ s : WatchedClass (Fin 3), (system trio storing).Reachable s ∧
    s.boards.room.Quiet ∧ (∀ p, s.boards.room.Connected p) ∧
      (s.boards.room.widget 1).controlingBoard = true ∧
        (s.boards.board 0).current.uuid = (s.boards.board 1).current.uuid ∧
          (s.boards.board 2).current.uuid ≠ (s.boards.board 1).current.uuid ∧
            (s.boards.board 2).current.visible = [] ∧ (s.boards.board 1).current.visible.length = 1 := by
  have hrun : (((joining false ++ granting).foldlM (perform fun _ _ => true) atStart).map fun s =>
      s.settled && decide (∀ p : Fin 3, s.boards.room.connection p = some (p.val + 1)) &&
        decide (∀ p : Fin 3, s.boards.room.server.isOpen (p.val + 1) = true) &&
          (s.boards.room.widget 1).controlingBoard &&
            decide ((s.boards.board 0).current.uuid = (s.boards.board 1).current.uuid) &&
              decide ((s.boards.board 2).current.uuid ≠ (s.boards.board 1).current.uuid) &&
                (s.boards.board 2).current.visible.isEmpty &&
                  decide ((s.boards.board 1).current.visible.length = 1)) = some true := by
    decide +kernel
  obtain ⟨s, hs, hfinal⟩ := Option.map_eq_some_iff.mp hrun
  simp only [Bool.and_eq_true, decide_eq_true_eq, List.isEmpty_iff] at hfinal
  obtain ⟨⟨⟨⟨⟨⟨⟨hsettled, hconnection⟩, hopen⟩, hholds⟩, hsame⟩, hother⟩, hempty⟩, hline⟩ := hfinal
  refine ⟨s, ?_, quiet_of_settled hsettled, fun p => ⟨_, hconnection p, hopen p⟩, hholds, hsame, hother,
    hempty, hline⟩
  refine (System.Reachable.of_init ?_).of_foldlM (fun s e t h => ?_) hs
  · exact ⟨⟨rfl, fun p => ⟨desk p, rfl⟩⟩, rfl⟩
  · exact ⟨_, (step_perform h).2⟩

end WatchedClass

end Liangshi
