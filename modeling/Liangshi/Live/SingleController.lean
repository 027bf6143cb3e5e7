import Liangshi.Live.ClassroomInvariant

/-!
# Who controls the board when nothing is on its way

`Controlled` looks ahead: a participant holds the board if its flag is set once it has taken in the
commands on their way to it (`holds`), and a student outlives the teacher's commands if its flag
is still set once the server has handled what the teacher has sent (`outlives`).  No two students
hold the board, and a teacher who holds the board while a student outlives its commands will
answer a notice with its page (`answersNotice`), which takes control away from the student.

Logins break this, because a login gives the teacher control without taking it from the students,
and a student who logs in again keeps its flag; so does an agreement that is read from a
connection the teacher has lost.  `Condition` excludes these steps and no others, and in a run whose
steps all meet it one connected participant at most controls the board when nothing is on its way.
Without it two do when the teacher comes back while a student controls the board.
-/

namespace Liangshi

open Wire Ordered Transition

/-! ## Notices that are answered -/

/-- A notice that a teacher with the given flag takes in while it controls the board. -/
def answersNotice (u : Uninitialised) : Bool → List LokiCommand → Bool
  | _, [] => false
  | flag, c :: rest => (c.isNotice && flag) || answersNotice u (teacherEffect u flag c) rest

/-- Commands that come later. -/
lemma answersNotice_append (u : Uninitialised) (flag : Bool) (first others : List LokiCommand) :
    answersNotice u flag (first ++ others) = (answersNotice u flag first ||
      answersNotice u (first.foldl (teacherEffect u) flag) others) := by
  induction first generalizing flag with
  | nil => rfl
  | cons c first ih =>
    simp only [List.cons_append, answersNotice, ih, List.foldl_cons, Bool.or_assoc]

namespace Classroom

variable {P : Type} [DecidableEq P]

/-! ## Looking ahead -/

/-- A participant whose connection is open at the server and in the class. -/
def Member (room : Lecture P) (s : Classroom P) (p : P) (a : Address) : Prop :=
  s.connection p = some a ∧ s.server.isOpen a = true ∧ a ∈ s.users room

/-- The flag of a participant once it has taken in the commands on their way to it. -/
def holds (room : Lecture P) (u : Uninitialised) (s : Classroom P) (p : P) (a : Address) : Bool :=
  (s.down a).foldl (room.effect u p) (s.widget p).controlingBoard

/-- The flag of a student once the server has handled the teacher's commands, too. -/
def outlives (room : Lecture P) (u : Uninitialised) (s : Classroom P) (teacher : Address) (p : P)
    (a : Address) : Bool :=
  (s.up teacher).foldl (room.effect u p) (s.holds room u p a)

/-- The teacher's connection once it has taken in the reply to its login. -/
def Active (room : Lecture P) (s : Classroom P) (teacher : Address) : Prop :=
  s.Member room room.teacher teacher ∧ ∀ c ∈ s.down teacher, c.isReply = false

/-- A student who logs in over a connection does not hold the board together with another one. -/
def LogsInAlone (room : Lecture P) (u : Uninitialised) (s : Classroom P) (a : Address) : Prop :=
  ∀ p ∈ s.opener a, ∀ c ∈ (s.up a).head?, c.isLogin = true → p ≠ room.teacher →
    s.connection p = some a → s.holds room u p a = true →
      ∀ q, q ≠ room.teacher → ∀ b ∈ s.connection q, s.Member room q b →
        s.holds room u q b = true → q = p

/-- A student who is granted the board over a connection the teacher has lost does not outlive the
commands of a teacher who holds the board, unless a notice will be answered. -/
def GrantsInTime (room : Lecture P) (u : Uninitialised) (s : Classroom P) (a : Address) : Prop :=
  ∀ c ∈ (s.up a).head?, ∀ q, c.granted = some (room.identity q).userId → q ≠ room.teacher →
    ∀ b ∈ s.connection q, s.Member room q b →
      ∀ teacher ∈ s.connection room.teacher, s.Active room teacher → teacher ≠ a →
        s.holds room u room.teacher teacher = true →
          (s.up teacher).foldl (room.effect u q) true = true →
            answersNotice u (s.widget room.teacher).controlingBoard (s.down teacher) = true

/-- No student outlives the commands of a teacher who takes in the reply to its login and holds the
board, unless a notice will be answered. -/
def RepliedAlone (room : Lecture P) (u : Uninitialised) (s : Classroom P) : Prop :=
  ∀ teacher ∈ s.connection room.teacher, s.Member room room.teacher teacher →
    ∀ c ∈ (s.down teacher).head?, c.isReply = true → s.holds room u room.teacher teacher = true →
      ∀ q, q ≠ room.teacher → ∀ b ∈ s.connection q, s.Member room q b →
        s.outlives room u teacher q b = true → answersNotice u true (s.down teacher).tail = true

/-- The steps that do not hand out control twice. -/
def Condition (room : Lecture P) (u : Uninitialised) (s : Classroom P) : ClassEvent P → Prop
  | .serverRead a => s.LogsInAlone room u a ∧ s.GrantsInTime room u a
  | .deliver p _ => p = room.teacher → s.RepliedAlone room u
  | _ => True

/-- One participant at most will control the board. -/
structure Controlled (room : Lecture P) (u : Uninitialised) (s : Classroom P) : Prop where
  students : ∀ p a q b, p ≠ room.teacher → q ≠ room.teacher → s.Member room p a →
    s.Member room q b → s.holds room u p a = true → s.holds room u q b = true → p = q
  teacher : ∀ teacher, s.Active room teacher → s.holds room u room.teacher teacher = true →
    ∀ q b, q ≠ room.teacher → s.Member room q b → s.outlives room u teacher q b = true →
      answersNotice u (s.widget room.teacher).controlingBoard (s.down teacher) = true

variable {room : Lecture P} {u : Uninitialised} {s t : Classroom P}

/-- Nobody controls a new classroom's board. -/
lemma controlled_new : (new : Classroom P).Controlled room u where
  students _ _ _ _ _ _ h := by cases h.1
  teacher _ h := by cases h.1.1

/-- Nobody new holds the board among the students. -/
lemma Controlled.students_of_le (h : s.Controlled room u)
    (hle : ∀ p a, p ≠ room.teacher → t.Member room p a → t.holds room u p a = true →
      s.Member room p a ∧ s.holds room u p a = true) :
    ∀ p a q b, p ≠ room.teacher → q ≠ room.teacher → t.Member room p a →
      t.Member room q b → t.holds room u p a = true → t.holds room u q b = true → p = q := by
  intro p a q b hp hq hmem hmem' hholds hholds'
  obtain ⟨hold, hbefore⟩ := hle p a hp hmem hholds
  obtain ⟨hold', hbefore'⟩ := hle q b hq hmem' hholds'
  exact h.students p a q b hp hq hold hold' hbefore hbefore'

/-- A step after which nobody new holds the board or outlives the teacher's commands, and that takes
no notice from the teacher. -/
lemma Controlled.of_le (h : s.Controlled room u)
    (hle : ∀ p a, t.Member room p a → t.holds room u p a = true →
      s.Member room p a ∧ s.holds room u p a = true)
    (hteacher : ∀ teacher, t.Active room teacher → s.Active room teacher ∧
      (answersNotice u (s.widget room.teacher).controlingBoard (s.down teacher) = true →
        answersNotice u (t.widget room.teacher).controlingBoard (t.down teacher) = true))
    (houtlives : ∀ teacher q b, t.Active room teacher → q ≠ room.teacher → t.Member room q b →
      t.outlives room u teacher q b = true →
        s.Member room q b ∧ s.outlives room u teacher q b = true) :
    t.Controlled room u where
  students := h.students_of_le fun p a _ => hle p a
  teacher teacher hactive hholds q b hq hmem hq' := by
    obtain ⟨hbefore, hnotice⟩ := hteacher teacher hactive
    obtain ⟨hmem', hq''⟩ := houtlives teacher q b hactive hq hmem hq'
    exact hnotice (h.teacher teacher hbefore (hle _ _ hactive.1 hholds).2 q b hq hmem' hq'')

/-! ## Connections -/

/-- A step that leaves the widgets and the members it keeps as they are. -/
lemma Controlled.of_members (h : s.Controlled room u) (hwidget : t.widget = s.widget)
    (hdown : t.down = s.down)
    (hmember : ∀ p a, t.Member room p a → s.Member room p a ∧ t.up a = s.up a) :
    t.Controlled room u := by
  have hholds : ∀ p a, t.holds room u p a = s.holds room u p a := by
    intro p a
    simp only [holds, hwidget, hdown]
  refine h.of_le (fun p a hmem hflag => ⟨(hmember p a hmem).1, hholds p a ▸ hflag⟩) ?_ ?_
  · intro teacher hactive
    refine ⟨⟨(hmember _ _ hactive.1).1, hdown ▸ hactive.2⟩, ?_⟩
    rw [hwidget, hdown]
    exact id
  · intro teacher q b hactive _ hmem hq
    refine ⟨(hmember q b hmem).1, ?_⟩
    simpa only [outlives, hholds, (hmember _ _ hactive.1).2] using hq

variable {a : Address} {p : P}

/-- A new connection is nobody's place in the class yet. -/
lemma Controlled.connected (h : s.Controlled room u) (hs : s.WellFormed room)
    (hfresh : s.opener a = none) : (s.connected room u p a).Controlled room u := by
  refine h.of_members rfl rfl ?_
  rintro q r ⟨hconnection, hopen, hmem⟩
  have hne : r ≠ a := by
    rintro rfl
    have hopener := hs.opened r (hs.consistent.isSome_of_mem room.classId hmem)
    rw [hfresh] at hopener
    cases hopener
  have hq : q ≠ p := by
    rintro rfl
    simp only [Classroom.connected, Function.update_self, Option.some.injEq] at hconnection
    exact hne hconnection.symm
  simp only [Classroom.connected, Function.update_of_ne hq] at hconnection
  simp only [Classroom.connected, isOpen_onConnection, if_neg (Ne.symm hne)] at hopen
  exact ⟨⟨hconnection, hopen, hmem⟩, by simp only [Classroom.connected, Function.update_of_ne hne]⟩

/-- A lost connection is nobody's. -/
lemma Controlled.disconnected (h : s.Controlled room u) (hs : s.WellFormed room) (kept : Nat)
    (hlost : s.connection p = some a) : Controlled room u { s with
      up := Function.update s.up a ((s.up a).take kept)
      connection := Function.update s.connection p none } := by
  refine h.of_members rfl rfl ?_
  rintro q r ⟨hconnection, hopen, hmem⟩
  have hq : q ≠ p := by
    rintro rfl
    simp only [Function.update_self] at hconnection
    cases hconnection
  simp only [Function.update_of_ne hq] at hconnection
  have hne : r ≠ a := by
    rintro rfl
    have hopener := hs.connection q r hconnection
    rw [hs.connection p r hlost, Option.some.injEq] at hopener
    exact hq hopener.symm
  exact ⟨⟨hconnection, hopen, hmem⟩, Function.update_of_ne hne _ _⟩

/-- A read error puts nobody in the class. -/
lemma Controlled.readError (h : s.Controlled room u) (a : Address) :
    Controlled room u { s with server := s.server.startClosing a } := by
  refine h.of_members rfl rfl ?_
  rintro q r ⟨hconnection, hopen, hmem⟩
  simp only [isOpen_startClosing] at hopen
  split_ifs at hopen
  have hsessions : (s.server.startClosing a).sessions = s.server.sessions := by
    unfold Server.startClosing
    split <;> rfl
  simp only [users, hsessions] at hmem
  exact ⟨⟨hconnection, hopen, hmem⟩, rfl⟩

/-- The close callback puts nobody in the class. -/
lemma Controlled.closed (h : s.Controlled room u) (hholds : s.server.Holds a) :
    Controlled room u { s with server := s.server.deleteUserByHandle a } := by
  refine h.of_members rfl rfl ?_
  rintro q r ⟨hconnection, hopen, hmem⟩
  simp only [isOpen_deleteUserByHandle hholds] at hopen
  split_ifs at hopen
  have hsessions : (s.server.deleteUserByHandle a).sessions = s.server.sessions.removeUser a := by
    unfold Server.deleteUserByHandle
    rw [show s.server.users.find a = some a from hholds]
  simp only [users, hsessions, ClassSessionManager.mem_getClassUsers_removeUser] at hmem
  exact ⟨⟨hconnection, hopen, hmem.1⟩, rfl⟩

/-! ## Widgets at work -/

/-- Connections belong to one participant. -/
lemma WellFormed.eq_of_connection (hs : s.WellFormed room) {q : P}
    (hp : s.connection p = some a) (hq : s.connection q = some a) : p = q := by
  have hopener := hs.connection p a hp
  rw [hs.connection q a hq, Option.some.injEq] at hopener
  exact hopener.symm

/-- Only a grant lets a student hold the board. -/
lemma foldl_effect_le {q : P} (hq : q ≠ room.teacher) {commands : List LokiCommand} {flag : Bool}
    (hgrants : ∀ c ∈ commands, c.granted = none)
    (h : commands.foldl (room.effect u q) flag = true) : flag = true := by
  rw [room.effect_student hq] at h
  induction commands generalizing flag with
  | nil => exact h
  | cons c commands ih =>
    obtain ⟨hfirst, hothers⟩ := List.forall_mem_cons.mp hgrants
    rcases studentEffect_le (ih hothers h) with hflag | hgranted
    · exact hflag
    · rw [hfirst] at hgranted
      cases hgranted

/-- The first flag is no worse. -/
lemma foldl_effect_mono {q : P} (hq : q ≠ room.teacher) {commands : List LokiCommand}
    {flag flag' : Bool} (hle : flag = true → flag' = true)
    (h : commands.foldl (room.effect u q) flag = true) :
    commands.foldl (room.effect u q) flag' = true := by
  rw [room.effect_student hq] at h ⊢
  exact foldl_studentEffect_mono hle h

/-- A participant at work keeps everybody in its place. -/
lemma member_act {result : LiveWidget × List LokiCommand} {q : P} {r : Address} :
    (s.act p result).Member room q r ↔ s.Member room q r := by
  simp only [Member, users, connection_act, server_act]

/-- What a participant does keeps control single. -/
lemma Controlled.acted (h : s.Controlled room u)
    {result : LiveWidget × List LokiCommand} (hacts : room.Acts p (s.widget p) result) :
    (s.act p result).Controlled room u := by
  have hother : ∀ q b, q ≠ p → (s.act p result).holds room u q b = s.holds room u q b := by
    intro q b hq
    simp only [holds, down_act, widget_act_of_ne hq]
  have hsame : result.1.controlingBoard = (s.widget p).controlingBoard → ∀ q b,
      (s.act p result).holds room u q b = s.holds room u q b := by
    intro hflag q b
    by_cases hq : q = p
    · subst hq
      simp only [holds, down_act, widget_act_self, hflag]
    · exact hother q b hq
  rcases hacts.control with ⟨hflag, hgrants⟩ | ⟨rfl, hcontrol⟩
  · refine h.of_le (fun q b hmem hq => ⟨member_act.mp hmem, hsame hflag q b ▸ hq⟩) ?_ ?_
    · intro teacher hactive
      rw [Active, member_act, down_act] at hactive
      refine ⟨hactive, fun hnotice => ?_⟩
      rw [down_act]
      by_cases hp : room.teacher = p
      · subst hp
        rwa [widget_act_self, hflag]
      · rwa [widget_act_of_ne hp]
    · intro teacher q b hactive hq hmem hfate
      refine ⟨member_act.mp hmem, ?_⟩
      rw [outlives, hsame hflag, up_act] at hfate
      split_ifs at hfate
      · rw [List.foldl_append] at hfate
        exact foldl_effect_le hq hgrants hfate
      · exact hfate
  · refine ⟨h.students_of_le fun q b hq hmem hflag => ⟨member_act.mp hmem, hother q b hq ▸ hflag⟩, ?_⟩
    intro teacher hactive hholds q b hq hmem hfate
    rw [Active, member_act, down_act] at hactive
    rcases hcontrol with hgiven | ⟨take, hsent⟩
    · -- the teacher has given control away, and no reply will give it back
      rw [holds, widget_act_self, down_act, hgiven, room.effect_teacher] at hholds
      have hset := foldl_teacherEffect_le hactive.2 hholds
      cases hset
    · -- what the teacher has sent last takes control away from every student
      rw [outlives, up_act, if_pos hactive.1.1, hsent, List.foldl_append,
        room.effect_student hq] at hfate
      cases hfate

/-! ## Commands from the server -/

variable {c : LokiCommand} {rest : List LokiCommand} {page : LokiBuffer}

/-- Taking in a command brings nobody closer to the board. -/
lemma holds_delivered (hs : s.WellFormed room) (hconnection : s.connection p = some a)
    (hdown : s.down a = c :: rest) (htakes : room.TakesIn u p (s.widget p) page c) {q : P}
    {b : Address} (hb : s.connection q = some b) :
    (({ s with down := Function.update s.down a rest } : Classroom P).act p
      ((s.widget p).receive u page c)).holds room u q b = s.holds room u q b := by
  simp only [holds, down_act]
  by_cases hq : q = p
  · subst hq
    rw [hconnection, Option.some.injEq] at hb
    subst hb
    rw [widget_act_self, Function.update_self, htakes.flag, hdown, List.foldl_cons]
  · have hne : b ≠ a := by
      rintro rfl
      exact hq (hs.eq_of_connection hb hconnection)
    rw [widget_act_of_ne hq, Function.update_of_ne hne]

/-- A participant who takes in a command from the server keeps control single. -/
lemma Controlled.delivered (h : s.Controlled room u) (hs : s.WellFormed room)
    (hcondition : s.Condition room u (.deliver p page)) (hconnection : s.connection p = some a)
    (hdown : s.down a = c :: rest) (hpage : page.buffer.length < 2 ^ 32)
    (htakes : room.TakesIn u p (s.widget p) page c) :
    (({ s with down := Function.update s.down a rest } : Classroom P).act p
      ((s.widget p).receive u page c)).Controlled room u := by
  have hholds := fun {q : P} {b : Address} (hb : s.connection q = some b) =>
    holds_delivered hs hconnection hdown htakes hb
  have hmember : ∀ q b, (({ s with down := Function.update s.down a rest } : Classroom P).act p
      ((s.widget p).receive u page c)).Member room q b ↔ s.Member room q b := fun q b => member_act
  have hqueue : (({ s with down := Function.update s.down a rest } : Classroom P).act p
      ((s.widget p).receive u page c)).down = Function.update s.down a rest := down_act
  have hquiet : ¬ (p = room.teacher ∧ c.isNotice = true ∧ (s.widget p).controlingBoard = true) →
      ((s.widget p).receive u page c).2 = [] := fun hnot => by rw [htakes.sent, if_neg hnot]
  by_cases hp : p = room.teacher
  · subst hp
    refine ⟨h.students_of_le fun q b hq hmem hflag => ?_, ?_⟩
    · have hmem' := (hmember q b).mp hmem
      exact ⟨hmem', hholds hmem'.1 ▸ hflag⟩
    · intro teacher hactive hflag q b hq hmem hfate
      have hmem' := (hmember q b).mp hmem
      have hteacher := (hmember _ _).mp hactive.1
      obtain rfl : a = teacher := Option.some.inj (hconnection.symm.trans hteacher.1)
      rw [hholds hteacher.1] at hflag
      rw [outlives, hholds hmem'.1, up_act, if_pos hconnection, List.foldl_append] at hfate
      have hrest : ∀ x ∈ rest, x.isReply = false := by
        have hreplies := hactive.2
        rwa [hqueue, Function.update_self] at hreplies
      rw [widget_act_self, hqueue, Function.update_self, htakes.flag, room.effect_teacher]
      cases hreply : c.isReply with
      | true =>
        have hset : teacherEffect u (s.widget room.teacher).controlingBoard c = true := by
          cases c with
          | boradLogin login =>
            simp only [LokiCommand.isReply] at hreply
            simp only [teacherEffect, hreply, if_true]
          | _ => cases hreply
        have hnotice : c.isNotice = false := by
          cases c with
          | boradLogin login =>
            simp only [LokiCommand.isReply, Bool.and_eq_true, Bool.not_eq_true'] at hreply
            simp only [LokiCommand.isNotice, hreply.2, Bool.and_false]
          | _ => rfl
        rw [hquiet (fun hall => by rw [hnotice] at hall; cases hall.2.1)] at hfate
        rw [hset]
        have hanswers := hcondition rfl a hconnection hteacher c (by rw [hdown]; rfl) hreply hflag q hq b
          hmem'.1 hmem' hfate
        rwa [hdown] at hanswers
      | false =>
        have hbefore : s.Active room a := by
          refine ⟨hteacher, ?_⟩
          rw [hdown]
          exact List.forall_mem_cons.mpr ⟨hreply, hrest⟩
        by_cases hanswers : c.isNotice = true ∧ (s.widget room.teacher).controlingBoard = true
        · -- the answer takes control away from every student
          rw [htakes.sent, if_pos ⟨rfl, hanswers⟩] at hfate
          simp only [LiveWidget.sendSwitchPageAnimation, LiveWidget.addActionTriggered, hanswers.2,
            Bool.not_true, Bool.false_eq_true, if_false, LokiClient.boardData,
            room.effect_student hq, List.foldl_cons, List.foldl_nil, studentEffect,
            switchesPage_getMsgPackData u hpage, if_true] at hfate
        · rw [hquiet fun hall => hanswers hall.2] at hfate
          have hanswer := h.teacher a hbefore hflag q b hq hmem' hfate
          have hnot : (c.isNotice && (s.widget room.teacher).controlingBoard) = false := by
            rw [← Bool.not_eq_true, Bool.and_eq_true_iff]
            exact hanswers
          rwa [hdown, answersNotice, hnot, Bool.false_or] at hanswer
  · refine h.of_le (fun q b hmem hflag => ?_) ?_ ?_
    · have hmem' := (hmember q b).mp hmem
      exact ⟨hmem', hholds hmem'.1 ▸ hflag⟩
    · intro teacher hactive
      have hteacher := (hmember _ _).mp hactive.1
      have hne : teacher ≠ a := by
        rintro rfl
        exact hp (hs.eq_of_connection hconnection hteacher.1)
      have hreplies := hactive.2
      rw [hqueue, Function.update_of_ne hne] at hreplies
      rw [hqueue, Function.update_of_ne hne, widget_act_of_ne (Ne.symm hp)]
      exact ⟨⟨hteacher, hreplies⟩, id⟩
    · intro teacher q b hactive hq hmem hfate
      have hmem' := (hmember q b).mp hmem
      refine ⟨hmem', ?_⟩
      rw [outlives, hholds hmem'.1, up_act, hquiet fun hall => hp hall.1, List.append_nil,
        ite_self] at hfate
      exact hfate

/-! ## Commands to the server -/

section

variable {server : Server} {sent : List Sent} {q : P} {b : Address}

/-- What a connection takes in after a command has been handled. -/
lemma holds_handled
    (hhandled : Server.HandledAs room.db s.server s.server.roster a c server sent)
    (hopen : s.server.isOpen b = true) : (s.handled a rest server sent).holds room u q b =
      (s.server.roster.intended room.db a b c).foldl (room.effect u q) (s.holds room u q b) := by
  simp only [holds, Classroom.handled, hhandled.sentTo_eq, hopen, if_true, List.foldl_append]

omit [DecidableEq P] in
/-- Members of the class stay, and a login makes one. -/
lemma member_handled
    (hhandled : Server.HandledAs room.db s.server s.server.roster a c server sent)
    (hproper : room.Proper p c) : (s.handled a rest server sent).Member room q b ↔
      s.Member room q b ∨
        c.isLogin = true ∧ b = a ∧ s.connection q = some a ∧ s.server.isOpen a = true := by
  have hmem := mem_users_handled hhandled hproper room.classId b
  have hopen := hhandled.isOpen_eq b
  constructor
  · rintro ⟨hconnection, hstill, hin⟩
    rw [show (s.handled a rest server sent).server = server from rfl, hopen] at hstill
    rcases hmem.mp hin with hold | ⟨hlogin, -, rfl⟩
    · exact Or.inl ⟨hconnection, hstill, hold⟩
    · exact Or.inr ⟨hlogin, rfl, hconnection, hstill⟩
  · rintro (⟨hconnection, hstill, hin⟩ | ⟨hlogin, rfl, hconnection, hstill⟩)
    · exact ⟨hconnection, hopen.trans hstill, hmem.mpr (Or.inl hin)⟩
    · exact ⟨hconnection, hopen.trans hstill, hmem.mpr (Or.inr ⟨hlogin, rfl, rfl⟩)⟩

omit [DecidableEq P] in
/-- A command that is no login is passed on or not. -/
lemma intended_of_not_login {roster : Roster} (hlogin : c.isLogin = false) :
    roster.intended room.db a b c = [] ∨ roster.intended room.db a b c = [c] := by
  cases c with
  | boradLogin login => cases hlogin
  | applyBoard apply =>
    simp only [Roster.intended]
    split_ifs <;> simp
  | hadesData hades =>
    simp only [Roster.intended]
    split_ifs <;> simp
  | boardData board =>
    simp only [Roster.intended]
    split_ifs <;> simp
  | takeBoard take =>
    simp only [Roster.intended]
    split_ifs <;> simp
  | _ => exact Or.inl rfl

/-- A command of the teacher reaches every student in the class that it has an effect on. -/
lemma foldl_intended_of_teacher (hs : s.WellFormed room) (hopener : s.opener a = some room.teacher)
    (hproper : room.Proper room.teacher c) (hlogin : c.isLogin = false) (hq : q ≠ room.teacher)
    (hmem : s.Member room q b) (flag : Bool) :
    (s.server.roster.intended room.db a b c).foldl (room.effect u q) flag =
      room.effect u q flag c := by
  have hne : b ≠ a := by
    rintro rfl
    have hopener' := hs.connection q b hmem.1
    rw [hopener, Option.some.injEq] at hopener'
    exact hq hopener'.symm
  have hin : b ∈ s.server.roster.members room.classId := Server.mem_members_roster.mpr hmem.2.2
  rw [room.effect_student hq]
  cases c with
  | boradLogin login => cases hlogin
  | applyBoard apply =>
    obtain ⟨hclass, -⟩ := hproper
    cases hteacher : apply.fromTeacher with
    | true =>
      simp only [Roster.intended, hteacher, hclass, hin, if_true, List.foldl_cons, List.foldl_nil]
    | false =>
      simp only [Roster.intended, hteacher, studentEffect, Bool.false_eq_true, if_false]
      split_ifs
      · simp only [List.foldl_cons, List.foldl_nil, studentEffect, hteacher, Bool.false_eq_true,
          if_false]
      · rfl
  | boardData board =>
    have hclass : board.classId = room.classId := hproper
    simp only [Roster.intended, hclass, hin, hne, ne_eq, not_false_eq_true, and_self, if_true,
      List.foldl_cons, List.foldl_nil]
  | takeBoard take =>
    have hclass : take.classId = room.classId := hproper.1
    simp only [Roster.intended, hclass, hin, hne, ne_eq, not_false_eq_true, and_self, if_true,
      List.foldl_cons, List.foldl_nil]
  | hadesData hades =>
    simp only [Roster.intended]
    split_ifs <;> rfl
  | _ => rfl

/-- A command that is no login leaves nobody with more control, but for the student it grants the
board to. -/
lemma foldl_intended_le {roster : Roster} (hlogin : c.isLogin = false) {flag : Bool}
    (h : (roster.intended room.db a b c).foldl (room.effect u q) flag = true) :
    flag = true ∨ q ≠ room.teacher ∧ c.granted = some (room.identity q).userId := by
  have hcases : roster.intended room.db a b c = [] ∨ roster.intended room.db a b c = [c] :=
    intended_of_not_login hlogin
  rcases hcases with hnone | hone
  · rw [hnone] at h
    exact Or.inl h
  · rw [hone, List.foldl_cons, List.foldl_nil] at h
    by_cases hq : q = room.teacher
    · subst hq
      rw [room.effect_teacher] at h
      refine Or.inl (teacherEffect_le h ?_)
      cases c with
      | boradLogin login => cases hlogin
      | _ => rfl
    · rw [room.effect_student hq] at h
      exact (studentEffect_le h).imp id fun hgranted => ⟨hq, hgranted⟩

omit [DecidableEq P] in
/-- Only the teacher grants the board. -/
lemma eq_teacher_of_granted (hproper : room.Proper p c) {id : Bytes} (h : c.granted = some id) :
    p = room.teacher := by
  cases c with
  | applyBoard apply =>
    simp only [LokiCommand.granted] at h
    split_ifs at h with hgrant
    exact hproper.2 (Bool.and_eq_true_iff.mp hgrant).1
  | _ => cases h

/-- What a login makes a student take in has no effect on the board. -/
lemma foldl_intended_login {roster : Roster} {login : BoardLoginCommand}
    (hproper : room.Proper p (.boradLogin login)) (hq : q ≠ room.teacher) (flag : Bool) :
    (roster.intended room.db a b (.boradLogin login)).foldl (room.effect u q) flag = flag := by
  rw [intended_login hproper, room.effect_student hq]
  split_ifs <;> rfl

/-- A login keeps control single. -/
lemma Controlled.handled_login (h : s.Controlled room u) (hs : s.WellFormed room)
    (hcondition : s.Condition room u (.serverRead a)) (hopen : s.server.isOpen a = true)
    {login : BoardLoginCommand} (hup : s.up a = .boradLogin login :: rest)
    (hopener : s.opener a = some p) (hproper : room.Proper p (.boradLogin login))
    (hhandled : Server.HandledAs room.db s.server s.server.roster a (.boradLogin login) server sent) :
    (s.handled a rest server sent).Controlled room u := by
  have hstudent : ∀ q b, q ≠ room.teacher → (s.handled a rest server sent).Member room q b →
      (s.handled a rest server sent).holds room u q b = true → s.holds room u q b = true := by
    intro q b hq hmem hflag
    have hstill : s.server.isOpen b = true := by
      rw [← hhandled.isOpen_eq]
      exact hmem.2.1
    rwa [holds_handled hhandled hstill, foldl_intended_login hproper hq] at hflag
  have hnew : ∀ q b, (s.handled a rest server sent).Member room q b →
      s.Member room q b ∨ b = a ∧ q = p ∧ s.connection p = some a := by
    intro q b hmem
    rcases (member_handled hhandled hproper).mp hmem with hold | ⟨-, heq, hconnection, -⟩
    · exact Or.inl hold
    · have hopener' := hs.connection q a hconnection
      rw [hopener, Option.some.injEq] at hopener'
      exact Or.inr ⟨heq, hopener'.symm, hopener' ▸ hconnection⟩
  have hguard := hcondition.1 p hopener (.boradLogin login) (by rw [hup]; rfl) rfl
  constructor
  · intro q b q' b' hq hq' hmem hmem' hflag hflag'
    have hbefore := hstudent q b hq hmem hflag
    have hbefore' := hstudent q' b' hq' hmem' hflag'
    rcases hnew q b hmem with hold | ⟨rfl, rfl, hconnection⟩ <;>
      rcases hnew q' b' hmem' with hold' | ⟨rfl, rfl, hconnection'⟩
    · exact h.students q b q' b' hq hq' hold hold' hbefore hbefore'
    · exact hguard hq' hconnection' hbefore' q hq b hold.1 hold hbefore
    · exact (hguard hq hconnection hbefore q' hq' b' hold'.1 hold' hbefore').symm
    · rfl
  · intro teacher hactive hflag q b hq hmem hfate
    -- a teacher who has just logged in waits for the reply
    have hne : teacher ≠ a := by
      rintro rfl
      have hreply := hactive.2 (.boradLogin (NetCommandHandler.accepted login (room.identity p))) (by
        simp only [Classroom.handled, hhandled.sentTo_eq, hopen, if_true, intended_login hproper]
        exact List.mem_append_right _ (List.mem_singleton.mpr rfl))
      cases hreply
    have hteacher : s.Member room room.teacher teacher :=
      (hnew _ _ hactive.1).resolve_right fun hall => hne hall.1
    have hin : teacher ∈ s.server.roster.members room.classId :=
      Server.mem_members_roster.mpr hteacher.2.2
    have hqueue : (s.handled a rest server sent).down teacher = s.down teacher ++
        [.boradLogin (NetCommandHandler.peerNotice login (room.identity p))] := by
      simp only [Classroom.handled, hhandled.sentTo_eq, hteacher.2.1, if_true,
        intended_login hproper, if_neg hne, hin]
    rw [holds, hqueue, List.foldl_append, room.effect_teacher] at hflag
    have hbefore : (s.down teacher).foldl (teacherEffect u)
        (s.widget room.teacher).controlingBoard = true := hflag
    rw [hqueue, answersNotice_append]
    show (answersNotice u (s.widget room.teacher).controlingBoard (s.down teacher) || _) = true
    rw [show ((s.handled a rest server sent).widget room.teacher) = s.widget room.teacher from rfl,
      hbefore]
    exact Bool.or_true _

/-- A command that is no login keeps control single. -/
lemma Controlled.handled_other (h : s.Controlled room u) (hs : s.WellFormed room)
    (hcondition : s.Condition room u (.serverRead a)) (hup : s.up a = c :: rest)
    (hopener : s.opener a = some p) (hproper : room.Proper p c) (hlogin : c.isLogin = false)
    (hhandled : Server.HandledAs room.db s.server s.server.roster a c server sent) :
    (s.handled a rest server sent).Controlled room u := by
  have hmember : ∀ q b, (s.handled a rest server sent).Member room q b → s.Member room q b := by
    intro q b hmem
    rcases (member_handled hhandled hproper).mp hmem with hold | ⟨hlogin', -⟩
    · exact hold
    · rw [hlogin] at hlogin'
      cases hlogin'
  have hle : ∀ q b, s.Member room q b → (s.handled a rest server sent).holds room u q b = true →
      s.holds room u q b = true ∨
        q ≠ room.teacher ∧ c.granted = some (room.identity q).userId := by
    intro q b hmem hflag
    rw [holds_handled hhandled hmem.2.1] at hflag
    exact foldl_intended_le hlogin hflag
  -- a student who is not granted the board while another one is loses it
  have hloses : ∀ {id : Bytes}, c.granted = some id → ∀ q b, q ≠ room.teacher →
      s.Member room q b → (s.handled a rest server sent).holds room u q b = true →
        id = (room.identity q).userId := by
    intro id hgranted q b hq hmem hflag
    obtain rfl := eq_teacher_of_granted hproper hgranted
    by_contra hne
    rw [holds_handled hhandled hmem.2.1, foldl_intended_of_teacher hs hopener hproper hlogin hq hmem,
      room.effect_student hq, studentEffect_eq_false_of_grants hgranted hne] at hflag
    cases hflag
  constructor
  · intro q b q' b' hq hq' hmem hmem' hflag hflag'
    have hold := hmember q b hmem
    have hold' := hmember q' b' hmem'
    cases hgranted : c.granted with
    | some id =>
      have hid := hloses hgranted q b hq hold hflag
      have hid' := hloses hgranted q' b' hq' hold' hflag'
      exact room.userId_injective (hid.symm.trans hid')
    | none =>
      have hbefore := (hle q b hold hflag).resolve_right fun hall => by
        rw [hgranted] at hall
        cases hall.2
      have hbefore' := (hle q' b' hold' hflag').resolve_right fun hall => by
        rw [hgranted] at hall
        cases hall.2
      exact h.students q b q' b' hq hq' hold hold' hbefore hbefore'
  · intro teacher hactive hflag q b hq hmem hfate
    have hold := hmember q b hmem
    have hteacher := hmember _ _ hactive.1
    have hqueue : (s.handled a rest server sent).down teacher =
        s.down teacher ++ s.server.roster.intended room.db a teacher c := by
      simp only [Classroom.handled, hhandled.sentTo_eq, hteacher.2.1, if_true]
    have hactive' : s.Active room teacher := by
      refine ⟨hteacher, fun x hx => hactive.2 x ?_⟩
      rw [hqueue]
      exact List.mem_append_left _ hx
    have hbefore := (hle _ _ hteacher hflag).resolve_right fun hall => hall.1 rfl
    -- notices stay on their way
    have hstays : answersNotice u (s.widget room.teacher).controlingBoard (s.down teacher) = true →
        answersNotice u ((s.handled a rest server sent).widget room.teacher).controlingBoard
          ((s.handled a rest server sent).down teacher) = true := by
      intro hanswers
      rw [hqueue, answersNotice_append]
      exact Bool.or_eq_true_iff.mpr (Or.inl hanswers)
    refine hstays ?_
    by_cases heq : teacher = a
    · -- the server has handled a command of the teacher, which the student takes in
      subst heq
      obtain rfl : p = room.teacher := by
        have hopener' := hs.connection _ _ hteacher.1
        rw [hopener, Option.some.injEq] at hopener'
        exact hopener'
      refine h.teacher teacher hactive' hbefore q b hq hold ?_
      rw [outlives, hup, List.foldl_cons]
      rwa [outlives, holds_handled hhandled hold.2.1,
        foldl_intended_of_teacher hs hopener hproper hlogin hq hold,
        show (s.handled teacher rest server sent).up teacher = rest from
          Function.update_self _ _ _] at hfate
    · rw [outlives, show (s.handled a rest server sent).up teacher = s.up teacher from
        Function.update_of_ne heq _ _] at hfate
      by_cases hholds : s.holds room u q b = true
      · refine h.teacher teacher hactive' hbefore q b hq hold ?_
        exact foldl_effect_mono hq (fun _ => hholds) hfate
      · by_cases hset : (s.handled a rest server sent).holds room u q b = true
        · -- a grant from a connection the teacher has lost
          have hgranted := ((hle q b hold hset).resolve_left hholds).2
          rw [hset] at hfate
          exact hcondition.2 c (by rw [hup]; rfl) q hgranted hq b hold.1 hold teacher hteacher.1 hactive'
            heq hbefore hfate
        · refine h.teacher teacher hactive' hbefore q b hq hold ?_
          exact foldl_effect_mono hq (fun htrue => absurd htrue hset) hfate

end

/-! ## Runs -/

/-- Every step that meets the condition keeps control single. -/
theorem Controlled.next (h : s.Controlled room u) (hs : s.WellFormed room) {e : ClassEvent P}
    (hcondition : s.Condition room u e) (hsteps : s.Steps room u e t) : t.Controlled room u := by
  cases hsteps with
  | connected hconnection hfresh => exact h.connected hs hfresh
  | disconnected kept hconnection => exact h.disconnected hs kept hconnection
  | @handled a p c rest server sent hopen hup hopener hhandled =>
    have hproper := hs.proper a p hopener c (by rw [hup]; exact List.mem_cons_self)
    cases hlogin : c.isLogin with
    | true =>
      cases c with
      | boradLogin login => exact h.handled_login hs hcondition hopen hup hopener hproper hhandled
      | _ => cases hlogin
    | false => exact h.handled_other hs hcondition hup hopener hproper hlogin hhandled
  | readError a => exact h.readError a
  | closed hholds => exact h.closed hholds
  | delivered hconnection hdown hpage htakes =>
    exact h.delivered hs hcondition hconnection hdown hpage htakes
  | acted hacts => exact h.acted hacts

/-- In every run whose steps meet the condition, the class is well-formed and control is single. -/
theorem controlled_of_reachable
    (h : ((system room u).guarded fun s e => s.Condition room u e).Reachable s) :
    s.WellFormed room ∧ s.Controlled room u := by
  refine h.invariant (I := fun s => s.WellFormed room ∧ s.Controlled room u) ?_ ?_
  · rintro s rfl
    exact ⟨wellFormed_new, controlled_new⟩
  · rintro s e t ⟨hs, hcontrolled⟩ ⟨hcondition, hstep⟩
    have hsteps := hs.steps_of_step hstep
    exact ⟨hs.next hsteps, hcontrolled.next hs hcondition hsteps⟩

/-- When nothing is on its way, the connected participants are in the class, and their flags are
what they hold. -/
lemma WellFormed.member_of_quiet (hs : s.WellFormed room) (hquiet : s.Quiet) {p : P}
    (hp : s.Connected p) : ∃ a, s.Member room p a ∧ s.up a = [] ∧ s.down a = [] := by
  obtain ⟨a, hconnection, hopen⟩ := hp
  have hup := hquiet.1 a hopen
  refine ⟨a, ⟨hconnection, hopen, ?_⟩, hup, hquiet.2 p a hconnection⟩
  refine (hs.waiting p a hconnection hopen).resolve_right ?_
  rintro ⟨c, hc, -⟩
  rw [hup] at hc
  cases hc

/-- While control is single and nothing is on its way, a teacher who controls the board is the only
one who does. -/
lemma Controlled.eq_teacher (h : s.Controlled room u) (hs : s.WellFormed room) (hquiet : s.Quiet)
    (hteacher : s.Connected room.teacher)
    (hcontrols : (s.widget room.teacher).controlingBoard = true) {q : P} (hq : s.Connected q)
    (hcontrols' : (s.widget q).controlingBoard = true) : q = room.teacher := by
  by_contra hne
  obtain ⟨a, hmem, hup, hdown⟩ := hs.member_of_quiet hquiet hteacher
  obtain ⟨b, hmem', -, hdown'⟩ := hs.member_of_quiet hquiet hq
  have hactive : s.Active room a := ⟨hmem, by rw [hdown]; intro c hc; cases hc⟩
  have hholds : s.holds room u room.teacher a = true := by
    rw [holds, hdown]
    exact hcontrols
  have houtlives : s.outlives room u a q b = true := by
    rw [outlives, hup, holds, hdown']
    exact hcontrols'
  have hanswers := h.teacher a hactive hholds q b hne hmem' houtlives
  rw [hdown] at hanswers
  cases hanswers

/-- In every run whose steps meet the condition, one connected participant at most controls the
board when nothing is on its way. -/
theorem single_controller
    (h : ((system room u).guarded fun s e => s.Condition room u e).Reachable s)
    (hquiet : s.Quiet) {p q : P} (hp : s.Connected p) (hq : s.Connected q)
    (hpcontrols : (s.widget p).controlingBoard = true)
    (hqcontrols : (s.widget q).controlingBoard = true) : p = q := by
  obtain ⟨hs, hcontrolled⟩ := controlled_of_reachable h
  by_cases hpt : p = room.teacher
  · subst hpt
    exact (hcontrolled.eq_teacher hs hquiet hp hpcontrols hq hqcontrols).symm
  · by_cases hqt : q = room.teacher
    · subst hqt
      exact hcontrolled.eq_teacher hs hquiet hq hqcontrols hp hpcontrols
    · obtain ⟨a, hmem, -, hdown⟩ := hs.member_of_quiet hquiet hp
      obtain ⟨b, hmem', -, hdown'⟩ := hs.member_of_quiet hquiet hq
      refine hcontrolled.students p a q b hpt hqt hmem hmem' ?_ ?_
      · rw [holds, hdown]
        exact hpcontrols
      · rw [holds, hdown']
        exact hqcontrols

/-! ## Two runs -/

instance (s : Classroom P) (e : ClassEvent P) : Decidable (s.Enabled e) :=
  match e with
  | .connect p a => inferInstanceAs (Decidable (s.connection p = none ∧ s.opener a = none))
  | .disconnect p _ => inferInstanceAs (Decidable ((s.connection p).isSome = true))
  | .serverRead a => inferInstanceAs (Decidable (s.server.isOpen a = true ∧ s.up a ≠ []))
  | .readError a => inferInstanceAs (Decidable (s.server.isOpen a = true))
  | .close a => decidable_of_iff (∃ o ∈ s.server.heap.find a, o.closing = true) (by simp [Enabled])
  | .deliver p page => decidable_of_iff ((∃ a ∈ s.connection p, s.down a ≠ []) ∧
      page.buffer.length < 2 ^ 32) (by simp [Enabled])
  | .apply p => inferInstanceAs (Decidable ((s.widget p).button = some .apply))
  | .take p => inferInstanceAs (Decidable ((s.widget p).button = some .take))
  | .answer p position _ =>
    inferInstanceAs (Decidable (position < (s.widget p).applications.length))
  | .draw _ _ => inferInstanceAs (Decidable True)
  | .hades _ _ _ => inferInstanceAs (Decidable True)

instance (room : Lecture P) (s : Classroom P) (p : P) (a : Address) :
    Decidable (s.Member room p a) := by
  delta Member
  infer_instance

instance (room : Lecture P) (s : Classroom P) (a : Address) : Decidable (s.Active room a) := by
  delta Active
  infer_instance

section

variable [Fintype P] (room : Lecture P) (u : Uninitialised) (s : Classroom P)

instance (a : Address) : Decidable (s.LogsInAlone room u a) := by
  delta LogsInAlone
  infer_instance

instance (a : Address) : Decidable (s.GrantsInTime room u a) := by
  delta GrantsInTime
  infer_instance

instance : Decidable (s.RepliedAlone room u) := by
  delta RepliedAlone
  infer_instance

instance (e : ClassEvent P) : Decidable (s.Condition room u e) :=
  match e with
  | .serverRead a => inferInstanceAs (Decidable (s.LogsInAlone room u a ∧ s.GrantsInTime room u a))
  | .deliver p _ => inferInstanceAs (Decidable (p = room.teacher → s.RepliedAlone room u))
  | .connect _ _ | .disconnect _ _ | .readError _ | .close _ | .apply _ | .take _ | .answer _ _ _
  | .draw _ _ | .hades _ _ _ => inferInstanceAs (Decidable True)

end

/-- A class of a teacher, `true`, and one student. -/
def lesson : Lecture Bool where
  db := ⟨fun id => if id = [1] then some ⟨[7], [1], [], false⟩ else none,
    fun id => if id = [0] then some ⟨[7], [0], [], false, false⟩ else none⟩
  classId := [7]
  teacher := true
  session p := [if p then 1 else 0]
  identity p := ⟨[7], [if p then 1 else 0], [], false, p, false⟩
  identify_session := by decide
  classId_eq := by decide
  isTeacher_iff := by decide
  allTeachers_eq := by decide
  userId_injective := by decide

/-- An event that can happen and that passes a test. -/
def tryNext (test : Classroom Bool → ClassEvent Bool → Bool) (s : Classroom Bool)
    (e : ClassEvent Bool) : Option (Classroom Bool) :=
  if test s e = true ∧ s.Enabled e then s.next lesson ⟨0, false⟩ e else none

/-- Nothing is on its way, by the connections the server knows and the current ones. -/
def quietly (s : Classroom Bool) : Bool :=
  (s.server.heap.entries.all fun e => decide (s.up e.1 = [])) &&
    decide (∀ p, ∀ a ∈ s.connection p, s.down a = [])

/-- What is computed to be quiet is quiet. -/
lemma quiet_of_quietly {s : Classroom Bool} (h : s.quietly = true) : s.Quiet := by
  simp only [quietly, Bool.and_eq_true, List.all_eq_true, decide_eq_true_eq] at h
  refine ⟨fun a hopen => ?_, fun p a hconnection => h.2 p a hconnection⟩
  obtain ⟨o, ho⟩ := Option.isSome_iff_exists.mp (isSome_of_isOpen hopen)
  exact h.1 (a, o) (OrderedMap.find_eq_some.mp ho)

/-- The student logs in before the teacher and is granted the board. -/
def granting : List (ClassEvent Bool) :=
  [.connect false 1, .serverRead 1, .deliver false ⟨[]⟩, .connect true 2, .serverRead 2,
    .deliver true ⟨[]⟩, .deliver false ⟨[]⟩, .apply false, .serverRead 1, .deliver true ⟨[]⟩,
    .answer true 0 true, .serverRead 2, .deliver true ⟨[]⟩, .deliver false ⟨[]⟩]

/-- The teacher loses its connection and logs in again. -/
def returning : List (ClassEvent Bool) :=
  [.disconnect true 0, .connect true 3, .serverRead 3, .deliver true ⟨[]⟩, .deliver false ⟨[]⟩]

/-- Once the student has been granted the board, the teacher does not control it. -/
theorem single_controller_granting : ∃ s : Classroom Bool, s.Quiet ∧ s.Connected true ∧
    s.Connected false ∧ (s.widget false).controlingBoard = true ∧
      (s.widget true).controlingBoard ≠ true := by
  have hrun : ((granting.foldlM (tryNext fun s e => decide (s.Condition lesson ⟨0, false⟩ e))
      new).map fun s => s.quietly && decide (s.connection true = some 2) && s.server.isOpen 2 &&
        decide (s.connection false = some 1) && s.server.isOpen 1 &&
          (s.widget false).controlingBoard) = some true := by
    decide +kernel
  obtain ⟨s, hs, hfinal⟩ := Option.map_eq_some_iff.mp hrun
  simp only [Bool.and_eq_true, decide_eq_true_eq] at hfinal
  obtain ⟨⟨⟨⟨⟨hquiet, hteacher⟩, hteacher'⟩, hstudent⟩, hstudent'⟩, hflag⟩ := hfinal
  have hreachable : ((system lesson ⟨0, false⟩).guarded fun s e =>
      s.Condition lesson ⟨0, false⟩ e).Reachable s := by
    refine System.Reachable.foldlM (fun s e t h => ?_) rfl hs
    unfold tryNext at h
    split_ifs at h with htest
    exact ⟨of_decide_eq_true htest.1, htest.2, h⟩
  refine ⟨s, quiet_of_quietly hquiet, ⟨2, hteacher, hteacher'⟩, ⟨1, hstudent, hstudent'⟩, hflag,
    fun hboth => ?_⟩
  have hsame := single_controller hreachable (quiet_of_quietly hquiet) ⟨2, hteacher, hteacher'⟩
    ⟨1, hstudent, hstudent'⟩ hboth hflag
  cases hsame

/-- When the teacher comes back while the student controls the board, both do. -/
theorem two_controllers : ∃ s : Classroom Bool, (system lesson ⟨0, false⟩).Reachable s ∧ s.Quiet ∧
    s.Connected true ∧ s.Connected false ∧ (s.widget true).controlingBoard = true ∧
      (s.widget false).controlingBoard = true := by
  have hrun : (((granting ++ returning).foldlM (tryNext fun _ _ => true) new).map fun s =>
      s.quietly && decide (s.connection true = some 3) && s.server.isOpen 3 &&
        decide (s.connection false = some 1) && s.server.isOpen 1 &&
          (s.widget true).controlingBoard && (s.widget false).controlingBoard) = some true := by
    decide +kernel
  obtain ⟨s, hs, hfinal⟩ := Option.map_eq_some_iff.mp hrun
  simp only [Bool.and_eq_true, decide_eq_true_eq] at hfinal
  obtain ⟨⟨⟨⟨⟨⟨hquiet, hteacher⟩, hteacher'⟩, hstudent⟩, hstudent'⟩, hflag⟩, hflag'⟩ := hfinal
  refine ⟨s, ?_, quiet_of_quietly hquiet, ⟨3, hteacher, hteacher'⟩, ⟨1, hstudent, hstudent'⟩, hflag,
    hflag'⟩
  refine System.Reachable.foldlM (fun s e t h => ?_) rfl hs
  unfold tryNext at h
  split_ifs at h with htest
  exact ⟨htest.2, h⟩

end Classroom

end Liangshi
