import Liangshi.Server.SessionStore
import Mathlib.Data.Finset.Basic

/-!
# Who is to receive a command

What the relay is for, apart from the server's data structures.  A `Roster` knows the members and
the teacher of every class and the id of every user, `Roster.next` is what a command makes of it,
and `Roster.intended` is what a connection is to receive when a command is handled.  Folding over
the commands in the order they are handled gives all a connection is to receive
(`Roster.received`).

`Liangshi.Relay.Dispatch` connects it to the server: in a state that a roster represents, the handler
sends every connection what is intended for it, and the state after it represents the next
roster.
-/

namespace Liangshi

open Wire Ordered

/-- The members and the teacher of every class, and the id of every user. -/
structure Roster where
  members : Bytes → Finset Address
  teacher : Bytes → Option Address
  userId : Address → Bytes

/-- A command handled by the server, with the user it came from. -/
abbrev Handled := Address × LokiCommand

namespace Roster

/-- Nobody has logged in. -/
def empty : Roster := ⟨fun _ => ∅, fun _ => none, fun _ => []⟩

/-- A user has logged in to a class. -/
def login (roster : Roster) (user : Address) (identity : Identity) : Roster where
  members classId :=
    if identity.classId = classId then insert user (roster.members classId)
    else roster.members classId
  teacher classId :=
    if identity.isTeacher = true ∧ identity.classId = classId then some user
    else roster.teacher classId
  userId other := if user = other then identity.userId else roster.userId other

/-- The roster after a command. -/
def next (db : Database) (roster : Roster) (sender : Address) : LokiCommand → Roster
  | .boradLogin login =>
    match db.identify login.sessionId with
    | some identity => roster.login sender identity
    | none => roster
  | _ => roster

/-- What a connection is to receive when a command is handled. -/
def intended (db : Database) (roster : Roster) (sender receiver : Address) :
    LokiCommand → List LokiCommand
  | .boradLogin login =>
    match db.identify login.sessionId with
    | none =>
      if receiver = sender then [.boradLogin (NetCommandHandler.rejected login)] else []
    | some identity =>
      if receiver = sender then [.boradLogin (NetCommandHandler.accepted login identity)]
      else if receiver ∈ roster.members identity.classId then
        [.boradLogin (NetCommandHandler.peerNotice login identity)]
      else []
  | .hadesData hades =>
    if receiver ∈ roster.members hades.classId ∧ roster.userId receiver = hades.toId then
      [.hadesData hades]
    else []
  | .boardData data =>
    if receiver ∈ roster.members data.classId ∧ receiver ≠ sender then [.boardData data] else []
  | .applyBoard apply =>
    if apply.fromTeacher then
      if receiver ∈ roster.members apply.classId then [.applyBoard apply] else []
    else
      if roster.teacher apply.classId = some receiver then [.applyBoard apply] else []
  | .takeBoard take =>
    if receiver ∈ roster.members take.classId ∧ receiver ≠ sender then [.takeBoard take] else []
  | _ => []

/-- The roster after commands handled one after the other. -/
def after (db : Database) (roster : Roster) (handled : List Handled) : Roster :=
  handled.foldl (fun roster h => roster.next db h.1 h.2) roster

/-- All a connection is to receive when commands are handled one after the other. -/
def received (db : Database) (receiver : Address) : Roster → List Handled → List LokiCommand
  | _, [] => []
  | roster, (sender, c) :: handled =>
    roster.intended db sender receiver c ++ received db receiver (roster.next db sender c) handled

/-- What is received for commands handled later comes after what was received before. -/
lemma received_append (db : Database) (receiver : Address) (roster : Roster)
    (first others : List Handled) : roster.received db receiver (first ++ others) =
      roster.received db receiver first ++ (roster.after db first).received db receiver others := by
  induction first generalizing roster with
  | nil => rfl
  | cons h first ih =>
    obtain ⟨sender, c⟩ := h
    simp only [List.cons_append, received, ih, List.append_assoc, after, List.foldl_cons]

/-- The roster after more commands. -/
lemma after_append (db : Database) (roster : Roster) (first others : List Handled) :
    roster.after db (first ++ others) = (roster.after db first).after db others :=
  List.foldl_append

/-! ## Recipients and classes -/

/-- The class a command is for: the class it names, or the class a login is accepted to. -/
def classOf (db : Database) : LokiCommand → Option Bytes
  | .boradLogin login => (db.identify login.sessionId).map Identity.classId
  | .hadesData hades => some hades.classId
  | .boardData data => some data.classId
  | .applyBoard apply => some apply.classId
  | .takeBoard take => some take.classId
  | _ => none

/-- Every teacher is a member of the class. -/
def TeachersBelong (roster : Roster) : Prop :=
  ∀ classId user, roster.teacher classId = some user → user ∈ roster.members classId

/-- No two members of a class have the same id. -/
def DistinctIds (roster : Roster) (classId : Bytes) : Prop :=
  ∀ user ∈ roster.members classId, ∀ other ∈ roster.members classId,
    roster.userId user = roster.userId other → user = other

/-- An empty roster has no teachers. -/
lemma teachersBelong_empty : empty.TeachersBelong := by
  intro classId user h
  cases h

/-- A login as teacher is a login as member. -/
lemma TeachersBelong.login {roster : Roster} (h : roster.TeachersBelong) (user : Address)
    (identity : Identity) : (roster.login user identity).TeachersBelong := by
  intro classId teacher hteacher
  simp only [Roster.login] at hteacher ⊢
  split_ifs at hteacher with hnew
  · rw [if_pos hnew.2, ← Option.some.inj hteacher]
    exact Finset.mem_insert_self user _
  · have hmem := h classId teacher hteacher
    split_ifs
    · exact Finset.mem_insert_of_mem hmem
    · exact hmem

/-- A teacher stays a member of the class after one more command. -/
lemma TeachersBelong.next {roster : Roster} (h : roster.TeachersBelong) (db : Database)
    (sender : Address) (c : LokiCommand) : (roster.next db sender c).TeachersBelong := by
  unfold Roster.next
  split
  · split
    · exact h.login sender _
    · exact h
  · exact h

/-- So it does after many. -/
lemma TeachersBelong.after {roster : Roster} (h : roster.TeachersBelong) (db : Database)
    (handled : List Handled) : (roster.after db handled).TeachersBelong := by
  induction handled generalizing roster with
  | nil => exact h
  | cons first handled ih => exact ih (h.next db first.1 first.2)

/-- Who receives a command is a member of the class it is for; a command for no class is answered
to its sender only. -/
theorem recipient_mem {roster : Roster} (h : roster.TeachersBelong) {db : Database}
    {sender receiver : Address} {c : LokiCommand}
    (hreceives : roster.intended db sender receiver c ≠ []) :
    match classOf db c with
    | some classId => receiver ∈ (roster.next db sender c).members classId
    | none => receiver = sender := by
  cases c with
  | boradLogin login =>
    simp only [intended, classOf, next] at hreceives ⊢
    cases hidentity : db.identify login.sessionId with
    | none =>
      simp only [hidentity] at hreceives ⊢
      by_contra hne
      exact hreceives (if_neg hne)
    | some identity =>
      simp only [hidentity, Option.map_some, Roster.login, if_true] at hreceives ⊢
      split_ifs at hreceives with heq hmem
      · rw [heq]
        exact Finset.mem_insert_self _ _
      · exact Finset.mem_insert_of_mem hmem
      · exact absurd rfl hreceives
  | hadesData hades =>
    simp only [intended] at hreceives
    split_ifs at hreceives with hmem
    · exact hmem.1
    · exact absurd rfl hreceives
  | boardData data =>
    simp only [intended] at hreceives
    split_ifs at hreceives with hmem
    · exact hmem.1
    · exact absurd rfl hreceives
  | applyBoard apply =>
    simp only [intended] at hreceives
    split_ifs at hreceives with hteacher hmem hmem
    · exact hmem
    · exact absurd rfl hreceives
    · exact h _ _ hmem
    · exact absurd rfl hreceives
  | takeBoard take =>
    simp only [intended] at hreceives
    split_ifs at hreceives with hmem
    · exact hmem.1
    · exact absurd rfl hreceives
  | login c => exact absurd rfl hreceives
  | chat c => exact absurd rfl hreceives
  | getFriendList c => exact absurd rfl hreceives
  | serverNotifyRelogin c => exact absurd rfl hreceives
  | serverNotifyLostConnection c => exact absurd rfl hreceives

/-- With distinct ids, peer data has one recipient at most. -/
lemma hadesData_unique {roster : Roster} {hades : HadesDataCommand}
    (h : roster.DistinctIds hades.classId) {db : Database} {sender receiver other : Address}
    (hreceiver : roster.intended db sender receiver (.hadesData hades) ≠ [])
    (hother : roster.intended db sender other (.hadesData hades) ≠ []) : receiver = other := by
  simp only [intended] at hreceiver hother
  split_ifs at hreceiver hother with hmem hmem'
  · exact h _ hmem.1 _ hmem'.1 (hmem.2.trans hmem'.2.symm)
  all_goals contradiction

end Roster

end Liangshi
