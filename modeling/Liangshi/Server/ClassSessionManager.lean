import Liangshi.Ordered.OrderedMap
import Liangshi.Wire.BigEndian

/-!
# Class sessions

`ClassSessionManager` of the server: the users of every class and the teacher of every class.
Users are referred to by address.  `RemoveUser` takes a user out of every class, but leaves the
loop over the teachers at the first entry it erases.
-/

namespace Liangshi

open Wire Ordered

/-- The address of a `User`. -/
abbrev Address := Nat

/-- `ClassSessionManager`: `_classUsers` and `_teachers`. -/
structure ClassSessionManager where
  classUsers : OrderedMap Bytes (OrderedSet Address)
  teachers : OrderedMap Bytes Address
deriving DecidableEq

namespace ClassSessionManager

/-- The constructor. -/
def new : ClassSessionManager := ⟨OrderedMap.empty, OrderedMap.empty⟩

/-- `GetClassUsers`. -/
def getClassUsers (m : ClassSessionManager) (classId : Bytes) : OrderedSet Address :=
  (m.classUsers.find classId).getD OrderedSet.empty

/-- `GetClassTeacher`; `none` for a null pointer. -/
def getClassTeacher (m : ClassSessionManager) (classId : Bytes) : Option Address :=
  m.teachers.find classId

/-- `AddClassUser`. -/
def addClassUser (m : ClassSessionManager) (classId : Bytes) (user : Address)
    (isTeacher : Bool) : ClassSessionManager where
  classUsers := m.classUsers.insert classId ((m.getClassUsers classId).insert user)
  teachers := if isTeacher then m.teachers.insert classId user else m.teachers

/-- `RemoveUser`. -/
def removeUser (m : ClassSessionManager) (user : Address) : ClassSessionManager where
  classUsers := m.classUsers.mapValues fun users => users.erase user
  teachers := m.teachers.eraseFirst fun teacher => decide (teacher = user)

variable {m : ClassSessionManager} {classId classId' : Bytes} {user user' : Address}

/-! ## What the operations do to a class -/

/-- A new manager has no users. -/
@[simp] lemma getClassUsers_new : new.getClassUsers classId = OrderedSet.empty := rfl

/-- A new manager has no teachers. -/
@[simp] lemma getClassTeacher_new : new.getClassTeacher classId = none := rfl

/-- Adding a user changes the users of its class only. -/
@[simp] lemma mem_getClassUsers_addClassUser {isTeacher : Bool} :
    user' ∈ (m.addClassUser classId user isTeacher).getClassUsers classId' ↔
      user' ∈ m.getClassUsers classId' ∨ classId = classId' ∧ user' = user := by
  unfold addClassUser getClassUsers
  simp only [OrderedMap.find_insert]
  split_ifs with h
  · subst h
    simp [or_comm]
  · simp [h]

/-- Adding a teacher replaces the teacher of its class. -/
@[simp] lemma getClassTeacher_addClassUser {isTeacher : Bool} :
    (m.addClassUser classId user isTeacher).getClassTeacher classId' =
      if isTeacher = true ∧ classId = classId' then some user
      else m.getClassTeacher classId' := by
  unfold addClassUser getClassTeacher
  cases isTeacher <;> simp

/-- Removing a user takes it out of every class. -/
@[simp] lemma mem_getClassUsers_removeUser :
    user' ∈ (m.removeUser user).getClassUsers classId ↔
      user' ∈ m.getClassUsers classId ∧ user' ≠ user := by
  unfold removeUser getClassUsers
  simp only [OrderedMap.find_mapValues]
  cases m.classUsers.find classId <;> simp

/-- Removing a user keeps the other teachers. -/
lemma getClassTeacher_removeUser_of_ne (h : user' ≠ user) :
    (m.removeUser user).getClassTeacher classId = some user' ↔
      m.getClassTeacher classId = some user' :=
  OrderedMap.find_eraseFirst_of_neg (by simpa using h)

/-- Removing a user makes nobody a teacher. -/
lemma getClassTeacher_of_removeUser
    (h : (m.removeUser user).getClassTeacher classId = some user') :
    m.getClassTeacher classId = some user' :=
  OrderedMap.find_of_find_eraseFirst h

/-! ## References to a user -/

/-- The classes a user is registered as the teacher of. -/
def taughtClasses (m : ClassSessionManager) (user : Address) : List Bytes :=
  (m.teachers.entries.filter fun e => decide (e.2 = user)).map Prod.fst

/-- A user is the teacher of exactly the classes listed. -/
lemma mem_taughtClasses : classId ∈ m.taughtClasses user ↔ m.getClassTeacher classId = some user := by
  unfold taughtClasses getClassTeacher
  rw [OrderedMap.find_eq_some]
  simp

/-- A user who is not the teacher of two classes is the teacher of one class at most. -/
lemma length_taughtClasses_le_one (h : ∀ classId classId', m.getClassTeacher classId = some user →
    m.getClassTeacher classId' = some user → classId = classId') :
    (m.taughtClasses user).length ≤ 1 := by
  have hnodup : (m.taughtClasses user).Nodup := by
    have hkeys := m.teachers.increasing
    refine List.Nodup.map_on ?_ ((hkeys.imp fun hlt heq => ?_).filter _)
    · intro e he e' he' heq
      rw [List.mem_filter, decide_eq_true_eq] at he he'
      exact Prod.ext heq (he.2.trans he'.2.symm)
    · rw [heq] at hlt
      exact lt_irrefl _ hlt
  cases htaught : m.taughtClasses user with
  | nil => exact Nat.zero_le 1
  | cons classId others =>
    have hsame : ∀ classId' ∈ m.taughtClasses user, classId' = classId := by
      intro classId' hmem
      refine h classId' classId (mem_taughtClasses.mp hmem) (mem_taughtClasses.mp ?_)
      rw [htaught]
      exact List.mem_cons_self
    have hsub : m.taughtClasses user ⊆ [classId] :=
      fun classId' hmem => List.mem_singleton.mpr (hsame classId' hmem)
    rw [← htaught]
    exact (hnodup.subperm hsub).length_le

/-- Of the classes a removed user was the teacher of, all but the first still refer to it. -/
lemma taughtClasses_removeUser : (m.removeUser user).taughtClasses user =
    (m.taughtClasses user).tail := by
  have hfilter := OrderedMap.filter_eraseP (fun teacher => decide (teacher = user))
    m.teachers.entries
  unfold taughtClasses removeUser OrderedMap.eraseFirst
  simp only [hfilter, List.map_tail]

/-- The store refers to a user as the member or as the teacher of a class. -/
def Mentions (m : ClassSessionManager) (user : Address) : Prop :=
  ∃ classId, user ∈ m.getClassUsers classId ∨ m.getClassTeacher classId = some user

/-- A new manager mentions nobody. -/
@[simp] lemma not_mentions_new : ¬ new.Mentions user := by
  simp [Mentions]

/-- Adding a user makes the store refer to no other. -/
lemma mentions_addClassUser {isTeacher : Bool}
    (h : (m.addClassUser classId user isTeacher).Mentions user') :
    m.Mentions user' ∨ user' = user := by
  obtain ⟨classId', hmem | hteacher⟩ := h
  · rcases mem_getClassUsers_addClassUser.mp hmem with hold | ⟨-, rfl⟩
    · exact Or.inl ⟨classId', Or.inl hold⟩
    · exact Or.inr rfl
  · rw [getClassTeacher_addClassUser] at hteacher
    split_ifs at hteacher with hnew
    · exact Or.inr (Option.some.inj hteacher).symm
    · exact Or.inl ⟨classId', Or.inr hteacher⟩

/-- Removing a user makes the store refer to nobody new. -/
lemma mentions_of_removeUser (h : (m.removeUser user).Mentions user') : m.Mentions user' := by
  obtain ⟨classId, hmem | hteacher⟩ := h
  · exact ⟨classId, Or.inl (mem_getClassUsers_removeUser.mp hmem).1⟩
  · exact ⟨classId, Or.inr (getClassTeacher_of_removeUser hteacher)⟩

/-- A removed user is referred to no more exactly when it was the teacher of one class at most. -/
theorem not_mentions_removeUser_iff :
    ¬ (m.removeUser user).Mentions user ↔ (m.taughtClasses user).length ≤ 1 := by
  have hlength : (m.taughtClasses user).length ≤ 1 ↔
      (m.removeUser user).taughtClasses user = [] := by
    rw [taughtClasses_removeUser, ← List.length_eq_zero_iff, List.length_tail]
    omega
  rw [hlength]
  constructor
  · intro h
    rw [List.eq_nil_iff_forall_not_mem]
    intro classId hmem
    exact h ⟨classId, Or.inr (mem_taughtClasses.mp hmem)⟩
  · rintro h ⟨classId, hmem | hteacher⟩
    · exact (mem_getClassUsers_removeUser.mp hmem).2 rfl
    · rw [← mem_taughtClasses, h] at hteacher
      exact List.not_mem_nil hteacher

end ClassSessionManager

end Liangshi
