import Mathlib.Tactic.Lemma
import Mathlib.Data.List.Lex
import Mathlib.Order.Lattice
import Mathlib.Data.UInt
import Mathlib.Data.List.Pairwise

/-!
# Ordered sets

Finite sets kept as strictly increasing lists, as a balanced search tree enumerates them:
insertion, removal and the enumeration order.  That the list increases is a field, so no element
is listed twice.
-/

/-- Bytes are ordered as unsigned numbers. -/
instance Ordered.byteLinearOrder : LinearOrder UInt8 where
  le_refl := UInt8.le_refl
  le_trans _ _ _ := UInt8.le_trans
  le_antisymm _ _ := UInt8.le_antisymm
  le_total := UInt8.le_total
  lt_iff_le_not_ge _ _ := by
    simp only [UInt8.lt_iff_toNat_lt, UInt8.le_iff_toNat_le]
    omega
  toDecidableLE := inferInstance
  toDecidableEq := inferInstance
  toDecidableLT := inferInstance

namespace Ordered

variable {α : Type}

/-- A finite set, enumerated in increasing order. -/
structure OrderedSet (α : Type) [LinearOrder α] where
  elems : List α
  increasing : elems.Pairwise (· < ·)

namespace OrderedSet

variable [LinearOrder α]

instance : DecidableEq (OrderedSet α) := fun s t =>
  decidable_of_iff (s.elems = t.elems) (by cases s; cases t; simp)

instance : Membership α (OrderedSet α) := ⟨fun s a => a ∈ s.elems⟩

instance (a : α) (s : OrderedSet α) : Decidable (a ∈ s) := inferInstanceAs (Decidable (a ∈ s.elems))

/-- Membership is that in the list of elements. -/
lemma mem_def {a : α} {s : OrderedSet α} : a ∈ s ↔ a ∈ s.elems := Iff.rfl

/-- The set without members. -/
def empty : OrderedSet α := ⟨[], List.Pairwise.nil⟩

/-- Nothing is in the empty set. -/
@[simp] lemma not_mem_empty (a : α) : a ∉ (empty : OrderedSet α) := by simp [mem_def, empty]

/-- A set without members is the empty one. -/
lemma eq_empty_of_forall {s : OrderedSet α} (h : ∀ a, a ∉ s) : s = empty := by
  obtain ⟨l, hl⟩ := s
  obtain rfl : l = [] := List.eq_nil_iff_forall_not_mem.mpr h
  rfl

/-- Put an element in its place in an increasing list, unless it is there. -/
def insertElem (a : α) : List α → List α
  | [] => [a]
  | b :: l => if a < b then a :: b :: l else if b < a then b :: insertElem a l else b :: l

/-- Insertion adds one element. -/
lemma mem_insertElem {a x : α} {l : List α} : x ∈ insertElem a l ↔ x = a ∨ x ∈ l := by
  induction l with
  | nil => simp [insertElem]
  | cons b l ih =>
    unfold insertElem
    split_ifs with hab hba
    · simp
    · simp only [List.mem_cons, ih]
      exact or_left_comm
    · obtain rfl : a = b := le_antisymm (not_lt.mp hba) (not_lt.mp hab)
      simp

/-- Insertion keeps a list increasing. -/
lemma increasing_insertElem {a : α} {l : List α} (h : l.Pairwise (· < ·)) :
    (insertElem a l).Pairwise (· < ·) := by
  induction l with
  | nil => simp [insertElem]
  | cons b l ih =>
    obtain ⟨hb, hl⟩ := List.pairwise_cons.mp h
    unfold insertElem
    split_ifs with hab hba
    · refine List.pairwise_cons.mpr ⟨fun x hx => ?_, h⟩
      rcases List.mem_cons.mp hx with rfl | hx
      · exact hab
      · exact lt_trans hab (hb x hx)
    · refine List.pairwise_cons.mpr ⟨fun x hx => ?_, ih hl⟩
      rcases mem_insertElem.mp hx with rfl | hx
      · exact hba
      · exact hb x hx
    · exact h

/-- Insert an element. -/
def insert (a : α) (s : OrderedSet α) : OrderedSet α :=
  ⟨insertElem a s.elems, increasing_insertElem s.increasing⟩

/-- What is in a set with one more element. -/
@[simp] lemma mem_insert {a x : α} {s : OrderedSet α} : x ∈ s.insert a ↔ x = a ∨ x ∈ s :=
  mem_insertElem

/-- Keep the elements that pass a test. -/
def filter (p : α → Bool) (s : OrderedSet α) : OrderedSet α :=
  ⟨s.elems.filter p, s.increasing.filter p⟩

/-- What is in the part of a set. -/
@[simp] lemma mem_filter {p : α → Bool} {x : α} {s : OrderedSet α} :
    x ∈ s.filter p ↔ x ∈ s ∧ p x = true :=
  List.mem_filter

/-- Remove an element. -/
def erase (a : α) (s : OrderedSet α) : OrderedSet α :=
  s.filter fun x => x ≠ a

/-- What is in a set without an element. -/
@[simp] lemma mem_erase {a x : α} {s : OrderedSet α} : x ∈ s.erase a ↔ x ∈ s ∧ x ≠ a := by
  simp [erase]

/-- A search in an increasing list finds the least element that passes the test. -/
lemma le_of_find?_elems {p : α → Bool} {a x : α} {l : List α} (hl : l.Pairwise (· < ·))
    (h : l.find? p = some a) (hx : x ∈ l) (hpx : p x) : a ≤ x := by
  induction l with
  | nil => cases h
  | cons b l ih =>
    obtain ⟨hb, hl⟩ := List.pairwise_cons.mp hl
    by_cases hpb : p b
    · rw [List.find?_cons_of_pos hpb] at h
      obtain rfl := Option.some.inj h
      rcases List.mem_cons.mp hx with rfl | hx
      · exact le_rfl
      · exact (hb x hx).le
    · rw [List.find?_cons_of_neg hpb] at h
      rcases List.mem_cons.mp hx with rfl | hx
      · exact absurd hpx hpb
      · exact ih hl h hx

/-- A search in the enumeration finds the least element that passes the test. -/
lemma le_of_find? {p : α → Bool} {a x : α} {s : OrderedSet α} (h : s.elems.find? p = some a)
    (hx : x ∈ s) (hpx : p x) : a ≤ x :=
  le_of_find?_elems s.increasing h hx hpx

/-- The enumeration lists no element twice. -/
lemma nodup (s : OrderedSet α) : s.elems.Nodup :=
  s.increasing.imp fun h => ne_of_lt h

end OrderedSet

end Ordered
