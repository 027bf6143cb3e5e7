import Mathlib.Data.List.Nodup
import Liangshi.Transition.System

/-!
# Arrangements

Things that are drawn one above the other, the last one on top.  One more is shown, or one of them is
hidden or moved to an end.  `arrangement` is the system of these changes, in which nothing is shown twice.

A change of the things is the same change of their names, as long as nothing that is there shares a name
with the thing that is changed (`Rearrangement.filterMap_apply`).  Names are given by a partial function.
-/

namespace Ordered

open Transition

variable {α β : Type} [DecidableEq α] [DecidableEq β]

/-- Move a thing above the others, if it is there. -/
def toTop (a : α) (l : List α) : List α := if a ∈ l then l.erase a ++ [a] else l

/-- Move a thing below the others, if it is there. -/
def toBottom (a : α) (l : List α) : List α := if a ∈ l then a :: l.erase a else l

/-- A change of an arrangement, by what is changed. -/
inductive Rearrangement (α : Type) where
  | «show» (a : α)
  | hide (a : α)
  | top (a : α)
  | bottom (a : α)

namespace Rearrangement

/-- What is changed. -/
def subject : Rearrangement α → α
  | .show a | hide a | top a | bottom a => a

/-- The same change of something else. -/
def of (b : β) : Rearrangement α → Rearrangement β
  | .show _ => .show b
  | hide _ => hide b
  | top _ => top b
  | bottom _ => bottom b

/-- What a change does. -/
def apply (l : List α) : Rearrangement α → List α
  | .show a => l ++ [a]
  | hide a => l.erase a
  | top a => toTop a l
  | bottom a => toBottom a l

/-- What is shown is not there yet. -/
def Fits (l : List α) : Rearrangement α → Prop
  | .show a => a ∉ l
  | hide _ | top _ | bottom _ => True

end Rearrangement

/-- Arrangements and their changes. -/
def arrangement (α : Type) [DecidableEq α] : System (List α) (Rearrangement α) where
  init l := l = []
  step l r l' := r.Fits l ∧ l' = r.apply l

/-! ## Changes keep things apart -/

/-- Moving an item to the top only rearranges the list. -/
lemma perm_toTop (a : α) (l : List α) : (toTop a l).Perm l := by
  unfold toTop
  split_ifs with ha
  · exact (List.perm_append_singleton a _).trans (List.perm_cons_erase ha).symm
  · exact .refl l

/-- Moving an item to the bottom only rearranges the list. -/
lemma perm_toBottom (a : α) (l : List α) : (toBottom a l).Perm l := by
  unfold toBottom
  split_ifs with ha
  · exact (List.perm_cons_erase ha).symm
  · exact .refl l

/-- A fitting change keeps all things different. -/
lemma Rearrangement.nodup_apply {r : Rearrangement α} {l : List α} (h : l.Nodup) (hr : r.Fits l) :
    (r.apply l).Nodup := by
  cases r with
  | «show» a => exact List.nodup_append.mpr ⟨h, List.nodup_singleton a, fun b hb c hc hbc =>
      hr (List.mem_singleton.mp hc ▸ hbc ▸ hb)⟩
  | hide a => exact h.erase a
  | top a => exact (perm_toTop a l).nodup_iff.mpr h
  | bottom a => exact (perm_toBottom a l).nodup_iff.mpr h

/-- What is there after a change was there before, or is what has been changed. -/
lemma Rearrangement.of_mem_apply {r : Rearrangement α} {b : α} {l : List α} (h : b ∈ r.apply l) :
    b = r.subject ∨ b ∈ l := by
  cases r with
  | «show» a =>
    rcases List.mem_append.mp h with h | h
    · exact .inr h
    · exact .inl (List.mem_singleton.mp h)
  | hide a => exact .inr (List.mem_of_mem_erase h)
  | top a => exact .inr ((perm_toTop a l).mem_iff.mp h)
  | bottom a => exact .inr ((perm_toBottom a l).mem_iff.mp h)

/-- Something that is not there is not hidden or moved. -/
lemma Rearrangement.apply_of_not_mem {r : Rearrangement α} {l : List α} (hshow : ∀ a, r ≠ .show a)
    (h : r.subject ∉ l) : r.apply l = l := by
  cases r with
  | «show» a => exact absurd rfl (hshow a)
  | hide a => exact List.erase_of_not_mem h
  | top a => exact if_neg h
  | bottom a => exact if_neg h

/-! ## Names -/

section Names

variable {name : α → Option β} {a : α} {b : β} {l : List α}

/-- Only the thing itself has its name. -/
def Alone (name : α → Option β) (a : α) (l : List α) : Prop := ∀ c ∈ l, name c = name a → c = a

omit [DecidableEq α] [DecidableEq β] in
/-- The name of a thing that is alone with it is among the names exactly when the thing is there. -/
lemma Alone.mem_filterMap (h : Alone name a l) (hb : name a = some b) :
    b ∈ l.filterMap name ↔ a ∈ l := by
  rw [List.mem_filterMap]
  constructor
  · rintro ⟨c, hc, hname⟩
    rwa [← h c hc (hname.trans hb.symm)]
  · intro ha
    exact ⟨a, ha, hb⟩

/-- Without a thing its name is gone. -/
lemma Alone.filterMap_erase (h : Alone name a l) (hb : name a = some b) :
    (l.erase a).filterMap name = (l.filterMap name).erase b := by
  induction l with
  | nil => rfl
  | cons c l ih =>
    have hothers : Alone name a l := fun d hd => h d (List.mem_cons_of_mem c hd)
    by_cases hca : c = a
    · subst hca
      rw [List.erase_cons_head, List.filterMap_cons_some hb, List.erase_cons_head]
    · rw [List.erase_cons_tail (by simpa using hca)]
      cases hc : name c with
      | none => rw [List.filterMap_cons_none hc, List.filterMap_cons_none hc, ih hothers]
      | some d =>
        have hdb : d ≠ b := by
          rintro rfl
          exact hca (h c List.mem_cons_self (hc.trans hb.symm))
        rw [List.filterMap_cons_some hc, List.filterMap_cons_some hc,
          List.erase_cons_tail (by simpa using hdb), ih hothers]

/-- The names after a thing has been moved above the others. -/
lemma Alone.filterMap_toTop (h : Alone name a l) (hb : name a = some b) :
    (toTop a l).filterMap name = toTop b (l.filterMap name) := by
  simp only [toTop, h.mem_filterMap hb]
  split_ifs
  · rw [List.filterMap_append, h.filterMap_erase hb, List.filterMap_cons_some hb, List.filterMap_nil]
  · rfl

/-- The names after a thing has been moved below the others. -/
lemma Alone.filterMap_toBottom (h : Alone name a l) (hb : name a = some b) :
    (toBottom a l).filterMap name = toBottom b (l.filterMap name) := by
  simp only [toBottom, h.mem_filterMap hb]
  split_ifs
  · rw [List.filterMap_cons_some hb, h.filterMap_erase hb]
  · rfl

/-- A change of things is the same change of their names. -/
lemma Rearrangement.filterMap_apply {r : Rearrangement α} (h : Alone name r.subject l)
    (hb : name r.subject = some b) : (r.apply l).filterMap name = (r.of b).apply (l.filterMap name) := by
  cases r with
  | «show» a =>
    have hname : [a].filterMap name = [b] := by
      rw [List.filterMap_cons_some (show name a = some b from hb), List.filterMap_nil]
    exact List.filterMap_append.trans (congrArg _ hname)
  | hide a => exact h.filterMap_erase hb
  | top a => exact h.filterMap_toTop hb
  | bottom a => exact h.filterMap_toBottom hb

omit [DecidableEq α] [DecidableEq β] in
/-- A name that is shown is not there yet when the thing is not. -/
lemma Rearrangement.fits_of {r : Rearrangement α} (h : Alone name r.subject l)
    (hb : name r.subject = some b) : (r.of b).Fits (l.filterMap name) ↔ r.Fits l := by
  cases r with
  | «show» a => exact not_congr (h.mem_filterMap hb)
  | hide a => exact Iff.rfl
  | top a => exact Iff.rfl
  | bottom a => exact Iff.rfl

/-- Looking at a fitting change of things gives a run of one change of their names. -/
lemma run_filterMap {r : Rearrangement α} (h : Alone name r.subject l) (hb : name r.subject = some b)
    (hr : r.Fits l) : (arrangement β).Run (l.filterMap name) [r.of b] ((r.apply l).filterMap name) :=
  (System.Run.nil _).cons ⟨(Rearrangement.fits_of h hb).mpr hr, Rearrangement.filterMap_apply h hb⟩

end Names

end Ordered
