import Mathlib.Data.List.Destutter
import Mathlib.Data.List.GetD
import Mathlib.Tactic.Lemma

/-!
# Thinning out a list

A part of a list that keeps its order and its ends, as it is left by taking the items at increasing
indices from the first to the last, or by dropping the repetitions of neighbours.
-/

namespace Ordered

variable {α : Type}

/-- A part of a list that keeps its ends. -/
structure Thins (whole part : List α) : Prop where
  sublist : part.Sublist whole
  head : part.head? = whole.head?
  last : part.getLast? = whole.getLast?

/-- A list thins itself. -/
lemma Thins.refl (whole : List α) : Thins whole whole := ⟨.refl whole, rfl, rfl⟩

/-- What thins a thinned list thins the whole one. -/
lemma Thins.trans {whole part part' : List α} (h : Thins whole part) (h' : Thins part part') :
    Thins whole part' :=
  ⟨h'.sublist.trans h.sublist, h'.head.trans h.head, h'.last.trans h.last⟩

/-- The items at increasing indices from the first to the last. -/
lemma thins_map_getD [Zero α] {d : List α} {indices : List Nat} (h : indices.Pairwise (· < ·))
    (hhead : indices.head? = some 0) (hlast : indices.getLast? = some (d.length - 1))
    (hne : d ≠ []) : Thins d (indices.map (d.getD · 0)) := by
  have hpos : 0 < d.length := List.length_pos_iff.mpr hne
  have hlt : ∀ i ∈ indices, i < d.length := by
    intro i hi
    obtain ⟨front, hfront⟩ := List.getLast?_eq_some_iff.mp hlast
    rw [hfront] at h hi
    obtain hi | hi := List.mem_append.mp hi
    · have := (List.pairwise_append.mp h).2.2 i hi (d.length - 1) (by simp)
      omega
    · rw [List.mem_singleton.mp hi]
      omega
  have hget : ∀ i ∈ indices, ∀ (_ : i < d.length) (hi : i < d.length),
      d.getD i 0 = d[(⟨i, hi⟩ : Fin d.length)] := fun i _ _ hi => List.getD_eq_getElem d 0 hi
  refine ⟨?_, ?_, ?_⟩
  · have hincreasing : (indices.pmap Fin.mk hlt).Pairwise (· < ·) :=
      (List.pairwise_pmap hlt).mpr (h.imp fun hij _ _ => hij)
    have hitems : (indices.pmap Fin.mk hlt).map (fun i => d[i]) = indices.map (d.getD · 0) := by
      rw [List.map_pmap, ← List.pmap_eq_map hlt]
      exact (List.pmap_congr_left indices hget).symm
    rw [← hitems]
    exact List.map_getElem_sublist hincreasing
  · rw [List.head?_map, hhead, Option.map_some, List.getD_eq_getElem _ _ hpos,
      List.head?_eq_getElem?, List.getElem?_eq_getElem hpos]
  · rw [List.getLast?_map, hlast, Option.map_some, List.getD_eq_getElem _ _ (by omega),
      List.getLast?_eq_getElem?, List.getElem?_eq_getElem (by omega)]

/-- A list of different neighbours has one item at most when all are the same. -/
lemma forall_eq_iff_of_isChain {l : List α} (h : l.IsChain (· ≠ ·)) :
    (∀ x ∈ l, ∀ y ∈ l, x = y) ↔ l.length ≤ 1 := by
  match l, h with
  | [], _ | [_], _ => simp
  | a :: b :: l, h =>
    have hab : a ≠ b := (List.isChain_cons_cons.mp h).1
    simp [hab]

variable [DecidableEq α]

/-- What dropping repeated neighbours keeps. -/
lemma thins_destutter (l : List α) : Thins l (l.destutter (· ≠ ·)) := by
  have hcons : ∀ (l : List α) (a : α), Thins (a :: l) (l.destutter' (· ≠ ·) a) := by
    intro l
    induction l with
    | nil => exact fun a => .refl [a]
    | cons b l ih =>
      intro a
      by_cases hab : a = b
      · subst hab
        rw [List.destutter'_cons_neg _ (by simp)]
        have hrest := ih a
        refine ⟨hrest.sublist.trans (List.sublist_cons_self a _), hrest.head, ?_⟩
        rw [hrest.last, List.getLast?_cons_cons]
      · rw [List.destutter'_cons_pos _ hab]
        have hrest := ih b
        refine ⟨hrest.sublist.cons_cons a, rfl, ?_⟩
        have hne : l.destutter' (· ≠ ·) b ≠ [] := List.destutter'_ne_nil l _
        rw [List.getLast?_cons_of_ne_nil hne, hrest.last, List.getLast?_cons_cons]
  cases l with
  | nil => exact .refl []
  | cons a l => exact hcons l a

/-- Dropping repeated neighbours drops no item altogether. -/
lemma mem_destutter_iff {l : List α} {x : α} : x ∈ l.destutter (· ≠ ·) ↔ x ∈ l := by
  have hcons : ∀ (l : List α) (a : α), x ∈ l.destutter' (· ≠ ·) a ↔ x ∈ a :: l := by
    intro l
    induction l with
    | nil => exact fun _ => Iff.rfl
    | cons b l ih =>
      intro a
      by_cases hab : a = b
      · subst hab
        rw [List.destutter'_cons_neg _ (by simp), ih a]
        simp
      · rw [List.destutter'_cons_pos _ hab, List.mem_cons, ih b, List.mem_cons (a := x) (b := a)]
  cases l with
  | nil => exact Iff.rfl
  | cons a l => exact hcons l a

/-- What is left has one item at most exactly if all items are the same. -/
lemma length_destutter_le_one_iff (l : List α) :
    (l.destutter (· ≠ ·)).length ≤ 1 ↔ ∀ x ∈ l, ∀ y ∈ l, x = y := by
  rw [← forall_eq_iff_of_isChain (l.isChain_destutter _)]
  simp only [mem_destutter_iff]

end Ordered
