import Mathlib.Order.Lattice
import Mathlib.Tactic.Lemma

/-!
# The running best of a scan

A loop that looks at the items of a list one after the other and remembers the best value so far with
the item that has it.  Which item the loop ends with is said by its place: it beats every item before
it, and no item behind it beats it.  A strict comparison so picks the first best item, and one that is
not strict the last.
-/

namespace Ordered

variable {K ι : Type}

/-- One turn: an item whose value beats the best one takes its place. -/
def keepBest (beats : K → K → Prop) [DecidableRel beats] (value : ι → K) (best : K × ι) (i : ι) :
    K × ι :=
  if beats (value i) best.1 then (value i, i) else best

/-- The item at a place of a list is the one that a scan of the list picks. -/
structure Picked (beats : K → K → Prop) (value : ι → K) (start : K) (l : List ι) (i : ι) : Prop where
  split : ∃ before behind, l = before ++ i :: behind ∧ (∀ j ∈ before, beats (value i) (value j)) ∧
    ∀ j ∈ behind, ¬ beats (value j) (value i)
  start : beats (value i) start

namespace Picked

variable {beats : K → K → Prop} {value : ι → K} {start : K} {l : List ι} {i : ι}

/-- The item is one of the list. -/
lemma mem (h : Picked beats value start l i) : i ∈ l := by
  obtain ⟨before, behind, rfl, -, -⟩ := h.split
  simp

end Picked

/-- What a scan ends with: the value it started from, which no item beats, or the picked item. -/
theorem foldl_keepBest (beats : K → K → Prop) [DecidableRel beats]
    (htrans : ∀ a b c, beats a b → beats b c → beats a c)
    (hcross : ∀ a b c, beats a b → ¬ beats c b → beats a c) (value : ι → K) (l : List ι)
    (best : K × ι) :
    (l.foldl (keepBest beats value) best = best ∧ ∀ i ∈ l, ¬ beats (value i) best.1) ∨
      ∃ i, l.foldl (keepBest beats value) best = (value i, i) ∧ Picked beats value best.1 l i := by
  induction l generalizing best with
  | nil => exact .inl ⟨rfl, by simp⟩
  | cons i l ih =>
    rw [List.foldl_cons]
    by_cases hi : beats (value i) best.1
    · have hstep : keepBest beats value best i = (value i, i) := if_pos hi
      rw [hstep]
      obtain ⟨hbest, hnone⟩ | ⟨j, hj, hpicked⟩ := ih (value i, i)
      · exact .inr ⟨i, hbest, ⟨[], l, rfl, by simp, hnone⟩, hi⟩
      · obtain ⟨before, behind, rfl, hbefore, hbehind⟩ := hpicked.split
        refine .inr ⟨j, hj, ⟨i :: before, behind, rfl, ?_, hbehind⟩,
          htrans _ _ _ hpicked.start hi⟩
        simp only [List.mem_cons, forall_eq_or_imp]
        exact ⟨hpicked.start, hbefore⟩
    · have hstep : keepBest beats value best i = best := if_neg hi
      rw [hstep]
      obtain ⟨hbest, hnone⟩ | ⟨j, hj, hpicked⟩ := ih best
      · refine .inl ⟨hbest, ?_⟩
        simp only [List.mem_cons, forall_eq_or_imp]
        exact ⟨hi, hnone⟩
      · obtain ⟨before, behind, rfl, hbefore, hbehind⟩ := hpicked.split
        refine .inr ⟨j, hj, ⟨i :: before, behind, rfl, ?_, hbehind⟩, hpicked.start⟩
        simp only [List.mem_cons, forall_eq_or_imp]
        exact ⟨hcross _ _ _ hpicked.start hi, hbefore⟩

section LinearOrder

variable [LinearOrder K] {value : ι → K} {start : K} {l : List ι} {i : ι}

/-- No value of the list is above that of the picked item. -/
lemma Picked.le_of_gt (h : Picked (· > ·) value start l i) : ∀ j ∈ l, value j ≤ value i := by
  obtain ⟨before, behind, rfl, hbefore, hbehind⟩ := h.split
  intro j hj
  obtain hj | rfl | hj := by simpa using hj
  · exact le_of_lt (hbefore j hj)
  · exact le_refl _
  · exact not_lt.mp (hbehind j hj)

/-- The same for a comparison that is not strict. -/
lemma Picked.le_of_ge (h : Picked (· ≥ ·) value start l i) : ∀ j ∈ l, value j ≤ value i := by
  obtain ⟨before, behind, rfl, hbefore, hbehind⟩ := h.split
  intro j hj
  obtain hj | rfl | hj := by simpa using hj
  · exact hbefore j hj
  · exact le_refl _
  · exact le_of_lt (not_le.mp (hbehind j hj))

/-- A scan for a value above the best one. -/
lemma foldl_keepBest_gt (value : ι → K) (l : List ι) (best : K × ι) :
    (l.foldl (keepBest (· > ·) value) best = best ∧ ∀ i ∈ l, ¬ value i > best.1) ∨
      ∃ i, l.foldl (keepBest (· > ·) value) best = (value i, i) ∧
        Picked (· > ·) value best.1 l i :=
  foldl_keepBest (· > ·) (fun _ _ _ h h' => lt_trans h' h)
    (fun _ _ _ h h' => lt_of_le_of_lt (not_lt.mp h') h) value l best

/-- A scan for a value that is not below the best one. -/
lemma foldl_keepBest_ge (value : ι → K) (l : List ι) (best : K × ι) :
    (l.foldl (keepBest (· ≥ ·) value) best = best ∧ ∀ i ∈ l, ¬ value i ≥ best.1) ∨
      ∃ i, l.foldl (keepBest (· ≥ ·) value) best = (value i, i) ∧
        Picked (· ≥ ·) value best.1 l i :=
  foldl_keepBest (· ≥ ·) (fun _ _ _ h h' => le_trans h' h)
    (fun _ _ _ h h' => le_trans (le_of_lt (not_le.mp h')) h) value l best

end LinearOrder

end Ordered
