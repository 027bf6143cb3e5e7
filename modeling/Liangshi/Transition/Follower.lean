import Liangshi.Transition.System

/-!
# Followers of a log

A leader moves from view to view by the changes of a system and puts them in a queue; now and then it puts
the whole view there.  A follower takes the queue in from its front.

`Leads P us v` says that a follower of which `P` holds comes to the view `v` of the leader with what is
in the queue: the changes lead there from a view that `P` allows, or from the last whole view.  The leader
keeps it by whatever it puts in the queue, and the follower by whatever it takes in, as long as it can
carry out a change of a view that it has (`Leads.take`).  What it does before a whole view comes in does
not matter.
-/

namespace Transition

/-- What a leader puts in the queue. -/
inductive Update (V R : Type) where
  | change (r : R)
  | snapshot (v : V)

variable {V R : Type} {S : System V R} {P P' : V → Prop} {us : List (Update V R)} {v w : V}

/-- The updates in a queue lead a follower to a view. -/
inductive Leads (S : System V R) (P : V → Prop) : List (Update V R) → V → Prop where
  | has {v : V} : P v → Leads S P [] v
  | change {us : List (Update V R)} {v w : V} {r : R} : Leads S P us v → S.step v r w →
    Leads S P (us ++ [.change r]) w
  | snapshot (us : List (Update V R)) (v : V) : Leads S P (us ++ [.snapshot v]) v

namespace Leads

/-- A follower that has taken in everything has the view. -/
lemma of_nil (h : Leads S P [] v) : P v := by
  generalize hus : ([] : List (Update V R)) = us at h
  cases h with
  | has hv => exact hv
  | change => exact absurd hus.symm (List.append_ne_nil_of_right_ne_nil _ (List.cons_ne_nil _ _))
  | snapshot => exact absurd hus.symm (List.append_ne_nil_of_right_ne_nil _ (List.cons_ne_nil _ _))

/-- The leader puts several changes in the queue. -/
lemma run (h : Leads S P us v) {rs : List R} (hrun : S.Run v rs w) :
    Leads S P (us ++ rs.map .change) w := by
  induction hrun with
  | nil => rwa [List.map_nil, List.append_nil]
  | snoc _ hstep ih =>
    rw [List.map_append, ← List.append_assoc]
    exact ih.change hstep

/-- The leader puts any updates in the queue, and a whole view behind them. -/
lemma updates_snapshot (us us' : List (Update V R)) (v : V) :
    Leads S P (us ++ (us' ++ [.snapshot v])) v := by
  rw [← List.append_assoc]
  exact .snapshot _ v

/-- A queue with something in it has a front and a back. -/
lemma cons_eq_append {α : Type} {a b : α} {l front : List α} (h : a :: l = front ++ [b]) :
    l = [] ∧ front = [] ∧ b = a ∨ ∃ others, l = others ++ [b] ∧ front = a :: others := by
  cases front with
  | nil =>
    obtain ⟨rfl, rfl⟩ := List.cons.inj h
    exact .inl ⟨rfl, rfl, rfl⟩
  | cons c others =>
    obtain ⟨rfl, rfl⟩ := List.cons.inj h
    exact .inr ⟨others, rfl, rfl⟩

/-- The follower takes in an update.  A change is carried out on a view that the follower has, and a whole
view is taken over. -/
lemma take {u : Update V R} (h : Leads S P (u :: us) w)
    (hchange : ∀ r, u = .change r → ∀ v v', P v → S.step v r v' → P' v')
    (hsnapshot : ∀ v, u = .snapshot v → P' v) : Leads S P' us w := by
  generalize hqueue : u :: us = queue at h
  induction h generalizing us with
  | has => cases hqueue
  | @change front v w r hfront hstep ih =>
    rcases cons_eq_append hqueue with ⟨rfl, rfl, hu⟩ | ⟨others, rfl, rfl⟩
    · exact .has (hchange r hu.symm v w hfront.of_nil hstep)
    · exact (ih rfl).change hstep
  | snapshot front v =>
    rcases cons_eq_append hqueue with ⟨rfl, -, hu⟩ | ⟨others, rfl, rfl⟩
    · exact .has (hsnapshot v hu.symm)
    · exact .snapshot others v

end Leads

end Transition
