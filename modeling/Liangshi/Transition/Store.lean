import Liangshi.Transition.System

/-!
# Working on a store

A worker has a state of its own and opens a store now and then to change what is in it.  What the worker
does does not depend on what is stored, so that a store can be replaced by another one: when every change
of the first is a change of the second, between contents that stand for each other, the runs over the first
are runs over the second (`Worker.run_refines`).
-/

namespace Transition

variable {Q σ τ ε ι : Type}

/-- What a store holds at first, and what can become of it when it is changed. -/
structure Store (σ ι : Type) where
  init : σ → Prop
  change : σ → ι → σ → Prop

/-- A worker: what it does at an event, and how it changes the store if it opens it. -/
structure Worker (Q ε ι : Type) where
  init : Q → Prop
  step : Q → ε → Option ι → Q → Prop

/-- The changes of a store are changes of another one, between contents in a relation. -/
def Store.Refines (R : σ → τ → Prop) (C : Store σ ι) (A : Store τ ι) : Prop :=
  ∀ c a i c', R c a → C.change c i c' → ∃ a', A.change a i a' ∧ R c' a'

/-- The store after a step. -/
def Store.After (C : Store σ ι) (c : σ) (i : Option ι) (c' : σ) : Prop :=
  match i with
  | none => c' = c
  | some i => C.change c i c'

namespace Worker

/-- A worker at work on a store. -/
def workingOn (w : Worker Q ε ι) (C : Store σ ι) : System (Q × σ) ε where
  init s := w.init s.1 ∧ C.init s.2
  step s e t := ∃ i, w.step s.1 e i t.1 ∧ C.After s.2 i t.2

/-- A worker whatever is stored. -/
def alone (w : Worker Q ε ι) : System Q ε where
  init := w.init
  step q e q' := ∃ i, w.step q e i q'

/-- A run over a store is a run over every store that it refines. -/
theorem run_refines {R : σ → τ → Prop} {C : Store σ ι} {A : Store τ ι} (h : C.Refines R A)
    {w : Worker Q ε ι} {s t : Q × σ} {es : List ε} (hrun : (w.workingOn C).Run s es t) {a : τ}
    (ha : R s.2 a) :
    ∃ a', (w.workingOn A).Run (s.1, a) es (t.1, a') ∧ R t.2 a' := by
  induction hrun with
  | nil => exact ⟨a, .nil _, ha⟩
  | snoc _ hlast ih =>
    obtain ⟨a', hrun, ha'⟩ := ih
    obtain ⟨i, hstep, hafter⟩ := hlast
    cases i with
    | none =>
      have hsame : _ = _ := hafter
      exact ⟨a', hrun.snoc ⟨none, hstep, rfl⟩, hsame ▸ ha'⟩
    | some i =>
      obtain ⟨a'', hchange, ha''⟩ := h _ _ i _ ha' hafter
      exact ⟨a'', hrun.snoc ⟨some i, hstep, hchange⟩, ha''⟩

end Worker

end Transition
