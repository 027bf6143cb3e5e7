import Mathlib.Tactic.Lemma

/-!
# Labelled transition systems

A system has initial states and steps labelled with events.  `Reachable.invariant` is the rule
for properties of every reachable state: a property of the initial states that every step keeps.
`guarded` restricts a system to the steps that meet a condition, so that its reachable states are
those of the runs all of whose steps meet it.
-/

namespace Transition

/-- Initial states, and steps labelled with events. -/
structure System (σ ε : Type) where
  init : σ → Prop
  step : σ → ε → σ → Prop

namespace System

variable {σ ε : Type} {S : System σ ε}

/-- A run from one state to another, by the events of its steps. -/
inductive Run (S : System σ ε) : σ → List ε → σ → Prop where
  | nil (s : σ) : Run S s [] s
  | snoc {s t r : σ} {es : List ε} {e : ε} : Run S s es t → S.step t e r → Run S s (es ++ [e]) r

/-- A state some run from an initial state ends in. -/
def Reachable (S : System σ ε) (s : σ) : Prop :=
  ∃ s₀ es, S.init s₀ ∧ S.Run s₀ es s

/-- Initial states are reachable. -/
lemma Reachable.of_init {s : σ} (h : S.init s) : S.Reachable s := ⟨s, [], h, .nil s⟩

/-- A step leads to a reachable state. -/
lemma Reachable.step {s t : σ} {e : ε} (h : S.Reachable s) (hstep : S.step s e t) :
    S.Reachable t := by
  obtain ⟨s₀, es, hinit, hrun⟩ := h
  exact ⟨s₀, es ++ [e], hinit, hrun.snoc hstep⟩

/-- A property that every step keeps holds along a run. -/
lemma Run.invariant {I : σ → Prop} (hstep : ∀ s e t, I s → S.step s e t → I t) {s t : σ}
    {es : List ε} (h : S.Run s es t) (hs : I s) : I t := by
  induction h with
  | nil => exact hs
  | snoc _ hlast ih => exact hstep _ _ _ ih hlast

/-- A property of the initial states that every step keeps holds of every reachable state. -/
theorem Reachable.invariant {I : σ → Prop} (hinit : ∀ s, S.init s → I s)
    (hstep : ∀ s e t, I s → S.step s e t → I t) {s : σ} (h : S.Reachable s) : I s := by
  obtain ⟨s₀, es, hs₀, hrun⟩ := h
  exact hrun.invariant hstep (hinit s₀ hs₀)

/-- A step before a run makes a run. -/
lemma Run.cons {s t r : σ} {e : ε} {es : List ε} (hfirst : S.step s e t) (h : S.Run t es r) :
    S.Run s (e :: es) r := by
  induction h with
  | nil => exact (Run.nil s).snoc hfirst
  | snoc _ hlast ih => exact ih.snoc hlast

/-- Two runs one after the other. -/
lemma Run.append {s t r : σ} {es es' : List ε} (h : S.Run s es t) (h' : S.Run t es' r) :
    S.Run s (es ++ es') r := by
  induction h' with
  | nil => rwa [List.append_nil]
  | snoc _ hlast ih =>
    rw [← List.append_assoc]
    exact ih.snoc hlast

/-- Steps that a function computes make a run. -/
lemma Run.foldlM {next : σ → ε → Option σ} (hnext : ∀ s e t, next s e = some t → S.step s e t)
    {s t : σ} {es : List ε} (hrun : es.foldlM next s = some t) : S.Run s es t := by
  induction es generalizing s with
  | nil =>
    obtain rfl := Option.some.inj hrun
    exact .nil s
  | cons e es ih =>
    rw [List.foldlM_cons, Option.bind_eq_bind, Option.bind_eq_some_iff] at hrun
    obtain ⟨r, hfirst, hothers⟩ := hrun
    exact (ih hothers).cons (hnext s e r hfirst)

/-- A function that takes a step each time leads to a reachable state. -/
lemma Reachable.of_foldlM {α : Type} {next : σ → α → Option σ}
    (hnext : ∀ s a t, next s a = some t → ∃ e, S.step s e t) {s t : σ} (h : S.Reachable s)
    {l : List α} (hrun : l.foldlM next s = some t) : S.Reachable t := by
  induction l generalizing s with
  | nil =>
    obtain rfl := Option.some.inj hrun
    exact h
  | cons a l ih =>
    rw [List.foldlM_cons, Option.bind_eq_bind, Option.bind_eq_some_iff] at hrun
    obtain ⟨r, hfirst, hothers⟩ := hrun
    obtain ⟨e, hstep⟩ := hnext s a r hfirst
    exact ih (h.step hstep) hothers

/-- Steps that a function computes lead to a reachable state. -/
lemma Reachable.foldlM {next : σ → ε → Option σ} (hnext : ∀ s e t, next s e = some t → S.step s e t)
    {s t : σ} (h : S.init s) {es : List ε} (hrun : es.foldlM next s = some t) :
    S.Reachable t :=
  (Reachable.of_init h).of_foldlM (fun s e t hstep => ⟨e, hnext s e t hstep⟩) hrun

/-- Every step of the runs by a list of events meets a condition. -/
def EveryStep (S : System σ ε) (condition : σ → ε → Prop) (s₀ : σ) (es : List ε) : Prop :=
  ∀ first e others s t, es = first ++ e :: others → S.Run s₀ first s → S.step s e t → condition s e

/-- A run without steps stays where it is. -/
lemma Run.of_nil {s t : σ} (h : S.Run s [] t) : s = t := by
  generalize hevents : ([] : List ε) = events at h
  cases h with
  | nil => rfl
  | snoc => cases List.append_ne_nil_of_right_ne_nil _ (List.cons_ne_nil _ _) hevents.symm

/-- The first step of a run, and the run behind it. -/
lemma Run.of_cons {s r : σ} {e : ε} {es : List ε} (h : S.Run s (e :: es) r) :
    ∃ t, S.step s e t ∧ S.Run t es r := by
  generalize hevents : e :: es = events at h
  induction h generalizing es with
  | nil => cases hevents
  | @snoc t r front last hfront hlast ih =>
    cases front with
    | nil =>
      obtain ⟨rfl, rfl⟩ := List.cons.inj hevents
      obtain rfl := hfront.of_nil
      exact ⟨r, hlast, .nil r⟩
    | cons first front =>
      obtain ⟨rfl, rfl⟩ := List.cons.inj hevents
      obtain ⟨mid, hfirst, hrest⟩ := ih rfl
      exact ⟨mid, hfirst, hrest.snoc hlast⟩

/-- Without events there is no step. -/
lemma EveryStep.nil {condition : σ → ε → Prop} (s : σ) : S.EveryStep condition s [] := by
  intro first last others r t hnil
  exact absurd hnil.symm (List.append_ne_nil_of_right_ne_nil _ (List.cons_ne_nil _ _))

/-- Every step meets a condition when the first one does and so do those behind it. -/
lemma EveryStep.cons {condition : σ → ε → Prop} {s : σ} {e : ε} {es : List ε}
    (hfirst : condition s e) (h : ∀ t, S.step s e t → S.EveryStep condition t es) :
    S.EveryStep condition s (e :: es) := by
  intro first last others r t hes hrun hstep
  cases first with
  | nil =>
    obtain ⟨rfl, rfl⟩ := List.cons.inj hes
    obtain rfl := hrun.of_nil
    exact hfirst
  | cons _ first =>
    obtain ⟨rfl, rfl⟩ := List.cons.inj hes
    obtain ⟨mid, hmid, hrest⟩ := hrun.of_cons
    exact h mid hmid first last others r t rfl hrest hstep

/-- Conditions that agree at every step under an invariant hold of the same lists of events. -/
lemma everyStep_congr_of_invariant {I : σ → Prop} {P Q : σ → ε → Prop} {s₀ : σ} (hinit : I s₀)
    (hkept : ∀ s e t, I s → S.step s e t → I t) (h : ∀ s e t, I s → S.step s e t → (P s e ↔ Q s e))
    (es : List ε) : S.EveryStep P s₀ es ↔ S.EveryStep Q s₀ es := by
  constructor
  · intro hP first e others s t hes hrun hstep
    exact (h s e t (hrun.invariant hkept hinit) hstep).mp (hP first e others s t hes hrun hstep)
  · intro hQ first e others s t hes hrun hstep
    exact (h s e t (hrun.invariant hkept hinit) hstep).mpr (hQ first e others s t hes hrun hstep)

/-- Conditions that agree at every step hold of the same lists of events. -/
lemma everyStep_congr {P Q : σ → ε → Prop} (h : ∀ s e t, S.step s e t → (P s e ↔ Q s e)) (s₀ : σ)
    (es : List ε) : S.EveryStep P s₀ es ↔ S.EveryStep Q s₀ es :=
  everyStep_congr_of_invariant (I := fun _ => True) trivial (fun _ _ _ _ _ => trivial)
    (fun s e t _ => h s e t) es

/-- Every state of the runs by a list of events and its front parts has a property. -/
def EveryState (S : System σ ε) (good : σ → Prop) (s₀ : σ) (es : List ε) : Prop :=
  ∀ first others s, es = first ++ others → S.Run s₀ first s → good s

/-- What every step keeps under a condition holds in every state when every step meets it. -/
lemma EveryStep.everyState {I : σ → Prop} {condition : σ → ε → Prop} {s₀ : σ} {es : List ε}
    (h : S.EveryStep condition s₀ es) (hinit : I s₀)
    (hstep : ∀ s e t, I s → condition s e → S.step s e t → I t) : S.EveryState I s₀ es := by
  intro first others s hes hrun
  induction hrun generalizing others with
  | nil => exact hinit
  | @snoc t r es' e hrun hlast ih =>
    rw [List.append_assoc] at hes
    exact hstep t e r (ih ([e] ++ others) hes) (h es' e others t r hes hrun hlast) hlast

/-- When the condition on a step decides whether the next state is good, every state is good exactly
when every step meets the condition.  The invariant is what the condition keeps besides. -/
theorem everyState_iff {good I : σ → Prop} {condition : σ → ε → Prop} {s₀ : σ}
    (hinit : I s₀ ∧ good s₀)
    (hstep : ∀ s e t, I s → good s → S.step s e t →
      (condition s e ↔ good t) ∧ (condition s e → I t)) (es : List ε) :
    S.EveryState good s₀ es ↔ S.EveryStep condition s₀ es := by
  constructor
  · intro hgood
    have hnext : S.EveryStep (fun s e => ∀ t, S.step s e t → good t) s₀ es := by
      intro first e others s _ hes hrun _ t hlast
      exact hgood (first ++ [e]) others t (by rw [hes, List.append_assoc]; rfl) (hrun.snoc hlast)
    have hkept : S.EveryState (fun s => I s ∧ good s) s₀ es := by
      refine hnext.everyState hinit fun s e t hs hgoods hlast => ?_
      obtain ⟨hiff, hI⟩ := hstep s e t hs.1 hs.2 hlast
      exact ⟨hI (hiff.mpr (hgoods t hlast)), hgoods t hlast⟩
    intro first e others s t hes hrun hlast
    obtain ⟨hI, hbefore⟩ := hkept first (e :: others) s hes hrun
    exact (hstep s e t hI hbefore hlast).1.mpr (hnext first e others s t hes hrun hlast t hlast)
  · intro hcondition
    have hkept : S.EveryState (fun s => I s ∧ good s) s₀ es := by
      refine hcondition.everyState hinit fun s e t hs hmet hlast => ?_
      obtain ⟨hiff, hI⟩ := hstep s e t hs.1 hs.2 hlast
      exact ⟨hI hmet, hiff.mp hmet⟩
    intro first others s hes hrun
    exact (hkept first others s hes hrun).2

/-- The system restricted to the steps that meet a condition. -/
def guarded (S : System σ ε) (condition : σ → ε → Prop) : System σ ε where
  init := S.init
  step s e t := condition s e ∧ S.step s e t

/-- A run of the restricted system is a run. -/
lemma Run.of_guarded {condition : σ → ε → Prop} {s t : σ} {es : List ε}
    (h : (S.guarded condition).Run s es t) : S.Run s es t := by
  induction h with
  | nil => exact .nil _
  | snoc _ hlast ih => exact ih.snoc hlast.2

end System

/-! ## Steps that write -/

section

variable {σ ε ω : Type} {step : σ → ε → List ω → σ → Prop}

/-- A run of steps that write, with all they write in order. -/
inductive Trace (step : σ → ε → List ω → σ → Prop) : σ → List ε → List ω → σ → Prop where
  | nil (s : σ) : Trace step s [] [] s
  | cons {s t r : σ} {e : ε} {es : List ε} {first others : List ω} : step s e first t →
      Trace step t es others r → Trace step s (e :: es) (first ++ others) r

/-- Two traces one after the other. -/
lemma Trace.append {s t r : σ} {es es' : List ε} {first others : List ω}
    (h : Trace step s es first t) (h' : Trace step t es' others r) :
    Trace step s (es ++ es') (first ++ others) r := by
  induction h with
  | nil => exact h'
  | cons hstep _ ih =>
    rw [List.append_assoc]
    exact .cons hstep (ih h')

/-- A trace can be cut anywhere. -/
lemma Trace.of_append {s r : σ} {es es' : List ε} {written : List ω}
    (h : Trace step s (es ++ es') written r) : ∃ t first others, Trace step s es first t ∧
      Trace step t es' others r ∧ written = first ++ others := by
  induction es generalizing s written with
  | nil => exact ⟨s, [], written, .nil s, h, rfl⟩
  | cons e es ih =>
    rw [List.cons_append] at h
    rcases h with _ | ⟨hstep, hothers⟩
    obtain ⟨t, first, others, hfirst, hrest, rfl⟩ := ih hothers
    exact ⟨t, _, others, .cons hstep hfirst, hrest, (List.append_assoc _ _ _).symm⟩

/-- A trace is a run. -/
lemma Trace.run {S : System σ ε} (hS : ∀ s e w t, step s e w t → S.step s e t) {s t : σ}
    {es : List ε} {written : List ω} (h : Trace step s es written t) : S.Run s es t := by
  induction h with
  | nil => exact .nil _
  | cons hstep _ ih => exact ih.cons (hS _ _ _ _ hstep)

end

end Transition
