import Mathlib.Tactic.Lemma

/-!
# Computations that succeed

Total correctness of computations that can fail: `Gives x post` says that a computation ends without
a fault and what its result meets, `GivesIff` that it does so exactly under a condition, and
`Ends x post fault` says what the result or the fault meets.
The rules follow the way computations are put together, so that a function is specified once and its
callers use the specification.
-/

namespace Transition

universe u

variable {ε α β : Type u}

/-- A computation succeeds with a result that meets a condition. -/
def Gives (x : Except ε α) (post : α → Prop) : Prop := ∃ a, x = .ok a ∧ post a

/-- A loop without faults computes what the loop of its turns does. -/
lemma foldlM_eq_ok_foldl {σ : Type u} {f : σ → β → Except ε σ} {g : σ → β → σ} {l : List β} {s : σ}
    (h : ∀ t, ∀ b ∈ l, f t b = .ok (g t b)) : l.foldlM f s = .ok (l.foldl g s) := by
  induction l generalizing s with
  | nil => rfl
  | cons b l ih =>
    rw [List.foldlM_cons, h s b List.mem_cons_self, List.foldl_cons]
    exact ih fun t b hb => h t b (List.mem_cons_of_mem _ hb)

/-- Computations without faults for the items of a list compute what their results are. -/
lemma mapM_eq_ok_map {f : β → Except ε α} {g : β → α} {l : List β}
    (h : ∀ b ∈ l, f b = .ok (g b)) : l.mapM f = .ok (l.map g) := by
  induction l with
  | nil => rfl
  | cons b l ih =>
    rw [List.mapM_cons, h b List.mem_cons_self, ih fun b hb => h b (List.mem_cons_of_mem _ hb)]
    rfl

/-- One computation after another, seen through functions of the results. -/
lemma map_bind_congr {τ υ : Type u} {π : α → τ} {ρ : β → υ} {x y : Except ε α} {f g : α → Except ε β}
    (h : x.map π = y.map π) (hf : ∀ a b, π a = π b → (f a).map ρ = (g b).map ρ) :
    (x >>= f).map ρ = (y >>= g).map ρ := by
  rcases x with e | a <;> rcases y with e' | b
  · exact congrArg Except.error (Except.error.inj h)
  · cases h
  · cases h
  · exact hf a b (Except.ok.inj h)

/-- Two loops whose turns look alike. -/
lemma map_foldlM_congr {σ τ : Type u} {π : σ → τ} {f g : σ → β → Except ε σ}
    (hf : ∀ s t b, π s = π t → (f s b).map π = (g t b).map π) (l : List β) {s t : σ} (h : π s = π t) :
    (l.foldlM f s).map π = (l.foldlM g t).map π := by
  induction l generalizing s t with
  | nil => exact congrArg Except.ok h
  | cons b l ih =>
    rw [List.foldlM_cons, List.foldlM_cons]
    exact map_bind_congr (hf s t b h) fun _ _ => ih

namespace Gives

variable {x : Except ε α} {post post' : α → Prop}

/-- What a computation gives can be run. -/
instance [DecidablePred post] : Decidable (Gives x post) :=
  match x with
  | .ok a => decidable_of_decidable_of_iff (p := post a)
      ⟨fun h => ⟨a, rfl, h⟩, fun ⟨_, ha, h⟩ => Except.ok.inj ha ▸ h⟩
  | .error _ => .isFalse fun ⟨_, ha, _⟩ => nomatch ha

/-- A result that is there. -/
lemma ok {a : α} (h : post a) : Gives (.ok a : Except ε α) post := ⟨a, rfl, h⟩

/-- A weaker condition. -/
lemma mono (h : Gives x post) (himp : ∀ a, post a → post' a) : Gives x post' := by
  obtain ⟨a, ha, hpost⟩ := h
  exact ⟨a, ha, himp a hpost⟩

/-- Two conditions on the same result. -/
lemma and (h : Gives x post) (h' : Gives x post') : Gives x fun a => post a ∧ post' a := by
  obtain ⟨a, ha, hpost⟩ := h
  obtain ⟨a', ha', hpost'⟩ := h'
  obtain rfl := Except.ok.inj (ha.symm.trans ha')
  exact ⟨a, ha, hpost, hpost'⟩

/-- What a given result meets. -/
lemma of_eq {a : α} (h : Gives x post) (ha : x = .ok a) : post a := by
  obtain ⟨a', ha', hpost⟩ := h
  obtain rfl := Except.ok.inj (ha.symm.trans ha')
  exact hpost

/-- What a computation that looks alike gives. -/
lemma of_map_eq {τ : Type u} {π : α → τ} {y : Except ε α} (h : Gives x post) (heq : x.map π = y.map π)
    (himp : ∀ a b, π a = π b → post a → post' b) : Gives y post' := by
  obtain ⟨a, rfl, hpost⟩ := h
  rcases y with e | b
  · cases heq
  · exact ok (himp a b (Except.ok.inj heq) hpost)

/-- One computation after another. -/
lemma bind {f : α → Except ε β} {post'' : β → Prop} (h : Gives x post)
    (hf : ∀ a, post a → Gives (f a) post'') : Gives (x >>= f) post'' := by
  obtain ⟨a, rfl, hpost⟩ := h
  exact hf a hpost

/-- A branch, decided by a condition. -/
lemma ite {c : Prop} [Decidable c] {y : Except ε α} (hx : c → Gives x post)
    (hy : ¬ c → Gives y post) : Gives (if c then x else y) post := by
  by_cases h : c
  · rw [if_pos h]
    exact hx h
  · rw [if_neg h]
    exact hy h

/-- A loop over a list, by what every turn keeps. -/
lemma foldlM {σ : Type u} {I : σ → Prop} {f : σ → β → Except ε σ} {l : List β} {s : σ} (hs : I s)
    (hf : ∀ t b, b ∈ l → I t → Gives (f t b) I) : Gives (l.foldlM f s) I := by
  induction l generalizing s with
  | nil => exact ok hs
  | cons b l ih =>
    rw [List.foldlM_cons]
    exact (hf s b List.mem_cons_self hs).bind fun t ht =>
      ih ht fun t b hb => hf t b (List.mem_cons_of_mem _ hb)

/-- A computation for every item of a list. -/
lemma mapM {f : β → Except ε α} {l : List β} (hf : ∀ b ∈ l, Gives (f b) post) :
    Gives (l.mapM f) fun r => r.length = l.length ∧ ∀ a ∈ r, post a := by
  induction l with
  | nil => exact ok (by simp)
  | cons b l ih =>
    rw [List.mapM_cons]
    refine (hf b List.mem_cons_self).bind fun a ha => ?_
    refine (ih fun b hb => hf b (List.mem_cons_of_mem _ hb)).bind fun r hr => ?_
    refine ok ⟨by simp [hr.1], ?_⟩
    simp only [List.mem_cons, forall_eq_or_imp]
    exact ⟨ha, hr.2⟩

end Gives

/-- A computation succeeds under a condition, with a result that meets another, and ends in a given
fault without it. -/
structure GivesIff (x : Except ε α) (condition : Prop) (fault : ε) (post : α → Prop) : Prop where
  gives : condition → Gives x post
  error : ¬ condition → x = .error fault

namespace GivesIff

variable {x : Except ε α} {condition condition' : Prop} {fault : ε} {post : α → Prop}

/-- A result that is there. -/
lemma ok {a : α} (hcondition : condition) (h : post a) : GivesIff (.ok a) condition fault post :=
  ⟨fun _ => .ok h, fun hnot => absurd hcondition hnot⟩

/-- The same condition, put differently. -/
lemma congr (h : GivesIff x condition fault post) (hiff : condition ↔ condition') :
    GivesIff x condition' fault post :=
  ⟨fun hc => h.gives (hiff.mpr hc), fun hnot => h.error (mt hiff.mp hnot)⟩

/-- A weaker condition on the result. -/
lemma mono {post' : α → Prop} (h : GivesIff x condition fault post)
    (himp : condition → ∀ a, post a → post' a) : GivesIff x condition fault post' :=
  ⟨fun hc => (h.gives hc).mono (himp hc), h.error⟩

/-- One computation after another, with the same fault. -/
lemma bind {f : α → Except ε β} {post' : β → Prop} (h : GivesIff x condition fault post)
    (hf : ∀ a, post a → GivesIff (f a) condition' fault post') :
    GivesIff (x >>= f) (condition ∧ condition') fault post' := by
  constructor
  · rintro ⟨hc, hc'⟩
    exact (h.gives hc).bind fun a ha => (hf a ha).gives hc'
  · intro hnot
    by_cases hc : condition
    · obtain ⟨a, rfl, ha⟩ := h.gives hc
      exact (hf a ha).error fun hc' => hnot ⟨hc, hc'⟩
    · rw [h.error hc]
      rfl

end GivesIff

/-- A computation ends with a result that meets a condition, or with a fault that meets another. -/
def Ends (x : Except ε α) (post : α → Prop) (fault : ε → Prop) : Prop :=
  match x with
  | .ok a => post a
  | .error e => fault e

/-- What succeeds exactly under a condition ends with a result or the fault. -/
lemma GivesIff.ends {x : Except ε α} {condition : Prop} {fault : ε} {post : α → Prop}
    (h : GivesIff x condition fault post) : Ends x post (· = fault) := by
  by_cases hc : condition
  · obtain ⟨a, rfl, ha⟩ := h.gives hc
    exact ha
  · rw [h.error hc]
    exact rfl

namespace Ends

variable {x : Except ε α} {post post'' : α → Prop} {fault : ε → Prop}

/-- How a computation ends can be run. -/
instance [DecidablePred post] [DecidablePred fault] : Decidable (Ends x post fault) :=
  match x with
  | .ok a => inferInstanceAs (Decidable (post a))
  | .error e => inferInstanceAs (Decidable (fault e))

/-- What a given result meets. -/
lemma of_eq {a : α} (h : Ends x post fault) (ha : x = .ok a) : post a := by
  subst ha
  exact h

/-- The fault a computation ends with if it has no result. -/
lemma eq_error {e : ε} (h : Ends x (fun _ => False) (· = e)) : x = .error e := by
  cases x with
  | ok a => exact h.elim
  | error e' => exact congrArg Except.error h

/-- A weaker condition on the result. -/
lemma mono (h : Ends x post fault) (himp : ∀ a, post a → post'' a) : Ends x post'' fault := by
  cases x with
  | ok a => exact himp a h
  | error e => exact h

/-- A weaker condition on the fault. -/
lemma mono_fault {fault' : ε → Prop} (h : Ends x post fault) (himp : ∀ e, fault e → fault' e) :
    Ends x post fault' := by
  cases x with
  | ok a => exact h
  | error e => exact himp e h

/-- One computation after another. -/
lemma bind {f : α → Except ε β} {post' : β → Prop} (h : Ends x post fault)
    (hf : ∀ a, post a → Ends (f a) post' fault) : Ends (x >>= f) post' fault := by
  cases x with
  | ok a => exact hf a h
  | error e => exact h

/-- A loop over a list, by what every turn keeps. -/
lemma foldlM {σ : Type u} {I : σ → Prop} {f : σ → β → Except ε σ} {l : List β} {s : σ} (hs : I s)
    (hf : ∀ t b, I t → Ends (f t b) I fault) : Ends (l.foldlM f s) I fault := by
  induction l generalizing s with
  | nil => exact hs
  | cons b l ih =>
    rw [List.foldlM_cons]
    exact (hf s b hs).bind fun t => ih

end Ends

end Transition
