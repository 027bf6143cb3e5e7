import Liangshi.Board.UndoRedo

/-!
# Redoing what was undone

A number of undos and as many redos.  As long as hiding a helper removes no element, the undos take the
last elements off the drawing (`StatedPage.view_iterate_undo`) and the redos put them back in their order
(`StatedPage.view_iterate_redo`), but each with the matrix of the page and with a new init state, and
changed by what showing and hiding its helper does.  So the page is given back exactly when every undone
element has the attributes and the init state that it gets, and no element was undone before that the
redos would reach (`StatedPage.restored_redone_iff`).
-/

namespace Liangshi

open Wire Ordered

variable {k : ElementToolkit} {ev : HelperEvents}

/-! ## Runs -/

namespace PageView

/-- Without a highlighted element there is nothing to hide. -/
lemma lowered_of_none {v : PageView} (h : v.highlightElement = none) : v.lowered k ev = v := by
  unfold lowered
  simp only [h, reduceCtorEq, if_false]
  rw [← h]

/-- Nothing is removed where nothing is highlighted. -/
lemma stays_of_none {v : PageView} (h : v.highlightElement = none) : v.Stays k ev := by
  intro p e hp
  rw [h] at hp
  cases hp

/-- Ending the highlight changes no other element. -/
lemma element_lowered_of_ne {v : PageView} {p : Pointer} (h : v.highlightElement ≠ some p) :
    (v.lowered k ev).element p = v.element p := if_neg h

/-- The elements once nothing is highlighted. -/
lemma element_lowered (k : ElementToolkit) (ev : HelperEvents) (v : PageView) (p : Pointer) :
    (v.lowered k ev).element p = (v.element p).map fun e =>
      if v.highlightElement = some p then (e.closed k ev).hide.1 else e := by
  unfold lowered
  dsimp only
  split_ifs
  · rfl
  · exact Option.map_id'.symm ▸ rfl

/-- All of a list of elements are redone: the last one stays highlighted. -/
def redoneAll (k : ElementToolkit) (ev : HelperEvents) (v : PageView) (u xs : List Pointer) :
    PageView :=
  { v with
    drawingElements := v.drawingElements ++ xs
    undos := u
    highlightElement := xs.getLast?
    element := fun p =>
      if p ∈ xs then
        if xs.getLast? = some p then (v.element p).map (added k ev v.elementMatrix)
        else (v.element p).map fun e => ((added k ev v.elementMatrix e).closed k ev).hide.1
      else (v.lowered k ev).element p
    initStates := fun p =>
      if p ∈ xs then
        (v.element p).elim (v.initStates p) fun e => (e.setMatrix v.elementMatrix).state k
      else v.initStates p }

end PageView

namespace StatedPage

variable {s : StatedPage}

/-- A sequence of undos where nothing else is removed. -/
lemma view_undos {d xs : List Pointer} (henabled : s.page.disableDraw = false)
    (hd : s.page.drawingElements = d ++ xs) (hnodup : (d ++ xs).Nodup) (hxs : xs ≠ [])
    (hstays : s.view.Stays k ev) :
    ((onUndoTriggered k ev)^[xs.length] s).view = { s.view.lowered k ev with
      drawingElements := d
      undos := s.page.undos ++ xs.reverse } := by
  induction xs using List.reverseRecOn generalizing s with
  | nil => exact absurd rfl hxs
  | append_singleton xs p ih =>
    rw [← List.append_assoc] at hd hnodup
    obtain ⟨hnodup', hp⟩ : (d ++ xs).Nodup ∧ p ∉ d ++ xs := by
      rw [List.nodup_append'] at hnodup
      exact ⟨hnodup.1, fun hmem => hnodup.2.2 hmem (List.mem_singleton_self p)⟩
    have hstep : (s.onUndoTriggered k ev).view = s.view.undone k ev (d ++ xs) p :=
      view_onUndoTriggered henabled hd hp hstays
    rw [List.length_append, List.length_singleton, Function.iterate_succ_apply]
    rcases eq_or_ne xs [] with rfl | hne
    · rw [List.length_nil, Function.iterate_zero_apply, hstep]
      unfold PageView.undone
      simp only [List.append_nil, List.nil_append, List.reverse_singleton]
      rfl
    · have hnone : (s.onUndoTriggered k ev).view.highlightElement = none := by
        rw [hstep]
        rfl
      rw [ih (congrArg PageView.disableDraw hstep |>.trans henabled)
        (congrArg PageView.drawingElements hstep) hnodup' hne (PageView.stays_of_none hnone),
        PageView.lowered_of_none hnone]
      have hundos : (s.onUndoTriggered k ev).page.undos = s.page.undos ++ [p] :=
        congrArg PageView.undos hstep
      rw [hundos, hstep, List.reverse_append, List.append_assoc]
      rfl

/-- A sequence of redos where nothing is removed. -/
lemma view_redos {u : List Pointer} {x : Pointer} {xs : List Pointer}
    (henabled : s.page.disableDraw = false) (hu : s.page.undos = u ++ (x :: xs).reverse)
    (hnodup : (x :: xs).Nodup) (hhighlight : ∀ p ∈ x :: xs, s.page.highlightElement ≠ some p)
    (hstays : s.view.Stays k ev)
    (hquiet : ∀ p ∈ (x :: xs).dropLast, ∀ e, s.page.element p = some e →
      ((PageView.added k ev s.page.elementMatrix e).closed k ev).hide.2 = false) :
    ((onRedoTriggered k ev)^[(x :: xs).length] s).view = s.view.redoneAll k ev u (x :: xs) := by
  induction xs generalizing x s with
  | nil =>
    have hstep : (s.onRedoTriggered k ev).view = s.view.redone k ev u x :=
      view_onRedoTriggered henabled hu hstays
    have hx : (s.view.lowered k ev).element x = s.view.element x :=
      PageView.element_lowered_of_ne (hhighlight x List.mem_cons_self)
    rw [List.length_singleton, Function.iterate_one, hstep]
    refine PageView.ext rfl rfl rfl rfl rfl (funext fun p => ?_) (funext fun p => ?_)
    · unfold PageView.redone PageView.redoneAll
      dsimp only
      rw [hx]
      by_cases hp : x = p
      · subst hp
        simp
      · simp [hp, Ne.symm hp]
    · unfold PageView.redone PageView.redoneAll
      dsimp only
      rw [hx]
      by_cases hp : x = p
      · subst hp
        simp
      · simp [hp, Ne.symm hp]
  | cons y ys ih =>
    obtain ⟨hxs, hnodup'⟩ := List.nodup_cons.mp hnodup
    have hu' : s.page.undos = (u ++ (y :: ys).reverse) ++ [x] := by
      rw [hu, List.reverse_cons, List.append_assoc]
    have hstep : (s.onRedoTriggered k ev).view = s.view.redone k ev (u ++ (y :: ys).reverse) x :=
      view_onRedoTriggered henabled hu' hstays
    have hx : (s.view.lowered k ev).element x = s.view.element x :=
      PageView.element_lowered_of_ne (hhighlight x List.mem_cons_self)
    have hmatrix : (s.onRedoTriggered k ev).page.elementMatrix = s.page.elementMatrix :=
      congrArg PageView.elementMatrix hstep
    have hhighlighted : (s.onRedoTriggered k ev).page.highlightElement = some x :=
      congrArg PageView.highlightElement hstep
    have helement : ∀ p, (s.onRedoTriggered k ev).page.element p =
        if x = p then (s.page.element x).map (PageView.added k ev s.page.elementMatrix)
        else (s.view.lowered k ev).element p := by
      intro p
      have hp := congrFun (congrArg PageView.element hstep) p
      unfold PageView.redone at hp
      dsimp only at hp
      rw [hx] at hp
      exact hp
    have hkept : ∀ p ∈ y :: ys, (s.onRedoTriggered k ev).page.element p = s.page.element p := by
      intro p hp
      have hne : x ≠ p := fun heq => hxs (heq ▸ hp)
      rw [helement, if_neg hne]
      exact PageView.element_lowered_of_ne (hhighlight p (List.mem_cons_of_mem x hp))
    have hstays' : (s.onRedoTriggered k ev).view.Stays k ev := by
      intro p e hp he
      obtain rfl := Option.some.inj (hhighlighted.symm.trans hp)
      have he' := (helement x).symm.trans he
      rw [if_pos rfl] at he'
      obtain ⟨e', hfind, rfl⟩ := Option.map_eq_some_iff.mp he'
      exact hquiet x List.mem_cons_self e' hfind
    have hrun := ih (s := s.onRedoTriggered k ev)
      (congrArg PageView.disableDraw hstep |>.trans henabled) (congrArg PageView.undos hstep)
      hnodup' (by
        intro p hp heq
        rw [hhighlighted] at heq
        exact hxs (Option.some.inj heq ▸ hp)) hstays' (by
        intro p hp e he
        rw [hmatrix]
        rw [hkept p (List.mem_of_mem_dropLast hp)] at he
        exact hquiet p (List.mem_cons_of_mem x hp) e he)
    rw [List.length_cons, Function.iterate_succ_apply, hrun]
    have hlast : (x :: y :: ys).getLast? = (y :: ys).getLast? := List.getLast?_cons_cons
    refine PageView.ext ?_ rfl hlast.symm ?_ hmatrix (funext fun p => ?_) (funext fun p => ?_)
    · have hdrawing := congrArg PageView.drawingElements hstep
      show (s.onRedoTriggered k ev).view.drawingElements ++ (y :: ys) = _
      rw [hdrawing]
      exact List.append_assoc _ [x] (y :: ys)
    · have hdisable := congrArg PageView.disableDraw hstep
      exact hdisable
    · have hmatrix' : (s.onRedoTriggered k ev).view.elementMatrix = s.view.elementMatrix := hmatrix
      unfold PageView.redoneAll
      dsimp only
      rw [hlast, hmatrix']
      by_cases hp : p ∈ y :: ys
      · have hp' : (s.onRedoTriggered k ev).view.element p = s.view.element p := hkept p hp
        rw [if_pos hp, if_pos (List.mem_cons_of_mem x hp), hp']
      · rw [if_neg hp]
        by_cases hpx : x = p
        · subst hpx
          have hnot : (y :: ys).getLast? ≠ some x := fun h => hp (List.mem_of_getLast? h)
          rw [if_pos List.mem_cons_self, if_neg hnot]
          have hlowered : ((s.onRedoTriggered k ev).view.lowered k ev).element x =
              ((s.onRedoTriggered k ev).page.element x).map fun e => (e.closed k ev).hide.1 :=
            if_pos hhighlighted
          rw [hlowered, helement, if_pos rfl, Option.map_map]
          rfl
        · have hnot : p ∉ x :: y :: ys := by
            rw [List.mem_cons, not_or]
            exact ⟨Ne.symm hpx, hp⟩
          have hne : (s.onRedoTriggered k ev).view.highlightElement ≠ some p := by
            intro h
            exact hpx (Option.some.inj (hhighlighted.symm.trans h))
          rw [if_neg hnot, PageView.element_lowered_of_ne hne]
          exact (helement p).trans (if_neg hpx)
    · have hinit : (s.onRedoTriggered k ev).initStates p =
          if x = p then (s.page.element x).elim (s.initStates x)
            fun e => (e.setMatrix s.page.elementMatrix).state k
          else s.initStates p := by
        have hp := congrFun (congrArg PageView.initStates hstep) p
        unfold PageView.redone at hp
        dsimp only at hp
        rw [hx] at hp
        exact hp
      have hmatrix' : (s.onRedoTriggered k ev).view.elementMatrix = s.view.elementMatrix := hmatrix
      have hinit' : (s.onRedoTriggered k ev).view.initStates p =
        (s.onRedoTriggered k ev).initStates p := rfl
      unfold PageView.redoneAll
      dsimp only
      rw [hmatrix', hinit', hinit]
      by_cases hp : p ∈ y :: ys
      · have hp' : (s.onRedoTriggered k ev).view.element p = s.view.element p := hkept p hp
        have hne : x ≠ p := fun heq => hxs (heq ▸ hp)
        rw [if_pos hp, if_pos (List.mem_cons_of_mem x hp), hp', if_neg hne]
        rfl
      · rw [if_neg hp]
        by_cases hpx : x = p
        · subst hpx
          rw [if_pos rfl, if_pos List.mem_cons_self]
          rfl
        · have hnot : p ∉ x :: y :: ys := by
            rw [List.mem_cons, not_or]
            exact ⟨Ne.symm hpx, hp⟩
          rw [if_neg hpx, if_neg hnot]
          rfl

/-! ## Undoing and redoing a number of times -/

/-- The elements that a number of undos reach: the last ones of the drawing. -/
def lastDrawn (s : StatedPage) (n : Nat) : List Pointer :=
  s.page.drawingElements.drop (s.page.drawingElements.length - n)

/-- Nothing is removed besides: the drawing lists no element twice, hiding the highlighted element
does not remove it, nor does hiding a redone element that another redo follows. -/
structure Orderly (k : ElementToolkit) (ev : HelperEvents) (s : StatedPage) (n : Nat) : Prop where
  nodup : s.page.drawingElements.Nodup
  stays : s.view.Stays k ev
  quiet : ∀ p ∈ s.lastDrawn n, ∀ e, (s.view.lowered k ev).element p = some e →
    (s.page.drawingElements.getLast? = some p → s.page.drawingElements.length < n) →
    ((PageView.added k ev s.page.elementMatrix e).closed k ev).hide.2 = false

/-- The elements get back what they had: there is nothing else to redo, an element that is only
hidden keeps its attributes, and an undone one has the attributes and the init state that it gets
when it is added with the matrix of the page. -/
structure Regains (k : ElementToolkit) (ev : HelperEvents) (s : StatedPage) (n : Nat) : Prop where
  room : n ≤ s.page.drawingElements.length ∨ s.page.undos = []
  hidden : ∀ p ∉ s.lastDrawn n, ∀ e, s.page.highlightElement = some p →
    s.page.element p = some e → (e.closed k ev).hide.1.drawnAs = e.drawnAs
  attributes : ∀ p ∈ s.lastDrawn n, ∀ e e', s.page.element p = some e →
    (s.view.lowered k ev).element p = some e' →
    (if s.page.drawingElements.getLast? = some p then PageView.added k ev s.page.elementMatrix e'
      else ((PageView.added k ev s.page.elementMatrix e').closed k ev).hide.1).drawnAs = e.drawnAs
  initStates : ∀ p ∈ s.lastDrawn n, ∀ e, (s.view.lowered k ev).element p = some e →
    (e.setMatrix s.page.elementMatrix).state k = s.initStates p

/-- When redoing as often as undoing gives back the page: nothing is done, or nothing is removed
besides and the elements get back what they had. -/
def Regainable (k : ElementToolkit) (ev : HelperEvents) (s : StatedPage) (n : Nat) : Prop :=
  s.page.disableDraw = true ∨ n = 0 ∨
    (s.page.drawingElements = [] ∧ s.page.undos = []) ∨
      (s.page.drawingElements ≠ [] ∧ s.Orderly k ev n ∧ s.Regains k ev n)

/-- Where nothing is drawn nothing is undone. -/
lemma onUndoTriggered_of_empty (h : s.page.drawingElements = []) :
    s.onUndoTriggered k ev = s := by
  unfold onUndoTriggered
  rw [h]
  simp

/-- Where nothing was undone nothing is redone. -/
lemma onRedoTriggered_of_empty (h : s.page.undos = []) : s.onRedoTriggered k ev = s := by
  unfold onRedoTriggered
  rw [h]
  simp

/-- So many elements were drawn last. -/
lemma length_lastDrawn (s : StatedPage) (n : Nat) :
    (s.lastDrawn n).length = min n s.page.drawingElements.length := by
  rw [lastDrawn, List.length_drop]
  omega

/-- The undos start at the end of the drawing. -/
lemma getLast?_lastDrawn {n : Nat} (s : StatedPage) (hn : n ≠ 0)
    (hd : s.page.drawingElements ≠ []) :
    (s.lastDrawn n).getLast? = s.page.drawingElements.getLast? := by
  have hpos : 0 < s.page.drawingElements.length := List.length_pos_iff.mpr hd
  rw [lastDrawn, List.getLast?_drop, if_neg (by omega)]

/-- What is seen after a number of undos. -/
lemma view_iterate_undo {n : Nat} (henabled : s.page.disableDraw = false) (hn : n ≠ 0)
    (hd : s.page.drawingElements ≠ []) (horderly : s.Orderly k ev n) :
    ((onUndoTriggered k ev)^[n] s).view = { s.view.lowered k ev with
      drawingElements := s.page.drawingElements.take (s.page.drawingElements.length - n)
      undos := s.page.undos ++ (s.lastDrawn n).reverse } := by
  have hlength := s.length_lastDrawn n
  have hpos : 0 < s.page.drawingElements.length := List.length_pos_iff.mpr hd
  have hsplit : s.page.drawingElements =
      s.page.drawingElements.take (s.page.drawingElements.length - n) ++ s.lastDrawn n :=
    (List.take_append_drop _ _).symm
  have hne : s.lastDrawn n ≠ [] := by
    rw [← List.length_pos_iff, hlength]
    omega
  have hrun := view_undos henabled hsplit (hsplit ▸ horderly.nodup) hne horderly.stays
  obtain ⟨m, hm⟩ : ∃ m, n = m + (s.lastDrawn n).length := ⟨n - (s.lastDrawn n).length, by omega⟩
  rcases Nat.eq_zero_or_pos m with hzero | hmore
  · rw [hzero, Nat.zero_add] at hm
    rw [← hm] at hrun
    exact hrun
  · have hempty : s.page.drawingElements.take (s.page.drawingElements.length - n) = [] := by
      rw [List.take_eq_nil_iff]
      omega
    have hdone : ((onUndoTriggered k ev)^[(s.lastDrawn n).length] s).page.drawingElements = [] :=
      (congrArg PageView.drawingElements hrun).trans hempty
    have hfixed : (onUndoTriggered k ev)^[n] s =
        (onUndoTriggered k ev)^[(s.lastDrawn n).length] s := by
      conv_lhs => rw [hm]
      rw [Function.iterate_add_apply]
      exact Function.iterate_fixed (onUndoTriggered_of_empty hdone) m
    rw [hfixed, hrun]

/-- What is seen when the elements that a number of undos reached are redone. -/
lemma view_iterate_redo {n : Nat} (henabled : s.page.disableDraw = false) (hn : n ≠ 0)
    (hd : s.page.drawingElements ≠ []) (horderly : s.Orderly k ev n) :
    ((onRedoTriggered k ev)^[(s.lastDrawn n).length] ((onUndoTriggered k ev)^[n] s)).view =
      ((onUndoTriggered k ev)^[n] s).view.redoneAll k ev s.page.undos (s.lastDrawn n) := by
  have hundone := view_iterate_undo henabled hn hd horderly
  have hnodup : (s.lastDrawn n).Nodup := horderly.nodup.sublist (List.drop_sublist _ _)
  have hlength := s.length_lastDrawn n
  have hpos : 0 < s.page.drawingElements.length := List.length_pos_iff.mpr hd
  have hlast := s.getLast?_lastDrawn hn hd
  have hnone : ((onUndoTriggered k ev)^[n] s).page.highlightElement = none :=
    congrArg PageView.highlightElement hundone
  have hmatrix : ((onUndoTriggered k ev)^[n] s).page.elementMatrix = s.page.elementMatrix :=
    congrArg PageView.elementMatrix hundone
  have hundos : ((onUndoTriggered k ev)^[n] s).page.undos =
      s.page.undos ++ (s.lastDrawn n).reverse := congrArg PageView.undos hundone
  have hdisable : ((onUndoTriggered k ev)^[n] s).page.disableDraw = false :=
    (congrArg PageView.disableDraw hundone).trans henabled
  have helement : ((onUndoTriggered k ev)^[n] s).page.element = (s.view.lowered k ev).element :=
    congrArg PageView.element hundone
  have hquiet : ∀ p ∈ (s.lastDrawn n).dropLast, ∀ e,
      ((onUndoTriggered k ev)^[n] s).page.element p = some e →
      ((PageView.added k ev s.page.elementMatrix e).closed k ev).hide.2 = false := by
    intro p hp e he
    rw [helement] at he
    refine horderly.quiet p (List.mem_of_mem_dropLast hp) e he fun hpast => ?_
    rw [← hlast] at hpast
    obtain ⟨l, hl⟩ : ∃ l, s.lastDrawn n = l ++ [p] := List.getLast?_eq_some_iff.mp hpast
    rw [hl] at hp hnodup
    rw [List.dropLast_concat] at hp
    exact absurd hp ((List.nodup_append'.mp hnodup).2.2.symm (List.mem_singleton_self p))
  obtain ⟨x, xs, hxs⟩ := List.exists_cons_of_ne_nil (l := s.lastDrawn n) (by
    rw [← List.length_pos_iff, hlength]
    omega)
  rw [hxs] at hundos hnodup hquiet ⊢
  refine view_redos hdisable hundos hnodup ?_ (PageView.stays_of_none hnone) ?_
  · intro p _
    rw [hnone]
    exact (Option.some_ne_none p).symm
  · rw [hmatrix]
    exact hquiet

/-- What the page has then is what it had exactly when the elements get back what they had. -/
lemma restored_redone_iff {n : Nat} {t : StatedPage} (henabled : s.page.disableDraw = false)
    (hn : n ≠ 0) (hd : s.page.drawingElements ≠ []) (horderly : s.Orderly k ev n)
    (ht : t.view =
      ((onUndoTriggered k ev)^[n] s).view.redoneAll k ev s.page.undos (s.lastDrawn n))
    (hroom : n ≤ s.page.drawingElements.length ∨ s.page.undos = []) :
    Restored s t ↔ s.Regains k ev n := by
  have hundone := view_iterate_undo henabled hn hd horderly
  have hpos : 0 < s.page.drawingElements.length := List.length_pos_iff.mpr hd
  have hlast := s.getLast?_lastDrawn hn hd
  have hdrawing : t.page.drawingElements = s.page.drawingElements := by
    have h := congrArg PageView.drawingElements ht
    rw [hundone] at h
    exact h.trans (List.take_append_drop _ _)
  have hin : ∀ p ∈ s.lastDrawn n, t.page.element p =
      ((s.view.lowered k ev).element p).map fun e =>
        if s.page.drawingElements.getLast? = some p then
          PageView.added k ev s.page.elementMatrix e
        else ((PageView.added k ev s.page.elementMatrix e).closed k ev).hide.1 := by
    intro p hp
    have h := congrFun (congrArg PageView.element ht) p
    rw [hundone] at h
    unfold PageView.redoneAll at h
    dsimp only at h
    rw [if_pos hp, hlast] at h
    refine h.trans ?_
    split_ifs <;> rfl
  have hout : ∀ p ∉ s.lastDrawn n, t.page.element p = (s.view.lowered k ev).element p := by
    intro p hp
    have h := congrFun (congrArg PageView.element ht) p
    rw [hundone] at h
    unfold PageView.redoneAll at h
    dsimp only at h
    rw [if_neg hp] at h
    exact h.trans (PageView.element_lowered_of_ne (by
      show Option.none ≠ some p
      exact (Option.some_ne_none p).symm))
  have hinit : ∀ p, t.initStates p = if p ∈ s.lastDrawn n then
      ((s.view.lowered k ev).element p).elim (s.initStates p)
        fun e => (e.setMatrix s.page.elementMatrix).state k
      else s.initStates p := by
    intro p
    have h := congrFun (congrArg PageView.initStates ht) p
    rw [hundone] at h
    exact h
  have hlowered := fun p => PageView.element_lowered k ev s.view p
  constructor
  · rintro ⟨-, hattributes, hstates⟩
    refine ⟨hroom, fun p hp e hhighlight he => ?_, fun p hp e e' he he' => ?_,
      fun p hp e he => ?_⟩
    · have h := hattributes p
      have he' : s.view.element p = some e := he
      rw [hout p hp, hlowered, he', he, Option.map_some, Option.map_some, Option.map_some] at h
      have hhide := Option.some.inj h
      rwa [if_pos (show s.view.highlightElement = some p from hhighlight)] at hhide
    · have h := hattributes p
      rw [hin p hp, he', he, Option.map_some, Option.map_some, Option.map_some] at h
      exact Option.some.inj h
    · have h := hstates p
      rwa [hinit, if_pos hp, he] at h
  · rintro ⟨-, hhidden, hattributes, hstates⟩
    refine ⟨hdrawing, fun p => ?_, fun p => ?_⟩
    · cases he : s.page.element p with
      | none =>
        have hnone : (s.view.lowered k ev).element p = Option.none := by
          rw [hlowered, show s.view.element p = Option.none from he]
          rfl
        by_cases hp : p ∈ s.lastDrawn n
        · rw [hin p hp, hnone]
          rfl
        · rw [hout p hp, hnone]
      | some e =>
        obtain ⟨e', he'⟩ : ∃ e', (s.view.lowered k ev).element p = some e' :=
          ⟨_, by rw [hlowered, show s.view.element p = some e from he, Option.map_some]⟩
        by_cases hp : p ∈ s.lastDrawn n
        · rw [hin p hp, he', Option.map_some, Option.map_some, Option.map_some,
            hattributes p hp e e' he he']
        · rw [hout p hp, hlowered, show s.view.element p = some e from he, Option.map_some,
            Option.map_some, Option.map_some]
          split_ifs with hhighlight
          · rw [hhidden p hp e hhighlight he]
          · rfl
    · rw [hinit]
      split_ifs with hp
      · cases he : (s.view.lowered k ev).element p with
        | none => rfl
        | some e => exact hstates p hp e he
      · rfl

/-! ## Redoing more than was undone -/

/-- A redo that finds an element draws it last, and takes at most one other out. -/
lemma drawingElements_onRedoTriggered (k : ElementToolkit) (ev : HelperEvents)
    {u : List Pointer} {p : Pointer} (henabled : s.page.disableDraw = false) (hu : s.page.undos = u ++ [p]) :
    ∃ d, (s.onRedoTriggered k ev).page.drawingElements = d ++ [p] ∧
      s.page.drawingElements.length ≤ d.length + 1 := by
  obtain ⟨hdrawing, hundos, hdisable, -⟩ := s.page.closing_frame k ev
  have hlast : s.page.undos.getLast? = some p := by rw [hu, List.getLast?_concat]
  have hredo : (s.page.closing k ev).onRedoTriggered =
      { s.page.closing k ev with
        undos := (s.page.closing k ev).undos.dropLast
        redoing := true }.addElement p false true true := by
    unfold Page.onRedoTriggered
    rw [if_neg (by rw [hdisable, henabled]; exact Bool.false_ne_true), hundos, hlast]
  set page₁ := { s.page.closing k ev with
    undos := (s.page.closing k ev).undos.dropLast
    redoing := true } with hpage₁
  have hview := Page.view_addElement page₁ s.initStates rfl p
  refine ⟨page₁.deHighlightElement.drawingElements, ?_, ?_⟩
  · unfold onRedoTriggered
    rw [if_neg (by rw [henabled]; exact Bool.false_ne_true), hlast]
    dsimp only
    rw [hredo]
    have hmodify := congrArg PageView.drawingElements
      (Page.view_modify (page₁.addElement p false true true) p (·.raised k ev) s.initStates)
    exact hmodify.trans (congrArg PageView.drawingElements hview)
  · have hlength : page₁.drawingElements.length = s.page.drawingElements.length :=
      congrArg List.length hdrawing
    obtain ⟨mid, hmid, -, h | ⟨h, -, hout⟩⟩ := page₁.deHighlightElement_cases
    · rw [h, hmid.drawingElements_eq, hlength]
      omega
    · rw [hout, ← hlength, ← hmid.drawingElements_eq]
      unfold Page.takeOut
      split_ifs with hmem
      · dsimp only
        rw [List.length_erase_of_mem hmem]
        omega
      · omega

/-- A redo never makes the drawing shorter. -/
lemma length_le_onRedoTriggered (s : StatedPage) :
    s.page.drawingElements.length ≤ (s.onRedoTriggered k ev).page.drawingElements.length := by
  by_cases hdisable : s.page.disableDraw = true
  · unfold onRedoTriggered
    rw [if_pos hdisable]
  · rcases List.eq_nil_or_concat s.page.undos with hnil | ⟨u, p, hu⟩
    · rw [onRedoTriggered_of_empty hnil]
    · obtain ⟨d, hd, hle⟩ := drawingElements_onRedoTriggered k ev
        (Bool.not_eq_true _ ▸ hdisable) (hu.trans List.concat_eq_append)
      rw [hd, List.length_append, List.length_singleton]
      exact hle

/-- Redos never make the drawing shorter. -/
lemma length_le_iterate_redo (k : ElementToolkit) (ev : HelperEvents) (s : StatedPage) (n : Nat) :
    s.page.drawingElements.length ≤
      ((onRedoTriggered k ev)^[n] s).page.drawingElements.length := by
  induction n generalizing s with
  | zero => exact le_rfl
  | succ n ih =>
    rw [Function.iterate_succ_apply]
    exact (length_le_onRedoTriggered s).trans (ih _)

/-! ## The inverse -/

/-- The page after a number of undos and as many redos. -/
def undoneAndRedone (k : ElementToolkit) (ev : HelperEvents) (s : StatedPage) (n : Nat) :
    StatedPage :=
  (onRedoTriggered k ev)^[n] ((onUndoTriggered k ev)^[n] s)

/-- With room for them, the redos are those of the undone elements. -/
lemma undoneAndRedone_eq {n : Nat} (henabled : s.page.disableDraw = false) (hn : n ≠ 0)
    (hd : s.page.drawingElements ≠ []) (horderly : s.Orderly k ev n)
    (hroom : n ≤ s.page.drawingElements.length ∨ s.page.undos = []) :
    s.undoneAndRedone k ev n =
      (onRedoTriggered k ev)^[(s.lastDrawn n).length] ((onUndoTriggered k ev)^[n] s) := by
  have hlength := s.length_lastDrawn n
  rcases hroom with hroom | hempty
  · rw [undoneAndRedone, hlength, min_eq_left hroom]
  · obtain ⟨m, hm⟩ : ∃ m, n = m + (s.lastDrawn n).length :=
      ⟨n - (s.lastDrawn n).length, by omega⟩
    have hview := view_iterate_redo henabled hn hd horderly
    have hundos := congrArg PageView.undos hview
    have hfixed : s.undoneAndRedone k ev n = (onRedoTriggered k ev)^[m]
        ((onRedoTriggered k ev)^[(s.lastDrawn n).length] ((onUndoTriggered k ev)^[n] s)) := by
      rw [← Function.iterate_add_apply, ← hm]
      rfl
    rw [hfixed]
    exact Function.iterate_fixed (onRedoTriggered_of_empty (hundos.trans hempty)) m

/-- Without room for them, the drawing gets longer. -/
lemma length_lt_undoneAndRedone {n : Nat} (henabled : s.page.disableDraw = false) (hn : n ≠ 0)
    (hd : s.page.drawingElements ≠ []) (horderly : s.Orderly k ev n)
    (hmore : s.page.drawingElements.length < n) (hundos : s.page.undos ≠ []) :
    s.page.drawingElements.length <
      (s.undoneAndRedone k ev n).page.drawingElements.length := by
  have hlength := s.length_lastDrawn n
  obtain ⟨u, p, hu⟩ := (List.eq_nil_or_concat s.page.undos).resolve_left hundos
  rw [List.concat_eq_append] at hu
  have hview := view_iterate_redo henabled hn hd horderly
  have hundone := view_iterate_undo henabled hn hd horderly
  obtain ⟨t, ht⟩ : ∃ t, t =
      (onRedoTriggered k ev)^[(s.lastDrawn n).length] ((onUndoTriggered k ev)^[n] s) := ⟨_, rfl⟩
  rw [← ht, hundone] at hview
  have hdisable : t.page.disableDraw = false :=
    (congrArg PageView.disableDraw hview).trans henabled
  have hstack : t.page.undos = u ++ [p] := (congrArg PageView.undos hview).trans hu
  have hdrawing : t.page.drawingElements = s.page.drawingElements :=
    (congrArg PageView.drawingElements hview).trans (List.take_append_drop _ _)
  have hhighlight : t.page.highlightElement = s.page.drawingElements.getLast? := by
    have h : t.page.highlightElement = (s.lastDrawn n).getLast? :=
      congrArg PageView.highlightElement hview
    rw [h, s.getLast?_lastDrawn hn hd]
  have hstays : t.view.Stays k ev := by
    intro q e hq he
    have hlast : (s.lastDrawn n).getLast? = some q :=
      (congrArg PageView.highlightElement hview).symm.trans hq
    have hmem : q ∈ s.lastDrawn n := List.mem_of_getLast? hlast
    have helement := congrFun (congrArg PageView.element hview) q
    unfold PageView.redoneAll at helement
    dsimp only at helement
    rw [if_pos hmem, if_pos hlast, he] at helement
    obtain ⟨e', he', rfl⟩ := Option.map_eq_some_iff.mp helement.symm
    exact horderly.quiet q hmem e' he' fun _ => hmore
  have hstep := view_onRedoTriggered hdisable hstack hstays
  obtain ⟨m, hm⟩ : ∃ m, n = m + 1 + (s.lastDrawn n).length :=
    ⟨n - 1 - (s.lastDrawn n).length, by omega⟩
  have hrun : s.undoneAndRedone k ev n =
      (onRedoTriggered k ev)^[m] (t.onRedoTriggered k ev) := by
    rw [← Function.iterate_succ_apply, ht, ← Function.iterate_add_apply, ← hm]
    rfl
  rw [hrun]
  refine lt_of_lt_of_le ?_ (length_le_iterate_redo k ev _ m)
  have hlonger : (t.onRedoTriggered k ev).page.drawingElements = t.page.drawingElements ++ [p] :=
    congrArg PageView.drawingElements hstep
  rw [hlonger, hdrawing, List.length_append, List.length_singleton]
  exact Nat.lt_succ_self _

/-- Redoing as often as undoing gives back the page when it is regainable, and only then unless an
element is removed besides or drawn twice. -/
theorem restored_undoneAndRedone (k : ElementToolkit) (ev : HelperEvents) (s : StatedPage)
    (n : Nat) :
    (s.Regainable k ev n → s.Restored (s.undoneAndRedone k ev n)) ∧
      (s.Orderly k ev n → s.Restored (s.undoneAndRedone k ev n) → s.Regainable k ev n) := by
  have hsame : ∀ t : StatedPage, t = s → s.Restored t := by
    rintro t rfl
    exact ⟨rfl, fun _ => rfl, fun _ => rfl⟩
  have hdisabled : s.page.disableDraw = true → s.undoneAndRedone k ev n = s := by
    intro hdisable
    have hundo : s.onUndoTriggered k ev = s := by
      unfold onUndoTriggered
      rw [hdisable]
      rfl
    have hredo : s.onRedoTriggered k ev = s := by
      unfold onRedoTriggered
      rw [hdisable]
      rfl
    rw [undoneAndRedone, Function.iterate_fixed hundo, Function.iterate_fixed hredo]
  constructor
  · rintro (hdisable | rfl | ⟨hd, hu⟩ | ⟨hd, horderly, hregains⟩)
    · exact hsame _ (hdisabled hdisable)
    · exact hsame _ rfl
    · refine hsame _ ?_
      rw [undoneAndRedone, Function.iterate_fixed (onUndoTriggered_of_empty hd),
        Function.iterate_fixed (onRedoTriggered_of_empty hu)]
    · by_cases hdisable : s.page.disableDraw = true
      · exact hsame _ (hdisabled hdisable)
      rcases eq_or_ne n 0 with rfl | hn
      · exact hsame _ rfl
      have henabled : s.page.disableDraw = false := Bool.not_eq_true _ ▸ hdisable
      rw [undoneAndRedone_eq henabled hn hd horderly hregains.room]
      exact (restored_redone_iff henabled hn hd horderly
        (view_iterate_redo henabled hn hd horderly) hregains.room).mpr hregains
  · intro horderly hrestored
    by_cases hdisable : s.page.disableDraw = true
    · exact Or.inl hdisable
    rcases eq_or_ne n 0 with rfl | hn
    · exact Or.inr (Or.inl rfl)
    have henabled : s.page.disableDraw = false := Bool.not_eq_true _ ▸ hdisable
    refine Or.inr (Or.inr ?_)
    rcases eq_or_ne s.page.drawingElements [] with hd | hd
    · refine Or.inl ⟨hd, by_contra fun hu => ?_⟩
      -- a redo would draw an element on the empty page
      obtain ⟨u, p, hu⟩ := (List.eq_nil_or_concat s.page.undos).resolve_left hu
      obtain ⟨d, hredo, -⟩ := drawingElements_onRedoTriggered k ev henabled
        (hu.trans List.concat_eq_append)
      obtain ⟨m, rfl⟩ := Nat.exists_eq_succ_of_ne_zero hn
      have hle := length_le_iterate_redo k ev (s.onRedoTriggered k ev) m
      have hdrawing := hrestored.drawingElements
      rw [undoneAndRedone, Function.iterate_fixed (onUndoTriggered_of_empty hd),
        Function.iterate_succ_apply, hd] at hdrawing
      rw [hdrawing, hredo] at hle
      simp at hle
    · refine Or.inr ⟨hd, horderly, ?_⟩
      have hroom : n ≤ s.page.drawingElements.length ∨ s.page.undos = [] := by
        by_contra hroom
        obtain ⟨hmore, hundos⟩ := not_or.mp hroom
        have hlt := length_lt_undoneAndRedone henabled hn hd horderly (not_le.mp hmore) hundos
        rw [hrestored.drawingElements] at hlt
        exact lt_irrefl _ hlt
      rw [undoneAndRedone_eq henabled hn hd horderly hroom] at hrestored
      exact (restored_redone_iff henabled hn hd horderly
        (view_iterate_redo henabled hn hd horderly) hroom).mp hrestored

/-- A text that was added in white and is still highlighted when the colour is turned to red. -/
def repaintedText : StatedPage where
  page := ((Page.new []).addNew 0 (.new [1] (.text ⟨0, 0⟩ 100 30 20 50 [65])) true true).lineColorChanged
    0xffff0000 false
  initStates := fun _ => .text 0xffffffff ⟨0, 0⟩ 20 [65]

/-- Undoing it and redoing it saves the red text as its init state. -/
theorem not_restored_repaintedText :
    ¬ repaintedText.Restored (repaintedText.undoneAndRedone
      ⟨⟨fun _ _ => SMatrix.one, fun i _ => i⟩, fun _ _ => false, id, fun _ _ => (0, 0)⟩
      ⟨fun _ => [], fun _ => []⟩ 1) := by
  intro h
  exact absurd (h.initStates 0) (by decide +kernel)

end StatedPage

end Liangshi
