import Liangshi.Board.InitState
import Liangshi.Board.PageInvariant

/-!
# Undoing and redoing

`OnUndoTriggered` and `OnRedoTriggered` on a page with the init states of its elements.  A redo adds the
undone element again: it gets the matrix of the page, its init state is saved anew, and it is
highlighted.  Showing or hiding the helper of an element runs Qt's events, which may move, resize or lay
out the element: which changes they make is left open (`HelperEvents`).

What one undo and one redo do is told on what is seen of the page (`PageView`), for the case that hiding
the highlighted element removes nothing.
-/

namespace Liangshi

open Wire Ordered

/-- What its events make the helper of an element change: those of its constructor and of showing
it, and those of hiding it. -/
structure HelperEvents where
  shown : Element → List AttributeChange
  hidden : Element → List AttributeChange

namespace Element

/-- An element after the events of its helper, which is being shown. -/
def raised (k : ElementToolkit) (ev : HelperEvents) (e : Element) : Element :=
  if e.helper.isSome then (ev.shown e).foldl (change k) e else e

/-- An element after the events of its helper, which is being hidden. -/
def closed (k : ElementToolkit) (ev : HelperEvents) (e : Element) : Element :=
  if e.helper.any (·.visible) then (ev.hidden e).foldl (change k) e else e

/-- `SetMatrix`. -/
def setMatrix (matrix : SMatrix) (e : Element) : Element := { e with matrix }

/-- Highlighting an element leaves what is saved of it. -/
lemma state_highlight (k : ElementToolkit) (e : Element) : e.highlight.state k = e.state k := by
  unfold highlight
  dsimp only
  split_ifs <;> rfl

/-- The attributes of an element. -/
def drawnAs (e : Element) : Int32 × Int32 × SColor × SMatrix × ElementBody :=
  (e.lineWidth, e.lineStyle, e.lineColor, e.matrix, e.body)

end Element

/-- The events of hiding the helper of the highlighted element, before what `Highlight` does to the
element itself. -/
def Page.closing (k : ElementToolkit) (ev : HelperEvents) (page : Page) : Page :=
  match page.highlightElement with
  | none => page
  | some h => page.modify h (·.closed k ev)

/-- A page with the init states of its elements. -/
structure StatedPage where
  page : Page
  initStates : Pointer → ElementState

namespace StatedPage

/-- `OnUndoTriggered`. -/
def onUndoTriggered (k : ElementToolkit) (ev : HelperEvents) (s : StatedPage) : StatedPage :=
  if s.page.disableDraw || s.page.drawingElements.isEmpty then s
  else { s with page := (s.page.closing k ev).onUndoTriggered }

/-- `OnRedoTriggered`, which saves the init state of the element once it has the matrix of the page,
and shows its helper then. -/
def onRedoTriggered (k : ElementToolkit) (ev : HelperEvents) (s : StatedPage) : StatedPage :=
  if s.page.disableDraw then s
  else match s.page.undos.getLast? with
    | none => s
    | some p =>
      let page := (s.page.closing k ev).onRedoTriggered
      { page := page.modify p (·.raised k ev)
        initStates := match page.element p with
          | some e => Function.update s.initStates p (e.state k)
          | none => s.initStates }

/-- The second page draws what the first does, in its order, and every element has its attributes
and its init state. -/
structure Restored (s s' : StatedPage) : Prop where
  drawingElements : s'.page.drawingElements = s.page.drawingElements
  attributes : ∀ p,
    (s'.page.element p).map Element.drawnAs = (s.page.element p).map Element.drawnAs
  initStates : ∀ p, s'.initStates p = s.initStates p

/-! ## What is seen of a page -/

end StatedPage

/-- What undoing and redoing look at and change. -/
@[ext] structure PageView where
  drawingElements : List Pointer
  undos : List Pointer
  highlightElement : Option Pointer
  disableDraw : Bool
  elementMatrix : SMatrix
  element : Pointer → Option Element
  initStates : Pointer → ElementState

namespace PageView

variable (k : ElementToolkit) (ev : HelperEvents)

/-- Whether hiding the highlighted element removes nothing. -/
def Stays (v : PageView) : Prop :=
  ∀ h e, v.highlightElement = some h → v.element h = some e → (e.closed k ev).hide.2 = false

/-- Nothing is highlighted any more. -/
def lowered (v : PageView) : PageView :=
  { v with
    highlightElement := none
    element := fun p =>
      if v.highlightElement = some p then (v.element p).map fun e => (e.closed k ev).hide.1
      else v.element p }

/-- The last element is undone. -/
def undone (v : PageView) (d : List Pointer) (p : Pointer) : PageView :=
  { v.lowered k ev with drawingElements := d, undos := v.undos ++ [p] }

/-- The element as `AddElement` leaves it. -/
def added (matrix : SMatrix) (e : Element) : Element :=
  (e.setMatrix matrix).highlight.raised k ev

/-- The last undone element is redone. -/
def redone (v : PageView) (u : List Pointer) (p : Pointer) : PageView :=
  { v.lowered k ev with
    drawingElements := v.drawingElements ++ [p]
    undos := u
    highlightElement := some p
    element := fun q =>
      if p = q then ((v.lowered k ev).element p).map (added k ev v.elementMatrix)
      else (v.lowered k ev).element q
    initStates := fun q =>
      if p = q then
        ((v.lowered k ev).element p).elim (v.initStates p)
          fun e => (e.setMatrix v.elementMatrix).state k
      else v.initStates q }

end PageView

/-- What is seen of a page with the init states of its elements. -/
def Page.view (page : Page) (initStates : Pointer → ElementState) : PageView :=
  ⟨page.drawingElements, page.undos, page.highlightElement, page.disableDraw, page.elementMatrix,
    page.element, initStates⟩

/-- What is seen of a page. -/
def StatedPage.view (s : StatedPage) : PageView := s.page.view s.initStates

/-! ## One undo and one redo -/

namespace Page

variable {k : ElementToolkit} {ev : HelperEvents} {page : Page} {i : Pointer → ElementState}

/-- What is seen after an element is changed. -/
lemma view_modify (page : Page) (p : Pointer) (f : Element → Element)
    (i : Pointer → ElementState) :
    (page.modify p f).view i = { page.view i with
      element := fun q => if p = q then (page.element q).map f else page.element q } := by
  unfold modify
  cases he : page.element p with
  | none =>
    have helement : page.element =
        fun q => if p = q then (page.element q).map f else page.element q := by
      funext q
      split_ifs with hq
      · rw [← hq, he]
        rfl
      · rfl
    rw [← helement]
    rfl
  | some e =>
    have helement : (page.setElement p (f e)).element =
        fun q => if p = q then (page.element q).map f else page.element q := by
      funext q
      rw [element_setElement]
      split_ifs with hq
      · rw [← hq, he]
        rfl
      · rfl
    rw [← helement]
    rfl

/-- The elements of a page once one has been changed. -/
lemma element_modify (page : Page) (p : Pointer) (f : Element → Element) (q : Pointer) :
    (page.modify p f).element q =
      if p = q then (page.element q).map f else page.element q :=
  congrFun (congrArg PageView.element (view_modify page p f fun _ => .none)) q

/-- A change of an element leaves the flag of redoing. -/
@[simp] lemma redoing_modify (page : Page) (p : Pointer) (f : Element → Element) :
    (page.modify p f).redoing = page.redoing := by
  unfold modify
  split <;> rfl

/-- Hiding an element changes it alone. -/
lemma hide_eq (page : Page) (p : Pointer) : (page.hide p).1 = page.modify p (·.hide.1) := by
  unfold hide modify
  split <;> rfl

/-- What is seen when the helper of the highlighted element is hidden and nothing is removed. -/
lemma view_deHighlightElement (page : Page) (i : Pointer → ElementState)
    (hstays : (page.view i).Stays k ev) :
    ((page.closing k ev).deHighlightElement).view i = (page.view i).lowered k ev := by
  cases hhighlight : page.highlightElement with
  | none =>
    have hclosing : page.closing k ev = page := by
      unfold closing
      rw [hhighlight]
    have hdehighlight : page.deHighlightElement = page := by
      unfold deHighlightElement
      rw [hhighlight]
    rw [hclosing, hdehighlight]
    unfold PageView.lowered view
    simp only [hhighlight, reduceCtorEq, if_false]
  | some h =>
    have hclosing : page.closing k ev = page.modify h (·.closed k ev) := by
      unfold closing
      rw [hhighlight]
    have hkept : ((page.closing k ev).hide h).2 = false := by
      rw [hclosing]
      unfold hide
      rw [element_modify, if_pos rfl]
      cases he : page.element h with
      | none => rfl
      | some e => exact hstays h e hhighlight he
    have hdehighlight : (page.closing k ev).deHighlightElement =
        { (page.modify h (·.closed k ev)).modify h (·.hide.1) with
          highlightElement := none } := by
      unfold deHighlightElement
      rw [hclosing] at hkept ⊢
      rw [highlightElement_modify, hhighlight]
      simp only [hkept, hide_eq, Bool.false_eq_true, if_false]
    have hview : ((page.modify h (·.closed k ev)).modify h (·.hide.1)).view i =
        { page.view i with
          element := fun p =>
            if some h = some p then (page.element p).map fun e => (e.closed k ev).hide.1
            else page.element p } := by
      rw [view_modify, view_modify]
      refine PageView.ext rfl rfl rfl rfl rfl (funext fun p => ?_) rfl
      dsimp only
      rw [element_modify]
      simp only [Option.some.injEq]
      split_ifs with hp
      · rw [Option.map_map]
        rfl
      · rfl
    rw [hdehighlight]
    show { ((page.modify h (·.closed k ev)).modify h (·.hide.1)).view i with
      highlightElement := none } = (page.view i).lowered k ev
    rw [hview, ← hhighlight]
    rfl

/-- The events of a helper change the highlighted element only. -/
lemma closing_frame (k : ElementToolkit) (ev : HelperEvents) (page : Page) :
    (page.closing k ev).drawingElements = page.drawingElements ∧
      (page.closing k ev).undos = page.undos ∧
      (page.closing k ev).disableDraw = page.disableDraw ∧
      (page.closing k ev).elementMatrix = page.elementMatrix := by
  unfold closing modify
  split
  · exact ⟨rfl, rfl, rfl, rfl⟩
  · split <;> exact ⟨rfl, rfl, rfl, rfl⟩

/-- The events of a helper do not depend on what is undone. -/
lemma closing_with (page : Page) (u : List Pointer) :
    { page.closing k ev with undos := u, redoing := true } =
      { page with undos := u, redoing := true }.closing k ev := by
  unfold closing modify element
  dsimp only
  split
  · rfl
  · split <;> rfl

/-- What is seen when the last element of the drawing is taken out. -/
lemma view_takeOut {d : List Pointer} {p : Pointer} (hd : page.drawingElements = d ++ [p])
    (hp : p ∉ d) : (page.takeOut p).view i =
      { page.view i with drawingElements := d, undos := page.undos ++ [p] } := by
  have herase : (d ++ [p]).erase p = d := by
    rw [List.erase_append_right _ hp, List.erase_cons_head, List.append_nil]
  unfold takeOut
  rw [hd, if_pos (by simp), herase]
  rfl

/-- What is seen when an element is redone, up to the events of its helper. -/
lemma view_addElement (page : Page) (i : Pointer → ElementState) (hredoing : page.redoing = true)
    (p : Pointer) :
    (page.addElement p false true true).view i = { page.deHighlightElement.view i with
      drawingElements := page.deHighlightElement.drawingElements ++ [p]
      highlightElement := some p
      element := fun q =>
        if p = q then
          (page.deHighlightElement.element q).map fun e =>
            (e.setMatrix page.deHighlightElement.elementMatrix).highlight
        else page.deHighlightElement.element q } := by
  have hproperty : page.deHighlightElement.addProperty false =
      Element.setMatrix page.deHighlightElement.elementMatrix := by
    funext e
    simp [addProperty, Element.setMatrix]
  have hadd : page.addElement p false true true =
      { (page.deHighlightElement.modify p
            (Element.setMatrix page.deHighlightElement.elementMatrix)).modify p
              Element.highlight with
        highlightElement := some p
        allElements := ((page.deHighlightElement.modify p
            (Element.setMatrix page.deHighlightElement.elementMatrix)).modify p
              Element.highlight).allElements.insert p
        drawingElements := ((page.deHighlightElement.modify p
            (Element.setMatrix page.deHighlightElement.elementMatrix)).modify p
              Element.highlight).drawingElements ++ [p]
        redoing := false } := by
    have hflag : page.deHighlightElement.redoing = true := by
      rw [redoing_deHighlightElement, hredoing]
    unfold addElement
    simp only [hproperty, if_true, redoing_modify, hflag]
  have hview : ((page.deHighlightElement.modify p
      (Element.setMatrix page.deHighlightElement.elementMatrix)).modify p
        Element.highlight).view i = { page.deHighlightElement.view i with
      element := fun q =>
        if p = q then
          (page.deHighlightElement.element q).map fun e =>
            (e.setMatrix page.deHighlightElement.elementMatrix).highlight
        else page.deHighlightElement.element q } := by
    rw [view_modify, view_modify]
    refine PageView.ext rfl rfl rfl rfl rfl (funext fun q => ?_) rfl
    dsimp only
    rw [element_modify]
    split_ifs
    · rw [Option.map_map]
      rfl
    · rfl
  rw [hadd]
  generalize (page.deHighlightElement.modify p
    (Element.setMatrix page.deHighlightElement.elementMatrix)).modify p Element.highlight = page₂
    at hview
  show { page₂.view i with
    drawingElements := (page₂.view i).drawingElements ++ [p]
    highlightElement := some p } = _
  rw [hview]
  rfl

end Page

namespace StatedPage

variable {k : ElementToolkit} {ev : HelperEvents} {s : StatedPage}

/-- An undo where nothing else is removed. -/
lemma view_onUndoTriggered {d : List Pointer} {p : Pointer} (henabled : s.page.disableDraw = false)
    (hd : s.page.drawingElements = d ++ [p]) (hp : p ∉ d) (hstays : s.view.Stays k ev) :
    (s.onUndoTriggered k ev).view = s.view.undone k ev d p := by
  obtain ⟨hdrawing, -, hdisable, -⟩ := s.page.closing_frame k ev
  have hlowered : ((s.page.closing k ev).deHighlightElement).view s.initStates =
      s.view.lowered k ev := Page.view_deHighlightElement s.page s.initStates hstays
  have hd' : (s.page.closing k ev).deHighlightElement.drawingElements = d ++ [p] :=
    (congrArg PageView.drawingElements hlowered).trans hd
  have hundos : (s.page.closing k ev).deHighlightElement.undos = s.page.undos :=
    congrArg PageView.undos hlowered
  have hundo : (s.page.closing k ev).onUndoTriggered =
      (s.page.closing k ev).deHighlightElement.takeOut p := by
    unfold Page.onUndoTriggered
    rw [hdisable, henabled, hdrawing, hd, List.getLast?_concat]
    rfl
  have hbusy : (s.page.disableDraw || s.page.drawingElements.isEmpty) = false := by
    rw [henabled, hd]
    simp
  unfold onUndoTriggered
  rw [hbusy]
  show ((s.page.closing k ev).onUndoTriggered).view s.initStates = _
  rw [hundo, Page.view_takeOut hd' hp, hlowered, hundos]
  rfl

/-- A redo where nothing is removed. -/
lemma view_onRedoTriggered {u : List Pointer} {p : Pointer} (henabled : s.page.disableDraw = false)
    (hu : s.page.undos = u ++ [p]) (hstays : s.view.Stays k ev) :
    (s.onRedoTriggered k ev).view = s.view.redone k ev u p := by
  obtain ⟨-, hundos, hdisable, -⟩ := s.page.closing_frame k ev
  -- the page once the element is off the stack
  set page₁ := { s.page.closing k ev with undos := u, redoing := true } with hpage₁
  have hredo : (s.page.closing k ev).onRedoTriggered = page₁.addElement p false true true := by
    have hlast : (s.page.closing k ev).undos.getLast? = some p := by
      rw [hundos, hu, List.getLast?_concat]
    have hdrop : (s.page.closing k ev).undos.dropLast = u := by
      rw [hundos, hu, List.dropLast_concat]
    unfold Page.onRedoTriggered
    rw [if_neg (by rw [hdisable, henabled]; exact Bool.false_ne_true), hlast]
    dsimp only
    rw [hdrop]
  have hlowered : page₁.deHighlightElement.view s.initStates =
      { s.view.lowered k ev with undos := u } := by
    rw [hpage₁, Page.closing_with]
    exact Page.view_deHighlightElement { s.page with undos := u, redoing := true } s.initStates
      hstays
  have hview := Page.view_addElement page₁ s.initStates rfl p
  have helement₁ : page₁.deHighlightElement.element = (s.view.lowered k ev).element :=
    congrArg PageView.element hlowered
  have hmatrix₁ : page₁.deHighlightElement.elementMatrix = s.page.elementMatrix :=
    congrArg PageView.elementMatrix hlowered
  have helement : (page₁.addElement p false true true).element p =
      ((s.view.lowered k ev).element p).map fun e =>
        (e.setMatrix s.page.elementMatrix).highlight := by
    have hp := congrFun (congrArg PageView.element hview) p
    rw [helement₁, hmatrix₁] at hp
    exact hp.trans (if_pos rfl)
  have hinit : (match (page₁.addElement p false true true).element p with
      | some e => Function.update s.initStates p (e.state k)
      | none => s.initStates) = (s.view.redone k ev u p).initStates := by
    rw [helement]
    unfold PageView.redone
    funext q
    dsimp only
    cases (s.view.lowered k ev).element p with
    | none => split_ifs with hq <;> first | rfl | (subst hq; rfl)
    | some e =>
      simp only [Option.map_some, Option.elim_some, Function.update_apply, eq_comm (a := q),
        Element.state_highlight]
      rfl
  have hlast : s.page.undos.getLast? = some p := by rw [hu, List.getLast?_concat]
  unfold onRedoTriggered
  rw [if_neg (by rw [henabled]; exact Bool.false_ne_true), hlast]
  dsimp only
  rw [hredo, hinit]
  show ((page₁.addElement p false true true).modify p (·.raised k ev)).view
    (s.view.redone k ev u p).initStates = _
  rw [Page.view_modify]
  refine PageView.ext ?_ ?_ ?_ ?_ ?_ (funext fun q => ?_) rfl
  · have hadded := congrArg PageView.drawingElements hview
    have hkept := congrArg (fun v => PageView.drawingElements v ++ [p]) hlowered
    exact hadded.trans hkept
  · have hadded := congrArg PageView.undos hview
    have hkept := congrArg PageView.undos hlowered
    exact hadded.trans hkept
  · have hadded := congrArg PageView.highlightElement hview
    exact hadded
  · have hadded := congrArg PageView.disableDraw hview
    have hkept := congrArg PageView.disableDraw hlowered
    exact hadded.trans hkept
  · have hadded := congrArg PageView.elementMatrix hview
    exact hadded.trans hmatrix₁
  · show (if p = q then ((page₁.addElement p false true true).element q).map (·.raised k ev)
      else (page₁.addElement p false true true).element q) = _
    unfold PageView.redone
    dsimp only
    split_ifs with hq
    · rw [← hq, helement, Option.map_map]
      rfl
    · have hq' := congrFun (congrArg PageView.element hview) q
      rw [helement₁] at hq'
      exact hq'.trans (if_neg hq)

end StatedPage

end Liangshi
