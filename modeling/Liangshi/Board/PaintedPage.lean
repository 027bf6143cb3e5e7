import Liangshi.Board.InitDiscipline

/-!
# What the init states of a page give back

A page whose elements have had their init states saved, and have been changed since: how it is saved
with the elements in their init states, painted, searched for the element under the mouse, and reset.

None of this alters the page, and resetting it gives back the data that the elements had, exactly when
every element has what it works out from its state, no size that a state keeps is `-1`, what a state
does not keep is as it was, and every state element that is painted has a source (`InitCovered`).  A
text that has been resized, a label in another colour and a state element that has been moved are not
given back.

A visit of a state element lends it its source: `visits_iff` says when a sequence of visits leaves all
elements as they are, by what no visit can undo (`lent_visits`).
-/

namespace Liangshi

open Wire MessagePack Ordered

/-! ## Elements that have been changed -/

/-- An element whose init state has been saved, what was done to it then, and what the other members
of its `StatedElement` hold. -/
structure ChangedElement where
  saved : Element
  changes : List AttributeChange
  currentState : ElementState
  source : Option Pointer

namespace ChangedElement

/-- The element as it is. -/
def present (k : ElementToolkit) (h : ChangedElement) : Element :=
  h.changes.foldl (Element.change k) h.saved

/-- The element with its states. -/
def stated (k : ElementToolkit) (h : ChangedElement) : StatedElement :=
  ⟨h.present k, h.saved.state k, h.currentState, h.source⟩

/-- An element follows the one it was when its init state was saved. -/
lemma follows_present (k : ElementToolkit) (h : ChangedElement) : h.saved.Follows (h.present k) :=
  Element.follows_changes k h.saved h.changes

end ChangedElement

/-- A page of elements that have been changed. -/
def Canvas.ofChanged (k : ElementToolkit) (history : OrderedMap Pointer ChangedElement)
    (drawingElements : List Pointer) : Canvas :=
  ⟨history.mapValues (·.stated k), drawingElements⟩

/-- The second element has the data and the displayed attributes of the first. -/
structure Element.Keeps (e e' : Element) : Prop where
  toObj : e'.toObj = e.toObj
  lineWidth : e'.lineWidth = e.lineWidth
  lineStyle : e'.lineStyle = e.lineStyle
  lineColor : e'.lineColor = e.lineColor
  matrix : e'.matrix = e.matrix
  body : e'.body = e.body

/-- Every element of the first page is on the second with its data and its displayed attributes. -/
def Canvas.Unaltered (c c' : Canvas) : Prop :=
  ∀ p e, c.element p = some e → ∃ e', c'.element p = some e' ∧ e.Keeps e'

/-- What the init states are for: saving, painting and hitting a page alter nothing, and resetting it
gives back the data of every element from when its init state was saved. -/
structure InitDiscipline (k : ElementToolkit) (history : OrderedMap Pointer ChangedElement)
    (drawingElements : List Pointer) : Prop where
  saving : (Canvas.ofChanged k history drawingElements).Unaltered
    (((Canvas.ofChanged k history drawingElements).toInitState k).toCurrentState k)
  painting : (Canvas.ofChanged k history drawingElements).Unaltered
    ((Canvas.ofChanged k history drawingElements).drawOnQtPainter k)
  hitting : ∃ c', (Canvas.ofChanged k history drawingElements).hitTest k = some c' ∧
    (Canvas.ofChanged k history drawingElements).Unaltered c'
  resetting : ∀ p h, history.find p = some h →
    ∃ e, ((Canvas.ofChanged k history drawingElements).resetElementToInit k).element p = some e ∧
      e.getType = h.saved.getType ∧ e.toObj = h.saved.toObj

/-- When the init states do that: each element has what it works out from its state, the sizes that
states keep are not `-1`, what they do not keep is as it was, and each state element that is painted
has its source. -/
structure InitCovered (k : ElementToolkit) (history : OrderedMap Pointer ChangedElement)
    (drawingElements : List Pointer) : Prop where
  present : ∀ p h, history.find p = some h →
    (h.present k).Normal k ∧ (h.present k).Sized h.saved
  saved : ∀ p h, history.find p = some h →
    h.saved.Normal k ∧ h.saved.Sized (h.present k) ∧ h.saved.RestKept (h.present k)
  sources : ∀ p ∈ drawingElements, ∀ h, history.find p = some h → (h.present k).canPaint →
    (h.present k).body.isState → ∃ q h', h.source = some q ∧ history.find q = some h' ∧
      (h.present k).body.isStateOf (h'.present k).body ∧ (h'.present k).Sized (h.present k)

/-! ## Putting states on elements -/

namespace Element

/-- The uuid, the flags and the helper of an element. -/
def flags (e : Element) : Bytes × Bool × Bool × Bool × Bool × Option Helper :=
  (e.objUuid, e.highlighting, e.canDelete, e.canPaint, e.canPreview, e.helper)

/-- Setting the line width leaves the flags. -/
@[simp] lemma flags_setLineWidth (width : Int32) (e : Element) :
    (e.setLineWidth width).flags = e.flags := by
  unfold setLineWidth
  split <;> rfl

/-- Setting the line style leaves the flags. -/
@[simp] lemma flags_setLineStyle (style : Int32) (e : Element) :
    (e.setLineStyle style).flags = e.flags := by
  unfold setLineStyle
  split <;> rfl

/-- Setting the line colour leaves the flags. -/
@[simp] lemma flags_setLineColor (color : SColor) (e : Element) :
    (e.setLineColor color).flags = e.flags := by
  unfold setLineColor
  split <;> rfl

/-- Setting a state leaves the flags. -/
@[simp] lemma flags_setState (k : ElementToolkit) (e : Element) (s : ElementState) :
    (e.setState k s).flags = e.flags := by
  cases s with
  | path color width style => simp [setState]
  | text color leftTop size text => exact flags_setLineColor color e
  | placed leftTop width height matrix => rfl
  | none => rfl

/-- An element with the data, the displayed attributes and the flags of another is the same. -/
lemma Keeps.eq {e e' : Element} (h : e.Keeps e') (hflags : e'.flags = e.flags) : e' = e := by
  obtain ⟨_, _, _, _, _, _, _, _, _, _, _⟩ := e
  obtain ⟨_, _, _, _, _, _, _, _, _, _, _⟩ := e'
  simp only [flags, Prod.mk.injEq] at hflags
  obtain ⟨rfl, rfl, rfl, rfl, rfl, rfl⟩ := hflags
  obtain ⟨-, rfl, rfl, rfl, rfl, rfl⟩ := h
  rfl

/-- An element keeps what it has. -/
lemma Keeps.refl (e : Element) : e.Keeps e := ⟨rfl, rfl, rfl, rfl, rfl, rfl⟩

/-- What a state leaves of the class and of the size of an element. -/
structure Lent (e e' : Element) : Prop where
  isImage : e'.body.isImage = e.body.isImage
  isBan : e'.body.isBan = e.body.isBan
  sized : e'.Sized e

/-- An element is lent to itself. -/
lemma Lent.refl (e : Element) : e.Lent e := ⟨rfl, rfl, fun _ => ⟨id, id⟩⟩

/-- What is lent on is lent. -/
lemma Lent.trans {e e' e'' : Element} (h : e.Lent e') (h' : e'.Lent e'') : e.Lent e'' := by
  refine ⟨h'.isImage.trans h.isImage, h'.isBan.trans h.isBan, fun hclass => ?_⟩
  have hclass' : (e'.body.isImage || e'.body.isBan) = true := by
    rw [← h'.isImage, ← h'.isBan, hclass]
  obtain ⟨hw', hh'⟩ := h'.sized hclass
  obtain ⟨hw, hh⟩ := h.sized hclass'
  exact ⟨hw ∘ hw', hh ∘ hh'⟩

end Element

/-- A resized width is `-1` only where the old one is. -/
lemma eq_of_resized_eq {old new : Int32} (h : resized old new = -1) : old = -1 ∧ new = -1 := by
  unfold resized at h
  split_ifs at h with hnew
  · exact absurd h hnew
  · exact ⟨h, not_not.mp hnew⟩

namespace ElementBody

/-- The class of a body that is resized, and where its size is `-1`. -/
lemma updateSize_spec (d : DoubleArithmetic) (leftTop : SPoint) (width height : Int32)
    (body : ElementBody) :
    (body.updateSize d leftTop width height).isImage = body.isImage ∧
      (body.updateSize d leftTop width height).isBan = body.isBan ∧
      ((body.isImage || body.isBan) →
        (body.updateSize d leftTop width height).size =
          (resized body.size.1 width, resized body.size.2 height)) := by
  cases body <;> exact ⟨rfl, rfl, fun h => by first | rfl | cases h⟩

/-- Setting a text changes neither the class of a body nor the size of an image or a `.ban` element. -/
lemma setText_spec (k : ElementToolkit) (size : Int32) (t : Bytes) (body : ElementBody) :
    (body.setText k size t).isImage = body.isImage ∧ (body.setText k size t).isBan = body.isBan ∧
      ((body.isImage || body.isBan) → (body.setText k size t).size = body.size) := by
  cases body <;> exact ⟨rfl, rfl, fun h => by first | rfl | cases h⟩

end ElementBody

namespace Element

/-- Setting the line width leaves the body. -/
@[simp] lemma body_setLineWidth (width : Int32) (e : Element) :
    (e.setLineWidth width).body = e.body := by
  unfold setLineWidth
  split <;> rfl

/-- Setting the line style leaves the body. -/
@[simp] lemma body_setLineStyle (style : Int32) (e : Element) :
    (e.setLineStyle style).body = e.body := by
  unfold setLineStyle
  split <;> rfl

/-- Setting the line colour leaves the body. -/
@[simp] lemma body_setLineColor (color : SColor) (e : Element) :
    (e.setLineColor color).body = e.body := by
  unfold setLineColor
  split <;> rfl

/-- An element of the same class that has been resized. -/
lemma lent_of_resized {e e' : Element} (width height : Int32)
    (himage : e'.body.isImage = e.body.isImage) (hban : e'.body.isBan = e.body.isBan)
    (hsize : (e.body.isImage || e.body.isBan) →
      e'.body.size = (resized e.body.size.1 width, resized e.body.size.2 height)) : e.Lent e' := by
  refine ⟨himage, hban, fun hclass => ?_⟩
  rw [himage, hban] at hclass
  rw [hsize hclass]
  exact ⟨fun h => (eq_of_resized_eq h).1, fun h => (eq_of_resized_eq h).1⟩

/-- Whatever state an element is put in, its class stays, and its size becomes `-1` nowhere. -/
lemma lent_setState (k : ElementToolkit) (e : Element) (s : ElementState) :
    e.Lent (e.setState k s) := by
  cases s with
  | path color width style =>
    have hbody : (e.setState k (.path color width style)).body = e.body := by simp [setState]
    exact lent_of_resized (-1) (-1) (by rw [hbody]) (by rw [hbody]) fun _ => by rw [hbody]; rfl
  | text color leftTop size text =>
    obtain ⟨himage, hban, hsize⟩ :=
      ElementBody.updateSize_spec k.toDoubleArithmetic leftTop (-1) (-1) e.body
    obtain ⟨himage', hban', hsize'⟩ := ElementBody.setText_spec k size text
      (e.body.updateSize k.toDoubleArithmetic leftTop (-1) (-1))
    have hbody : (e.setState k (.text color leftTop size text)).body =
        (e.body.updateSize k.toDoubleArithmetic leftTop (-1) (-1)).setText k size text := by
      simp [setState]
    refine lent_of_resized (-1) (-1) (by rw [hbody, himage', himage])
      (by rw [hbody, hban', hban]) fun hclass => ?_
    rw [hbody, hsize' (by rw [himage, hban, hclass]), hsize hclass]
  | placed leftTop width height matrix =>
    obtain ⟨himage, hban, hsize⟩ :=
      ElementBody.updateSize_spec k.toDoubleArithmetic leftTop width height e.body
    exact lent_of_resized width height himage hban hsize
  | none => exact .refl e

/-- A size that is put on an image or a `BanElement` is `-1` where that of the element is then. -/
lemma size_setState_placed (k : ElementToolkit) {e : Element}
    (h : e.body.isImage || e.body.isBan) (leftTop : SPoint) (width height : Int32)
    (matrix : SMatrix) :
    ((e.setState k (.placed leftTop width height matrix)).body.size.1 = -1 → width = -1) ∧
      ((e.setState k (.placed leftTop width height matrix)).body.size.2 = -1 → height = -1) := by
  obtain ⟨-, -, hsize⟩ :=
    ElementBody.updateSize_spec k.toDoubleArithmetic leftTop width height e.body
  have hbody : (e.setState k (.placed leftTop width height matrix)).body.size =
      (resized e.body.size.1 width, resized e.body.size.2 height) := hsize h
  rw [hbody]
  exact ⟨fun h => (eq_of_resized_eq h).2, fun h => (eq_of_resized_eq h).2⟩

end Element

/-! ## One state element -/

namespace StatedElement

/-- Whether putting the init state on the element and taking it off leaves it as it is. -/
structure Quiet (k : ElementToolkit) (s : StatedElement) : Prop where
  normal : s.element.Normal k
  setState : (s.element.setState k s.initState).setState k (s.element.state k) = s.element

/-- Lending keeps the class, and makes no size `-1`. -/
lemma lent_lend (k : ElementToolkit) (own : ElementState) (s : StatedElement) :
    s.element.Lent (s.lend k own).element :=
  (((Element.lent_setState k _ _).trans (Element.lent_setState k _ _)).trans
    (Element.lent_setState k _ _)).trans (Element.lent_setState k _ _)

/-- Lending an image or a `BanElement` changes it unless the size it is lent for is `-1` where its own
is. -/
lemma lend_spec {k : ElementToolkit} {s : StatedElement} (hs : s.Quiet k)
    (hclass : s.element.body.isImage || s.element.body.isBan) (leftTop : SPoint)
    (width height : Int32) (matrix : SMatrix) :
    ((s.element.body.size.1 = -1 → width = -1) ∧ (s.element.body.size.2 = -1 → height = -1) →
        (s.lend k (.placed leftTop width height matrix)).element = s.element) ∧
      (((s.lend k (.placed leftTop width height matrix)).element.body.size.1 = -1 → width = -1) ∧
        ((s.lend k (.placed leftTop width height matrix)).element.body.size.2 = -1 →
          height = -1)) := by
  have hlend : (s.lend k (.placed leftTop width height matrix)).element =
      (s.element.setState k (.placed leftTop width height matrix)).setState k
        (s.element.state k) := by
    show (((s.element.setState k s.initState).setState k (s.element.state k)).setState k
      (.placed leftTop width height matrix)).setState k (s.element.state k) = _
    rw [hs.setState]
  rw [hlend]
  refine ⟨fun hsize => (Element.setState_placed_iff k hclass _ _ _ _).mpr ⟨hs.normal, hsize⟩, ?_⟩
  have hlent := Element.lent_setState k s.element (.placed leftTop width height matrix)
  have hlent' := Element.lent_setState k
    (s.element.setState k (.placed leftTop width height matrix)) (s.element.state k)
  obtain ⟨hw, hh⟩ := Element.size_setState_placed k hclass leftTop width height matrix
  obtain ⟨hw', hh'⟩ := hlent'.sized (by
    rw [hlent'.isImage, hlent'.isBan, hlent.isImage, hlent.isBan, hclass])
  exact ⟨hw ∘ hw', hh ∘ hh'⟩

end StatedElement

/-! ## Visits -/

/-- The state that a state element lends its source for. -/
lemma Element.ownState_eq (e : Element) :
    e.ownState =
      if e.body.isState then
        some (.placed e.body.adjustable.leftTop e.body.size.1 e.body.size.2 e.matrix)
      else Option.none := by
  unfold ownState
  cases e.body <;> rfl

/-- A source is an image or a `BanElement`. -/
lemma ElementBody.isImage_or_isBan_of_isStateOf {body source : ElementBody}
    (h : body.isStateOf source) : source.isImage || source.isBan := by
  cases body <;> first | cases h | simp only [isStateOf] at h; simp [h]

namespace Canvas

/-- What a visit is to leave as it is. -/
def view (c : Canvas) (p : Pointer) : Option (Element × ElementState × Option Pointer) :=
  (c.elements.find p).map fun s => (s.element, s.initState, s.source)

/-- What is seen of an element that is found. -/
lemma view_of_find {c : Canvas} {p : Pointer} {s : StatedElement}
    (h : c.elements.find p = some s) : c.view p = some (s.element, s.initState, s.source) := by
  rw [view, h]
  rfl

/-- What is seen belongs to an element that is found. -/
lemma find_of_view {c : Canvas} {p : Pointer} {v : Element × ElementState × Option Pointer}
    (h : c.view p = some v) :
    ∃ s, c.elements.find p = some s ∧ (s.element, s.initState, s.source) = v :=
  Option.map_eq_some_iff.mp h

/-- The element at an address is the first part of what is seen. -/
lemma element_eq (c : Canvas) (p : Pointer) : c.element p = (c.view p).map (·.1) := by
  simp [element, view, Function.comp_def]

/-- Whether all elements are left as they are when their init states are put on and taken off. -/
def Quiet (k : ElementToolkit) (c : Canvas) : Prop :=
  ∀ p e i r, c.view p = some (e, i, r) →
    e.Normal k ∧ (e.setState k i).setState k (e.state k) = e

/-- Whether an element that is painted as a state has a source that can be lent to it. -/
def Lendable (c : Canvas) (p : Pointer) : Prop :=
  ∀ e i r, c.view p = some (e, i, r) → e.canPaint → e.body.isState →
    ∃ q t j r', r = some q ∧ c.view q = some (t, j, r') ∧ e.body.isStateOf t.body ∧ t.Sized e

/-- The source of a state element. -/
lemma sourceOf_eq_some {c : Canvas} {s : StatedElement} {q : Pointer} {t : StatedElement} :
    c.sourceOf s = some (q, t) ↔
      s.source = some q ∧ c.elements.find q = some t ∧
        s.element.body.isStateOf t.element.body := by
  constructor
  · intro h
    obtain ⟨r, hr, h⟩ := Option.bind_eq_some_iff.mp h
    obtain ⟨t', ht, h⟩ := Option.bind_eq_some_iff.mp h
    split_ifs at h with hclass
    cases h
    exact ⟨hr, ht, hclass⟩
  · rintro ⟨hs, ht, hclass⟩
    simp [sourceOf, hs, ht, hclass]

/-- A visit either changes nothing or lends the source of a state element to it. -/
lemma visit_cases {k : ElementToolkit} {c c' : Canvas} {p : Pointer} (h : c.visit k p = some c') :
    (c' = c ∧ c.Lendable p) ∨
      ∃ s q t, c.elements.find p = some s ∧ c.sourceOf s = some (q, t) ∧
        c' = { c with elements := c.elements.insert q (t.lend k
          (.placed s.element.body.adjustable.leftTop s.element.body.size.1 s.element.body.size.2
            s.element.matrix)) } := by
  unfold visit at h
  cases hfind : c.elements.find p with
  | none =>
    simp only [hfind, Option.some.injEq] at h
    refine Or.inl ⟨h.symm, fun e i r hview => ?_⟩
    rw [view, hfind] at hview
    cases hview
  | some s =>
    simp only [hfind, Element.ownState_eq] at h
    by_cases hstate : s.element.body.isState
    · simp only [if_pos hstate] at h
      split_ifs at h with hpaint
      · obtain ⟨⟨q, t⟩, hsource, hc⟩ := Option.map_eq_some_iff.mp h
        exact Or.inr ⟨s, q, t, rfl, hsource, hc.symm⟩
      · refine Or.inl ⟨(Option.some.inj h).symm, fun e i r hview hpaint' => ?_⟩
        rw [view_of_find hfind] at hview
        cases hview
        exact absurd hpaint' hpaint
    · simp only [if_neg hstate, Option.some.injEq] at h
      refine Or.inl ⟨h.symm, fun e i r hview _ hstate' => ?_⟩
      rw [view_of_find hfind] at hview
      cases hview
      exact absurd hstate' hstate

/-- Visiting an element that can be lent its source. -/
lemma visit_of_lendable {k : ElementToolkit} {c : Canvas} {p : Pointer} (hquiet : c.Quiet k)
    (hp : c.Lendable p) : ∃ c', c.visit k p = some c' ∧ c'.view = c.view := by
  unfold visit
  cases hfind : c.elements.find p with
  | none => exact ⟨c, rfl, rfl⟩
  | some s =>
    simp only [Element.ownState_eq]
    by_cases hstate : s.element.body.isState
    · simp only [if_pos hstate]
      split_ifs with hpaint
      · obtain ⟨q, t, j, r', hr, hview, hclass, hsized⟩ :=
          hp _ _ _ (view_of_find hfind) hpaint hstate
        obtain ⟨t', ht, heq⟩ := find_of_view hview
        obtain ⟨rfl, rfl, rfl⟩ : t'.element = t ∧ t'.initState = j ∧ t'.source = r' := by
          simpa using heq
        rw [sourceOf_eq_some.mpr ⟨hr, ht, hclass⟩]
        refine ⟨_, rfl, funext fun r => ?_⟩
        have hplaced := ElementBody.isImage_or_isBan_of_isStateOf hclass
        obtain ⟨hnormal, hset⟩ := hquiet _ _ _ _ hview
        have helement := (StatedElement.lend_spec ⟨hnormal, hset⟩ hplaced
          s.element.body.adjustable.leftTop s.element.body.size.1 s.element.body.size.2
          s.element.matrix).1 (hsized hplaced)
        simp only [view, OrderedMap.find_insert]
        split_ifs with hqr
        · subst hqr
          rw [ht]
          simp only [Option.map_some, helement]
          rfl
        · rfl
      · exact ⟨c, rfl, rfl⟩
    · simp only [if_neg hstate]
      exact ⟨c, rfl, rfl⟩

/-- Visits of elements that can be lent their sources. -/
lemma visits_of_lendable {k : ElementToolkit} {c : Canvas} {l : List Pointer} (hquiet : c.Quiet k)
    (hl : ∀ p ∈ l, c.Lendable p) :
    ∃ c', l.foldlM (visit k) c = some c' ∧ c'.view = c.view := by
  induction l generalizing c with
  | nil => exact ⟨c, rfl, rfl⟩
  | cons p l ih =>
    obtain ⟨c₁, hvisit, hview⟩ := visit_of_lendable hquiet (hl p List.mem_cons_self)
    have hquiet₁ : c₁.Quiet k := by
      unfold Quiet
      rwa [hview]
    have hl₁ : ∀ p ∈ l, c₁.Lendable p := by
      intro p hp
      unfold Lendable
      rw [hview]
      exact hl p (List.mem_cons_of_mem _ hp)
    obtain ⟨c', hvisits, hview'⟩ := ih hquiet₁ hl₁
    exact ⟨c', by rw [List.foldlM_cons, hvisit]; exact hvisits, hview'.trans hview⟩

/-- A visit keeps the class of every element, and makes no size `-1`. -/
lemma lent_visit {k : ElementToolkit} {c c' : Canvas} {p : Pointer} (h : c.visit k p = some c')
    {q : Pointer} {e : Element} (he : c.element q = some e) :
    ∃ e', c'.element q = some e' ∧ e.Lent e' := by
  obtain ⟨rfl, -⟩ | ⟨s, r, t, -, hsource, rfl⟩ := visit_cases h
  · exact ⟨e, he, .refl e⟩
  · obtain ⟨-, ht, -⟩ := sourceOf_eq_some.mp hsource
    simp only [element, OrderedMap.find_insert]
    split_ifs with hrq
    · subst hrq
      rw [element, ht] at he
      obtain rfl := Option.some.inj he
      exact ⟨_, rfl, t.lent_lend k _⟩
    · exact ⟨e, he, .refl e⟩

/-- A sequence of visits keeps the class of every element, and makes no size `-1`. -/
lemma lent_visits {k : ElementToolkit} {c c' : Canvas} {l : List Pointer}
    (h : l.foldlM (visit k) c = some c') {q : Pointer} {e : Element} (he : c.element q = some e) :
    ∃ e', c'.element q = some e' ∧ e.Lent e' := by
  induction l generalizing c e with
  | nil =>
    obtain rfl := Option.some.inj h
    exact ⟨e, he, .refl e⟩
  | cons p l ih =>
    obtain ⟨c₁, hvisit, hvisits⟩ := Option.bind_eq_some_iff.mp h
    obtain ⟨e₁, he₁, hlent⟩ := lent_visit hvisit he
    obtain ⟨e', he', hlent'⟩ := ih hvisits he₁
    exact ⟨e', he', hlent.trans hlent'⟩

/-- When visits alter nothing, the first state element could be lent its source. -/
lemma lendable_of_unaltered {k : ElementToolkit} {c c₁ c' : Canvas} {p : Pointer}
    {l : List Pointer} (hquiet : c.Quiet k) (hvisit : c.visit k p = some c₁)
    (hvisits : l.foldlM (visit k) c₁ = some c') (hunaltered : c.Unaltered c') : c.Lendable p := by
  obtain ⟨-, hp⟩ | ⟨s, q, t, hs, hsource, rfl⟩ := visit_cases hvisit
  · exact hp
  · obtain ⟨hr, ht, hclass⟩ := sourceOf_eq_some.mp hsource
    have hplaced := ElementBody.isImage_or_isBan_of_isStateOf hclass
    obtain ⟨hnormal, hset⟩ := hquiet _ _ _ _ (view_of_find ht)
    obtain ⟨hw, hh⟩ := (StatedElement.lend_spec ⟨hnormal, hset⟩ hplaced
      s.element.body.adjustable.leftTop s.element.body.size.1 s.element.body.size.2
      s.element.matrix).2
    -- what lending did to the size is never undone
    obtain ⟨t', ht', hlent⟩ := lent_visits (q := q) hvisits (by
      simp only [element, OrderedMap.find_insert, if_pos]
      rfl)
    obtain ⟨t'', ht'', hkeeps⟩ := hunaltered q t.element (by rw [element, ht]; rfl)
    obtain rfl := Option.some.inj (ht'.symm.trans ht'')
    intro e i r hview _ _
    rw [view_of_find hs] at hview
    cases hview
    refine ⟨q, t.element, t.initState, t.source, hr, view_of_find ht, hclass, fun _ => ?_⟩
    obtain ⟨hw', hh'⟩ := hlent.sized (by rw [hkeeps.body, hplaced])
    rw [hkeeps.body] at hw' hh'
    exact ⟨hw ∘ hw', hh ∘ hh'⟩

/-- Visits alter nothing exactly when every source can be lent. -/
lemma visits_iff {k : ElementToolkit} {c : Canvas} {l : List Pointer} (hquiet : c.Quiet k) :
    (∃ c', l.foldlM (visit k) c = some c' ∧ c.Unaltered c') ↔ ∀ p ∈ l, c.Lendable p := by
  constructor
  · rintro ⟨c', hvisits, hunaltered⟩
    induction l generalizing c with
    | nil => exact fun p hp => absurd hp List.not_mem_nil
    | cons p l ih =>
      obtain ⟨c₁, hvisit, hvisits⟩ := Option.bind_eq_some_iff.mp hvisits
      have hp := lendable_of_unaltered hquiet hvisit hvisits hunaltered
      obtain ⟨c₂, hvisit', hview⟩ := visit_of_lendable hquiet hp
      obtain rfl := Option.some.inj (hvisit.symm.trans hvisit')
      intro r hr
      rcases List.mem_cons.mp hr with rfl | hr
      · exact hp
      · have hr₁ := ih (c := c₁) (by unfold Quiet; rwa [hview])
          hvisits (by
            intro p e he
            rw [element_eq, hview, ← element_eq] at he
            exact hunaltered p e he) r hr
        unfold Lendable at hr₁
        rwa [hview] at hr₁
  · intro hl
    obtain ⟨c', hvisits, hview⟩ := visits_of_lendable hquiet hl
    refine ⟨c', hvisits, fun p e he => ⟨e, ?_, .refl e⟩⟩
    rw [element_eq, hview, ← element_eq, he]

/-! ## Changed elements -/

variable {k : ElementToolkit} {history : OrderedMap Pointer ChangedElement}
  {drawingElements : List Pointer}

/-- What is seen of an element with a history. -/
@[simp] lemma view_ofChanged (p : Pointer) :
    (ofChanged k history drawingElements).view p =
      (history.find p).map fun h => (h.present k, h.saved.state k, h.source) := by
  simp only [view, ofChanged, OrderedMap.find_mapValues, Option.map_map]
  rfl

/-- An element with a history is what its changes have made of it. -/
lemma element_ofChanged {p : Pointer} {h : ChangedElement} (hfind : history.find p = some h) :
    (ofChanged k history drawingElements).element p = some (h.present k) := by
  rw [element_eq, view_ofChanged, hfind]
  rfl

/-- Saving alters nothing exactly when every element has what it works out from its state. -/
lemma unaltered_saving_iff :
    (ofChanged k history drawingElements).Unaltered
        (((ofChanged k history drawingElements).toInitState k).toCurrentState k) ↔
      ∀ p h, history.find p = some h → (h.present k).Normal k ∧ (h.present k).Sized h.saved := by
  have hafter : ∀ p h, history.find p = some h →
      (((ofChanged k history drawingElements).toInitState k).toCurrentState k).element p =
        some (((h.present k).setState k (h.saved.state k)).setState k ((h.present k).state k)) := by
    intro p h hfind
    simp only [element, toInitState, toCurrentState, ofChanged, OrderedMap.find_mapValues, hfind]
    rfl
  constructor
  · intro hunaltered p h hfind
    obtain ⟨e, he, hkeeps⟩ := hunaltered p _ (element_ofChanged hfind)
    obtain rfl := Option.some.inj ((hafter p h hfind).symm.trans he)
    exact (Element.setState_state_iff k (h.follows_present k)).mp (hkeeps.eq (by simp))
  · intro hpresent p e he
    rw [element_eq, view_ofChanged] at he
    obtain ⟨v, hv, rfl⟩ := Option.map_eq_some_iff.mp he
    obtain ⟨h, hfind, rfl⟩ := Option.map_eq_some_iff.mp hv
    refine ⟨_, hafter p h hfind, ?_⟩
    rw [(Element.setState_state_iff k (h.follows_present k)).mpr (hpresent p h hfind)]
    exact .refl _

/-- Elements that saving does not alter. -/
lemma quiet_ofChanged
    (hpresent : ∀ p h, history.find p = some h →
      (h.present k).Normal k ∧ (h.present k).Sized h.saved) :
    (ofChanged k history drawingElements).Quiet k := by
  intro p e i r hview
  rw [view_ofChanged] at hview
  obtain ⟨h, hfind, heq⟩ := Option.map_eq_some_iff.mp hview
  obtain ⟨rfl, rfl, rfl⟩ : h.present k = e ∧ h.saved.state k = i ∧ h.source = r := by
    simpa using heq
  exact ⟨(hpresent p h hfind).1,
    (Element.setState_state_iff k (h.follows_present k)).mpr (hpresent p h hfind)⟩

/-- Which sources can be lent. -/
lemma lendable_ofChanged {p : Pointer} :
    (ofChanged k history drawingElements).Lendable p ↔
      ∀ h, history.find p = some h → (h.present k).canPaint → (h.present k).body.isState →
        ∃ q h', h.source = some q ∧ history.find q = some h' ∧
          (h.present k).body.isStateOf (h'.present k).body ∧
            (h'.present k).Sized (h.present k) := by
  constructor
  · intro hp h hfind hpaint hstate
    obtain ⟨q, t, j, r', hr, hview, hclass, hsized⟩ :=
      hp (h.present k) (h.saved.state k) h.source (by simp [hfind]) hpaint hstate
    rw [view_ofChanged] at hview
    obtain ⟨h', hfind', heq⟩ := Option.map_eq_some_iff.mp hview
    obtain ⟨rfl, -⟩ : h'.present k = t ∧ _ := by simpa using heq
    exact ⟨q, h', hr, hfind', hclass, hsized⟩
  · intro hp e i r hview hpaint hstate
    rw [view_ofChanged] at hview
    obtain ⟨h, hfind, heq⟩ := Option.map_eq_some_iff.mp hview
    obtain ⟨rfl, rfl, rfl⟩ : h.present k = e ∧ h.saved.state k = i ∧ h.source = r := by
      simpa using heq
    obtain ⟨q, h', hr, hfind', hclass, hsized⟩ := hp h hfind hpaint hstate
    exact ⟨q, h'.present k, h'.saved.state k, h'.source, hr, by simp [hfind'], hclass, hsized⟩

/-- Painting is a sequence of visits, where none of them fails. -/
lemma drawOnQtPainter_of_visits {c c' : Canvas}
    (h : c.drawingElements.foldlM (visit k) c = some c') : c.drawOnQtPainter k = c' := by
  have hrun : ∀ (l : List Pointer) (c : Canvas), l.foldlM (visit k) c = some c' →
      l.foldl (fun c p => (c.visit k p).getD c) c = c' := by
    intro l
    induction l with
    | nil => exact fun c h => Option.some.inj h
    | cons p l ih =>
      intro c h
      obtain ⟨c₁, hvisit, hvisits⟩ := Option.bind_eq_some_iff.mp h
      rw [List.foldl_cons, hvisit]
      exact ih c₁ hvisits
  exact hrun _ c h

/-- What resetting the page gives back. -/
lemma resetting_iff :
    (∀ p h, history.find p = some h →
      ∃ e, ((ofChanged k history drawingElements).resetElementToInit k).element p = some e ∧
        e.getType = h.saved.getType ∧ e.toObj = h.saved.toObj) ↔
      ∀ p h, history.find p = some h →
        h.saved.Normal k ∧ h.saved.Sized (h.present k) ∧ h.saved.RestKept (h.present k) := by
  refine forall_congr' fun p => forall_congr' fun h => forall_congr' fun hfind => ?_
  have hafter : ((ofChanged k history drawingElements).resetElementToInit k).element p =
      some ((h.present k).setState k (h.saved.state k)) := by
    simp only [element, resetElementToInit, toInitState, ofChanged, OrderedMap.find_mapValues,
      hfind]
    rfl
  rw [hafter, ← Element.toObj_setState_state_iff k (h.follows_present k)]
  constructor
  · rintro ⟨e, he, -, hobj⟩
    obtain rfl := Option.some.inj he
    exact hobj
  · exact fun hobj => ⟨_, rfl, Element.getType_setState_state k (h.follows_present k), hobj⟩

end Canvas

/-! ## The discipline -/

/-- Saving, painting and hitting a page alter nothing and resetting it gives back what was saved
exactly when the states cover what was done to the elements. -/
theorem initDiscipline_iff (k : ElementToolkit) (history : OrderedMap Pointer ChangedElement)
    (drawingElements : List Pointer) :
    InitDiscipline k history drawingElements ↔ InitCovered k history drawingElements := by
  constructor
  · rintro ⟨hsaving, -, hhitting, hresetting⟩
    have hpresent := Canvas.unaltered_saving_iff.mp hsaving
    refine ⟨hpresent, Canvas.resetting_iff.mp hresetting, fun p hp => ?_⟩
    exact Canvas.lendable_ofChanged.mp
      ((Canvas.visits_iff (Canvas.quiet_ofChanged hpresent)).mp hhitting p (List.mem_reverse.mpr hp))
  · rintro ⟨hpresent, hsaved, hsources⟩
    have hquiet : (Canvas.ofChanged k history drawingElements).Quiet k :=
      Canvas.quiet_ofChanged hpresent
    have hlendable : ∀ p ∈ drawingElements,
        (Canvas.ofChanged k history drawingElements).Lendable p :=
      fun p hp => Canvas.lendable_ofChanged.mpr (hsources p hp)
    obtain ⟨c', hvisits, hunaltered⟩ := (Canvas.visits_iff hquiet).mpr hlendable
    refine ⟨Canvas.unaltered_saving_iff.mpr hpresent, ?_, ?_, Canvas.resetting_iff.mpr hsaved⟩
    · rw [Canvas.drawOnQtPainter_of_visits hvisits]
      exact hunaltered
    · exact (Canvas.visits_iff hquiet).mpr fun p hp => hlendable p (List.mem_reverse.mp hp)

/-- A labelled page element, put on a page in white and then turned red. -/
def recolouredLabel : OrderedMap Pointer ChangedElement :=
  OrderedMap.empty.insert 0
    { saved := .new [1] (.banWithLabel
        ⟨⟨10, 20⟩, ⟨0, 0⟩, 100, 100, SMatrix.one, SMatrix.one, 100, 100, ⟨[]⟩⟩ [65])
      changes := [.lineColor 0xffff0000]
      currentState := .none
      source := none }

/-- Resetting its page leaves the label red. -/
theorem not_initDiscipline_recolouredLabel :
    ¬ InitDiscipline ⟨⟨fun _ _ => SMatrix.one, fun i _ => i⟩, fun _ _ => false, id,
      fun _ _ => (0, 0)⟩ recolouredLabel [0] := by
  intro h
  obtain ⟨-, -, hrest⟩ := Canvas.resetting_iff.mp h.resetting 0 _ rfl
  have hcolor : (0xffff0000 : SColor) = 0xffffffff := hrest
  exact absurd hcolor (by decide)

end Liangshi
