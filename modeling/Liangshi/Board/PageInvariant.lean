import Liangshi.Board.Page
import Mathlib.Data.List.Nodup

/-!
# The containers of a page

`Consistent` says that the drawing lists no element twice and none that is undone, that the drawing and
the undone elements are elements of the page and the highlighted one is drawn, that no two elements
have one uuid, and that no container holds the address of a deleted element.

Most operations change what an element is like, and no container: `Similar` pages differ in nothing
that `Consistent` looks at except the highlight.  `Settled` pages are consistent and undo no element
twice; taking an element out, hiding the highlighted one and adding an element keep a page settled.
-/

namespace Liangshi

open Wire Ordered

namespace Page

/-- The uuid of the element at an address. -/
def uuidOf (page : Page) (p : Pointer) : Option Bytes := (page.element p).map (·.objUuid)

/-- The containers agree with each other and with the elements. -/
structure Consistent (page : Page) : Prop where
  nodup : page.drawingElements.Nodup
  not_undone : ∀ p ∈ page.drawingElements, p ∉ page.undos
  drawn : ∀ p ∈ page.drawingElements, p ∈ page.allElements
  undone : ∀ p ∈ page.undos, p ∈ page.allElements
  uuids : ∀ p ∈ page.allElements, ∀ q ∈ page.allElements, page.uuidOf p = page.uuidOf q → p = q
  highlighted : ∀ h ∈ page.highlightElement, h ∈ page.drawingElements
  live : ∀ p ∈ page.allElements, (page.element p).isSome

/-- What is drawn are elements of the page, none of them twice, and the elements are there. -/
structure Drawable (page : Page) : Prop where
  nodup : page.drawingElements.Nodup
  drawn : ∀ p ∈ page.drawingElements, p ∈ page.allElements
  live : ∀ p ∈ page.allElements, (page.element p).isSome

/-- A consistent page can be drawn. -/
lemma Consistent.drawable {page : Page} (h : Consistent page) : Drawable page :=
  ⟨h.nodup, h.drawn, h.live⟩

/-- Consistent, and no element is undone twice. -/
structure Settled (page : Page) : Prop extends Consistent page where
  undos_nodup : page.undos.Nodup

/-! ## Pages with the same containers -/

/-- The containers are the same and the elements have the same uuids. -/
structure Similar (page page' : Page) : Prop where
  uuidOf_eq : ∀ p, page'.uuidOf p = page.uuidOf p
  allElements_eq : page'.allElements = page.allElements
  drawingElements_eq : page'.drawingElements = page.drawingElements
  undos_eq : page'.undos = page.undos
  redoing_eq : page'.redoing = page.redoing

namespace Similar

variable {page page' page'' : Page}

/-- A page is similar to itself. -/
lemma refl (page : Page) : Similar page page := ⟨fun _ => rfl, rfl, rfl, rfl, rfl⟩

/-- Similarity is transitive. -/
lemma trans (h : Similar page page') (h' : Similar page' page'') : Similar page page'' :=
  ⟨fun p => (h'.uuidOf_eq p).trans (h.uuidOf_eq p), h'.allElements_eq.trans h.allElements_eq,
    h'.drawingElements_eq.trans h.drawingElements_eq, h'.undos_eq.trans h.undos_eq,
    h'.redoing_eq.trans h.redoing_eq⟩

/-- An element is at an address of one page when there is one at it in the other. -/
lemma isSome_eq (h : Similar page page') (p : Pointer) :
    (page'.element p).isSome = (page.element p).isSome := by
  have huuid := congrArg Option.isSome (h.uuidOf_eq p)
  simpa [uuidOf] using huuid

/-- Having a uuid is the same for both. -/
lemma hasUuid_eq (h : Similar page page') (uuid : Bytes) (p : Pointer) :
    page'.hasUuid uuid p = page.hasUuid uuid p := by
  have hmap : ∀ o : Option Element,
      (o.any fun e => e.objUuid == uuid) = (o.map (·.objUuid)).any (· == uuid) := by
    intro o
    cases o <;> rfl
  have huuid := h.uuidOf_eq p
  unfold uuidOf at huuid
  rw [hasUuid, hasUuid, hmap, hmap, huuid]

/-- Elements with different uuids on one page have different uuids on the other. -/
lemma uuids {among : Pointer → Prop} (h : Similar page page')
    (huuids : ∀ p, among p → ∀ q, among q → page.uuidOf p = page.uuidOf q → p = q) :
    ∀ p, among p → ∀ q, among q → page'.uuidOf p = page'.uuidOf q → p = q := by
  intro p hp q hq huuid
  rw [h.uuidOf_eq, h.uuidOf_eq] at huuid
  exact huuids p hp q hq huuid

/-- A page similar to one that can be drawn can be drawn. -/
lemma drawable (h : Similar page page') (hpage : Drawable page) : Drawable page' where
  nodup := by rw [h.drawingElements_eq]; exact hpage.nodup
  drawn := by rw [h.drawingElements_eq, h.allElements_eq]; exact hpage.drawn
  live p hp := by
    rw [h.isSome_eq]
    exact hpage.live p (h.allElements_eq ▸ hp)

/-- A page similar to a settled one is settled when its highlighted element is drawn. -/
lemma settled (h : Similar page page') (hpage : Settled page)
    (hhighlight : ∀ p ∈ page'.highlightElement, p ∈ page.drawingElements) : Settled page' where
  nodup := (h.drawable hpage.drawable).nodup
  not_undone := by rw [h.drawingElements_eq, h.undos_eq]; exact hpage.not_undone
  drawn := (h.drawable hpage.drawable).drawn
  undone := by rw [h.undos_eq, h.allElements_eq]; exact hpage.undone
  uuids := by rw [h.allElements_eq]; exact h.uuids hpage.uuids
  highlighted := by rw [h.drawingElements_eq]; exact hhighlight
  live := (h.drawable hpage.drawable).live
  undos_nodup := by rw [h.undos_eq]; exact hpage.undos_nodup

end Similar

variable {page : Page}

/-- The elements of a page once one has been put at an address. -/
@[simp] lemma element_setElement (page : Page) (p q : Pointer) (e : Element) :
    (page.setElement p e).element q = if p = q then some e else page.element q := by
  simp [element, setElement]

/-- Changing an element without its uuid gives a similar page. -/
lemma similar_setElement {p : Pointer} {e e' : Element} (he : page.element p = some e)
    (huuid : e'.objUuid = e.objUuid) : Similar page (page.setElement p e') := by
  refine ⟨fun q => ?_, rfl, rfl, rfl, rfl⟩
  unfold uuidOf
  rw [element_setElement]
  split_ifs with hq
  · rw [← hq, he, Option.map_some, Option.map_some, huuid]
  · rfl

/-- Changing an element without its uuid gives a similar page. -/
lemma similar_modify (page : Page) (p : Pointer) {f : Element → Element}
    (hf : ∀ e, (f e).objUuid = e.objUuid) : Similar page (page.modify p f) := by
  unfold modify
  cases he : page.element p with
  | none => exact .refl page
  | some e => exact similar_setElement he (hf e)

/-- Changing an element without its uuid and its class leaves all elements with theirs. -/
lemma element_modify_of_body (page : Page) (p : Pointer) {f : Element → Element}
    (huuid : ∀ e, (f e).objUuid = e.objUuid) (hbody : ∀ e, (f e).body = e.body) {q : Pointer}
    {e : Element} (he : page.element q = some e) :
    ∃ e', (page.modify p f).element q = some e' ∧ e'.objUuid = e.objUuid ∧ e'.body = e.body := by
  unfold modify
  cases hp : page.element p with
  | none => exact ⟨e, he, rfl, rfl⟩
  | some d =>
    simp only [element_setElement]
    split_ifs with hq
    · rw [hq, he] at hp
      cases hp
      exact ⟨f e, rfl, huuid e, hbody e⟩
    · exact ⟨e, he, rfl, rfl⟩

/-- Changing an element leaves the highlight. -/
@[simp] lemma highlightElement_modify (page : Page) (p : Pointer) (f : Element → Element) :
    (page.modify p f).highlightElement = page.highlightElement := by
  unfold modify
  cases page.element p <;> rfl

/-- Showing a helper leaves the uuid. -/
@[simp] lemma objUuid_highlight (e : Element) : e.highlight.objUuid = e.objUuid := by
  simp only [Element.highlight]
  split_ifs <;> rfl

/-- Hiding a helper leaves the uuid. -/
@[simp] lemma objUuid_hide (e : Element) : e.hide.1.objUuid = e.objUuid := by
  simp only [Element.hide]
  split <;> rfl

/-- Hiding an element gives a similar page. -/
lemma similar_hide (page : Page) (p : Pointer) : Similar page (page.hide p).1 := by
  unfold hide
  cases he : page.element p with
  | none => exact .refl page
  | some e => exact similar_setElement he (objUuid_hide e)

/-- Hiding a helper leaves the highlight. -/
@[simp] lemma highlightElement_hide (page : Page) (p : Pointer) :
    (page.hide p).1.highlightElement = page.highlightElement := by
  unfold hide
  cases page.element p <;> rfl

/-- Another highlight makes a similar page. -/
lemma similar_highlight (page : Page) (h : Option Pointer) :
    Similar page { page with highlightElement := h } := ⟨fun _ => rfl, rfl, rfl, rfl, rfl⟩

/-! ## Taking an element out -/

/-- Taking an element out keeps a page settled when nothing is highlighted. -/
lemma Settled.takeOut (h : Settled page) (hnone : page.highlightElement = none) (p : Pointer) :
    Settled (page.takeOut p) := by
  unfold Page.takeOut
  split_ifs with hp
  · have hundos : p ∉ page.undos := h.not_undone p hp
    constructor
    · constructor
      · exact h.nodup.erase p
      · intro q hq hmem
        obtain ⟨hne, hq⟩ := (List.Nodup.mem_erase_iff h.nodup).mp hq
        rcases List.mem_append.mp hmem with hmem | hmem
        · exact h.not_undone q hq hmem
        · exact hne (List.mem_singleton.mp hmem)
      · intro q hq
        exact h.drawn q (List.mem_of_mem_erase hq)
      · intro q hq
        rcases List.mem_append.mp hq with hq | hq
        · exact h.undone q hq
        · rw [List.mem_singleton.mp hq]
          exact h.drawn p hp
      · exact h.uuids
      · intro q hq
        simp [hnone] at hq
      · exact h.live
    · rw [List.nodup_append]
      exact ⟨h.undos_nodup, List.nodup_singleton p, by
        intro q hq r hr hqr
        rw [List.mem_singleton.mp hr] at hqr
        exact hundos (hqr ▸ hq)⟩
  · exact h

/-- Taking an element out leaves the highlight. -/
@[simp] lemma highlightElement_takeOut (page : Page) (p : Pointer) :
    (page.takeOut p).highlightElement = page.highlightElement := by
  unfold takeOut
  split_ifs <;> rfl

/-- Taking an element out leaves the flag of a redo. -/
@[simp] lemma redoing_takeOut (page : Page) (p : Pointer) :
    (page.takeOut p).redoing = page.redoing := by
  unfold takeOut
  split_ifs <;> rfl

/-- Taking an element out of the drawing leaves it among the elements. -/
@[simp] lemma allElements_takeOut (page : Page) (p : Pointer) :
    (page.takeOut p).allElements = page.allElements := by
  unfold takeOut
  split_ifs <;> rfl

/-- Taking an element out changes no element. -/
@[simp] lemma element_takeOut (page : Page) (p q : Pointer) :
    (page.takeOut p).element q = page.element q := by
  unfold takeOut
  split_ifs <;> rfl

/-- What is drawn after an element is taken out was drawn before. -/
lemma mem_of_mem_takeOut {p q : Pointer} (h : q ∈ (page.takeOut p).drawingElements) :
    q ∈ page.drawingElements := by
  unfold takeOut at h
  split_ifs at h
  · exact List.mem_of_mem_erase h
  · exact h

/-- What is undone after an element is taken out was undone or drawn before. -/
lemma mem_undos_takeOut {p q : Pointer} (h : q ∈ (page.takeOut p).undos) :
    q ∈ page.undos ∨ q ∈ page.drawingElements := by
  unfold takeOut at h
  split_ifs at h with hp
  · rcases List.mem_append.mp h with h | h
    · exact .inl h
    · rw [List.mem_singleton.mp h]
      exact .inr hp
  · exact .inl h

/-! ## Hiding the highlighted element -/

/-- What hiding the highlighted element leaves: a similar page without highlight, from which that
element may have been taken out. -/
lemma deHighlightElement_cases (page : Page) : ∃ mid, Similar page mid ∧ mid.highlightElement = none ∧
    (page.deHighlightElement = mid ∨ ∃ h, page.highlightElement = some h ∧
      page.deHighlightElement = mid.takeOut h) := by
  unfold deHighlightElement
  cases hhighlight : page.highlightElement with
  | none => exact ⟨page, .refl page, hhighlight, .inl rfl⟩
  | some h =>
    have hhide : Similar page { (page.hide h).1 with highlightElement := none } :=
      (similar_hide page h).trans (similar_highlight _ none)
    by_cases hdelete : (page.hide h).2
    · refine ⟨_, hhide.trans (similar_modify _ h (f := (·.setCanDelete false)) fun _ => rfl),
        by simp, .inr ⟨h, rfl, ?_⟩⟩
      simp only [hdelete, if_true]
    · exact ⟨_, hhide, rfl, .inl (by simp only [hdelete]; rfl)⟩

/-- Nothing is highlighted once the highlight has ended. -/
@[simp] lemma highlightElement_deHighlightElement (page : Page) :
    page.deHighlightElement.highlightElement = none := by
  obtain ⟨mid, -, hnone, heq | ⟨h, -, heq⟩⟩ := page.deHighlightElement_cases
  · rw [heq, hnone]
  · rw [heq, highlightElement_takeOut, hnone]

/-- Ending the highlight leaves the flag of a redo. -/
@[simp] lemma redoing_deHighlightElement (page : Page) :
    page.deHighlightElement.redoing = page.redoing := by
  obtain ⟨mid, hsimilar, -, heq | ⟨h, -, heq⟩⟩ := page.deHighlightElement_cases
  · rw [heq, hsimilar.redoing_eq]
  · rw [heq, redoing_takeOut, hsimilar.redoing_eq]

/-- Ending the highlight leaves all elements on the page. -/
@[simp] lemma allElements_deHighlightElement (page : Page) :
    page.deHighlightElement.allElements = page.allElements := by
  obtain ⟨mid, hsimilar, -, heq | ⟨h, -, heq⟩⟩ := page.deHighlightElement_cases
  · rw [heq, hsimilar.allElements_eq]
  · rw [heq, allElements_takeOut, hsimilar.allElements_eq]

/-- Ending the highlight leaves the uuids. -/
@[simp] lemma uuidOf_deHighlightElement (page : Page) (p : Pointer) :
    page.deHighlightElement.uuidOf p = page.uuidOf p := by
  obtain ⟨mid, hsimilar, -, heq | ⟨h, -, heq⟩⟩ := page.deHighlightElement_cases
  · rw [heq, hsimilar.uuidOf_eq]
  · rw [heq, ← hsimilar.uuidOf_eq p, uuidOf, uuidOf, element_takeOut]

/-- What is drawn after the highlight is gone was drawn before. -/
lemma mem_of_mem_deHighlightElement {p : Pointer}
    (h : p ∈ page.deHighlightElement.drawingElements) : p ∈ page.drawingElements := by
  obtain ⟨mid, hsimilar, -, heq | ⟨q, -, heq⟩⟩ := page.deHighlightElement_cases
  · rwa [heq, hsimilar.drawingElements_eq] at h
  · rw [heq] at h
    rw [← hsimilar.drawingElements_eq]
    exact mem_of_mem_takeOut h

/-- What is undone after the highlight is gone was undone or drawn before. -/
lemma mem_undos_deHighlightElement {p : Pointer} (h : p ∈ page.deHighlightElement.undos) :
    p ∈ page.undos ∨ p ∈ page.drawingElements := by
  obtain ⟨mid, hsimilar, -, heq | ⟨q, -, heq⟩⟩ := page.deHighlightElement_cases
  · rw [heq, hsimilar.undos_eq] at h
    exact .inl h
  · rw [heq] at h
    rw [← hsimilar.undos_eq, ← hsimilar.drawingElements_eq]
    exact mem_undos_takeOut h

/-- Hiding the highlighted element keeps a page settled. -/
lemma Settled.deHighlightElement (h : Settled page) : Settled page.deHighlightElement := by
  obtain ⟨mid, hsimilar, hnone, heq | ⟨q, -, heq⟩⟩ := page.deHighlightElement_cases
  · rw [heq]
    exact hsimilar.settled h (by simp [hnone])
  · rw [heq]
    exact (hsimilar.settled h (by simp [hnone])).takeOut hnone q

/-- `RemoveDrawingElementTriggered` keeps a page settled. -/
lemma Settled.removeDrawingElementTriggered (h : Settled page) (p : Pointer) :
    Settled (page.removeDrawingElementTriggered p) :=
  h.deHighlightElement.takeOut (highlightElement_deHighlightElement page) p

/-! ## Adding an element -/

/-- An element is at an address when it has a uuid. -/
lemma isSome_uuidOf (page : Page) (p : Pointer) : (page.uuidOf p).isSome = (page.element p).isSome := by
  simp [uuidOf]

/-- A page with one element more at the end of its drawing is settled when no other element has its
uuid. -/
lemma Settled.push {page' : Page} {p : Pointer} (h : Settled page)
    (hall : ∀ q, q ∈ page'.allElements ↔ q = p ∨ q ∈ page.allElements)
    (hdrawing : page'.drawingElements = page.drawingElements ++ [p])
    (hundos : page'.undos = page.undos ∨ page'.undos = [])
    (huuid : ∀ q, page'.uuidOf q = page.uuidOf q) (hlive : (page.element p).isSome)
    (hdrawn : p ∉ page.drawingElements) (hundone : p ∉ page'.undos)
    (hhighlight : ∀ q ∈ page'.highlightElement, q ∈ page'.drawingElements)
    (hunique : ∀ q ∈ page.allElements, page.uuidOf q = page.uuidOf p → q = p) : Settled page' := by
  have hsub : ∀ q ∈ page'.undos, q ∈ page.undos := by
    rcases hundos with heq | heq
    · rw [heq]
      exact fun q hq => hq
    · simp [heq]
  constructor
  · constructor
    · rw [hdrawing, List.nodup_append]
      exact ⟨h.nodup, List.nodup_singleton p, by
        intro q hq r hr hqr
        rw [List.mem_singleton.mp hr] at hqr
        exact hdrawn (hqr ▸ hq)⟩
    · intro q hq hmem
      rw [hdrawing] at hq
      rcases List.mem_append.mp hq with hq | hq
      · exact h.not_undone q hq (hsub q hmem)
      · rw [List.mem_singleton.mp hq] at hmem
        exact hundone hmem
    · intro q hq
      rw [hdrawing] at hq
      rw [hall]
      rcases List.mem_append.mp hq with hq | hq
      · exact .inr (h.drawn q hq)
      · exact .inl (List.mem_singleton.mp hq)
    · intro q hq
      rw [hall]
      exact .inr (h.undone q (hsub q hq))
    · intro q hq r hr heq
      rw [hall] at hq hr
      rw [huuid, huuid] at heq
      rcases hq with rfl | hq <;> rcases hr with rfl | hr
      · rfl
      · exact (hunique r hr heq.symm).symm
      · exact hunique q hq heq
      · exact h.uuids q hq r hr heq
    · exact hhighlight
    · intro q hq
      rw [hall] at hq
      rw [← isSome_uuidOf, huuid, isSome_uuidOf]
      rcases hq with rfl | hq
      · exact hlive
      · exact h.live q hq
  · rcases hundos with heq | heq
    · rw [heq]
      exact h.undos_nodup
    · simp [heq]

/-- No other element has the uuid of one that was added to a consistent page. -/
lemma Consistent.unique {page' : Page} {p : Pointer} (h : Consistent page')
    (hall : ∀ q, q ∈ page'.allElements ↔ q = p ∨ q ∈ page.allElements)
    (huuid : ∀ q, page'.uuidOf q = page.uuidOf q) :
    ∀ q ∈ page.allElements, page.uuidOf q = page.uuidOf p → q = p := by
  intro q hq heq
  rw [← huuid, ← huuid] at heq
  refine h.uuids q ?_ p ?_ heq <;> simp [hall, hq]

/-- An element at an address that is not of the page leaves the page settled. -/
lemma Settled.setElement (h : Settled page) {p : Pointer} (hp : p ∉ page.allElements)
    (e : Element) : Settled (page.setElement p e) := by
  have hne : ∀ q ∈ page.allElements, (page.setElement p e).element q = page.element q := by
    intro q hq
    rw [element_setElement, if_neg]
    rintro rfl
    exact hp hq
  constructor
  · refine ⟨h.nodup, h.not_undone, h.drawn, h.undone, ?_, h.highlighted, ?_⟩
    · intro q hq r hr heq
      simp only [uuidOf, hne q hq, hne r hr] at heq
      exact h.uuids q hq r hr heq
    · intro q hq
      rw [hne q hq]
      exact h.live q hq
  · exact h.undos_nodup

/-- What `AddElement` makes of a page. -/
lemma addElement_eq (page : Page) (p : Pointer) (updateProperty highlight : Bool) :
    ∃ mid, Similar page.deHighlightElement mid ∧
      mid.highlightElement = (if highlight then some p else none) ∧
      page.addElement p updateProperty highlight true = { mid with
        allElements := mid.allElements.insert p
        drawingElements := mid.drawingElements ++ [p]
        undos := if mid.redoing then mid.undos else []
        redoing := false } := by
  have hproperty : ∀ e, (addProperty page.deHighlightElement updateProperty e).objUuid =
      e.objUuid := by
    intro e
    simp only [addProperty, Element.setLineWidth, Element.setLineStyle, Element.setLineColor]
    split_ifs <;> (try split) <;> rfl
  have hmodify := similar_modify page.deHighlightElement p hproperty
  unfold addElement
  cases highlight with
  | false => exact ⟨_, hmodify, by simp, rfl⟩
  | true =>
    exact ⟨_, (hmodify.trans (similar_modify _ p objUuid_highlight)).trans
      (similar_highlight _ (some p)), rfl, rfl⟩

/-- `AddElement` keeps a page settled exactly when no other element has the uuid of the added
one. -/
lemma Settled.addElement (h : Settled page) {p : Pointer} (hlive : (page.element p).isSome)
    (hdrawn : p ∉ page.drawingElements) (hundone : page.redoing = true → p ∉ page.undos)
    (updateProperty highlight : Bool) :
    let page' := page.addElement p updateProperty highlight true
    page'.redoing = false ∧ (Consistent page' → ∀ q ∈ page.allElements,
      page.uuidOf q = page.uuidOf p → q = p) ∧
    ((∀ q ∈ page.allElements, page.uuidOf q = page.uuidOf p → q = p) → Settled page') := by
  intro page'
  obtain ⟨mid, hsimilar, hhighlight, heq⟩ := page.addElement_eq p updateProperty highlight
  have hall : ∀ q, q ∈ page'.allElements ↔ q = p ∨ q ∈ page.allElements := by
    intro q
    show q ∈ (page.addElement p updateProperty highlight true).allElements ↔ _
    rw [heq, hsimilar.allElements_eq, allElements_deHighlightElement, OrderedSet.mem_insert]
  have huuid : ∀ q, page'.uuidOf q = page.uuidOf q := by
    intro q
    show (page.addElement p updateProperty highlight true).uuidOf q = _
    rw [heq, ← uuidOf_deHighlightElement page q, ← hsimilar.uuidOf_eq q]
    rfl
  have hdehighlighted := h.deHighlightElement
  refine ⟨by show (page.addElement _ _ _ _).redoing = _; rw [heq],
    fun hconsistent => hconsistent.unique hall huuid, fun hunique => ?_⟩
  refine hdehighlighted.push (p := p) ?_ ?_ ?_ ?_ ?_ ?_ ?_ ?_ ?_
  · intro q
    rw [hall, allElements_deHighlightElement]
  · show (page.addElement _ _ _ _).drawingElements = _
    rw [heq, hsimilar.drawingElements_eq]
  · show (page.addElement _ _ _ _).undos = _ ∨ (page.addElement _ _ _ _).undos = _
    rw [heq, hsimilar.undos_eq]
    cases mid.redoing
    · exact .inr rfl
    · exact .inl rfl
  · intro q
    rw [huuid, uuidOf_deHighlightElement]
  · rwa [← isSome_uuidOf, uuidOf_deHighlightElement, isSome_uuidOf]
  · exact fun hmem => hdrawn (mem_of_mem_deHighlightElement hmem)
  · show p ∉ (page.addElement _ _ _ _).undos
    rw [heq]
    cases hredoing : mid.redoing with
    | false => simp
    | true =>
      rw [hsimilar.redoing_eq, redoing_deHighlightElement] at hredoing
      rw [hsimilar.undos_eq]
      intro hmem
      rcases mem_undos_deHighlightElement hmem with hmem | hmem
      · exact hundone hredoing hmem
      · exact hdrawn hmem
  · intro q hq
    have hp : p ∈ page'.drawingElements := by
      show p ∈ (page.addElement _ _ _ _).drawingElements
      rw [heq]
      exact List.mem_append_right _ (List.mem_singleton_self p)
    have hq' : q ∈ mid.highlightElement := by
      have heq' : page'.highlightElement = mid.highlightElement := by
        show (page.addElement _ _ _ _).highlightElement = _
        rw [heq]
      rwa [heq'] at hq
    rw [hhighlight] at hq'
    cases highlight with
    | false => cases hq'
    | true =>
      obtain rfl := Option.some.inj hq'
      exact hp
  · intro q hq heq'
    rw [allElements_deHighlightElement] at hq
    rw [uuidOf_deHighlightElement, uuidOf_deHighlightElement] at heq'
    exact hunique q hq heq'

/-! ## Undoing, redoing and the order of the drawing -/

/-- `OnUndoTriggered` keeps a page settled. -/
lemma Settled.onUndoTriggered (h : Settled page) : Settled page.onUndoTriggered := by
  unfold Page.onUndoTriggered
  split_ifs
  · exact h
  · cases page.drawingElements.getLast? with
    | none => exact h
    | some p => exact h.removeDrawingElementTriggered p

/-- Undoing leaves the flag of a redo. -/
@[simp] lemma redoing_onUndoTriggered (page : Page) :
    page.onUndoTriggered.redoing = page.redoing := by
  unfold onUndoTriggered removeDrawingElementTriggered
  split_ifs
  · rfl
  · cases page.drawingElements.getLast? <;> simp

/-- `OnRedoTriggered` keeps a page settled: the element taken from the stack is not on it any
more. -/
lemma Settled.onRedoTriggered (h : Settled page) (hredoing : page.redoing = false) :
    Settled page.onRedoTriggered ∧ page.onRedoTriggered.redoing = false := by
  unfold Page.onRedoTriggered
  split_ifs
  · exact ⟨h, hredoing⟩
  · cases hlast : page.undos.getLast? with
    | none => exact ⟨h, hredoing⟩
    | some p =>
      obtain ⟨front, hfront⟩ := List.getLast?_eq_some_iff.mp hlast
      have hdrop : page.undos.dropLast = front := by rw [hfront, List.dropLast_concat]
      have hnodup : (front ++ [p]).Nodup := hfront ▸ h.undos_nodup
      have hp : p ∉ front := by
        intro hmem
        rw [List.nodup_append] at hnodup
        exact hnodup.2.2 p hmem p (List.mem_singleton_self p) rfl
      have hmem : p ∈ page.undos := by simp [hfront]
      have hpopped : Settled { page with undos := page.undos.dropLast, redoing := true } := by
        rw [hdrop]
        refine ⟨⟨h.nodup, ?_, h.drawn, ?_, h.uuids, h.highlighted, h.live⟩,
          hnodup.of_append_left⟩
        · intro q hq hfq
          exact h.not_undone q hq (by simp [hfront, hfq])
        · intro q hq
          exact h.undone q (by simp [hfront, hq])
      obtain ⟨hflag, -, hsettled⟩ := hpopped.addElement (p := p) (h.live p (h.undone p hmem))
        (fun hd => h.not_undone p hd hmem) (fun _ => by simpa [hdrop] using hp) false true
      exact ⟨hsettled fun q hq heq => h.uuids q hq p (h.undone p hmem) heq, hflag⟩

/-- A page that draws the same elements in another order is settled. -/
lemma Settled.reorder (h : Settled page) {drawing : List Pointer}
    (hperm : drawing.Perm page.drawingElements) :
    Settled { page with drawingElements := drawing } where
  nodup := hperm.nodup_iff.mpr h.nodup
  not_undone p hp := h.not_undone p (hperm.mem_iff.mp hp)
  drawn p hp := h.drawn p (hperm.mem_iff.mp hp)
  undone := h.undone
  uuids := h.uuids
  highlighted p hp := hperm.mem_iff.mpr (h.highlighted p hp)
  live := h.live
  undos_nodup := h.undos_nodup

/-- `OnTopMostElementTriggered` keeps a page settled. -/
lemma Settled.onTopMostElementTriggered (h : Settled page) (p : Pointer) :
    Settled (page.onTopMostElementTriggered p) := by
  unfold Page.onTopMostElementTriggered
  split_ifs with hp
  · exact h.reorder ((List.perm_append_singleton p _).trans (List.perm_cons_erase hp).symm)
  · exact h

/-- `OnBottomMostElementTriggered` keeps a page settled. -/
lemma Settled.onBottomMostElementTriggered (h : Settled page) (p : Pointer) :
    Settled (page.onBottomMostElementTriggered p) := by
  unfold Page.onBottomMostElementTriggered
  split_ifs with hp
  · exact h.reorder (List.perm_cons_erase hp).symm
  · exact h

/-- Moving an element to the top leaves the flag of a redo. -/
@[simp] lemma redoing_onTopMostElementTriggered (page : Page) (p : Pointer) :
    (page.onTopMostElementTriggered p).redoing = page.redoing := by
  unfold onTopMostElementTriggered
  split_ifs <;> rfl

/-- Moving an element to the bottom leaves the flag of a redo. -/
@[simp] lemma redoing_onBottomMostElementTriggered (page : Page) (p : Pointer) :
    (page.onBottomMostElementTriggered p).redoing = page.redoing := by
  unfold onBottomMostElementTriggered
  split_ifs <;> rfl

/-! ## Selecting, copying and line attributes -/

/-- Changing an element without its uuid keeps a page settled. -/
lemma Settled.modify (h : Settled page) (p : Pointer) {f : Element → Element}
    (hf : ∀ e, (f e).objUuid = e.objUuid) : Settled (page.modify p f) :=
  (similar_modify page p hf).settled h (by
    rw [highlightElement_modify]
    exact h.highlighted)

/-- Unhighlighting an element removes at most that element and the highlighted one. -/
lemma unhighlight_spec (h : Settled page) (p : Pointer) :
    Settled (page.unhighlight p) ∧ (page.unhighlight p).redoing = page.redoing ∧
    (∀ q ∈ page.drawingElements, q ≠ p → (∀ r ∈ page.highlightElement, q ≠ r) →
      q ∈ (page.unhighlight p).drawingElements) ∧
    ∀ q ∈ (page.unhighlight p).highlightElement, q ∈ page.highlightElement := by
  have hhide := (similar_hide page p).settled h (by rw [highlightElement_hide]; exact h.highlighted)
  unfold unhighlight
  cases hdelete : (page.hide p).2 with
  | false =>
    simp only [hdelete]
    refine ⟨hhide, (similar_hide page p).redoing_eq, ?_, ?_⟩
    · intro q hq _ _
      rwa [if_neg (by simp), (similar_hide page p).drawingElements_eq]
    · intro q hq
      rwa [if_neg (by simp), highlightElement_hide] at hq
  | true =>
    have hcan : ∀ e : Element, (e.setCanDelete false).objUuid = e.objUuid := fun _ => rfl
    have hmodify := similar_modify (page.hide p).1 p hcan
    have hsimilar := (similar_hide page p).trans hmodify
    simp only [hdelete, if_true]
    refine ⟨(hhide.modify p hcan).removeDrawingElementTriggered p, ?_, ?_, ?_⟩
    · rw [removeDrawingElementTriggered, redoing_takeOut, redoing_deHighlightElement,
        hsimilar.redoing_eq]
    · intro q hq hne hhigh
      have hmem : ∀ {page : Page} {r : Pointer}, q ∈ page.drawingElements → q ≠ r →
          q ∈ (page.takeOut r).drawingElements := by
        intro page r hq hne
        unfold takeOut
        split_ifs
        · exact (List.mem_erase_of_ne hne).mpr hq
        · exact hq
      refine hmem ?_ hne
      obtain ⟨mid, hmid, -, heq | ⟨r, hr, heq⟩⟩ := Page.deHighlightElement_cases
        ((page.hide p).1.modify p fun e => e.setCanDelete false)
      · rwa [heq, hmid.drawingElements_eq, hsimilar.drawingElements_eq]
      · rw [heq]
        refine hmem ?_ ?_
        · rwa [hmid.drawingElements_eq, hsimilar.drawingElements_eq]
        · rw [highlightElement_modify, highlightElement_hide] at hr
          exact hhigh r hr
    · intro q hq
      rw [removeDrawingElementTriggered, highlightElement_takeOut,
        highlightElement_deHighlightElement] at hq
      cases hq

/-- The loop of `HighlightElement` keeps a page settled.  The elements it has still to look at are
drawn and not highlighted. -/
lemma foldl_highlightNext (hit : Element → Bool) {rest : List Pointer} {s : Page × Bool}
    (h : Settled s.1) (hnodup : rest.Nodup) (hdrawn : ∀ p ∈ rest, p ∈ s.1.drawingElements)
    (hhighlight : ∀ p ∈ rest, ∀ q ∈ s.1.highlightElement, p ≠ q) :
    Settled (rest.foldl (highlightNext hit) s).1 ∧
      (rest.foldl (highlightNext hit) s).1.redoing = s.1.redoing := by
  induction rest generalizing s with
  | nil => exact ⟨h, rfl⟩
  | cons p rest ih =>
    obtain ⟨hp, hrest⟩ := List.nodup_cons.mp hnodup
    obtain ⟨hpdrawn, hdrawn⟩ := List.forall_mem_cons.mp hdrawn
    have hne : ∀ q ∈ rest, q ≠ p := fun q hq heq => hp (heq ▸ hq)
    have hothers : ∀ q ∈ rest, ∀ r ∈ s.1.highlightElement, q ≠ r := fun q hq =>
      hhighlight q (List.mem_cons_of_mem p hq)
    rw [List.foldl_cons]
    unfold highlightNext
    split_ifs
    · have hsimilar : Similar s.1 { s.1.modify p Element.highlight with highlightElement := some p } :=
        (similar_modify s.1 p objUuid_highlight).trans (similar_highlight _ (some p))
      have hsettled := hsimilar.settled h (by rintro q ⟨⟩; exact hpdrawn)
      obtain ⟨hlast, hredoing⟩ := ih (s := (_, true)) hsettled hrest
        (by rw [hsimilar.drawingElements_eq]; exact hdrawn) (by rintro q hq r ⟨⟩; exact hne q hq)
      exact ⟨hlast, hredoing.trans hsimilar.redoing_eq⟩
    · obtain ⟨hsettled, hredoing, hkept, hhigh⟩ := unhighlight_spec h p
      obtain ⟨hlast, hflag⟩ := ih (s := (s.1.unhighlight p, s.2)) hsettled hrest
        (fun q hq => hkept q (hdrawn q hq) (hne q hq) (hothers q hq))
        (fun q hq r hr => hothers q hq r (hhigh r hr))
      exact ⟨hlast, hflag.trans hredoing⟩
    · exact ih h hrest hdrawn hothers

/-- `HighlightElement` keeps a page settled. -/
lemma Settled.highlightElementAt (h : Settled page) (hit : Element → Bool) :
    Settled (page.highlightElementAt hit) ∧
      (page.highlightElementAt hit).redoing = page.redoing := by
  have hnone := (similar_highlight page.deHighlightElement none).settled h.deHighlightElement
    (by rintro q ⟨⟩)
  obtain ⟨hsettled, hredoing⟩ := foldl_highlightNext hit (s := (_, false)) hnone
    (List.nodup_reverse.mpr hnone.nodup) (fun p hp => List.mem_reverse.mp hp) (by rintro p hp q ⟨⟩)
  exact ⟨hsettled, hredoing.trans (redoing_deHighlightElement page)⟩

/-- `OnCopyTriggered` keeps a page settled. -/
lemma Settled.onCopyTriggered (h : Settled page) {page' : Page}
    (hcopy : page.onCopyTriggered = some page') :
    Settled page' ∧ page'.redoing = page.redoing := by
  unfold Page.onCopyTriggered at hcopy
  cases hhighlight : page.highlightElement with
  | none =>
    rw [hhighlight] at hcopy
    obtain rfl := Option.some.inj hcopy
    exact ⟨h, rfl⟩
  | some p =>
    rw [hhighlight] at hcopy
    obtain ⟨q, -, rfl⟩ := Option.map_eq_some_iff.mp hcopy
    obtain ⟨hsettled, hredoing, -, -⟩ := unhighlight_spec h p
    exact ⟨hsettled.modify q objUuid_highlight,
      (similar_modify _ q objUuid_highlight).redoing_eq.trans hredoing⟩

/-- Changing drawn elements without their uuids keeps a page settled. -/
lemma foldl_modify {f : Element → Element} (hf : ∀ e, (f e).objUuid = e.objUuid)
    (ps : List Pointer) (h : Settled page) :
    Settled (ps.foldl (fun page p => page.modify p f) page) ∧
      (ps.foldl (fun page p => page.modify p f) page).redoing = page.redoing := by
  induction ps generalizing page with
  | nil => exact ⟨h, rfl⟩
  | cons p ps ih =>
    obtain ⟨hsettled, hredoing⟩ := ih (h.modify p hf)
    exact ⟨hsettled, hredoing.trans (similar_modify page p hf).redoing_eq⟩

/-- A change of a line attribute keeps a page settled. -/
lemma Settled.lineChanged (h : Settled page) {change : Element → Element}
    (hchange : ∀ e, (change e).objUuid = e.objUuid) (all : Bool) :
    Settled (page.lineChanged change all) ∧
      (page.lineChanged change all).redoing = page.redoing := by
  have hhighlighted : ∃ mid, Settled mid ∧ mid.redoing = page.redoing ∧
      page.lineChanged change all = if all then
        mid.drawingElements.foldl (fun page p => page.modify p fun e =>
          if !e.body.isBan && e.canPaint then change e else e) mid else mid := by
    unfold Page.lineChanged
    cases hp : page.highlightElement with
    | none => exact ⟨page, h, rfl, rfl⟩
    | some p =>
      by_cases hpath : (page.element p).any (·.body.isPath)
      · exact ⟨page, h, rfl, by simp only [hpath, if_true]⟩
      · have hfirst : ∀ e : Element, (change (e.setCanDelete false)).objUuid = e.objUuid :=
          fun e => hchange _
        have hlast : ∀ e : Element, (e.highlight.setCanDelete true).objUuid = e.objUuid :=
          objUuid_highlight
        obtain ⟨hsettled, hredoing, -, -⟩ := unhighlight_spec (h.modify p hfirst) p
        refine ⟨_, hsettled.modify p hlast, ?_, by simp only [hpath]; rfl⟩
        rw [(similar_modify _ p hlast).redoing_eq, hredoing,
          (similar_modify page p hfirst).redoing_eq]
  obtain ⟨mid, hmid, hredoing, heq⟩ := hhighlighted
  rw [heq]
  split_ifs
  · obtain ⟨hsettled, hflag⟩ := foldl_modify
      (f := fun e => if !e.body.isBan && e.canPaint then change e else e)
      (fun e => by split_ifs; exacts [hchange e, rfl]) mid.drawingElements hmid
    exact ⟨hsettled, hflag.trans hredoing⟩
  · exact ⟨hmid, hredoing⟩

/-! ## Clearing, and showing and hiding by uuid -/

/-- A page without elements is settled. -/
lemma settled_of_empty (hall : page.allElements = .empty) (hdrawing : page.drawingElements = [])
    (hundos : page.undos = []) (hhighlight : page.highlightElement = none) : Settled page := by
  refine ⟨⟨?_, ?_, ?_, ?_, ?_, ?_, ?_⟩, ?_⟩ <;> simp [hall, hdrawing, hundos, hhighlight]

/-- `ClearAll` makes a page settled. -/
lemma settled_clearAll (page : Page) : Settled page.clearAll := settled_of_empty rfl rfl rfl rfl

/-- Two elements of a consistent page with one uuid are one element. -/
lemma Consistent.eq_of_hasUuid (h : Consistent page) {uuid : Bytes} {p q : Pointer}
    (hp : p ∈ page.allElements) (hq : q ∈ page.allElements) (hpu : page.hasUuid uuid p)
    (hqu : page.hasUuid uuid q) : p = q := by
  have huuid : ∀ r, page.hasUuid uuid r → page.uuidOf r = some uuid := by
    intro r hr
    unfold hasUuid at hr
    unfold uuidOf
    cases he : page.element r with
    | none => simp [he] at hr
    | some e =>
      rw [he] at hr
      rw [Option.map_some, beq_iff_eq.mp hr]
  exact h.uuids p hp q hq ((huuid p hpu).trans (huuid q hqu).symm)

/-- What `FindElementByUuid` finds is an element of the page with the uuid. -/
lemma of_findElementByUuid {uuid : Bytes} {p : Pointer} (h : page.findElementByUuid uuid = some p) :
    p ∈ page.allElements ∧ page.hasUuid uuid p :=
  ⟨List.mem_of_find?_eq_some h, List.find?_some h⟩

/-- A page that draws fewer elements is consistent exactly when it still draws the highlighted
one. -/
lemma Settled.draw (h : Settled page) {drawing : List Pointer}
    (hsub : drawing.Sublist page.drawingElements)
    (hhighlight : ∀ q ∈ page.highlightElement, q ∈ drawing) :
    Settled { page with drawingElements := drawing } where
  nodup := h.nodup.sublist hsub
  not_undone p hp := h.not_undone p (hsub.subset hp)
  drawn p hp := h.drawn p (hsub.subset hp)
  undone := h.undone
  uuids := h.uuids
  highlighted := hhighlight
  live := h.live
  undos_nodup := h.undos_nodup

/-- An element that is shown again must not be on the undo stack. -/
def NotUndone (page : Page) (uuid : Bytes) : Prop :=
  page.drawingElements.any (page.hasUuid uuid) ∨
    ∀ p, page.findElementByUuid uuid = some p → p ∉ page.undos

/-- `AddToDrawing` keeps a page consistent exactly when the element it finds is not undone. -/
lemma Settled.addToDrawing (h : Settled page) (uuid : Bytes) :
    (page.addToDrawing uuid).redoing = page.redoing ∧
    (Consistent (page.addToDrawing uuid) → page.NotUndone uuid) ∧
    (page.NotUndone uuid → Settled (page.addToDrawing uuid)) := by
  unfold Page.addToDrawing NotUndone
  by_cases hany : page.drawingElements.any (page.hasUuid uuid)
  · rw [if_pos hany]
    exact ⟨rfl, fun _ => .inl hany, fun _ => h⟩
  · rw [if_neg hany]
    cases hfind : page.findElementByUuid uuid with
    | none => exact ⟨rfl, fun _ => .inr (by simp), fun _ => h⟩
    | some p =>
      obtain ⟨hp, hpu⟩ := of_findElementByUuid hfind
      refine ⟨rfl, fun hconsistent => .inr ?_, fun hnot => ?_⟩
      · rintro q ⟨⟩
        exact hconsistent.not_undone p (List.mem_append_right _ (List.mem_singleton_self p))
      · have hnot' := hnot.resolve_left hany p rfl
        refine h.push (p := p) (fun q => ⟨.inr, ?_⟩) rfl (.inl rfl) (fun _ => rfl) (h.live p hp) ?_
          hnot' (fun q hq => List.mem_append_left _ (h.highlighted q hq))
          (fun q hq heq => h.uuids q hq p hp heq)
        · rintro (rfl | hq)
          · exact hp
          · exact hq
        · intro hdrawn
          exact hany (List.any_eq_true.mpr ⟨p, hdrawn, hpu⟩)

/-- An element that is hidden by its uuid must not be highlighted. -/
def NotHighlighted (page : Page) (uuid : Bytes) : Prop :=
  ∀ q ∈ page.highlightElement, ¬ page.hasUuid uuid q

/-- `RemoveFromDrawing` keeps a page consistent exactly when it does not hide the highlighted
element. -/
lemma Settled.removeFromDrawing (h : Settled page) (uuid : Bytes) :
    (page.removeFromDrawing uuid).redoing = page.redoing ∧
    (Consistent (page.removeFromDrawing uuid) → page.NotHighlighted uuid) ∧
    (page.NotHighlighted uuid → Settled (page.removeFromDrawing uuid)) := by
  refine ⟨rfl, fun hconsistent q hq hqu => ?_, fun hnot => ?_⟩
  · have hdrawn := h.highlighted q hq
    obtain ⟨p, front, back, -, hpu, hsplit, hrest⟩ := List.exists_of_eraseP hdrawn hqu
    have hpq : p = q := by
      refine h.eq_of_hasUuid (h.drawn p ?_) (h.drawn q hdrawn) hpu hqu
      simp [hsplit]
    have hmem : q ∈ front ++ back := by
      have hkept : q ∈ page.drawingElements.eraseP (page.hasUuid uuid) :=
        hconsistent.highlighted q hq
      rwa [hrest] at hkept
    have hnodup : (front ++ p :: back).Nodup := hsplit ▸ h.nodup
    rw [List.nodup_middle, List.nodup_cons, hpq] at hnodup
    exact hnodup.1 hmem
  · exact h.draw List.eraseP_sublist fun q hq =>
      (List.mem_eraseP_of_neg (hnot q hq)).mpr (h.highlighted q hq)

/-- `ChangeImageElementSize` gives a similar page. -/
lemma similar_changeImageElementSize (d : DoubleArithmetic) (page : Page) (uuid : Bytes)
    (leftTop : SPoint) (width height : Int32) :
    Similar page (page.changeImageElementSize d uuid leftTop width height) ∧
      (page.changeImageElementSize d uuid leftTop width height).highlightElement =
        page.highlightElement := by
  unfold changeImageElementSize
  split
  · exact ⟨similar_modify _ _ fun _ => rfl, highlightElement_modify _ _ _⟩
  · exact ⟨.refl page, rfl⟩

end Page

end Liangshi
