import Liangshi.Board.PageInvariant
import Liangshi.Slides.Slide

/-!
# Images on a board

How often a board draws the elements with a uuid, and what adding, showing, hiding and resizing an
image by its uuid does to that.  `Wrote` says that of the uuids in a list and of no others the number
has become another one, so that the effects of operations one after the other can be put together.
-/

namespace Liangshi

open Wire Ordered

namespace Page

variable {page page' page'' : Page} {u v : Bytes}

/-- How often elements with a uuid are drawn. -/
def timesDrawn (page : Page) (uuid : Bytes) : Nat :=
  page.drawingElements.countP (page.hasUuid uuid)

/-- The page has an element with a uuid. -/
def HasElement (page : Page) (uuid : Bytes) : Prop := ∃ p ∈ page.allElements, page.hasUuid uuid p

/-- The pointers of the page point to elements. -/
structure Live (page : Page) : Prop where
  all : ∀ p ∈ page.allElements, (page.element p).isSome
  drawn : ∀ p ∈ page.drawingElements, (page.element p).isSome
  highlighted : ∀ p ∈ page.highlightElement, (page.element p).isSome

/-- An element has one uuid. -/
lemma hasUuid_unique {p : Pointer} (h : page.hasUuid u p) : page.hasUuid v p = decide (u = v) := by
  unfold hasUuid at h ⊢
  cases he : page.element p with
  | none =>
    rw [he] at h
    cases h
  | some e =>
    rw [he, Option.any_some, beq_iff_eq] at h
    rw [Option.any_some, h]
    exact Bool.eq_iff_iff.mpr (by simp)

/-- Having a uuid depends on the uuid of the element. -/
lemma hasUuid_congr {p q : Pointer} (h : page'.uuidOf q = page.uuidOf p) (uuid : Bytes) :
    page'.hasUuid uuid q = page.hasUuid uuid p := by
  have hany : ∀ (r : Page) (s : Pointer), r.hasUuid uuid s = (r.uuidOf s).any (· == uuid) := by
    intro r s
    unfold hasUuid uuidOf
    cases r.element s <;> rfl
  rw [hany, hany, h]

/-- The numbers are the same on similar pages. -/
lemma Similar.timesDrawn_eq (h : Similar page page') (uuid : Bytes) :
    page'.timesDrawn uuid = page.timesDrawn uuid := by
  rw [timesDrawn, timesDrawn, h.drawingElements_eq]
  exact List.countP_congr fun p _ => by rw [h.hasUuid_eq]

/-- The elements are the same on similar pages. -/
lemma Similar.hasElement_iff (h : Similar page page') (uuid : Bytes) :
    page'.HasElement uuid ↔ page.HasElement uuid := by
  unfold HasElement
  rw [h.allElements_eq]
  simp only [h.hasUuid_eq]

/-- Similar pages have their elements at the same addresses. -/
lemma Similar.live (h : Similar page page') (hlive : page.Live)
    (hhighlight : page'.highlightElement = page.highlightElement ∨ page'.highlightElement = none) :
    page'.Live := by
  refine ⟨fun p hp => ?_, fun p hp => ?_, fun p hp => ?_⟩
  · rw [h.allElements_eq] at hp
    rw [h.isSome_eq]
    exact hlive.all p hp
  · rw [h.drawingElements_eq] at hp
    rw [h.isSome_eq]
    exact hlive.drawn p hp
  · rw [h.isSome_eq]
    rcases hhighlight with heq | heq
    · exact hlive.highlighted p (heq ▸ hp)
    · rw [heq] at hp
      cases hp

/-- Of the uuids in a list, and of no others that are not highlighted, the number of times they are
drawn has become another one, and the page has elements with them. -/
structure Wrote (uuids : List Bytes) (times : Nat) (page page' : Page) : Prop where
  uuid_eq : page'.uuid = page.uuid
  live : page.Live → page'.Live
  notHighlighted : ∀ u, page.NotHighlighted u → page'.NotHighlighted u
  timesDrawn : ∀ u, page.NotHighlighted u →
    page'.timesDrawn u = if u ∈ uuids then times else page.timesDrawn u
  hasElement : ∀ u, page'.HasElement u ↔ u ∈ uuids ∨ page.HasElement u

namespace Wrote

variable {us vs : List Bytes} {m n : Nat}

/-- Nothing is written. -/
lemma refl (page : Page) (n : Nat) : Wrote [] n page page :=
  ⟨rfl, id, fun _ h => h, fun _ _ => rfl, fun _ => by simp⟩

/-- On a similar page nothing is written. -/
lemma of_similar (h : Similar page page') (huuid : page'.uuid = page.uuid)
    (hhighlight : page'.highlightElement = page.highlightElement) (n : Nat) :
    Wrote [] n page page' := by
  refine ⟨huuid, fun hlive => h.live hlive (.inl hhighlight), fun u hu p hp => ?_, fun u _ => ?_,
    fun u => ?_⟩
  · rw [hhighlight] at hp
    rw [h.hasUuid_eq]
    exact hu p hp
  · exact h.timesDrawn_eq u
  · rw [h.hasElement_iff]
    simp

/-- The same is written for one list after another. -/
lemma append (h : Wrote us n page page') (h' : Wrote vs n page' page'') :
    Wrote (us ++ vs) n page page'' := by
  refine ⟨h'.uuid_eq.trans h.uuid_eq, h'.live ∘ h.live,
    fun u hu => h'.notHighlighted u (h.notHighlighted u hu), fun u hu => ?_, fun u => ?_⟩
  · rw [h'.timesDrawn u (h.notHighlighted u hu), h.timesDrawn u hu]
    simp only [List.mem_append]
    split_ifs <;> tauto
  · rw [h'.hasElement, h.hasElement, List.mem_append]
    tauto

/-- What is written last counts. -/
lemma overwrite (h : Wrote us m page page') (h' : Wrote vs n page' page'') (hsub : us ⊆ vs) :
    Wrote vs n page page'' := by
  refine ⟨h'.uuid_eq.trans h.uuid_eq, h'.live ∘ h.live,
    fun u hu => h'.notHighlighted u (h.notHighlighted u hu), fun u hu => ?_, fun u => ?_⟩
  · rw [h'.timesDrawn u (h.notHighlighted u hu), h.timesDrawn u hu]
    split_ifs with hv hu'
    · rfl
    · exact absurd (hsub hu') hv
    · rfl
  · rw [h'.hasElement, h.hasElement]
    constructor
    · rintro (hv | hu' | hpage)
      · exact .inl hv
      · exact .inl (hsub hu')
      · exact .inr hpage
    · rintro (hv | hpage)
      · exact .inl hv
      · exact .inr (.inr hpage)

/-- Lists with the same members. -/
lemma congr (h : Wrote us n page page') (hmem : ∀ u, u ∈ us ↔ u ∈ vs) : Wrote vs n page page' := by
  refine ⟨h.uuid_eq, h.live, h.notHighlighted, fun u hu => ?_, fun u => ?_⟩
  · rw [h.timesDrawn u hu]
    simp only [hmem]
  · rw [h.hasElement, hmem]

end Wrote

/-! ## The uuid of the page -/

/-- Changing an element leaves the uuid of the page. -/
@[simp] lemma uuid_modify (page : Page) (p : Pointer) (f : Element → Element) :
    (page.modify p f).uuid = page.uuid := by
  unfold modify
  split <;> rfl

/-- Taking an element out leaves the uuid of the page. -/
@[simp] lemma uuid_takeOut (page : Page) (p : Pointer) : (page.takeOut p).uuid = page.uuid := by
  unfold takeOut
  split_ifs <;> rfl

/-- Hiding a helper leaves the uuid of the page. -/
@[simp] lemma uuid_hide (page : Page) (p : Pointer) : (page.hide p).1.uuid = page.uuid := by
  unfold hide
  split <;> rfl

/-- Ending the highlight leaves the uuid of the page. -/
@[simp] lemma uuid_deHighlightElement (page : Page) : page.deHighlightElement.uuid = page.uuid := by
  unfold deHighlightElement
  cases page.highlightElement with
  | none => rfl
  | some h =>
    dsimp only
    split_ifs
    · rw [uuid_takeOut, uuid_modify]
      exact uuid_hide page h
    · exact uuid_hide page h

/-- Adding an element leaves the uuid of the page. -/
@[simp] lemma uuid_addNew (page : Page) (p : Pointer) (e : Element) (updateProperty : Bool) :
    (page.addNew p e updateProperty false).uuid = page.uuid := by
  refine (uuid_modify _ p _).trans ?_
  rw [uuid_deHighlightElement]
  rfl

/-! ## Operations on images -/

/-- A page without its highlight draws the elements that were not highlighted as before. -/
lemma timesDrawn_deHighlightElement (h : page.NotHighlighted u) :
    page.deHighlightElement.timesDrawn u = page.timesDrawn u := by
  obtain ⟨mid, hsimilar, -, heq | ⟨p, hp, heq⟩⟩ := page.deHighlightElement_cases
  · rw [heq, hsimilar.timesDrawn_eq]
  · rw [heq, ← hsimilar.timesDrawn_eq, takeOut]
    split_ifs
    · have hnot : ¬ mid.hasUuid u p := by
        rw [hsimilar.hasUuid_eq]
        exact h p hp
      refine (List.countP_erase _ mid.drawingElements p).trans ?_
      rw [if_neg fun hand => hnot hand.2]
      rfl
    · rfl

/-- Hiding the highlight keeps pointers to elements. -/
lemma Live.deHighlightElement (h : page.Live) : page.deHighlightElement.Live := by
  obtain ⟨mid, hsimilar, hnone, heq | ⟨p, hp, heq⟩⟩ := page.deHighlightElement_cases
  · rw [heq]
    exact hsimilar.live h (.inr hnone)
  · have hmid := hsimilar.live h (.inr hnone)
    rw [heq]
    refine ⟨fun q hq => ?_, fun q hq => ?_, fun q hq => ?_⟩
    · rw [element_takeOut]
      exact hmid.all q (by rwa [allElements_takeOut] at hq)
    · rw [element_takeOut]
      exact hmid.drawn q (mem_of_mem_takeOut hq)
    · rw [highlightElement_takeOut, hnone] at hq
      cases hq

/-- An element whose uuid is new is drawn once. -/
lemma wrote_addNew {p : Pointer} {e : Element} (hlive : page.Live) (hfree : page.element p = none)
    (htimes : page.timesDrawn e.objUuid = 0) :
    Wrote [e.objUuid] 1 page (page.addNew p e false false) := by
  have hne : ∀ q, (page.element q).isSome → p ≠ q := by
    rintro q hq rfl
    rw [hfree] at hq
    cases hq
  have hset : ∀ q, (page.element q).isSome → ∀ v,
      (page.setElement p e).hasUuid v q = page.hasUuid v q := by
    intro q hq v
    refine hasUuid_congr ?_ v
    rw [uuidOf, uuidOf, element_setElement, if_neg (hne q hq)]
  have hnew : ∀ v, (page.setElement p e).hasUuid v p = decide (e.objUuid = v) := by
    intro v
    rw [hasUuid, element_setElement, if_pos rfl, Option.any_some]
    exact Bool.eq_iff_iff.mpr (by simp)
  have hliveSet : (page.setElement p e).Live := by
    refine ⟨fun q hq => ?_, fun q hq => ?_, fun q hq => ?_⟩ <;> rw [element_setElement]
    · exact if_neg (hne q (hlive.all q hq)) ▸ hlive.all q hq
    · exact if_neg (hne q (hlive.drawn q hq)) ▸ hlive.drawn q hq
    · exact if_neg (hne q (hlive.highlighted q hq)) ▸ hlive.highlighted q hq
  obtain ⟨mid, hsimilar, hhighlight, heq⟩ := addElement_eq (page.setElement p e) p false false
  have hmid : ∀ v q, mid.hasUuid v q = (page.setElement p e).hasUuid v q := by
    intro v q
    rw [hsimilar.hasUuid_eq]
    exact hasUuid_congr (uuidOf_deHighlightElement _ q) v
  have hbefore : ∀ v, page.NotHighlighted v → mid.timesDrawn v = page.timesDrawn v := by
    intro v hv
    rw [hsimilar.timesDrawn_eq, timesDrawn_deHighlightElement]
    · exact List.countP_congr fun q hq => by rw [hset q (hlive.drawn q hq)]
    · intro q hq
      rw [hset q (hlive.highlighted q hq)]
      exact hv q hq
  have hmidLive : mid.Live := hsimilar.live hliveSet.deHighlightElement (.inr hhighlight)
  have hpLive : (mid.element p).isSome := by
    rw [hsimilar.isSome_eq, ← isSome_uuidOf, uuidOf_deHighlightElement, isSome_uuidOf,
      element_setElement, if_pos rfl]
    rfl
  have hall : ∀ q, q ∈ mid.allElements ↔ q ∈ page.allElements := by
    intro q
    rw [hsimilar.allElements_eq, allElements_deHighlightElement]
    rfl
  have huuid := uuid_addNew page p e false
  rw [addNew, heq] at huuid ⊢
  refine ⟨huuid, fun _ => ⟨fun q hq => ?_, fun q hq => ?_, ?_⟩, ?_, fun v hv => ?_, fun v => ?_⟩
  · rcases OrderedSet.mem_insert.mp hq with rfl | hq
    · exact hpLive
    · exact hmidLive.all q hq
  · rcases List.mem_append.mp hq with hq | hq
    · exact hmidLive.drawn q hq
    · rw [List.mem_singleton.mp hq]
      exact hpLive
  · exact hmidLive.highlighted
  · intro v _ q hq
    rw [show mid.highlightElement = none from hhighlight] at hq
    cases hq
  · refine List.countP_append.trans ?_
    have hlast : [p].countP (mid.hasUuid v) = if e.objUuid = v then 1 else 0 := by
      rw [List.countP_singleton, hmid, hnew]
      simp
    have htimes' : mid.drawingElements.countP (mid.hasUuid v) = page.timesDrawn v := hbefore v hv
    simp only [List.mem_singleton]
    refine (congrArg₂ (· + ·) htimes' hlast).trans ?_
    split_ifs with hev hve hve
    · rw [← hev, htimes]
    · exact absurd hev.symm hve
    · exact absurd hve.symm hev
    · rfl
  · rw [List.mem_singleton]
    have hhas : ∀ q, mid.hasUuid v q = (page.setElement p e).hasUuid v q := hmid v
    constructor
    · rintro ⟨q, hq, hqv⟩
      replace hqv : (page.setElement p e).hasUuid v q := (hhas q) ▸ hqv
      rcases OrderedSet.mem_insert.mp hq with rfl | hq
      · rw [hnew] at hqv
        exact .inl (of_decide_eq_true hqv).symm
      · rw [hall] at hq
        rw [hset q (hlive.all q hq)] at hqv
        exact .inr ⟨q, hq, hqv⟩
    · rintro (rfl | ⟨q, hq, hqv⟩)
      · refine ⟨p, OrderedSet.mem_insert.mpr (.inl rfl), (hhas p).trans ?_⟩
        rw [hnew]
        exact decide_eq_true rfl
      · refine ⟨q, OrderedSet.mem_insert.mpr (.inr ((hall q).mpr hq)), (hhas q).trans ?_⟩
        rw [hset q (hlive.all q hq)]
        exact hqv

/-- An element that is drawn at most once is drawn once after `AddToDrawing`. -/
lemma wrote_addToDrawing (hlive : page.Live) (hhas : page.HasElement u)
    (htimes : page.timesDrawn u ≤ 1) : Wrote [u] 1 page (page.addToDrawing u) := by
  unfold addToDrawing
  by_cases hany : page.drawingElements.any (page.hasUuid u)
  · rw [if_pos hany]
    have hpos : 0 < page.timesDrawn u :=
      List.countP_pos_iff.mpr (List.any_eq_true.mp hany)
    refine ⟨rfl, id, fun _ h => h, fun v _ => ?_, fun v => ?_⟩
    · simp only [List.mem_singleton]
      split_ifs with hv
      · rw [hv]
        omega
      · rfl
    · rw [List.mem_singleton]
      refine ⟨.inr, ?_⟩
      rintro (rfl | h)
      · exact hhas
      · exact h
  · have hzero : page.timesDrawn u = 0 := by
      refine List.countP_eq_zero.mpr fun q hq hqu => hany ?_
      exact List.any_eq_true.mpr ⟨q, hq, hqu⟩
    obtain ⟨q, hq, hqu⟩ := hhas
    rw [if_neg hany]
    cases hfind : page.findElementByUuid u with
    | none => exact absurd hqu (List.find?_eq_none.mp hfind q hq)
    | some p =>
      obtain ⟨hp, hpu⟩ := of_findElementByUuid hfind
      refine ⟨rfl, fun _ => ⟨hlive.all, fun r hr => ?_, hlive.highlighted⟩, fun _ h => h,
        fun v _ => ?_, fun v => ?_⟩
      · rcases List.mem_append.mp hr with hr | hr
        · exact hlive.drawn r hr
        · rw [List.mem_singleton.mp hr]
          exact hlive.all p hp
      · refine List.countP_append.trans ?_
        have hlast : [p].countP (page.hasUuid v) = if u = v then 1 else 0 := by
          rw [List.countP_singleton, hasUuid_unique hpu]
          simp
        simp only [List.mem_singleton]
        refine (congrArg₂ (· + ·) (rfl : _ = page.timesDrawn v) hlast).trans ?_
        split_ifs with huv hvu hvu
        · rw [← huv, hzero]
        · exact absurd huv.symm hvu
        · exact absurd hvu.symm huv
        · rfl
      · rw [List.mem_singleton]
        refine ⟨.inr, ?_⟩
        rintro (rfl | h)
        · exact ⟨p, hp, hpu⟩
        · exact h

/-- An element that is drawn at most once is not drawn after `RemoveFromDrawing`. -/
lemma wrote_removeFromDrawing (hhas : page.HasElement u) (htimes : page.timesDrawn u ≤ 1) :
    Wrote [u] 0 page (page.removeFromDrawing u) := by
  refine ⟨rfl, fun hlive => ⟨hlive.all, fun p hp => ?_, hlive.highlighted⟩, fun _ h => h,
    fun v _ => ?_, fun v => ?_⟩
  · exact hlive.drawn p (List.mem_of_mem_eraseP hp)
  · simp only [List.mem_singleton]
    by_cases hdrawn : ∃ q ∈ page.drawingElements, page.hasUuid u q
    · obtain ⟨q, hq, hqu⟩ := hdrawn
      obtain ⟨r, front, back, -, hru, hsplit, hrest⟩ := List.exists_of_eraseP hq hqu
      have hafter : (page.removeFromDrawing u).timesDrawn v =
          front.countP (page.hasUuid v) + back.countP (page.hasUuid v) :=
        (congrArg (List.countP (page.hasUuid v)) hrest).trans List.countP_append
      have hbefore : page.timesDrawn v = front.countP (page.hasUuid v) +
          (back.countP (page.hasUuid v) + if page.hasUuid v r then 1 else 0) := by
        rw [timesDrawn, hsplit, List.countP_append, List.countP_cons]
      rw [hasUuid_unique hru] at hbefore
      rw [hafter]
      split_ifs with hvu
      · subst hvu
        rw [hbefore] at htimes
        simp only [decide_true, if_true] at htimes
        omega
      · rw [hbefore, if_neg (by simpa using Ne.symm hvu)]
        rfl
    · have hnone : ∀ q ∈ page.drawingElements, ¬ page.hasUuid u q :=
        fun q hq hqu => hdrawn ⟨q, hq, hqu⟩
      have hsame : page.removeFromDrawing u = page := by
        rw [removeFromDrawing, List.eraseP_of_forall_not hnone]
      rw [hsame]
      split_ifs with hvu
      · rw [hvu]
        exact List.countP_eq_zero.mpr hnone
      · rfl
  · rw [List.mem_singleton]
    refine ⟨.inr, ?_⟩
    rintro (rfl | h)
    · exact hhas
    · exact h

/-- A change of size changes nothing that is drawn. -/
lemma wrote_changeImageElementSize (d : DoubleArithmetic) (page : Page) (uuid : Bytes)
    (leftTop : SPoint) (width height : Int32) (n : Nat) :
    Wrote [] n page (page.changeImageElementSize d uuid leftTop width height) := by
  obtain ⟨hsimilar, hhighlight⟩ := similar_changeImageElementSize d page uuid leftTop width height
  refine .of_similar hsimilar ?_ hhighlight n
  unfold changeImageElementSize
  split
  · exact uuid_modify _ _ _
  · rfl

end Page

end Liangshi
