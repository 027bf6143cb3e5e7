import Liangshi.Board.PageInvariant
import Liangshi.Board.PageData
import Liangshi.Shared.PayloadScan

/-!
# Loading a page

What the loop of `SetMsgPackData` puts on a page: the elements that can be created from the bodies of
the data, in their order (`Holds.foldlM`).  The page is consistent exactly when their uuids
differ.
-/

namespace Liangshi

open Wire MessagePack Ordered

/-- The elements that are created from bodies, the first of which is the one after `n` others. -/
def loadedElements (create : ElementFactory) : Nat → List (Int32 × Bytes) → List Element
  | _, [] => []
  | n, body :: bodies =>
    match create n body.1 body.2 with
    | .ok (some e) => e :: loadedElements create (n + 1) bodies
    | _ => loadedElements create n bodies

/-- A mapped result that is there comes from one that is. -/
lemma map_eq_ok {α β ε : Type} {x : Except ε α} {f : α → β} {b : β} :
    x.map f = .ok b ↔ ∃ a, x = .ok a ∧ f a = b := by
  cases x <;> simp [Except.map]

/-- A result that is there. -/
lemma toOption_eq_some {α ε : Type} {x : Except ε α} {a : α} :
    x.toOption = some a ↔ x = .ok a := by
  cases x <;> simp [Except.toOption]

/-- What is computed from a result that is there. -/
lemma exists_ok_of_map {α β ε : Type} {x : Except ε α} {f : α → β} {b : β}
    (h : x.toOption.map f = some b) : ∃ a, x = .ok a ∧ f a = b := by
  obtain ⟨a, ha, hb⟩ := Option.map_eq_some_iff.mp h
  exact ⟨a, toOption_eq_some.mp ha, hb⟩

namespace PageLoad

/-- The page holds exactly the given elements, in the order of the drawing. -/
structure Holds (address : Nat → Pointer) (s : PageLoad) (es : List Element) : Prop where
  created : s.created = es.length
  drawing : s.page.drawingElements = (List.range es.length).map address
  mem_all : ∀ p, p ∈ s.page.allElements ↔ ∃ i < es.length, address i = p
  elements : ∀ i e, es[i]? = some e → ∃ e', s.page.element (address i) = some e' ∧
    e'.objUuid = e.objUuid ∧ e'.body = e.body
  undos : s.page.undos = []
  highlight : s.page.highlightElement = none

variable {address : Nat → Pointer} {s : PageLoad} {es : List Element}

/-- The element at an address of the page that holds it. -/
lemma Holds.uuidOf (h : s.Holds address es) {i : Nat} {e : Element} (hi : es[i]? = some e) :
    s.page.uuidOf (address i) = some e.objUuid := by
  obtain ⟨e', he', huuid, -⟩ := h.elements i e hi
  rw [Page.uuidOf, he', Option.map_some, huuid]

/-- Linking an element to another one changes no container, no uuid and no class. -/
lemma similar_link {page page' : Page} {e : Element} (h : page.link e = .ok page') :
    page.Similar page' ∧ page'.highlightElement = page.highlightElement ∧
      ∀ p e, page.element p = some e → ∃ e', page'.element p = some e' ∧
        e'.objUuid = e.objUuid ∧ e'.body = e.body := by
  have hstate : ∀ {uuid isOfClass}, page.linkState uuid isOfClass = .ok page' →
      page.Similar page' ∧ page'.highlightElement = page.highlightElement ∧
      ∀ p e, page.element p = some e → ∃ e', page'.element p = some e' ∧
        e'.objUuid = e.objUuid ∧ e'.body = e.body := by
    intro uuid isOfClass h
    unfold Page.linkState at h
    split at h
    · split_ifs at h
      cases h
      have huuid : ∀ e : Element, (e.setCanPaint false).objUuid = e.objUuid := fun _ => rfl
      have hbody : ∀ e : Element, (e.setCanPaint false).body = e.body := fun _ => rfl
      exact ⟨Page.similar_modify _ _ huuid, Page.highlightElement_modify _ _ _,
        fun p e he => Page.element_modify_of_body _ _ huuid hbody he⟩
    · cases h
  unfold Page.link at h
  split at h
  · exact hstate h
  · exact hstate h
  · cases h
    exact ⟨.refl page, rfl, fun p e he => ⟨e, he, rfl, rfl⟩⟩

/-- An element more is put on the page behind the others. -/
lemma Holds.add {s' : PageLoad} {e : Element} (h : s.Holds address es)
    (hinjective : Function.Injective address)
    (hadd : s.add (address s.created) (some e) = .ok s') :
    s'.Holds address (es ++ [e]) ∧ s'.type = s.type ∧ s'.page.redoing = s.page.redoing := by
  simp only [PageLoad.add] at hadd
  cases hlink : s.page.link e with
  | error fault => rw [hlink] at hadd; cases hadd
  | ok page =>
    rw [hlink] at hadd
    cases hadd
    obtain ⟨hsimilar, hhighlight, hsame⟩ := similar_link hlink
    refine ⟨⟨?_, ?_, ?_, ?_, ?_, ?_⟩, rfl, hsimilar.redoing_eq⟩
    · simp [h.created]
    · show page.drawingElements ++ [address s.created] = _
      rw [hsimilar.drawingElements_eq, h.drawing, h.created, List.length_append,
        List.length_singleton, List.range_succ, List.map_append]
      rfl
    · intro p
      show p ∈ page.allElements.insert (address s.created) ↔ _
      rw [OrderedSet.mem_insert, hsimilar.allElements_eq, h.mem_all, h.created, List.length_append,
        List.length_singleton]
      constructor
      · rintro (rfl | ⟨i, hi, rfl⟩)
        · exact ⟨_, Nat.lt_succ_self _, rfl⟩
        · exact ⟨i, Nat.lt_succ_of_lt hi, rfl⟩
      · rintro ⟨i, hi, rfl⟩
        rcases Nat.lt_succ_iff_lt_or_eq.mp hi with hi | rfl
        · exact .inr ⟨i, hi, rfl⟩
        · exact .inl rfl
    · intro i e' hi
      show ∃ e'', (page.setElement (address s.created) e).element (address i) = some e'' ∧ _
      rw [Page.element_setElement]
      rw [List.getElem?_append] at hi
      split_ifs at hi with hlt
      · rw [if_neg]
        · obtain ⟨f, hf, huuid, hbody⟩ := h.elements i e' hi
          obtain ⟨f', hf', huuid', hbody'⟩ := hsame _ f hf
          exact ⟨f', hf', huuid'.trans huuid, hbody'.trans hbody⟩
        · intro heq
          have hcreated := hinjective heq
          rw [h.created] at hcreated
          omega
      · have hlast : i - es.length = 0 := by
          by_contra hne
          rw [List.getElem?_eq_none (by simp; omega)] at hi
          cases hi
        obtain rfl : e = e' := by simpa [hlast] using hi
        rw [if_pos (by rw [h.created]; congr 1; omega)]
        exact ⟨e, rfl, rfl, rfl⟩
    · exact hsimilar.undos_eq.trans h.undos
    · exact hhighlight.trans h.highlight

/-- A page that differs in its own data holds the same elements. -/
lemma Holds.of_containers {s' : PageLoad} (h : s.Holds address es)
    (hcreated : s'.created = s.created) (hsimilar : s.page.Similar s'.page)
    (hheap : s'.page.heap = s.page.heap)
    (hhighlight : s'.page.highlightElement = s.page.highlightElement) : s'.Holds address es where
  created := hcreated.trans h.created
  drawing := hsimilar.drawingElements_eq.trans h.drawing
  mem_all := by rw [hsimilar.allElements_eq]; exact h.mem_all
  elements := by simpa only [Page.element, hheap] using h.elements
  undos := hsimilar.undos_eq.trans h.undos
  highlight := hhighlight.trans h.highlight

/-- The record of a page changes its own data alone. -/
lemma of_setThis {s' : PageLoad} {bytes : Bytes} (h : s.setThis bytes = .ok s') :
    s'.created = s.created ∧ s'.type = s.type ∧ s.page.Similar s'.page ∧
      s'.page.heap = s.page.heap ∧ s'.page.highlightElement = s.page.highlightElement := by
  unfold setThis at h
  cases hmsg : unpackOne bytes with
  | none => rw [hmsg] at h; cases h
  | some msg =>
    simp only [hmsg] at h
    cases hconvert : s.page.convertThis msg with
    | none => rw [hconvert] at h; cases h
    | some page =>
      rw [hconvert] at h
      cases h
      simp only [Page.convertThis, Option.bind_eq_bind, Option.bind_eq_some_iff] at hconvert
      obtain ⟨_, -, _, -, _, -, hpage⟩ := hconvert
      cases hpage
      exact ⟨rfl, rfl, ⟨fun _ => rfl, rfl, rfl, rfl, rfl⟩, rfl, rfl⟩

/-- One turn of the loop puts on the page what is created from the body it meets, if it meets
one. -/
lemma Holds.next {quuid : Bytes → Bytes} {create : ElementFactory} {s' : PageLoad} {object : Obj}
    (h : s.Holds address es) (hinjective : Function.Injective address)
    (hnext : s.next quuid address create object = .ok s') (others : List Obj) :
    ∃ es', s'.Holds address (es ++ es') ∧ s'.page.redoing = s.page.redoing ∧
      loadedElements create s.created (bodies s.type (object :: others)) =
        es' ++ loadedElements create s'.created (bodies s'.type others) := by
  have hsame : ∀ {s'' : PageLoad}, .ok s'' = (.ok s' : Except LoadFault PageLoad) → s''.page = s.page →
      s''.created = s.created → s'.Holds address (es ++ []) ∧
        s'.page.redoing = s.page.redoing := by
    intro s'' heq hpage hcreated
    cases heq
    rw [List.append_nil, hpage]
    exact ⟨h.of_containers hcreated (by rw [hpage]; exact .refl _) (by rw [hpage]) (by rw [hpage]),
      rfl⟩
  unfold PageLoad.next at hnext
  cases object with
  | posInt n =>
    simp only [Codec.int32_convert_posInt] at hnext
    by_cases hn : n < 2 ^ 31
    · simp only [hn, if_true] at hnext
      obtain ⟨hholds, hredoing⟩ := hsame hnext rfl rfl
      refine ⟨[], hholds, hredoing, ?_⟩
      cases hnext
      rfl
    · simp only [hn, if_false] at hnext
      cases hnext
  | raw bytes =>
    simp only at hnext
    by_cases htype : s.type = 0
    · rw [if_pos htype] at hnext
      have hbodies : bodies s.type (.raw bytes :: others) = bodies s.type others := by
        simp [bodies, htype]
      rw [hbodies]
      split_ifs at hnext
      · cases hnext
        exact ⟨[], by
          rw [List.append_nil]
          exact h.of_containers rfl ⟨fun _ => rfl, rfl, rfl, rfl, rfl⟩ rfl rfl, rfl, rfl⟩
      · obtain ⟨hcreated, htype', hsimilar, hheap, hhighlight⟩ := of_setThis hnext
        refine ⟨[], ?_, hsimilar.redoing_eq, ?_⟩
        · rw [List.append_nil]
          exact h.of_containers hcreated hsimilar hheap hhighlight
        · rw [hcreated, htype', List.nil_append]
      · cases hnext
        exact ⟨[], by rwa [List.append_nil], rfl, rfl⟩
    · rw [if_neg htype] at hnext
      have hbodies : bodies s.type (.raw bytes :: others) =
          (s.type, bytes) :: bodies s.type others := by simp [bodies, htype]
      rw [hbodies, loadedElements]
      cases hcreate : create s.created s.type bytes with
      | error fault => simp only [hcreate] at hnext; cases hnext
      | ok element =>
        simp only [hcreate] at hnext
        cases element with
        | none =>
          cases hnext
          exact ⟨[], by rwa [List.append_nil], rfl, rfl⟩
        | some e =>
          obtain ⟨hholds, htype', hredoing⟩ := h.add hinjective hnext
          refine ⟨[e], hholds, hredoing, ?_⟩
          rw [htype', hholds.created, List.length_append, ← h.created]
          rfl
  | nil => exact ⟨[], (hsame hnext rfl rfl).1, (hsame hnext rfl rfl).2, by cases hnext; rfl⟩
  | boolean value => exact ⟨[], (hsame hnext rfl rfl).1, (hsame hnext rfl rfl).2, by cases hnext; rfl⟩
  | negInt value => exact ⟨[], (hsame hnext rfl rfl).1, (hsame hnext rfl rfl).2, by cases hnext; rfl⟩
  | double bits => exact ⟨[], (hsame hnext rfl rfl).1, (hsame hnext rfl rfl).2, by cases hnext; rfl⟩
  | array items => exact ⟨[], (hsame hnext rfl rfl).1, (hsame hnext rfl rfl).2, by cases hnext; rfl⟩
  | map entries => exact ⟨[], (hsame hnext rfl rfl).1, (hsame hnext rfl rfl).2, by cases hnext; rfl⟩

/-- The loop puts on the page what is created from the bodies it meets. -/
lemma Holds.foldlM {quuid : Bytes → Bytes} {create : ElementFactory} {s' : PageLoad}
    {objects : List Obj} (h : s.Holds address es) (hinjective : Function.Injective address)
    (hloop : objects.foldlM (PageLoad.next quuid address create) s = .ok s') :
    s'.Holds address (es ++ loadedElements create s.created (bodies s.type objects)) ∧
      s'.page.redoing = s.page.redoing := by
  induction objects generalizing s es with
  | nil =>
    cases hloop
    exact ⟨by rwa [bodies, loadedElements, List.append_nil], rfl⟩
  | cons object objects ih =>
    rw [List.foldlM_cons] at hloop
    cases hnext : s.next quuid address create object with
    | error fault => rw [hnext] at hloop; cases hloop
    | ok mid =>
      rw [hnext] at hloop
      obtain ⟨es', hmid, hredoing, hbodies⟩ := h.next hinjective hnext objects
      obtain ⟨hlast, hflag⟩ := ih hmid hloop
      rw [hbodies, ← List.append_assoc]
      exact ⟨hlast, hflag.trans hredoing⟩

/-- A page that holds elements is consistent exactly when their uuids differ. -/
lemma Holds.consistent_iff (h : s.Holds address es) (hinjective : Function.Injective address) :
    (s.page.Consistent → (es.map (·.objUuid)).Nodup) ∧
    ((es.map (·.objUuid)).Nodup → s.page.Settled) := by
  have huuid : ∀ i (hi : i < es.length), s.page.uuidOf (address i) = some (es[i]).objUuid :=
    fun i hi => h.uuidOf (List.getElem?_eq_getElem hi)
  constructor
  · intro hconsistent
    rw [List.nodup_iff_injective_get]
    rintro ⟨i, hi⟩ ⟨j, hj⟩ heq
    simp only [List.length_map] at hi hj
    have huuids : s.page.uuidOf (address i) = s.page.uuidOf (address j) := by
      rw [huuid i hi, huuid j hj]
      simpa using heq
    have haddress := hconsistent.uuids _ ((h.mem_all _).mpr ⟨i, hi, rfl⟩) _
      ((h.mem_all _).mpr ⟨j, hj, rfl⟩) huuids
    simpa using hinjective haddress
  · intro hnodup
    refine ⟨⟨?_, ?_, ?_, ?_, ?_, ?_, ?_⟩, by simp [h.undos]⟩
    · rw [h.drawing]
      exact List.nodup_range.map hinjective
    · simp [h.undos]
    · intro p hp
      rw [h.drawing, List.mem_map] at hp
      obtain ⟨i, hi, rfl⟩ := hp
      exact (h.mem_all _).mpr ⟨i, List.mem_range.mp hi, rfl⟩
    · simp [h.undos]
    · intro p hp q hq heq
      obtain ⟨i, hi, rfl⟩ := (h.mem_all p).mp hp
      obtain ⟨j, hj, rfl⟩ := (h.mem_all q).mp hq
      rw [huuid i hi, huuid j hj, Option.some_inj] at heq
      rw [List.nodup_iff_injective_get] at hnodup
      have hij := @hnodup ⟨i, by simpa using hi⟩ ⟨j, by simpa using hj⟩ (by simpa using heq)
      rw [Fin.mk.injEq] at hij
      rw [hij]
    · simp [h.highlight]
    · intro p hp
      obtain ⟨i, hi, rfl⟩ := (h.mem_all p).mp hp
      rw [← Page.isSome_uuidOf, huuid i hi]
      rfl

end PageLoad

namespace Page

/-- A page that has been cleared holds no elements. -/
lemma holds_clearAll (address : Nat → Pointer) (page : Page) :
    PageLoad.Holds address ⟨page.clearAll, false, false, 0, 0⟩ [] := by
  refine ⟨rfl, rfl, fun p => ?_, ?_, rfl, rfl⟩ <;> simp [clearAll]

/-- The elements the data of a page holds. -/
def dataElements (env : Surroundings) (bytes : Bytes) : List Element :=
  loadedElements (fun i => Element.createFromType env bytes.length [i]) 0
    (bodies 0 (unpackAll bytes).1)

/-- The elements of the data have different uuids. -/
def DifferentUuids (env : Surroundings) (bytes : Bytes) : Prop :=
  ((dataElements env bytes).map (·.objUuid)).Nodup

/-- A loaded page is consistent exactly when its data holds elements with different uuids. -/
lemma setMsgPackData_spec {env : Surroundings} {page page' : Page} {bytes : Bytes}
    (hinjective : Function.Injective fun i => env.address [i])
    (hload : page.setMsgPackData env bytes = .ok page') :
    page'.redoing = page.redoing ∧ page'.highlightElement = none ∧
      (Consistent page' → DifferentUuids env bytes) ∧
      (DifferentUuids env bytes → Settled page') := by
  unfold setMsgPackData loadWith at hload
  split at hload
  · cases hload
  · rename_i s hloop
    obtain ⟨hholds, hredoing⟩ := (holds_clearAll _ page).foldlM hinjective hloop
    rw [List.nil_append] at hholds
    split_ifs at hload
    cases hload
    obtain ⟨hto, hfrom⟩ := hholds.consistent_iff hinjective
    exact ⟨hredoing, hholds.highlight, hto, hfrom⟩

end Page

end Liangshi
