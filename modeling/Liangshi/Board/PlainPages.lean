import Liangshi.Board.SavedPages

/-!
# Plain pages

The elements that the program makes are painted, and none is the state of another one.  No operation on
a page changes either (`Page.Every` with `Element.Plain`), and data without states of elements loads such
elements.
-/

namespace Liangshi

open Wire MessagePack Ordered

/-! ## Operations on elements -/

namespace Element

/-- A change that keeps what makes an element plain. -/
def KeepsPlain (f : Element → Element) : Prop :=
  ∀ e, (f e).canPaint = e.canPaint ∧ (f e).body.isState = e.body.isState

/-- What is plain stays plain. -/
lemma KeepsPlain.plain {f : Element → Element} (hf : KeepsPlain f) {e : Element} (h : e.Plain) :
    (f e).Plain :=
  ⟨(hf e).1.trans h.canPaint, (hf e).2.trans h.isState⟩

/-- Hiding a helper keeps an element plain. -/
lemma keepsPlain_hide : KeepsPlain fun e => e.hide.1 := by
  intro e
  have htyped : ∀ text, (e.body.typed text).isState = e.body.isState := by
    intro text
    cases e.body <;> rfl
  unfold hide
  dsimp only
  split
  · exact ⟨rfl, htyped _⟩
  · exact ⟨rfl, rfl⟩

/-- Showing a helper keeps an element plain. -/
lemma keepsPlain_highlight : KeepsPlain highlight := by
  intro e
  unfold highlight
  dsimp only
  split_ifs <;> exact ⟨rfl, rfl⟩

/-- Allowing the deletion keeps an element plain. -/
lemma keepsPlain_setCanDelete (can : Bool) : KeepsPlain (setCanDelete can) := fun _ => ⟨rfl, rfl⟩

/-- Setting the line width keeps an element plain. -/
lemma keepsPlain_setLineWidth (width : Int32) : KeepsPlain (setLineWidth width) := by
  intro e
  unfold setLineWidth
  split_ifs <;> exact ⟨rfl, rfl⟩

/-- Setting the line style keeps an element plain. -/
lemma keepsPlain_setLineStyle (style : Int32) : KeepsPlain (setLineStyle style) := by
  intro e
  unfold setLineStyle
  split_ifs <;> exact ⟨rfl, rfl⟩

/-- Setting the line colour keeps an element plain. -/
lemma keepsPlain_setLineColor (color : SColor) : KeepsPlain (setLineColor color) := by
  intro e
  unfold setLineColor
  split <;> exact ⟨rfl, rfl⟩

/-- Typing keeps an element plain. -/
lemma keepsPlain_typeText (text : Bytes) : KeepsPlain (typeText text) := by
  intro e
  unfold typeText
  split
  · exact ⟨rfl, rfl⟩
  · rename_i hbody _
    exact ⟨rfl, by rw [hbody]; rfl⟩
  · exact ⟨rfl, rfl⟩

/-- A new place and size keep an element plain. -/
lemma keepsPlain_updateSize (d : DoubleArithmetic) (leftTop : SPoint) (width height : Int32) :
    KeepsPlain fun e => { e with body := e.body.updateSize d leftTop width height } := by
  intro e
  refine ⟨rfl, ?_⟩
  show (e.body.updateSize d leftTop width height).isState = _
  cases e.body <;> rfl

/-- A new text keeps an element plain. -/
lemma keepsPlain_updateText (newText : Bytes) (newSize : Int32) :
    KeepsPlain fun e => { e with body := e.body.updateText newText newSize } := by
  intro e
  refine ⟨rfl, ?_⟩
  show (e.body.updateText newText newSize).isState = _
  cases e.body <;> rfl

/-- One change after another. -/
lemma KeepsPlain.comp {f g : Element → Element} (hf : KeepsPlain f) (hg : KeepsPlain g) :
    KeepsPlain fun e => f (g e) :=
  fun e => ⟨(hf (g e)).1.trans (hg e).1, (hf (g e)).2.trans (hg e).2⟩

end Element

/-! ## Operations on pages -/

namespace Page

open Element

variable {page page' : Page}

/-- A page all of whose elements are plain. -/
abbrev Plain (page : Page) : Prop := page.Every Element.Plain

/-- Only the elements count. -/
lemma Plain.of_heap (h : page.Plain) (hheap : page'.heap = page.heap) : page'.Plain := by
  intro p e he
  rw [element, hheap] at he
  exact h p e he

/-- A new page has no elements. -/
lemma plain_new (uuid : Bytes) : (new uuid).Plain := by
  intro p e he
  cases he

/-- A plain element is put on a page. -/
lemma Plain.setElement (h : page.Plain) (p : Pointer) {e : Element} (he : e.Plain) :
    (page.setElement p e).Plain := by
  intro q e' hq
  rw [element_setElement] at hq
  split_ifs at hq
  · exact Option.some.inj hq ▸ he
  · exact h q e' hq

/-- An element is changed. -/
lemma Plain.modify (h : page.Plain) (p : Pointer) {f : Element → Element} (hf : KeepsPlain f) :
    (page.modify p f).Plain := by
  unfold Page.modify
  cases hp : page.element p with
  | none => exact h
  | some e => exact h.setElement p (hf.plain (h p e hp))

/-- A helper is hidden. -/
lemma Plain.hide (h : page.Plain) (p : Pointer) : (page.hide p).1.Plain := by
  unfold Page.hide
  cases hp : page.element p with
  | none => exact h
  | some e => exact h.setElement p (keepsPlain_hide.plain (h p e hp))

/-- An element is taken out of the drawing. -/
lemma Plain.takeOut (h : page.Plain) (p : Pointer) : (page.takeOut p).Plain := by
  unfold Page.takeOut
  split_ifs
  · exact h.of_heap rfl
  · exact h

/-- The highlight ends. -/
lemma Plain.deHighlightElement (h : page.Plain) : page.deHighlightElement.Plain := by
  unfold Page.deHighlightElement
  cases hhighlight : page.highlightElement with
  | none => exact h
  | some p =>
    have hnone : { (page.hide p).1 with highlightElement := none }.Plain := (h.hide p).of_heap rfl
    dsimp only
    split_ifs
    · exact (hnone.modify p (keepsPlain_setCanDelete false)).takeOut p
    · exact hnone

/-- An element is removed. -/
lemma Plain.removeDrawingElementTriggered (h : page.Plain) (p : Pointer) :
    (page.removeDrawingElementTriggered p).Plain :=
  h.deHighlightElement.takeOut p

/-- A helper is hidden, with the removal it asks for. -/
lemma Plain.unhighlight (h : page.Plain) (p : Pointer) : (page.unhighlight p).Plain := by
  unfold Page.unhighlight
  dsimp only
  split_ifs
  · exact ((h.hide p).modify p (keepsPlain_setCanDelete false)).removeDrawingElementTriggered p
  · exact h.hide p

/-- An element is selected. -/
lemma Plain.highlightElementAt (h : page.Plain) (hit : Element → Bool) :
    (page.highlightElementAt hit).Plain := by
  have hnext : ∀ (s : Page × Bool) (p : Pointer), s.1.Plain → (highlightNext hit s p).1.Plain := by
    intro s p hs
    unfold highlightNext
    split_ifs
    · exact (hs.modify p keepsPlain_highlight).of_heap rfl
    · exact hs.unhighlight p
    · exact hs
  have hfold : ∀ (l : List Pointer) (s : Page × Bool), s.1.Plain →
      (l.foldl (highlightNext hit) s).1.Plain := by
    intro l
    induction l with
    | nil => exact fun s hs => hs
    | cons p l ih => exact fun s hs => ih _ (hnext s p hs)
  exact hfold _ _ (h.deHighlightElement.of_heap rfl)

/-- The mode is set. -/
lemma Plain.setMode (h : page.Plain) : page.setMode.Plain := by
  unfold Page.setMode
  split_ifs
  · exact h
  · exact h.deHighlightElement

/-- The page is locked or unlocked. -/
lemma Plain.setEnable (h : page.Plain) (enable : Bool) : (page.setEnable enable).Plain := by
  have hset : { page with disableDraw := !enable }.Plain := h.of_heap rfl
  exact hset.deHighlightElement

/-- A text is typed. -/
lemma Plain.typeText (h : page.Plain) (text : Bytes) : (page.typeText text).Plain := by
  unfold Page.typeText
  split
  · exact h.modify _ (keepsPlain_typeText text)
  · exact h

/-- The line attributes of the page keep an element plain. -/
lemma keepsPlain_addProperty (page : Page) (updateProperty : Bool) :
    KeepsPlain (page.addProperty updateProperty) := by
  intro e
  unfold addProperty
  have hcolor := keepsPlain_setLineColor page.lineColor
  have hstyle := keepsPlain_setLineStyle page.lineStyle
  have hwidth := keepsPlain_setLineWidth page.lineWidth
  dsimp only
  split_ifs
  · exact (hcolor.comp hstyle) e
  · exact (hcolor.comp (hstyle.comp hwidth)) e
  · exact ⟨rfl, rfl⟩

/-- An element that is on the page is added to the drawing. -/
lemma Plain.addElement (h : page.Plain) (p : Pointer) (updateProperty highlight addToDrawing : Bool) :
    (page.addElement p updateProperty highlight addToDrawing).Plain := by
  have hadded := h.deHighlightElement.modify p
    (keepsPlain_addProperty page.deHighlightElement updateProperty)
  have hhighlighted := hadded.modify p keepsPlain_highlight
  cases highlight with
  | true => cases addToDrawing with
    | true => exact hhighlighted.of_heap rfl
    | false => exact hhighlighted.of_heap rfl
  | false => cases addToDrawing with
    | true => exact hadded.of_heap rfl
    | false => exact hadded.of_heap rfl

/-- The last element is undone. -/
lemma Plain.onUndoTriggered (h : page.Plain) : page.onUndoTriggered.Plain := by
  unfold Page.onUndoTriggered
  split_ifs
  · exact h
  · split
    · exact h.removeDrawingElementTriggered _
    · exact h

/-- The last element that was undone is redone. -/
lemma Plain.onRedoTriggered (h : page.Plain) : page.onRedoTriggered.Plain := by
  unfold Page.onRedoTriggered
  split_ifs
  · exact h
  · split
    · have hpopped : { page with undos := page.undos.dropLast, redoing := true }.Plain := h.of_heap rfl
      exact hpopped.addElement _ false true true
    · exact h

/-- The highlighted element is copied. -/
lemma Plain.onCopyTriggered (h : page.Plain) (hcopy : page.onCopyTriggered = some page') :
    page'.Plain := by
  unfold Page.onCopyTriggered at hcopy
  split at hcopy
  · exact Option.some.inj hcopy ▸ h
  · obtain ⟨p, -, rfl⟩ := Option.map_eq_some_iff.mp hcopy
    exact (h.unhighlight _).modify p keepsPlain_highlight

/-- Some elements are changed. -/
lemma Plain.foldl_modify (h : page.Plain) {f : Element → Element} (hf : KeepsPlain f)
    (ps : List Pointer) : (ps.foldl (fun page p => page.modify p f) page).Plain := by
  induction ps generalizing page with
  | nil => exact h
  | cons p ps ih => exact ih (h.modify p hf)

/-- A line attribute is changed. -/
lemma Plain.lineChanged (h : page.Plain) {change : Element → Element} (hchange : KeepsPlain change)
    (all : Bool) : (page.lineChanged change all).Plain := by
  have hhighlighted : ∀ p : Pointer, ((page.modify p fun e => change (e.setCanDelete false)).unhighlight
      p |>.modify p fun e => e.highlight.setCanDelete true).Plain := fun p =>
    ((h.modify p (hchange.comp (keepsPlain_setCanDelete false))).unhighlight p).modify p
      ((keepsPlain_setCanDelete true).comp keepsPlain_highlight)
  have hall : KeepsPlain fun e => if !e.body.isBan && e.canPaint then change e else e := by
    intro e
    dsimp only
    split_ifs
    · exact hchange e
    · exact ⟨rfl, rfl⟩
  unfold Page.lineChanged
  dsimp only
  cases page.highlightElement with
  | none =>
    cases all with
    | true => exact h.foldl_modify hall page.drawingElements
    | false => exact h
  | some p =>
    dsimp only
    split_ifs
    · exact h.foldl_modify hall _
    · exact (hhighlighted p).foldl_modify hall _
    · exact h
    · exact hhighlighted p

/-- The page is cleared. -/
lemma Plain.clearAll (h : page.Plain) : page.clearAll.Plain := by
  have hfold : ∀ (ps : List Pointer) (heap : OrderedMap Pointer Element),
      (∀ p e, heap.find p = some e → e.Plain) →
        ∀ p e, (ps.foldl OrderedMap.erase heap).find p = some e → e.Plain := by
    intro ps
    induction ps with
    | nil => exact fun heap hheap => hheap
    | cons q ps ih =>
      refine fun heap hheap => ih _ fun p e hp => ?_
      rw [OrderedMap.find_erase] at hp
      split_ifs at hp
      exact hheap p e hp
  exact hfold _ _ h

/-- The size of an image is changed. -/
lemma Plain.changeImageElementSize (h : page.Plain) (d : DoubleArithmetic) (uuid : Bytes)
    (leftTop : SPoint) (width height : Int32) :
    (page.changeImageElementSize d uuid leftTop width height).Plain := by
  unfold Page.changeImageElementSize
  split
  · exact h.modify _ (keepsPlain_updateSize d leftTop width height)
  · exact h

end Page

/-! ## Loading -/

/-- A type of elements that are no states. -/
def ElementType.NoState (type : Int32) : Prop :=
  ElementType.ofInt? type ≠ some .banState ∧ ElementType.ofInt? type ≠ some .imageState

/-- Data of a page without states of elements. -/
def Page.NoStates (bytes : Bytes) : Prop :=
  ∀ body ∈ bodies 0 (unpackAll bytes).1, ElementType.NoState body.1

namespace Element

/-- A record converts to an element of the type that is asked for, which is painted. -/
lemma of_convert {u : Uninitialised} {uuid : Bytes} {o : Obj} {type : ElementType} {e : Element}
    (h : convert u uuid o type = some e) : e.getType = type ∧ e.canPaint = true := by
  unfold convert at h
  rw [Option.bind_eq_bind, Option.bind_eq_some_iff] at h
  obtain ⟨objs, -, h⟩ := h
  cases type with
  | _ =>
    simp only [convertPath, convertText, convertPlaced, convertBan, convertBanWithLabel, convertEnds,
      Option.bind_eq_bind, Option.bind_eq_some_iff, Option.map_eq_some_iff, Option.pure_def,
      Option.some.injEq] at h
    grind [getType, ElementBody.getType, new]

/-- What is created from a record of another type than those of states is plain. -/
lemma plain_of_createFromType {env : Surroundings} {fuel : Nat} {place : List Nat} {type : Int32}
    {bytes : Bytes} {e : Element} (htype : ElementType.NoState type)
    (h : createFromType env fuel place type bytes = .ok (some e)) : e.Plain := by
  cases fuel with
  | zero => cases h
  | succ fuel =>
    simp only [createFromType] at h
    split at h
    · cases h
    · split at h
      · cases h
      · rename_i e₀ hconvert
        obtain ⟨t, ht, hconvert⟩ := Option.bind_eq_some_iff.mp hconvert
        obtain ⟨hgetType, hpaint⟩ := of_convert hconvert
        obtain ⟨e', hupdate, he⟩ := map_eq_ok.mp h
        obtain rfl := Option.some.inj he
        obtain ⟨halike, -, hpaint'⟩ := alike_of_updateDataFromMsgPack hupdate
        refine ⟨hpaint'.trans hpaint, (PageLoad.isState_of_alike halike).trans ?_⟩
        have hbody : e₀.body.getType = t := hgetType
        cases hclass : e₀.body with
        | banState =>
          rw [hclass] at hbody
          exact absurd (ht.trans (congrArg some hbody.symm)) htype.1
        | imageState =>
          rw [hclass] at hbody
          exact absurd (ht.trans (congrArg some hbody.symm)) htype.2
        | _ => rfl

end Element

namespace PageLoad

variable {quuid : Bytes → Bytes} {address : Nat → Pointer} {create : ElementFactory} {s s' : PageLoad}

/-- What makes the loop plain: the page is, and so is what is created from the types in the data. -/
def CreatesPlain (create : ElementFactory) : Prop :=
  ∀ n type bytes e, ElementType.NoState type → create n type bytes = .ok (some e) → e.Plain

/-- One turn of the loop over objects without states of elements leaves a page plain. -/
lemma plain_next (hcreate : CreatesPlain create) {object : Obj} {objs : List Obj}
    (htypes : ∀ body ∈ bodies s.type (object :: objs), ElementType.NoState body.1)
    (hs : s.page.Plain) (hnext : s.next quuid address create object = .ok s') :
    s'.page.Plain ∧ ∀ body ∈ bodies s'.type objs, ElementType.NoState body.1 := by
  cases object with
  | posInt n =>
    simp only [PageLoad.next, Codec.int32_convert_posInt] at hnext
    by_cases hn : n < 2 ^ 31
    · simp only [hn, if_true] at hnext
      cases hnext
      exact ⟨hs, htypes⟩
    · simp only [hn, if_false] at hnext
      cases hnext
  | raw bytes =>
    simp only [PageLoad.next] at hnext
    by_cases htype : s.type = 0
    · rw [if_pos htype] at hnext
      have hbodies : bodies s.type (.raw bytes :: objs) = bodies s.type objs := by
        simp [bodies, htype]
      rw [hbodies] at htypes
      split_ifs at hnext
      · cases hnext
        exact ⟨Page.Plain.of_heap hs rfl, htypes⟩
      · obtain ⟨-, htype', -, hheap, -⟩ := of_setThis hnext
        exact ⟨Page.Plain.of_heap hs hheap, htype' ▸ htypes⟩
      · cases hnext
        exact ⟨hs, htypes⟩
    · rw [if_neg htype] at hnext
      have hbodies : bodies s.type (.raw bytes :: objs) = (s.type, bytes) :: bodies s.type objs := by
        simp [bodies, htype]
      rw [hbodies] at htypes
      obtain ⟨hbody, hothers⟩ := List.forall_mem_cons.mp htypes
      split at hnext
      · cases hnext
      · rename_i r hr
        cases r with
        | none =>
          cases hnext
          exact ⟨hs, hothers⟩
        | some e =>
          have he := hcreate _ _ _ e hbody hr
          have hlink : s.page.link e = .ok s.page := link_eq he.isState
          simp only [PageLoad.add, hlink] at hnext
          cases hnext
          have hset : (s.page.setElement (address s.created) e).Plain :=
            Page.Plain.setElement hs (address s.created) he
          exact ⟨Page.Plain.of_heap hset rfl, hothers⟩
  | nil => cases hnext; exact ⟨hs, htypes⟩
  | boolean value => cases hnext; exact ⟨hs, htypes⟩
  | negInt value => cases hnext; exact ⟨hs, htypes⟩
  | double bits => cases hnext; exact ⟨hs, htypes⟩
  | array items => cases hnext; exact ⟨hs, htypes⟩
  | map entries => cases hnext; exact ⟨hs, htypes⟩

/-- The loop over objects without states of elements leaves a page plain. -/
lemma plain_foldlM (hcreate : CreatesPlain create) {objs : List Obj}
    (htypes : ∀ body ∈ bodies s.type objs, ElementType.NoState body.1) (hs : s.page.Plain)
    (hloop : objs.foldlM (PageLoad.next quuid address create) s = .ok s') : s'.page.Plain := by
  induction objs generalizing s with
  | nil =>
    cases hloop
    exact hs
  | cons object objs ih =>
    cases hnext : s.next quuid address create object with
    | error fault =>
      rw [List.foldlM_cons, hnext] at hloop
      cases hloop
    | ok mid =>
      rw [foldlM_cons_of_ok hnext] at hloop
      obtain ⟨hmid, hothers⟩ := plain_next hcreate htypes hs hnext
      exact ih hothers hmid hloop

end PageLoad

namespace Page

variable {env : Surroundings} {page page' : Page}

/-- Data without states of elements leaves a page plain. -/
lemma Plain.setMsgPackData (h : page.Plain) {bytes : Bytes} (hbytes : NoStates bytes)
    (hload : page.setMsgPackData env bytes = .ok page') : page'.Plain := by
  unfold Page.setMsgPackData loadWith at hload
  split at hload
  · cases hload
  · rename_i s hloop
    have hcreate : PageLoad.CreatesPlain fun i => Element.createFromType env bytes.length [i] :=
      fun n type record e htype hcreate => Element.plain_of_createFromType htype hcreate
    have hplain : s.page.Plain := by
      refine PageLoad.plain_foldlM hcreate ?_ h.clearAll hloop
      exact hbytes
    split_ifs at hload
    exact Except.ok.inj hload ▸ hplain

/-- The uuid of a page that has loaded is one that `QUuid` makes of a text, if it was one before. -/
lemma quuid_of_setMsgPackData (hinjective : Function.Injective env.address)
    (hquuid : ∀ text, env.quuid (env.quuid text) = env.quuid text) {bytes : Bytes}
    (huuid : env.quuid page.uuid = page.uuid) (hload : page.setMsgPackData env bytes = .ok page') :
    env.quuid page'.uuid = page'.uuid := by
  obtain ⟨hown, -⟩ := of_setMsgPackData hinjective hload
  have hthis : ∀ (q : Page) (head : Bytes),
      (((unpackOne head).bind q.convertThis).getD q).uuid = q.uuid := by
    intro q head
    cases hconvert : (unpackOne head).bind q.convertThis with
    | none => rfl
    | some q' =>
      obtain ⟨o, -, ho⟩ := Option.bind_eq_some_iff.mp hconvert
      simp only [convertThis, Option.bind_eq_bind, Option.bind_eq_some_iff] at ho
      obtain ⟨_, -, _, -, _, -, hq⟩ := ho
      cases hq
      rfl
  have hheader : (page.header env.quuid bytes).uuid = page.uuid ∨
      ∃ head, (page.header env.quuid bytes).uuid = env.quuid head := by
    unfold header
    cases heads 0 (unpackAll bytes).1 with
    | nil => exact .inl rfl
    | cons head others =>
      refine .inr ⟨head, ?_⟩
      rw [headed]
      cases others with
      | nil => rfl
      | cons record others => exact hthis _ record
  have hsame : page'.uuid = (page.header env.quuid bytes).uuid := by
    rw [← hown]
    rfl
  rw [hsame]
  rcases hheader with h | ⟨head, h⟩
  · rw [h, huuid]
  · rw [h, hquuid]

/-- A new page that has loaded data without states writes data that any page shows it from. -/
theorem shows_of_reload (hinjective : Function.Injective env.address)
    (hquuid : ∀ text, env.quuid (env.quuid text) = env.quuid text) {uuid bytes : Bytes}
    (huuid : env.quuid uuid = uuid) (hbytes : NoStates bytes)
    (hload : (new uuid).setMsgPackData env bytes = .ok page) (hlength : page.data.length < 2 ^ 32)
    {loaded : Page} (hreload : page'.setMsgPackData env page.data = .ok loaded) :
    page.Shows loaded := by
  have hplain : page.Plain := (plain_new uuid).setMsgPackData hbytes hload
  exact shows_of_setMsgPackData hinjective hlength hplain.shown
    (quuid_of_setMsgPackData hinjective hquuid huuid hload) hreload

end Page

end Liangshi
