import Liangshi.Board.BanFile
import Liangshi.Board.NestedData
import Liangshi.Board.StateSources

/-!
# Boards that are loaded again

A labelled board is saved with the data its page writes, and loaded by loading that data on a page.
Data `Reopens` when loading succeeds and what the page writes then can be loaded in turn: such a board
is created again from its record with its uuid and its label (`Element.createFromType_board`).  The
boards a user makes hold the data of an empty page, which reopens (`reopens_new`).
-/

namespace Liangshi

open Wire MessagePack

/-- Whether the page of a labelled board is a test, the data of the page, and the label. -/
def ElementBody.board? : ElementBody → Option (Bool × Bytes × Bytes)
  | .banWithLabel b label => some (false, b.data.data, label)
  | .testBanWithLabel b label => some (true, b.data.data, label)
  | _ => none

/-- How the page of a board at a place is loaded. -/
def loadBoard (env : Surroundings) (fuel : Nat) (place : List Nat) (n : Nat) :
    Page → Bytes → Except LoadFault Page :=
  Page.loadWith env.quuid (fun i => env.address (i :: n :: place))
    fun i => Element.createFromType env fuel (i :: n :: place)

/-- What the page of a board writes once it has loaded its data. -/
def viewerData (load : Nat → Page → Bytes → Except LoadFault Page) (page : Page) :
    Bool → Bytes → Except LoadFault Bytes
  | false, data => (load 0 page data).map Page.data
  | true, data => (TestPage.loadWith load page data).map TestPage.data

/-- Every data of a set is loaded, and what the page writes then is in the set. -/
def ReopensIn (R : Bytes → Prop) (test : Bool) : Prop :=
  ∀ data, R data → data.length < 2 ^ 32 → ∀ (env : Surroundings) (fuel : Nat) (place : List Nat),
    Function.Injective env.address → data.length ≤ fuel →
    ∃ data', viewerData (loadBoard env fuel place) (.new (env.newUuid (0 :: place))) test data =
      .ok data' ∧ R data'

/-- Data that can be loaded and saved again and again. -/
def Reopens (test : Bool) (data : Bytes) : Prop := ∃ R : Bytes → Prop, R data ∧ ReopensIn R test

/-- What is written after loading data that reopens reopens. -/
lemma Reopens.load {test : Bool} {data : Bytes} (h : Reopens test data)
    (hlength : data.length < 2 ^ 32) {env : Surroundings} (fuel : Nat) (place : List Nat)
    (hinjective : Function.Injective env.address) (hfuel : data.length ≤ fuel) :
    ∃ data', viewerData (loadBoard env fuel place) (.new (env.newUuid (0 :: place))) test data =
      .ok data' ∧ Reopens test data' := by
  obtain ⟨R, hdata, hR⟩ := h
  obtain ⟨data', hload, hdata'⟩ := hR data hdata hlength env fuel place hinjective hfuel
  exact ⟨data', hload, R, hdata', hR⟩

/-- The data of an empty page reopens. -/
lemma reopens_new (uuid : Bytes) : Reopens false (Page.new uuid).data := by
  refine ⟨fun data => ∃ uuid, data = (Page.new uuid).data, ⟨uuid, rfl⟩, ?_⟩
  rintro _ ⟨uuid, rfl⟩ hlength env fuel place - -
  refine ⟨(Page.new (env.quuid uuid)).data, ?_, _, rfl⟩
  simp only [viewerData, loadBoard, Page.loadWith, Page.unpackAll_data hlength,
    Page.foldlM_objects _ hlength]
  rfl

/-- An element with a label whose page can be loaded again. -/
def Element.Board (e : Element) : Prop :=
  ∃ test data label, e.body.board? = some (test, data, label) ∧ Reopens test data

/-- Where an element is a labelled board, its page can be loaded again. -/
def Element.PageReopens (e : Element) : Prop :=
  ∀ test data label, e.body.board? = some (test, data, label) → Reopens test data

/-- An element with the uuid and the label of a board, and a page that can be loaded again. -/
def Element.SameBoard (e e' : Element) : Prop :=
  e'.objUuid = e.objUuid ∧ ∃ test data data' label, e.body.board? = some (test, data, label) ∧
    e'.body.board? = some (test, data', label) ∧ Reopens test data'

namespace Element

variable {e : Element} {test : Bool} {data label : Bytes}

/-- Being a board is a matter of the body. -/
lemma Board.of_body {e' : Element} (h : e.Board) (hbody : e'.body = e.body) : e'.Board := by
  unfold Board
  rwa [hbody]

/-- The data of a board are those of the page in it. -/
lemma nested_of_board (h : e.body.board? = some (test, data, label)) : e.body.nested = data := by
  cases hbody : e.body <;> rw [hbody] at h <;> cases h <;> rfl

/-- A board whose page is loaded keeps its uuid and its label. -/
lemma updateDataFromMsgPack_board (env : Surroundings)
    {load : Nat → Page → Bytes → Except LoadFault Page} {page : Page} {data' : Bytes}
    (h : e.body.board? = some (test, data, label))
    (hload : viewerData load page test data = .ok data') :
    ∃ e', e.updateDataFromMsgPack env load page = .ok e' ∧ e'.objUuid = e.objUuid ∧
      e'.body.board? = some (test, data', label) := by
  unfold updateDataFromMsgPack
  cases hbody : e.body with
  | banWithLabel b _ =>
    rw [hbody] at h
    cases h
    obtain ⟨viewer, hviewer, rfl⟩ := map_eq_ok.mp hload
    have hdata : (b.initViewer env viewer viewer.data).data.data = viewer.data :=
      LokiBuffer.data_ofData _
    refine ⟨{ e with body := .banWithLabel (b.initViewer env viewer viewer.data) label }, ?_, rfl, ?_⟩
    · simp only [BanMembers.update, hviewer]
      rfl
    · simp only [ElementBody.board?, hdata]
  | testBanWithLabel b _ =>
    rw [hbody] at h
    cases h
    obtain ⟨viewer, hviewer, rfl⟩ := map_eq_ok.mp hload
    have hdata : (b.initViewer env viewer.page viewer.data).data.data = viewer.data :=
      LokiBuffer.data_ofData _
    refine ⟨{ e with body := .testBanWithLabel (b.initViewer env viewer.page viewer.data) label }, ?_,
      rfl, ?_⟩
    · simp only [BanMembers.updateTest, hviewer]
      rfl
    · simp only [ElementBody.board?, hdata]
  | _ =>
    rw [hbody] at h
    cases h

/-- A board is created again from its record. -/
lemma createFromType_board {env : Surroundings} {fuel : Nat} (place : List Nat) (h : e.Board)
    (hinjective : Function.Injective env.address) (hlength : e.getMsgPackData.length < 2 ^ 32)
    (hfuel : e.getMsgPackData.length ≤ fuel) :
    ∃ e', createFromType env fuel place e.getType.toInt e.getMsgPackData = .ok (some e') ∧
      e.SameBoard e' := by
  obtain ⟨test, data, label, hboard, hreopens⟩ := h
  have hunpack := unpackOne_getMsgPackData hlength
  -- The data of the page is part of the record.
  have hnested : data.length < e.getMsgPackData.length := by
    have hconvert := nested_length_of_convert (convert_toObj ⟨0, false⟩ [] e)
    have hspan := span_le_of_unpackOne hunpack
    have hdata : e.recorded.body.nested = data := nested_of_board (e := e.recorded) hboard
    rw [hdata] at hconvert
    omega
  cases fuel with
  | zero => omega
  | succ fuel =>
    obtain ⟨data', hload, hreopens'⟩ := hreopens.load (by omega) fuel place hinjective (by omega)
    obtain ⟨e', hupdate, huuid, hboard'⟩ :=
      updateDataFromMsgPack_board (e := e.recorded) env hboard hload
    refine ⟨e', ?_, huuid, test, data, data', label, hboard, hboard', hreopens'⟩
    simp only [createFromType, hunpack, ElementType.ofInt?_toInt, Option.bind_some, convert_toObj]
    unfold loadBoard at hupdate
    rw [hupdate]
    rfl

/-! ## What boards are and are not -/

/-- A board is a `.ban` element. -/
lemma isBan_of_board (h : e.body.board? = some (test, data, label)) : e.body.isBan = true := by
  cases hbody : e.body <;> rw [hbody] at h <;> cases h <;> rfl

/-- A board has no text. -/
lemma text?_of_board (h : e.body.board? = some (test, data, label)) : e.body.text? = none := by
  cases hbody : e.body <;> rw [hbody] at h <;> cases h <;> rfl

/-- The label of a board. -/
lemma getLabel_of_board (recode : Bytes → Bytes) (h : e.body.board? = some (test, data, label)) :
    e.getLabel recode = recode label := by
  unfold getLabel
  cases hbody : e.body <;> rw [hbody] at h <;> cases h <;> rfl

/-- Setting the label leaves the uuid. -/
lemma objUuid_setLabel (title : Bytes) (e : Element) : (e.setLabel title).objUuid = e.objUuid := by
  unfold setLabel
  split <;> rfl

/-- A board with another label. -/
lemma board?_setLabel (title : Bytes) (h : e.body.board? = some (test, data, label)) :
    (e.setLabel title).body.board? = some (test, data, title) := by
  unfold setLabel
  cases hbody : e.body <;> rw [hbody] at h <;> cases h <;> rfl

/-- The same boards have the same label. -/
lemma SameBoard.getLabel {e' : Element} (h : e.SameBoard e') (recode : Bytes → Bytes) :
    e'.getLabel recode = e.getLabel recode := by
  obtain ⟨-, test, data, data', label, hboard, hboard', -⟩ := h
  rw [getLabel_of_board recode hboard, getLabel_of_board recode hboard']

/-- A board is the state of no element. -/
lemma sourceUuid_of_board (h : e.body.board? = some (test, data, label)) :
    e.body.sourceUuid = none := by
  cases hbody : e.body <;> first | rfl | (rw [hbody] at h; cases h)

/-- The same boards are states of no elements. -/
lemma SameBoard.sameSource {e' : Element} (h : e.SameBoard e') : e.SameSource e' := by
  obtain ⟨huuid, test, data, data', label, hboard, hboard', -⟩ := h
  refine ⟨huuid, ?_, ?_⟩
  · rw [sourceUuid_of_board hboard, sourceUuid_of_board hboard']
  · cases hbody : e.body <;> rw [hbody] at hboard <;> cases hboard <;>
      cases hbody' : e'.body <;> rw [hbody'] at hboard' <;> cases hboard' <;> rfl

/-- What is the same board is a board. -/
lemma SameBoard.board {e' : Element} (h : e.SameBoard e') : e'.Board := by
  obtain ⟨-, test, data, data', label, -, hboard', hreopens⟩ := h
  exact ⟨test, data', label, hboard', hreopens⟩

end Element

/-! ## Boards of files -/

namespace BanFile

/-- What the reading of every payload keeps holds of what has been made of a file. -/
lemma readThis_invariant {σ : Type} {read : PayloadReader σ} {I : σ → Prop}
    (hread : ∀ type s payload r, I s → read type s payload = .ok r → I r.2) {loaded : σ}
    {bytes : Bytes} {s : ThisLoad σ} (h : readThis read loaded bytes = .ok s) (hI : I loaded) :
    I s.loaded := by
  have hnext : ∀ (s s' : ThisLoad σ) (object : Obj), I s.loaded →
      nextObject read s object = .ok s' → I s'.loaded := by
    intro s s' object hs hnext
    unfold nextObject at hnext
    split at hnext
    · split at hnext
      · cases hnext
      · split_ifs at hnext <;> cases hnext <;> exact hs
    · split_ifs at hnext
      · cases hnext
        exact hs
      · cases hnext
        exact hs
      · split at hnext
        · cases hnext
        · rename_i type loaded hpayload
          cases hnext
          exact hread _ _ _ _ hs hpayload
      · cases hnext
        exact hs
    · cases hnext
      exact hs
  have hloop : ∀ (objects : List Obj) (s s' : ThisLoad σ), I s.loaded →
      objects.foldlM (nextObject read) s = .ok s' → I s'.loaded := by
    intro objects
    induction objects with
    | nil =>
      intro s s' hs h
      cases h
      exact hs
    | cons object objects ih =>
      intro s s' hs h
      rw [List.foldlM_cons] at h
      cases hmid : nextObject read s object with
      | error e => rw [hmid] at h; cases h
      | ok mid =>
        rw [hmid] at h
        exact ih mid s' (hnext s mid object hs hmid) h
  unfold readThis at h
  split at h
  · cases h
  · rename_i s' hs'
    split_ifs at h
    cases h
    exact hloop _ _ _ hI hs'

/-- The elements that are loaded with a title have labels. -/
lemma board?_of_loadScElements {env : FileSurroundings} {bytes : Bytes} {accepted : Bool}
    {elements : List Element} (h : loadScElements env true bytes = .ok (accepted, elements)) :
    ∀ e ∈ elements, e.body.board?.isSome := by
  have hread : ∀ (type : Int32) (elements : List Element) (payload : Bytes)
      (r : Int32 × List Element), (∀ e ∈ elements, e.body.board?.isSome) →
      readElement env true type elements payload = .ok r → ∀ e ∈ r.2, e.body.board?.isSome := by
    intro type elements payload r helements hr
    have happend : ∀ {e : Element}, e.body.board?.isSome →
        ∀ d ∈ elements ++ [e], d.body.board?.isSome := fun he d hd => by
      rcases List.mem_append.mp hd with hd | hd
      · exact helements d hd
      · rwa [List.mem_singleton.mp hd]
    unfold readElement at hr
    split_ifs at hr
    · obtain ⟨e, he, rfl⟩ := map_eq_ok.mp hr
      obtain ⟨document, -, rfl⟩ := map_eq_ok.mp he
      exact happend rfl
    · obtain ⟨e, he, rfl⟩ := map_eq_ok.mp hr
      obtain ⟨document, -, rfl⟩ := map_eq_ok.mp he
      exact happend rfl
  unfold loadScElements at h
  split at h
  · cases h
    exact fun e he => absurd he List.not_mem_nil
  · cases h
  · rename_i s hs
    cases h
    exact readThis_invariant hread hs fun e he => absurd he List.not_mem_nil

end BanFile

/-! ## Pages of boards -/

/-- Lists whose items agree on a function are mapped to the same list. -/
lemma map_eq_of_forall₂ {α β : Type} {R : α → α → Prop} {f : α → β} (hf : ∀ a b, R a b → f b = f a)
    {l l' : List α} (h : List.Forall₂ R l l') : l'.map f = l.map f := by
  induction h with
  | nil => rfl
  | cons hfirst _ ih => rw [List.map_cons, List.map_cons, hf _ _ hfirst, ih]

namespace Page

variable {page : Page}

/-- The elements that a settled page shows have different uuids. -/
lemma Settled.nodup_uuids (h : page.Settled) : (page.shown.map (·.objUuid)).Nodup := by
  have hshown : page.shown.map (·.objUuid) = page.drawingElements.filterMap page.uuidOf := by
    rw [shown, List.map_filterMap]
    rfl
  rw [hshown, List.Nodup, List.pairwise_filterMap]
  refine h.nodup.pairwise_of_forall_ne fun p hp q hq hne uuid hu uuid' hu' heq => hne ?_
  exact h.uuids p (h.drawn p hp) q (h.drawn q hq) (by rw [hu, hu', heq])

/-- A page that shows boards is loaded with all of them. -/
lemma loadWith_boards (quuid : Bytes → Bytes) {address : Nat → Pointer} {create : ElementFactory}
    (page' : Page) (hinjective : Function.Injective address) (hlength : page.data.length < 2 ^ 32)
    (hsettled : page.Settled) (hcreate : ∀ e ∈ page.shown, ∀ n, ∃ e',
      create n e.getType.toInt e.getMsgPackData = .ok (some e') ∧ e.SameBoard e') :
    ∃ loaded, page'.loadWith quuid address create page.data = .ok loaded ∧
      List.Forall₂ Element.SameBoard page.shown loaded.shown ∧ loaded.Settled ∧
      ∀ p ∈ loaded.allElements, p ∈ loaded.drawingElements := by
  have hsource : ∀ e c : Element, e.SameBoard c → c.body.sourceUuid = none := by
    rintro e c ⟨-, test, data, data', label, -, hboard, -⟩
    exact Element.sourceUuid_of_board hboard
  have hnone : ∀ e ∈ page.shown, e.body.sourceUuid = none := by
    intro e he
    obtain ⟨c, -, -, test, data, data', label, hboard, -⟩ := hcreate e he 0
    exact Element.sourceUuid_of_board hboard
  obtain ⟨s, cs, hload, -, hmarked, hall⟩ := exists_loadWith quuid page' hinjective
    (fun _ _ => Element.SameBoard.sameSource) hlength (anchored_of_forall hnone) hcreate
  have hcs : ∀ c ∈ cs, c.body.sourceUuid = none := by
    intro c hc
    obtain ⟨i, hi, rfl⟩ := List.getElem_of_mem hc
    exact hsource _ _ ((List.forall₂_iff_get.mp hall).2 i (hall.length_eq ▸ hi) hi)
  have hshown : s.page.shown = cs := hmarked.shown.trans (marked_eq_self hcs)
  have hsame := map_eq_of_forall₂ (f := (·.objUuid)) (fun _ _ h => h.1) hall
  refine ⟨s.page, hload, hshown ▸ hall, (hmarked.holds.consistent_iff hinjective).2 ?_,
    fun p => (hmarked.mem_all p).mp⟩
  rw [hsame]
  exact hsettled.nodup_uuids

end Page

/-! ## Pages of tests -/

namespace TestPage

variable {test : TestPage}

/-- The record of a test converts to its uuids and correct labels. -/
lemma convertThis_thisObj (test test' : TestPage) :
    test'.convertThis test.thisObj = some { test with page := test'.page } := by
  simp [convertThis, thisObj]

/-- The record of a test is unpacked. -/
lemma unpackOne_thisObj (h : test.data.length < 2 ^ 32) :
    unpackOne test.thisObj.pack = some test.thisObj := by
  have hlength : test.thisObj.pack.length < 2 ^ 32 :=
    lt_of_le_of_lt (Page.length_le_of_raw_mem (by simp)) h
  have hstrings : ∀ strings : List Bytes,
      ((Codec.vector Codec.string).toObj strings).Shallow (embedStackSize - 1) := by
    intro strings
    refine ⟨by decide, allShallow_iff.mpr fun item hitem => ?_⟩
    obtain ⟨bytes, -, rfl⟩ := List.mem_map.mp hitem
    trivial
  have hshallow : test.thisObj.Shallow embedStackSize :=
    ⟨by decide, trivial, hstrings _, hstrings _, trivial⟩
  have hunpack := unpackOne_pack (hshallow.packable hlength) []
  rwa [List.append_nil] at hunpack

/-- The data of a test is unpacked to its record and its page. -/
lemma unpackAll_data (h : test.data.length < 2 ^ 32) :
    unpackAll test.data = ([.raw test.thisObj.pack, .raw test.page.data], .finished) := by
  have hshallow : AllShallow embedStackSize [.raw test.thisObj.pack, .raw test.page.data] :=
    ⟨trivial, trivial, trivial⟩
  exact unpackAll_packAll (hshallow.packable h)

/-- The loop over the objects of the data of a test. -/
lemma foldlM_objects {load : Nat → Page → Bytes → Except LoadFault Page} {test' : TestPage}
    {page : Page} (h : test.data.length < 2 ^ 32)
    (hload : load 0 test'.page test.page.data = .ok page) :
    [.raw test.thisObj.pack, .raw test.page.data].foldlM (next load) (test', false, 0) =
      .ok ({ test with page }, true, 1) := by
  have hfirst : next load (test', false, 0) (.raw test.thisObj.pack) =
      .ok ({ test with page := test'.page }, true, 0) := by
    simp only [next, unpackOne_thisObj h, convertThis_thisObj]
  have hsecond : next load ({ test with page := test'.page }, true, 0) (.raw test.page.data) =
      .ok ({ test with page }, true, 1) := by
    simp only [next, hload]
    rfl
  rw [List.foldlM_cons, hfirst]
  show List.foldlM _ _ _ = _
  rw [List.foldlM_cons, hsecond]
  rfl

/-- The page of a test is loaded behind its record. -/
lemma loadWith_data {load : Nat → Page → Bytes → Except LoadFault Page} {page loaded : Page}
    (hlength : test.data.length < 2 ^ 32) (hload : load 0 page test.page.data = .ok loaded) :
    loadWith load page test.data = .ok { test with page := loaded } := by
  rw [loadWith, unpackAll_data hlength]
  dsimp only
  rw [foldlM_objects hlength hload]
  rfl

/-- The page of a test is no longer than the test. -/
lemma length_page_le (test : TestPage) : test.page.data.length ≤ test.data.length :=
  Page.length_le_of_raw_mem (by simp)

end TestPage

end Liangshi
