import Liangshi.Board.Boards
import Liangshi.Transition.System
import Mathlib.Logic.Equiv.List

/-!
# The answers of a test

The answers of a test are kept apart from the drawing: as pointers in the order they were added, as
uuids, and the correct ones by their labels.  Saving writes the uuids and the labels, and loading lists
the answers in the order of the drawing.

Removing an answer takes it off both lists of answers, but its label stays with the correct ones, and
so does the old label of one that is relabelled; moving an answer to the top or the bottom changes the
drawing alone.  In a run without such steps the correct labels are labels of answers, and a test that
is saved and loaded lists the same labels (`everyState_answersKept`).
-/

namespace Liangshi

open Wire MessagePack Transition Ordered

/-! ## Faces -/

namespace Page

variable {page page' : Page}

/-- The uuid and the class of an element, with what its class holds. -/
def face (page : Page) (p : Pointer) : Option (Bytes × ElementBody) :=
  (page.element p).map fun e => (e.objUuid, e.body)

/-- A change of an element that keeps its uuid and its body. -/
def KeepsFace (f : Element → Element) : Prop := ∀ e, (f e).objUuid = e.objUuid ∧ (f e).body = e.body

/-- The faces of a page once an element has been put at an address. -/
lemma face_setElement (page : Page) (p q : Pointer) (e : Element) :
    (page.setElement p e).face q = if p = q then some (e.objUuid, e.body) else page.face q := by
  unfold face
  rw [element_setElement]
  split_ifs <;> rfl

/-- A change that keeps the face of an element keeps all faces. -/
lemma face_modify (page : Page) (p : Pointer) {f : Element → Element} (hf : KeepsFace f)
    (q : Pointer) : (page.modify p f).face q = page.face q := by
  unfold modify
  cases hp : page.element p with
  | none => rfl
  | some e =>
    simp only [face_setElement]
    split_ifs with hq
    · rw [← hq, face, hp, Option.map_some, (hf e).1, (hf e).2]
    · rfl

/-- Showing a helper keeps the face. -/
lemma keepsFace_highlight : KeepsFace Element.highlight := by
  intro e
  unfold Element.highlight
  dsimp only
  split_ifs <;> exact ⟨rfl, rfl⟩

/-- The line attributes of the page keep the face. -/
lemma keepsFace_addProperty (page : Page) (updateProperty : Bool) :
    KeepsFace (page.addProperty updateProperty) := by
  intro e
  simp only [addProperty, Element.setLineWidth, Element.setLineStyle, Element.setLineColor]
  split_ifs <;> (try split) <;> exact ⟨rfl, rfl⟩

/-- Hiding an element without text asks for no removal and changes neither uuid nor body. -/
lemma hide_of_noText {e : Element} (h : e.body.text? = none) :
    e.hide.2 = false ∧ e.hide.1.objUuid = e.objUuid ∧ e.hide.1.body = e.body := by
  have htyped : ∀ text, e.body.typed text = e.body := by
    intro text
    cases hbody : e.body <;> first | rfl | (rw [hbody] at h; cases h)
  unfold Element.hide
  dsimp only
  split
  · exact ⟨by simp [htyped, h], rfl, htyped _⟩
  · exact ⟨rfl, rfl, rfl⟩

/-- The uuid is a part of the face. -/
lemma uuidOf_eq_face (page : Page) (p : Pointer) : page.uuidOf p = (page.face p).map (·.1) := by
  unfold uuidOf face
  rw [Option.map_map]
  rfl

/-- Where the highlighted element has no text, hiding it changes no face and draws the same. -/
lemma deHighlightElement_of_noText
    (h : ∀ p ∈ page.highlightElement, ∀ e, page.element p = some e → e.body.text? = none) :
    page.deHighlightElement.drawingElements = page.drawingElements ∧
      ∀ q, page.deHighlightElement.face q = page.face q := by
  unfold deHighlightElement
  cases hhighlight : page.highlightElement with
  | none => exact ⟨rfl, fun _ => rfl⟩
  | some p =>
    cases hp : page.element p with
    | none =>
      simp only [hide, hp]
      exact ⟨rfl, fun _ => rfl⟩
    | some e =>
      obtain ⟨hdelete, huuid, hbody⟩ := hide_of_noText (h p hhighlight e hp)
      simp only [hide, hp, hdelete]
      refine ⟨rfl, fun q => ?_⟩
      show (page.setElement p e.hide.1).face q = _
      rw [face_setElement]
      split_ifs with hq
      · rw [← hq, face, hp, huuid, hbody]
        rfl
      · rfl

end Page

/-! ## What is done to a test -/

/-- What is done to a test: boards are added as questions or answers, from files or new ones; an
element is removed, gets another label, or moves in the drawing; the correct answers are chosen; the
test is saved and opened again. -/
inductive TestEvent where
  | addQuestionSc (boards : List (Pointer × Element))
  | addAnswerSc (boards : List (Pointer × Element))
  | needQuestionElement (env : Surroundings) (board : NewBoard)
  | addAnswerElement (env : Surroundings) (board : NewBoard)
  | remove (p : Pointer)
  | title (p : Pointer) (text : Bytes)
  | getCorrect (correct : List Bytes)
  | topMost (p : Pointer)
  | bottomMost (p : Pointer)
  | reopen (env : Surroundings) (uuid : Bytes)

namespace TestBaseWidget

/-- What a test is after an event. -/
def next (t : TestBaseWidget) : TestEvent → Except LoadFault TestBaseWidget
  | .addQuestionSc boards => .ok (t.addQuestionSc boards)
  | .addAnswerSc boards => .ok (t.addAnswerSc boards)
  | .needQuestionElement env board => .ok (t.needQuestionElement env board)
  | .addAnswerElement env board => .ok (t.addAnswerElement env board)
  | .remove p => .ok (t.removeDrawingElementTriggered p)
  | .title p text => .ok (t.onTitleTriggered p text)
  | .getCorrect correct => .ok (t.onGetCorrectTriggered correct)
  | .topMost p => .ok (t.onTopMostElementTriggered p)
  | .bottomMost p => .ok (t.onBottomMostElementTriggered p)
  | .reopen env uuid => ((new uuid).setMsgPackData env t.getMsgPackData.2).map updateDataFromMsgPack

/-- Boards that are not on the page, with uuids that have not been used. -/
structure AreNew (t : TestBaseWidget) (boards : List (Pointer × Element)) : Prop where
  addresses : (boards.map (·.1)).Nodup
  uuids : (boards.map (·.2.objUuid)).Nodup
  address : ∀ b ∈ boards, b.1 ∉ t.page.allElements
  uuid : ∀ b ∈ boards, ∀ p ∈ t.page.allElements, t.page.uuidOf p ≠ some b.2.objUuid
  answerUuid : ∀ b ∈ boards, b.2.objUuid ∉ t.answerUuids

/-- The events that can happen to a test.  The correct answers are chosen from the labels that are
listed, and addresses are not used twice. -/
def Allowed (recode : Bytes → Bytes) (t : TestBaseWidget) : TestEvent → Prop
  | .addQuestionSc boards | .addAnswerSc boards => t.AreNew boards ∧
    ∃ env bytes accepted, BanFile.loadScElements env true bytes = .ok (accepted, boards.map (·.2))
  | .needQuestionElement env board | .addAnswerElement env board =>
    t.AreNew [(board.address, board.element env)]
  | .remove p | .title p _ | .topMost p | .bottomMost p => p ∈ t.page.allElements
  | .getCorrect correct => correct ⊆ (t.getAnswerLabels recode).1
  | .reopen env _ => Function.Injective env.address ∧ t.getMsgPackData.2.length < 2 ^ 32

/-- The life of a test. -/
def system (recode : Bytes → Bytes) : System TestBaseWidget TestEvent where
  init t := ∃ uuid, t = new uuid
  step t event t' := t.Allowed recode event ∧ t.next event = .ok t'

/-- The correct labels are labels of answers, and a test that loads what this one saves lists the same
answers. -/
structure AnswersKept (recode : Bytes → Bytes) (t : TestBaseWidget) : Prop where
  correct : t.correctLabels ⊆ (t.getAnswerLabels recode).1
  loaded : ∀ (env : Surroundings) (t' : TestBaseWidget), Function.Injective env.address →
    t.getMsgPackData.2.length < 2 ^ 32 →
    ∃ loaded, t'.setMsgPackData env t.getMsgPackData.2 = .ok loaded ∧
      loaded.updateDataFromMsgPack.getAnswerLabels recode = t.getAnswerLabels recode

/-- The label of an element. -/
def label (recode : Bytes → Bytes) (t : TestBaseWidget) (p : Pointer) : Option Bytes :=
  (t.page.element p).map (·.getLabel recode)

/-- Another answer has a label. -/
def HasOther (recode : Bytes → Bytes) (t : TestBaseWidget) (p : Pointer) (label : Bytes) : Prop :=
  ∃ q ∈ t.answerElements, q ≠ p ∧ t.label recode q = some label

/-- The steps that keep the answers: what is removed or gets another label has no correct label of its
own, only the last answer is moved to the top and only the first one to the bottom, and the boards of
files hold pages that can be loaded again. -/
def KeepsAnswers (recode : Bytes → Bytes) (t : TestBaseWidget) : TestEvent → Prop
  | .addQuestionSc boards | .addAnswerSc boards => ∀ b ∈ boards, b.2.PageReopens
  | .remove p => ∀ label ∈ t.correctLabels, t.HasOther recode p label
  | .title p text => ∀ label ∈ t.correctLabels,
    (p ∈ t.answerElements ∧ recode text = label) ∨ t.HasOther recode p label
  | .topMost p => p ∈ t.answerElements → t.answerElements.getLast? = some p
  | .bottomMost p => p ∈ t.answerElements → t.answerElements.head? = some p
  | _ => True

/-! ## The invariant -/

/-- The page of a test is consistent and full of boards, and its answers are listed as they are
drawn. -/
structure Kept (recode : Bytes → Bytes) (t : TestBaseWidget) : Prop where
  settled : t.page.Settled
  boards : ∀ p ∈ t.page.allElements, ∀ e, t.page.element p = some e → e.Board
  answers : t.page.drawingElements.filter t.isAnswer = t.answerElements
  correct : t.correctLabels ⊆ (t.getAnswerLabels recode).1

variable {recode : Bytes → Bytes} {t t' : TestBaseWidget} {p q : Pointer}

/-- Answers are told by their faces. -/
lemma isAnswer_eq (t : TestBaseWidget) (p : Pointer) :
    t.isAnswer p = (t.page.face p).any fun f => f.2.isBan && t.answerUuids.contains f.1 := by
  unfold isAnswer Page.face
  cases t.page.element p <;> rfl

/-- Labels are part of the faces. -/
lemma label_eq (h : t'.page.face q = t.page.face p) : t'.label recode q = t.label recode p := by
  unfold Page.face at h
  unfold label
  cases hp : t.page.element p with
  | none =>
    rw [hp] at h
    rw [Option.map_eq_none_iff.mp h]
  | some e =>
    rw [hp] at h
    obtain ⟨e', he', hface⟩ := Option.map_eq_some_iff.mp h
    have hbody : e'.body = e.body := congrArg Prod.snd hface
    rw [he', Option.map_some, Option.map_some, Element.getLabel, Element.getLabel, hbody]

/-- The labels are those of the answers. -/
lemma mem_labels {text : Bytes} : text ∈ (t.getAnswerLabels recode).1 ↔
    ∃ q ∈ t.answerElements, t.label recode q = some text := by
  simp only [getAnswerLabels, List.map_filterMap, List.mem_filterMap]
  rfl

/-- An element that is a board with the same face on another page. -/
lemma board_of_face {page page' : Page} (h : page'.face q = page.face p)
    (hboard : ∀ e, page.element p = some e → e.Board) {e : Element}
    (he : page'.element q = some e) : e.Board := by
  rw [Page.face, he, Option.map_some, eq_comm] at h
  obtain ⟨e', he', hface⟩ := Option.map_eq_some_iff.mp h
  exact (hboard e' he').of_body (congrArg Prod.snd hface.symm)

/-- The highlighted element of a page of boards has no text. -/
lemma Kept.noText (h : t.Kept recode) :
    ∀ p ∈ t.page.highlightElement, ∀ e, t.page.element p = some e → e.body.text? = none := by
  intro p hp e he
  obtain ⟨test, data, label, hboard, -⟩ :=
    h.boards p (h.settled.drawn p (h.settled.highlighted p hp)) e he
  exact Element.text?_of_board hboard

/-- An answer is drawn. -/
lemma Kept.drawn (h : t.Kept recode) (hp : p ∈ t.answerElements) : p ∈ t.page.drawingElements := by
  rw [← h.answers] at hp
  exact List.mem_of_mem_filter hp

/-! ## Adding boards -/

/-- What adding a new element does to a page of boards. -/
lemma Kept.addNew (h : t.Kept recode) {e : Element} (hp : p ∉ t.page.allElements)
    (huuid : ∀ q ∈ t.page.allElements, t.page.uuidOf q ≠ some e.objUuid) :
    (t.page.addNew p e true true).Settled ∧
      (∀ q, q ∈ (t.page.addNew p e true true).allElements ↔ q = p ∨ q ∈ t.page.allElements) ∧
      (t.page.addNew p e true true).drawingElements = t.page.drawingElements ++ [p] ∧
      ∀ q, (t.page.addNew p e true true).face q =
        if p = q then some (e.objUuid, e.body) else t.page.face q := by
  have hother : ∀ q ∈ t.page.allElements, p ≠ q := fun q hq heq => hp (heq ▸ hq)
  have hdrawn : p ∉ t.page.drawingElements := fun hmem => hp (h.settled.drawn p hmem)
  have hset : ∀ q ∈ t.page.allElements, (t.page.setElement p e).element q = t.page.element q :=
    fun q hq => by rw [Page.element_setElement, if_neg (hother q hq)]
  have hnoText : ∀ q ∈ (t.page.setElement p e).highlightElement, ∀ e',
      (t.page.setElement p e).element q = some e' → e'.body.text? = none := fun q hq e' he' => by
    rw [hset q (h.settled.drawn q (h.settled.highlighted q hq))] at he'
    exact h.noText q hq e' he'
  obtain ⟨hdrawing, hface⟩ := Page.deHighlightElement_of_noText hnoText
  have hlive : ((t.page.setElement p e).element p).isSome := by
    rw [Page.element_setElement, if_pos rfl]
    rfl
  have hundone : (t.page.setElement p e).redoing = true → p ∉ (t.page.setElement p e).undos :=
    fun _ hmem => hp (h.settled.undone p hmem)
  obtain ⟨-, -, hsettled⟩ :=
    (h.settled.setElement hp e).addElement hlive hdrawn hundone true true
  obtain ⟨mid, hsimilar, -, heq⟩ := (t.page.setElement p e).addElement_eq p true true
  refine ⟨hsettled fun q hq heq => absurd heq ?_, fun q => ?_, ?_, fun q => ?_⟩
  · rw [Page.uuidOf, hset q hq, Page.uuidOf, Page.element_setElement, if_pos rfl]
    exact huuid q hq
  · rw [Page.addNew, heq, OrderedSet.mem_insert, hsimilar.allElements_eq,
      Page.allElements_deHighlightElement]
    rfl
  · rw [Page.addNew, heq, hsimilar.drawingElements_eq, hdrawing]
    rfl
  · show (((t.page.setElement p e).deHighlightElement.modify p _).modify p _).face q = _
    rw [Page.face_modify _ _ Page.keepsFace_highlight,
      Page.face_modify _ _ (Page.keepsFace_addProperty _ true), hface, Page.face_setElement]

/-- A board is added, and maybe listed as an answer. -/
structure Adds (t t' : TestBaseWidget) (b : Pointer × Element) : Prop where
  page : t'.page = t.page.addNew b.1 b.2 true true
  correct : t'.correctLabels = t.correctLabels
  answers : (t'.answerElements = t.answerElements ∧ t'.answerUuids = t.answerUuids) ∨
    (t'.answerElements = t.answerElements ++ [b.1] ∧
      t'.answerUuids = t.answerUuids ++ [b.2.objUuid])

/-- A board is added as a question. -/
lemma adds_addQuestion (t : TestBaseWidget) (b : Pointer × Element) :
    t.Adds (t.addQuestion b.1 b.2) b := ⟨rfl, rfl, .inl ⟨rfl, rfl⟩⟩

/-- A board is added as an answer. -/
lemma adds_addAnswer (t : TestBaseWidget) (b : Pointer × Element) :
    t.Adds (t.addAnswer b.1 b.2) b := ⟨rfl, rfl, .inr ⟨rfl, rfl⟩⟩

/-- The first one of new boards is new. -/
lemma AreNew.first {b : Pointer × Element} {boards : List (Pointer × Element)}
    (hnew : t.AreNew (b :: boards)) : t.AreNew [b] := by
  refine ⟨List.nodup_singleton _, List.nodup_singleton _, ?_, ?_, ?_⟩
  all_goals
    intro b' hb'
    rw [List.mem_singleton.mp hb']
  exacts [hnew.address b List.mem_cons_self, hnew.uuid b List.mem_cons_self,
    hnew.answerUuid b List.mem_cons_self]

/-- Boards behind a new one are new to the test that has it. -/
lemma AreNew.others {b : Pointer × Element} {boards : List (Pointer × Element)}
    (hnew : t.AreNew (b :: boards)) (h : t.Kept recode) (hadds : t.Adds t' b) : t'.AreNew boards := by
  obtain ⟨-, hall, -, hface⟩ := h.addNew (e := b.2) (hnew.address b List.mem_cons_self)
    (hnew.uuid b List.mem_cons_self)
  rw [← hadds.page] at hall hface
  obtain ⟨haddress, haddresses⟩ := List.nodup_cons.mp hnew.addresses
  obtain ⟨huuid, huuids⟩ := List.nodup_cons.mp hnew.uuids
  refine ⟨haddresses, huuids, fun b' hb' hmem => ?_, fun b' hb' q hq heq => ?_, fun b' hb' hmem => ?_⟩
  · obtain heq | hold := (hall b'.1).mp hmem
    · exact haddress (List.mem_map.mpr ⟨b', hb', heq⟩)
    · exact hnew.address b' (List.mem_cons_of_mem _ hb') hold
  · rw [Page.uuidOf_eq_face, hface] at heq
    split_ifs at heq with hb
    · have huuid' : b.2.objUuid = b'.2.objUuid := Option.some.inj heq
      exact huuid (List.mem_map.mpr ⟨b', hb', huuid'.symm⟩)
    · obtain rfl | hold := (hall q).mp hq
      · exact hb rfl
      · rw [← Page.uuidOf_eq_face] at heq
        exact hnew.uuid b' (List.mem_cons_of_mem _ hb') q hold heq
  · have hunused := hnew.answerUuid b' (List.mem_cons_of_mem _ hb')
    obtain ⟨-, heq⟩ | ⟨-, heq⟩ := hadds.answers
    · exact hunused (heq ▸ hmem)
    · rw [heq] at hmem
      rcases List.mem_append.mp hmem with hold | hlast
      · exact hunused hold
      · exact huuid (List.mem_map.mpr ⟨b', hb', List.mem_singleton.mp hlast⟩)

/-- A board more keeps the invariant. -/
lemma Kept.add (h : t.Kept recode) {e : Element} (hnew : t.AreNew [(p, e)]) (hboard : e.Board)
    (hadds : t.Adds t' (p, e)) : t'.Kept recode := by
  obtain ⟨hpage, hcorrect, hanswers⟩ := hadds
  have hmem : (p, e) ∈ [(p, e)] := List.mem_singleton_self _
  have hp : p ∉ t.page.allElements := hnew.address _ hmem
  obtain ⟨hsettled, hall, hdrawing, hface⟩ := h.addNew (e := e) hp (hnew.uuid _ hmem)
  rw [← hpage] at hsettled hall hdrawing hface
  have hfaceOld : ∀ q ∈ t.page.allElements, t'.page.face q = t.page.face q := fun q hq => by
    have hne : p ≠ q := fun heq => hp (heq ▸ hq)
    rw [hface, if_neg hne]
  have hfaceNew : t'.page.face p = some (e.objUuid, e.body) := by rw [hface, if_pos rfl]
  -- An answer stays an answer: the new uuid is none of the old ones.
  have hanswerOld : ∀ q ∈ t.page.drawingElements, t'.isAnswer q = t.isAnswer q := by
    intro q hq
    have hq' := h.settled.drawn q hq
    rw [isAnswer_eq, isAnswer_eq, hfaceOld q hq']
    cases hf : t.page.face q with
    | none => rfl
    | some f =>
      have hne : f.1 ≠ e.objUuid := by
        intro heq
        obtain ⟨d, hd, rfl⟩ := Option.map_eq_some_iff.mp hf
        refine hnew.uuid _ hmem q hq' ?_
        rw [Page.uuidOf, hd, ← heq]
        rfl
      obtain ⟨-, huuids⟩ | ⟨-, huuids⟩ := hanswers <;> simp [huuids, hne]
  obtain ⟨test, data, label, hsome, -⟩ := id hboard
  have hban : e.body.isBan = true := Element.isBan_of_board hsome
  refine ⟨hsettled, fun q hq d hd => ?_, ?_, fun text htext => ?_⟩
  · obtain rfl | hq := (hall q).mp hq
    · rw [Page.face, hd, Option.map_some, Option.some_inj] at hfaceNew
      exact hboard.of_body (congrArg Prod.snd hfaceNew)
    · exact board_of_face (hfaceOld q hq) (h.boards q hq) hd
  · rw [hdrawing, List.filter_append, List.filter_congr hanswerOld, h.answers]
    have hnewAnswer : t'.isAnswer p = t'.answerUuids.contains e.objUuid := by
      rw [isAnswer_eq, hfaceNew, Option.any_some, hban, Bool.true_and]
    have hunused : e.objUuid ∉ t.answerUuids := hnew.answerUuid _ hmem
    obtain ⟨helements, huuids⟩ | ⟨helements, huuids⟩ := hanswers
    · simp [hnewAnswer, huuids, hunused, helements]
    · simp [hnewAnswer, huuids, helements]
  · rw [hcorrect] at htext
    obtain ⟨q, hq, hlabel⟩ := mem_labels.mp (h.correct htext)
    refine mem_labels.mpr ⟨q, ?_, ?_⟩
    · obtain ⟨helements, -⟩ | ⟨helements, -⟩ := hanswers
      · rwa [helements]
      · rw [helements]
        exact List.mem_append_left _ hq
    · rw [label_eq (hfaceOld q (h.settled.drawn q (h.drawn hq))), hlabel]

/-- Boards more keep the invariant. -/
lemma Kept.addAll {add : TestBaseWidget → Pointer × Element → TestBaseWidget}
    (hadd : ∀ t b, Adds t (add t b) b) {boards : List (Pointer × Element)} (h : t.Kept recode)
    (hnew : t.AreNew boards) (hboards : ∀ b ∈ boards, b.2.Board) :
    (boards.foldl add t).Kept recode := by
  induction boards generalizing t with
  | nil => exact h
  | cons b boards ih =>
    obtain ⟨hboard, hothers⟩ := List.forall_mem_cons.mp hboards
    exact ih (h.add hnew.first hboard (hadd t b)) (hnew.others h (hadd t b)) hothers

/-! ## Removing, moving and relabelling -/

/-- What a page draws after an element is taken out. -/
lemma drawingElements_takeOut (page : Page) (p : Pointer) :
    (page.takeOut p).drawingElements = page.drawingElements.erase p := by
  unfold Page.takeOut
  split_ifs with hp
  · rfl
  · exact (List.erase_of_not_mem hp).symm

/-- A test whose page has the same faces keeps the invariant when its answers are listed as they are
drawn and the correct ones are among them. -/
lemma Kept.of_face (h : t.Kept recode) (hsettled : t'.page.Settled)
    (hall : t'.page.allElements = t.page.allElements)
    (hface : ∀ q, t'.page.face q = t.page.face q)
    (hanswers : t'.page.drawingElements.filter t'.isAnswer = t'.answerElements)
    (hcorrect : ∀ text ∈ t'.correctLabels, ∃ q ∈ t'.answerElements, t.label recode q = some text) :
    t'.Kept recode := by
  refine ⟨hsettled, fun q hq e he => ?_, hanswers, fun text htext => ?_⟩
  · rw [hall] at hq
    exact board_of_face (hface q) (h.boards q hq) he
  · obtain ⟨q, hq, hlabel⟩ := hcorrect text htext
    exact mem_labels.mpr ⟨q, hq, (label_eq (hface q)).trans hlabel⟩

/-- With the same faces and uuids the same elements are answers. -/
lemma isAnswer_congr (hface : ∀ q, t'.page.face q = t.page.face q)
    (huuids : t'.answerUuids = t.answerUuids) : t'.isAnswer = t.isAnswer := by
  funext q
  rw [isAnswer_eq, isAnswer_eq, hface, huuids]

/-- The correct labels are labels of answers. -/
lemma Kept.hasLabel (h : t.Kept recode) :
    ∀ text ∈ t.correctLabels, ∃ q ∈ t.answerElements, t.label recode q = some text :=
  fun _ htext => mem_labels.mp (h.correct htext)

/-- Hiding the highlighted element keeps the invariant. -/
lemma Kept.deHighlightElement (h : t.Kept recode) :
    Kept recode { t with page := t.page.deHighlightElement } ∧
      getAnswerLabels recode { t with page := t.page.deHighlightElement } =
        t.getAnswerLabels recode := by
  obtain ⟨hdrawing, hface⟩ := Page.deHighlightElement_of_noText h.noText
  refine ⟨h.of_face h.settled.deHighlightElement (Page.allElements_deHighlightElement _) hface ?_
    h.hasLabel, ?_⟩
  · have hanswer : isAnswer { t with page := t.page.deHighlightElement } = t.isAnswer :=
      isAnswer_congr hface rfl
    show t.page.deHighlightElement.drawingElements.filter _ = _
    rw [hanswer, hdrawing, h.answers]
  · have hlabel : ∀ q, label recode { t with page := t.page.deHighlightElement } q =
        t.label recode q := fun q => label_eq (hface q)
    have hlabels := List.filterMap_congr (l := t.answerElements) fun q _ => hlabel q
    simp only [getAnswerLabels, List.map_filterMap]
    exact congrArg (·, t.correctLabels) hlabels

/-- Removing an element keeps the invariant when every correct label is carried by another answer. -/
lemma Kept.remove (h : t.Kept recode) (hp : p ∈ t.page.allElements)
    (hcorrect : ∀ text ∈ t.correctLabels, t.HasOther recode p text) :
    (t.removeDrawingElementTriggered p).Kept recode := by
  obtain ⟨e, he⟩ := Option.isSome_iff_exists.mp (h.settled.live p hp)
  obtain ⟨hdrawing, hface⟩ := Page.deHighlightElement_of_noText h.noText
  have hface' : ∀ q, (t.page.removeDrawingElementTriggered p).face q = t.page.face q := fun q => by
    rw [← hface, Page.removeDrawingElementTriggered, Page.face, Page.element_takeOut]
    rfl
  simp only [removeDrawingElementTriggered, he]
  refine h.of_face (h.settled.removeDrawingElementTriggered p) ?_ hface' ?_ fun text htext => ?_
  · show ((t.page.deHighlightElement).takeOut p).allElements = _
    simp
  · show ((t.page.deHighlightElement).takeOut p).drawingElements.filter _ = t.answerElements.filter _
    rw [drawingElements_takeOut, hdrawing, h.settled.nodup.erase_eq_filter, ← h.answers,
      List.filter_filter, List.filter_filter]
    refine List.filter_congr fun q hq => ?_
    by_cases hqp : q = p
    · simp [hqp]
    · -- The uuid that is dropped is not the one of another element.
      rw [isAnswer_eq, isAnswer_eq]
      show (((t.page.removeDrawingElementTriggered p).face q).any _ && _) = _
      rw [hface']
      cases hf : t.page.face q with
      | none => simp
      | some f =>
        have hne : f.1 ≠ e.objUuid := fun heq => hqp (h.settled.uuids q (h.settled.drawn q hq) p hp (by
          rw [Page.uuidOf_eq_face, hf, Page.uuidOf, he, Option.map_some, Option.map_some, heq]))
        simp [hqp, hne]
  · obtain ⟨q, hq, hne, hlabel⟩ := hcorrect text htext
    exact ⟨q, List.mem_filter.mpr ⟨hq, by simpa using hne⟩, hlabel⟩

/-- A drawing in another order keeps the invariant when the answers stay in theirs. -/
lemma Kept.reorder {drawing : List Pointer} (h : t.Kept recode)
    (hsettled : { t.page with drawingElements := drawing }.Settled)
    (hanswers : drawing.filter t.isAnswer = t.answerElements) :
    ({ t with page := { t.page with drawingElements := drawing } } : TestBaseWidget).Kept recode := by
  refine h.of_face hsettled rfl (fun q => rfl) ?_ h.hasLabel
  rw [isAnswer_congr (fun q => rfl) rfl]
  exact hanswers

/-- A drawn element is an answer exactly when it is listed as one. -/
lemma Kept.isAnswer_iff (h : t.Kept recode) (hp : p ∈ t.page.drawingElements) :
    t.isAnswer p = true ↔ p ∈ t.answerElements := by
  rw [← h.answers, List.mem_filter]
  exact ⟨fun hanswer => ⟨hp, hanswer⟩, And.right⟩

/-- Moving an element to the top keeps the invariant when it is the last answer or none. -/
lemma Kept.topMost (h : t.Kept recode)
    (hlast : p ∈ t.answerElements → t.answerElements.getLast? = some p) :
    (t.onTopMostElementTriggered p).Kept recode := by
  have hsettled := h.settled.onTopMostElementTriggered p
  unfold onTopMostElementTriggered
  unfold Page.onTopMostElementTriggered at hsettled ⊢
  by_cases hp : p ∈ t.page.drawingElements
  · rw [if_pos hp] at hsettled ⊢
    refine h.reorder hsettled ?_
    rw [List.filter_append, ← List.erase_filter, h.answers]
    by_cases hmem : p ∈ t.answerElements
    · obtain ⟨front, hfront⟩ := List.getLast?_eq_some_iff.mp (hlast hmem)
      have hnodup : t.answerElements.Nodup := h.answers ▸ h.settled.nodup.filter t.isAnswer
      rw [hfront, List.nodup_append] at hnodup
      have hnotFront : p ∉ front := fun hin =>
        hnodup.2.2 p hin p (List.mem_singleton_self p) rfl
      rw [List.filter_cons_of_pos ((h.isAnswer_iff hp).mpr hmem), List.filter_nil, hfront,
        List.erase_append_right _ hnotFront, List.erase_cons_head, List.append_nil]
    · rw [List.filter_cons_of_neg (mt (h.isAnswer_iff hp).mp hmem), List.filter_nil, List.append_nil,
        List.erase_of_not_mem hmem]
  · rwa [if_neg hp]

/-- Moving an element to the bottom keeps the invariant when it is the first answer or none. -/
lemma Kept.bottomMost (h : t.Kept recode)
    (hfirst : p ∈ t.answerElements → t.answerElements.head? = some p) :
    (t.onBottomMostElementTriggered p).Kept recode := by
  have hsettled := h.settled.onBottomMostElementTriggered p
  unfold onBottomMostElementTriggered
  unfold Page.onBottomMostElementTriggered at hsettled ⊢
  by_cases hp : p ∈ t.page.drawingElements
  · rw [if_pos hp] at hsettled ⊢
    refine h.reorder hsettled ?_
    by_cases hmem : p ∈ t.answerElements
    · obtain ⟨others, hothers⟩ := List.head?_eq_some_iff.mp (hfirst hmem)
      rw [List.filter_cons_of_pos ((h.isAnswer_iff hp).mpr hmem), ← List.erase_filter, h.answers,
        hothers, List.erase_cons_head]
    · rw [List.filter_cons_of_neg (mt (h.isAnswer_iff hp).mp hmem), ← List.erase_filter, h.answers,
        List.erase_of_not_mem hmem]
  · rwa [if_neg hp]

/-- Another label for an element keeps the invariant when it is a correct one of its own or every
correct label is carried by another answer. -/
lemma Kept.title (h : t.Kept recode) (hp : p ∈ t.page.allElements) {text : Bytes}
    (hcorrect : ∀ label ∈ t.correctLabels,
      (p ∈ t.answerElements ∧ recode text = label) ∨ t.HasOther recode p label) :
    (t.onTitleTriggered p text).Kept recode := by
  obtain ⟨e, he⟩ := Option.isSome_iff_exists.mp (h.settled.live p hp)
  obtain ⟨test, data, old, hboard, hreopens⟩ := h.boards p hp e he
  have hpage : (t.onTitleTriggered p text).page = t.page.setElement p (e.setLabel text) := by
    simp only [onTitleTriggered, Page.modify, he]
  have hother : ∀ q, p ≠ q → (t.onTitleTriggered p text).page.face q = t.page.face q := fun q hq => by
    rw [hpage, Page.face_setElement, if_neg hq]
  have hboard' := Element.board?_setLabel text hboard
  have hanswer : (t.onTitleTriggered p text).isAnswer = t.isAnswer := by
    funext q
    rw [isAnswer_eq, isAnswer_eq]
    by_cases hq : p = q
    · rw [hpage, Page.face_setElement, if_pos hq, ← hq, Page.face, he, Option.map_some,
        Option.any_some, Option.any_some, Element.isBan_of_board hboard',
        Element.isBan_of_board hboard, Element.objUuid_setLabel]
      rfl
    · rw [hother q hq]
      rfl
  refine ⟨h.settled.modify p (Element.objUuid_setLabel text), fun q hq d hd => ?_, ?_,
    fun correct hmem => ?_⟩
  · by_cases hqp : p = q
    · rw [hpage, Page.element_setElement, if_pos hqp] at hd
      exact Option.some.inj hd ▸ ⟨test, data, text, hboard', hreopens⟩
    · rw [hpage] at hq
      exact board_of_face (hother q hqp) (h.boards q hq) hd
  · rw [hanswer, hpage]
    exact h.answers
  · rw [mem_labels]
    obtain ⟨hanswers, hrecode⟩ | ⟨q, hq, hne, hlabel⟩ := hcorrect correct hmem
    · refine ⟨p, hanswers, ?_⟩
      rw [label, hpage, Page.element_setElement, if_pos rfl, Option.map_some,
        Element.getLabel_of_board recode hboard', hrecode]
    · exact ⟨q, hq, (label_eq (hother q hne.symm)).trans hlabel⟩

end TestBaseWidget

/-! ## Saving and loading -/

namespace TestBaseWidget

variable {recode : Bytes → Bytes} {t : TestBaseWidget}

/-- A test loads the record and the page of another one. -/
lemma setMsgPackData_data {env : Surroundings} (t' : TestBaseWidget) {page : Page}
    (hlength : t.data.length < 2 ^ 32)
    (hload : t'.page.loadWith env.quuid (fun i => env.address [i, 0])
      (fun i => Element.createFromType env t.data.length [i, 0]) t.page.data = .ok page) :
    t'.setMsgPackData env t.data =
      .ok { t with page, answerElements := t'.answerElements } := by
  unfold setMsgPackData
  rw [TestPage.unpackAll_data hlength]
  dsimp only
  rw [TestPage.foldlM_objects hlength hload]
  rfl

/-- Whether an element is an answer by its class and its uuid. -/
def listed (uuids : List Bytes) (e : Element) : Bool := e.body.isBan && uuids.contains e.objUuid

/-- The labels of the answers as they are drawn. -/
lemma labels_eq_shown (h : t.page.drawingElements.filter t.isAnswer = t.answerElements) :
    (t.getAnswerLabels recode).1 =
      (t.page.shown.filter (listed t.answerUuids)).map (·.getLabel recode) := by
  rw [getAnswerLabels, ← h, Page.shown, List.filterMap_filter, List.filter_filterMap]
  refine congrArg (List.map _) (List.filterMap_congr fun p _ => ?_)
  unfold isAnswer
  cases t.page.element p <;> rfl

/-- The same boards have the same labels. -/
lemma labels_eq_of_sameBoard (uuids : List Bytes) {es es' : List Element}
    (h : List.Forall₂ Element.SameBoard es es') :
    (es'.filter (listed uuids)).map (·.getLabel recode) =
      (es.filter (listed uuids)).map (·.getLabel recode) := by
  induction h with
  | nil => rfl
  | @cons e e' es es' hsame _ ih =>
    obtain ⟨huuid, test, data, data', label, hboard, hboard', -⟩ := id hsame
    have hlisted : listed uuids e' = listed uuids e := by
      rw [listed, listed, Element.isBan_of_board hboard, Element.isBan_of_board hboard', huuid]
    rw [List.filter_cons, List.filter_cons, hlisted]
    split_ifs
    · rw [List.map_cons, List.map_cons, hsame.getLabel recode, ih]
    · exact ih

/-- What a test saves is loaded: the answers are the same, and the loaded test keeps the invariant. -/
lemma Kept.load (h : t.Kept recode) {env : Surroundings} (t' : TestBaseWidget)
    (hinjective : Function.Injective env.address) (hlength : t.data.length < 2 ^ 32) :
    ∃ loaded, t'.setMsgPackData env t.data = .ok loaded ∧
      loaded.updateDataFromMsgPack.Kept recode ∧
      loaded.updateDataFromMsgPack.getAnswerLabels recode = t.getAnswerLabels recode := by
  have hmem : .raw t.page.data ∈ [Obj.raw t.thisObj.pack, .raw t.page.data] := by simp
  have hpage : t.page.data.length ≤ t.data.length := Page.length_le_of_raw_mem hmem
  have haddress : Function.Injective fun i => env.address [i, 0] := fun i j hij =>
    (List.cons.inj (hinjective hij)).1
  have hboards : ∀ e ∈ t.page.shown, e.Board := by
    intro e he
    obtain ⟨p, hp, hpe⟩ := List.mem_filterMap.mp he
    exact h.boards p (h.settled.drawn p hp) e hpe
  have hcreate : ∀ e ∈ t.page.shown, ∀ n, ∃ e', Element.createFromType env t.data.length [n, 0]
      e.getType.toInt e.getMsgPackData = .ok (some e') ∧ e.SameBoard e' := by
    intro e he n
    have hrecord := Page.length_record_le he
    exact Element.createFromType_board [n, 0] (hboards e he) hinjective (by omega) (by omega)
  obtain ⟨page, hload, hall, hsettled, hdrawn⟩ := Page.loadWith_boards env.quuid t'.page haddress
    (hpage.trans_lt hlength) h.settled hcreate
  refine ⟨_, setMsgPackData_data t' hlength hload, ?_⟩
  have hlabels : (getAnswerLabels recode (updateDataFromMsgPack
      { t with page, answerElements := t'.answerElements })).1 = (t.getAnswerLabels recode).1 := by
    rw [labels_eq_shown rfl, labels_eq_shown h.answers]
    exact labels_eq_of_sameBoard t.answerUuids hall
  refine ⟨⟨hsettled, fun p hp e he => ?_, rfl, ?_⟩, Prod.ext hlabels rfl⟩
  · have hshown : e ∈ page.shown := List.mem_filterMap.mpr ⟨p, hdrawn p hp, he⟩
    obtain ⟨i, hi, rfl⟩ := List.getElem_of_mem hshown
    have hsame := (List.forall₂_iff_get.mp hall).2 i (hall.length_eq ▸ hi) hi
    exact hsame.board
  · rw [hlabels]
    exact h.correct

/-- A test that keeps the invariant keeps its answers. -/
lemma Kept.answersKept (h : t.Kept recode) : t.AnswersKept recode := by
  obtain ⟨hkept, hlabels⟩ := h.deHighlightElement
  refine ⟨h.correct, fun env t' hinjective hlength => ?_⟩
  obtain ⟨loaded, hload, -, hloaded⟩ := hkept.load t' hinjective hlength
  exact ⟨loaded, hload, hloaded.trans hlabels⟩

/-! ## Runs -/

/-- A new test keeps the invariant. -/
lemma kept_new (recode : Bytes → Bytes) (uuid : Bytes) : (new uuid).Kept recode := by
  refine ⟨Page.settled_of_empty rfl rfl rfl rfl, fun p hp => ?_, rfl, List.nil_subset _⟩
  have hnone : p ∉ (new uuid).page.allElements := OrderedSet.not_mem_empty p
  exact absurd hp hnone

/-- A new board can be loaded again. -/
lemma board_newBoard (env : Surroundings) (board : NewBoard) : (board.element env).Board := by
  refine ⟨false, (Page.new board.viewerUuid).data, [], ?_, reopens_new _⟩
  have hdata : (BanMembers.ofViewer env board.cursor (.new board.viewerUuid)
      (Page.new board.viewerUuid).data).data.data = (Page.new board.viewerUuid).data :=
    LokiBuffer.data_ofData _
  show some (false, _, _) = _
  rw [hdata]

/-- The boards of a file that reopen are boards. -/
lemma board_of_file {env : FileSurroundings} {bytes : Bytes} {accepted : Bool}
    {boards : List (Pointer × Element)}
    (h : BanFile.loadScElements env true bytes = .ok (accepted, boards.map (·.2)))
    (hreopens : ∀ b ∈ boards, b.2.PageReopens) : ∀ b ∈ boards, b.2.Board := by
  intro b hb
  obtain ⟨⟨test, data, label⟩, hboard⟩ := Option.isSome_iff_exists.mp
    (BanFile.board?_of_loadScElements h b.2 (List.mem_map_of_mem hb))
  exact ⟨test, data, label, hboard, hreopens b hb test data label hboard⟩

/-- A step that keeps the answers keeps the invariant. -/
lemma Kept.step (h : t.Kept recode) {event : TestEvent} {t' : TestBaseWidget}
    (hkeeps : t.KeepsAnswers recode event) (hstep : (system recode).step t event t') :
    t'.Kept recode := by
  obtain ⟨hallowed, hnext⟩ := hstep
  cases event with
  | addQuestionSc boards =>
    obtain rfl := Except.ok.inj hnext
    obtain ⟨hnew, env, bytes, accepted, hfile⟩ := hallowed
    exact h.addAll (fun t b => t.adds_addQuestion b) hnew (board_of_file hfile hkeeps)
  | addAnswerSc boards =>
    obtain rfl := Except.ok.inj hnext
    obtain ⟨hnew, env, bytes, accepted, hfile⟩ := hallowed
    exact h.addAll (fun t b => t.adds_addAnswer b) hnew (board_of_file hfile hkeeps)
  | needQuestionElement env board =>
    obtain rfl := Except.ok.inj hnext
    exact h.add hallowed (board_newBoard env board) (t.adds_addQuestion (_, _))
  | addAnswerElement env board =>
    obtain rfl := Except.ok.inj hnext
    exact h.add hallowed (board_newBoard env board) (t.adds_addAnswer (_, _))
  | remove p =>
    obtain rfl := Except.ok.inj hnext
    exact h.remove hallowed hkeeps
  | title p text =>
    obtain rfl := Except.ok.inj hnext
    exact h.title hallowed hkeeps
  | getCorrect correct =>
    obtain rfl := Except.ok.inj hnext
    exact ⟨h.settled, h.boards, h.answers, hallowed⟩
  | topMost p =>
    obtain rfl := Except.ok.inj hnext
    exact h.topMost hkeeps
  | bottomMost p =>
    obtain rfl := Except.ok.inj hnext
    exact h.bottomMost hkeeps
  | reopen env uuid =>
    obtain ⟨hinjective, hlength⟩ := hallowed
    obtain ⟨loaded, hload, hloaded, -⟩ := h.deHighlightElement.1.load (new uuid) hinjective hlength
    obtain ⟨loaded', hload', rfl⟩ := map_eq_ok.mp hnext
    obtain rfl := Except.ok.inj (hload.symm.trans hload')
    exact hloaded

/-- In a run of steps that keep the answers, the correct labels are always labels of answers, and what
is saved loads as a test with the same answers. -/
theorem everyState_answersKept (recode : Bytes → Bytes) (uuid : Bytes) (events : List TestEvent)
    (h : (system recode).EveryStep (KeepsAnswers recode) (new uuid) events) :
    (system recode).EveryState (AnswersKept recode) (new uuid) events := by
  have hkept : (system recode).EveryState (Kept recode) (new uuid) events :=
    h.everyState (kept_new recode uuid) fun _ _ _ hkept hkeeps hstep => hkept.step hkeeps hstep
  intro first others t hevents hrun
  exact (hkept first others t hevents hrun).answersKept

/-- Surroundings in which nothing is painted. -/
def blankSurroundings : Surroundings :=
  ⟨⟨0, false⟩, ⟨fun _ _ => 0, fun i _ => i⟩, id, fun _ => (⟨0, 0⟩, 0, 0), fun _ => [], Encodable.encode⟩

/-- A board at the address 7. -/
def firstBoard : NewBoard := ⟨7, [1], [2], ⟨0, 0⟩⟩

/-- A board at the address 8. -/
def secondBoard : NewBoard := ⟨8, [3], [4], ⟨0, 50⟩⟩

/-- Two answers with the labels `"A"` and `"B"`, of which `"B"` is correct: the other one is moved to the
bottom and removed, and the test is saved and opened again. -/
theorem everyState_answersKept_twoAnswers :
    (system id).EveryState (AnswersKept id) (new [])
      [.addAnswerElement blankSurroundings firstBoard, .title 7 [0x41],
        .addAnswerElement blankSurroundings secondBoard, .title 8 [0x42], .getCorrect [[0x42]],
        .bottomMost 7, .remove 7, .reopen blankSurroundings [5], .getCorrect [[0x42]]] := by
  refine everyState_answersKept id [] _ (.cons trivial ?_)
  rintro t ⟨-, ht⟩
  obtain rfl := Except.ok.inj ht
  refine .cons (fun _ hmem => absurd hmem List.not_mem_nil) ?_
  rintro t ⟨-, ht⟩
  obtain rfl := Except.ok.inj ht
  refine .cons trivial ?_
  rintro t ⟨-, ht⟩
  obtain rfl := Except.ok.inj ht
  refine .cons (fun _ hmem => absurd hmem List.not_mem_nil) ?_
  rintro t ⟨-, ht⟩
  obtain rfl := Except.ok.inj ht
  refine .cons trivial ?_
  rintro t ⟨-, ht⟩
  obtain rfl := Except.ok.inj ht
  refine .cons (fun _ => rfl) ?_
  rintro t ⟨-, ht⟩
  obtain rfl := Except.ok.inj ht
  refine .cons ?_ ?_
  · intro label hlabel
    obtain rfl := List.mem_singleton.mp hlabel
    exact ⟨8, by decide +kernel, by decide, by decide +kernel⟩
  rintro t ⟨-, ht⟩
  obtain rfl := Except.ok.inj ht
  exact .cons trivial fun t _ => .cons trivial fun t' _ => .nil t'

/-- A correct label outlives its answer. -/
theorem not_answersKept_removed : ¬ ∀ (recode : Bytes → Bytes) (uuid : Bytes)
    (events : List TestEvent), (system recode).EveryState (AnswersKept recode) (new uuid) events := by
  intro h
  let t₁ := (new []).addAnswerElement blankSurroundings firstBoard
  let t₂ := t₁.onTitleTriggered 7 [0x41]
  let t₃ := t₂.onGetCorrectTriggered [[0x41]]
  have hadd : (system id).step (new []) (.addAnswerElement blankSurroundings firstBoard) t₁ :=
    ⟨⟨List.nodup_singleton _, List.nodup_singleton _, by simp [new, Page.new],
      by simp [new, Page.new], by simp [new]⟩, rfl⟩
  have hlisted : (t₂.getAnswerLabels id).1 = [[0x41]] := by decide +kernel
  have htitle : (system id).step t₁ (.title 7 [0x41]) t₂ :=
    ⟨show 7 ∈ t₁.page.allElements by decide +kernel, rfl⟩
  have hcorrect : (system id).step t₂ (.getCorrect [[0x41]]) t₃ := ⟨hlisted ▸ fun _ h => h, rfl⟩
  have hremove : (system id).step t₃ (.remove 7) (t₃.removeDrawingElementTriggered 7) :=
    ⟨show 7 ∈ t₃.page.allElements by decide +kernel, rfl⟩
  have hrun := ((((System.Run.nil (new [])).snoc hadd).snoc htitle).snoc hcorrect).snoc hremove
  have hkept := h id [] _ _ [] _ (List.append_nil _).symm hrun
  have hlabels : (getAnswerLabels id (t₃.removeDrawingElementTriggered 7)).1 = [] := by
    decide +kernel
  have hmem := hkept.correct (List.mem_singleton_self ([0x41] : Bytes))
  rw [hlabels] at hmem
  exact List.not_mem_nil hmem

end TestBaseWidget

end Liangshi
