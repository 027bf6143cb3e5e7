import Liangshi.Board.PageData

/-!
# The widget of a test

`TestBaseWidget` of `Client/src/hera`: a page that is not drawn on, with a question, answers and the
labels of the correct answers.  An answer is a board with a label.  The answers are kept as uuids, which
are saved, and as pointers, which are collected from the drawing again when the page has been loaded.
-/

namespace Liangshi

open Wire MessagePack

/-! ## Boards on a page -/

/-- The constructor of a `BanElement` with the page it shows, `data` being the data of the page. -/
def BanMembers.ofViewer (env : Surroundings) (leftTop : SPoint) (viewer : Page) (data : Bytes) :
    BanMembers :=
  BanMembers.initViewer env viewer data
    ⟨leftTop, ⟨0, 0⟩, 0, 0, SMatrix.one, SMatrix.one, 0, 0, ⟨[]⟩⟩

namespace Element

/-- `GetLabel`; `recode` is what a `std::string` becomes as a `QString`. -/
def getLabel (recode : Bytes → Bytes) (e : Element) : Bytes :=
  match e.body with
  | .banWithLabel _ label | .testBanWithLabel _ label => recode label
  | _ => []

/-- `SetLabel`, which does nothing on elements without labels. -/
def setLabel (title : Bytes) (e : Element) : Element :=
  match e.body with
  | .banWithLabel b _ => { e with body := .banWithLabel b title }
  | .testBanWithLabel b _ => { e with body := .testBanWithLabel b title }
  | _ => e

end Element

/-- The surroundings of a new board on a page: the address and the uuid of the element, the uuid of
the page it shows, and the cursor. -/
structure NewBoard where
  address : Pointer
  uuid : Bytes
  viewerUuid : Bytes
  cursor : SPoint

/-- `new BanElementWithLabel(new BanBaseWidget(true))`. -/
def NewBoard.element (env : Surroundings) (n : NewBoard) : Element :=
  let viewer := Page.new n.viewerUuid
  .new n.uuid (.banWithLabel (.ofViewer env n.cursor viewer viewer.data) [])

/-! ## The widget -/

/-- `TestBaseWidget`, with the pointers to its answers. -/
structure TestBaseWidget extends TestPage where
  answerElements : List Pointer

namespace TestBaseWidget

/-- The constructor, with the uuid that was made for the page. -/
def new (uuid : Bytes) : TestBaseWidget :=
  ⟨⟨{ Page.new uuid with disableDraw := true }, [], [], []⟩, []⟩

/-- What is done to a board that becomes the question. -/
def addQuestion (t : TestBaseWidget) (p : Pointer) (e : Element) : TestBaseWidget :=
  { t with page := t.page.addNew p e true true, questionUuid := e.objUuid }

/-- What is done to a board that becomes an answer. -/
def addAnswer (t : TestBaseWidget) (p : Pointer) (e : Element) : TestBaseWidget :=
  { t with
    page := t.page.addNew p e true true
    answerElements := t.answerElements ++ [p]
    answerUuids := t.answerUuids ++ [e.objUuid] }

/-- `AddQuestionSc`, with the elements that are loaded. -/
def addQuestionSc (t : TestBaseWidget) (elements : List (Pointer × Element)) : TestBaseWidget :=
  elements.foldl (fun t e => t.addQuestion e.1 e.2) t

/-- `AddAnswerSc`, with the elements that are loaded. -/
def addAnswerSc (t : TestBaseWidget) (elements : List (Pointer × Element)) : TestBaseWidget :=
  elements.foldl (fun t e => t.addAnswer e.1 e.2) t

/-- `NeedQuestionElement`. -/
def needQuestionElement (env : Surroundings) (t : TestBaseWidget) (n : NewBoard) : TestBaseWidget :=
  t.addQuestion n.address (n.element env)

/-- `AddAnswerElement`. -/
def addAnswerElement (env : Surroundings) (t : TestBaseWidget) (n : NewBoard) : TestBaseWidget :=
  t.addAnswer n.address (n.element env)

/-- `RemoveDrawingElementTriggered`. -/
def removeDrawingElementTriggered (t : TestBaseWidget) (p : Pointer) : TestBaseWidget :=
  match t.page.element p with
  | none => t
  | some e =>
    { t with
      questionUuid := if t.questionUuid = e.objUuid then [] else t.questionUuid
      answerUuids := t.answerUuids.filter (· ≠ e.objUuid)
      answerElements := t.answerElements.filter (· ≠ p)
      page := t.page.removeDrawingElementTriggered p }

/-- `GetAnswerLabels`: all labels, and the correct ones. -/
def getAnswerLabels (recode : Bytes → Bytes) (t : TestBaseWidget) : List Bytes × List Bytes :=
  ((t.answerElements.filterMap t.page.element).map (·.getLabel recode), t.correctLabels)

/-- `OnGetCorrectTriggered`. -/
def onGetCorrectTriggered (t : TestBaseWidget) (correct : List Bytes) : TestBaseWidget :=
  { t with correctLabels := correct }

/-- `OnTitleTriggered` of the helper of an element, with the text that is entered. -/
def onTitleTriggered (t : TestBaseWidget) (p : Pointer) (text : Bytes) : TestBaseWidget :=
  { t with page := t.page.modify p (·.setLabel text) }

/-- `OnTopMostElementTriggered`. -/
def onTopMostElementTriggered (t : TestBaseWidget) (p : Pointer) : TestBaseWidget :=
  { t with page := t.page.onTopMostElementTriggered p }

/-- `OnBottomMostElementTriggered`. -/
def onBottomMostElementTriggered (t : TestBaseWidget) (p : Pointer) : TestBaseWidget :=
  { t with page := t.page.onBottomMostElementTriggered p }

/-! ## Saving and loading -/

/-- `GetMsgPackData`: the highlighted element is no more, then the page is written. -/
def getMsgPackData (t : TestBaseWidget) : TestBaseWidget × Bytes :=
  let t := { t with page := t.page.deHighlightElement }
  (t, t.data)

/-- `SetMsgPackData`.  The pages of the data are loaded on the page, one after the other. -/
def setMsgPackData (env : Surroundings) (t : TestBaseWidget) (bytes : Bytes) :
    Except LoadFault TestBaseWidget :=
  let load (n : Nat) (page : Page) : Bytes → Except LoadFault Page :=
    page.loadWith env.quuid (fun i => env.address [i, n])
      fun i => Element.createFromType env bytes.length [i, n]
  match (unpackAll bytes).1.foldlM (TestPage.next load) (t.toTestPage, false, 0) with
  | .error fault => .error fault
  | .ok s =>
    if (unpackAll bytes).2 = .malformed then .error (.throws .unpackError)
    else .ok { t with toTestPage := s.1 }

/-- Whether an element is found to be an answer. -/
def isAnswer (t : TestBaseWidget) (p : Pointer) : Bool :=
  (t.page.element p).any fun e => e.body.isBan && t.answerUuids.contains e.objUuid

/-- `UpdateDataFromMsgPack`. -/
def updateDataFromMsgPack (t : TestBaseWidget) : TestBaseWidget :=
  { t with answerElements := t.page.drawingElements.filter t.isAnswer }

end TestBaseWidget

end Liangshi
