import Liangshi.Live.ClassBoards
import Liangshi.Live.DrawnPage

/-!
# What the holder of a board sends

`AddActionTriggered` sends what the pages of a live board emit: an action as it is, the record of an element
that is shown, and the data of a page that is switched to (`Posting`).  What is sent while the holder works
leads a participant that takes it in from the drawing before to the drawing after (`LiveBoard.Tended.sends`),
and a page that is shown is brought to everybody (`LiveBoard.Tended.brings`).  `OnBoardDataTriggered` does to
a page what it is told (`LiveBoard.takes`).

The import of pages with a background is not sent.
-/

namespace Liangshi

open Wire MessagePack Ordered Transition

/-! ## What is emitted -/

/-- The kinds of actions that a page and its helpers emit. -/
def AnimationKind.IsLocal : AnimationKind → Prop
  | .switchPage | .networkShow .. | .networkSwitchPage _ => False
  | _ => True

namespace Page

variable {page page' : Page} {p : Pointer} {kind : AnimationKind} {a : AnimationAction} {e : PageEvent}

/-- The element that is shown at an event. -/
def shownBy (page : Page) : PageEvent → Option Pointer
  | .addNew p _ _ _ => some p
  | .redo => if page.disableDraw then none else page.undos.getLast?
  | _ => none

/-- An action on an element is of its kind, and has the uuid of the element. -/
lemma of_mem_signal (h : a ∈ page.signal p kind) :
    a.kind = kind ∧ page.uuidOf p = some a.targetElementUuid := by
  unfold signal at h
  split at h
  · rename_i e he
    obtain rfl := List.mem_singleton.mp h
    exact ⟨rfl, by rw [uuidOf, he]; rfl⟩
  · cases h

/-- Ending the highlight tells of hidden elements only. -/
lemma kind_of_mem_deHighlightSignals (h : a ∈ page.deHighlightSignals) : a.kind = .hide := by
  unfold deHighlightSignals at h
  split at h
  · cases h
  · split_ifs at h
    · exact (of_mem_signal h).1
    · cases h

/-- Removing an element tells of hidden elements only. -/
lemma kind_of_mem_removeSignals (h : a ∈ page.removeSignals p) : a.kind = .hide := by
  rcases List.mem_append.mp h with h | h
  · exact kind_of_mem_deHighlightSignals h
  · exact (of_mem_signal h).1

/-- Hiding a helper tells of hidden elements only. -/
lemma kind_of_mem_unhighlightSignals (h : a ∈ page.unhighlightSignals p) : a.kind = .hide := by
  unfold unhighlightSignals at h
  split_ifs at h
  · exact kind_of_mem_removeSignals h
  · cases h

/-- Selecting an element tells of hidden elements only. -/
lemma kind_of_mem_highlightLoopSignals {hit : Element → Bool} {s : Page × Bool} {ps : List Pointer}
    (h : a ∈ highlightLoopSignals hit s ps) : a.kind = .hide := by
  induction ps generalizing s with
  | nil => cases h
  | cons p ps ih =>
    rcases List.mem_append.mp h with h | h
    · unfold highlightNextSignals at h
      split_ifs at h
      · cases h
      · exact kind_of_mem_unhighlightSignals h
      · cases h
    · exact ih h

/-- A change of a line attribute tells of that attribute only. -/
lemma kind_of_mem_lineSignals (h : a ∈ page.lineSignals kind) : a.kind = kind := by
  unfold lineSignals at h
  split at h
  · cases h
  · split_ifs at h
    · cases h
    · exact (of_mem_signal h).1

/-- What a live page emits when an element is added. -/
lemma of_mem_addElementSignals {updateProperty : Bool}
    (h : a ∈ page.addElementSignals false p updateProperty) :
    a.kind = .hide ∨ a.kind = .show ∧ page.uuidOf p = some a.targetElementUuid := by
  rw [addElementSignals, Bool.and_false, if_neg Bool.false_ne_true, List.append_nil] at h
  rcases List.mem_append.mp h with h | h
  · exact .inl (kind_of_mem_deHighlightSignals h)
  · exact .inr (of_mem_signal h)

/-- An element has the uuid that it had before it was added. -/
lemma uuidOf_addElement (page : Page) (p q : Pointer) (updateProperty highlight : Bool) :
    (page.addElement p updateProperty highlight true).uuidOf q = page.uuidOf q := by
  obtain ⟨mid, hsimilar, -, heq⟩ := page.addElement_eq p updateProperty highlight
  rw [heq]
  exact (hsimilar.uuidOf_eq q).trans (uuidOf_deHighlightElement page q)

/-- What a live page emits at an event of its user: no switches and nothing of the network, and where it
shows an element, the one that is added or redone. -/
lemma of_mem_signals (hnext : page.next e = some page') (h : a ∈ page.signals false e) :
    a.kind.IsLocal ∧ (a.kind = .show → (page.shownBy e).bind page'.uuidOf = some a.targetElementUuid) := by
  have hkind : ∀ kind : AnimationKind, a.kind = kind → kind.IsLocal → kind ≠ .show →
      a.kind.IsLocal ∧ (a.kind = .show → (page.shownBy e).bind page'.uuidOf = some a.targetElementUuid) := by
    rintro _ rfl hlocal hne
    exact ⟨hlocal, fun hshow => absurd hshow hne⟩
  have hadd : a.kind = .hide ∨ a.kind = .show ∧
      (page.shownBy e).bind page'.uuidOf = some a.targetElementUuid →
      a.kind.IsLocal ∧ (a.kind = .show → (page.shownBy e).bind page'.uuidOf = some a.targetElementUuid) := by
    rintro (hhide | ⟨hshow, huuid⟩)
    · exact hkind .hide hhide trivial (by simp)
    · rw [hshow]
      exact ⟨trivial, fun _ => huuid⟩
  cases e with
  | addNew p e updateProperty highlight =>
    obtain rfl := Option.some.inj hnext
    refine hadd ((of_mem_addElementSignals h).imp_right fun ⟨hshow, huuid⟩ => ⟨hshow, ?_⟩)
    exact (uuidOf_addElement _ p p updateProperty highlight).trans huuid
  | redo =>
    obtain rfl := Option.some.inj hnext
    replace h : a ∈ page.redoSignals false := h
    unfold redoSignals at h
    split_ifs at h with hlocked
    · cases h
    · cases hlast : page.undos.getLast? with
      | none =>
        rw [hlast] at h
        cases h
      | some p =>
        rw [hlast] at h
        refine hadd ((of_mem_addElementSignals h).imp_right fun ⟨hshow, huuid⟩ => ⟨hshow, ?_⟩)
        simp only [shownBy, onRedoTriggered, hlocked, if_false, hlast, Option.bind_some, Bool.false_eq_true]
        exact (uuidOf_addElement _ p p false true).trans huuid
  | delete p => exact hkind .hide (kind_of_mem_removeSignals h) trivial (by simp)
  | undo =>
    replace h : a ∈ page.undoSignals := h
    unfold undoSignals at h
    split_ifs at h
    · cases h
    · split at h
      · exact hkind .hide (kind_of_mem_removeSignals h) trivial (by simp)
      · cases h
  | topMost p => exact hkind .topMost (of_mem_signal h).1 trivial (by simp)
  | bottomMost p => exact hkind .bottomMost (of_mem_signal h).1 trivial (by simp)
  | copy =>
    simp only [signals] at h
    split at h
    · exact hkind .hide (kind_of_mem_unhighlightSignals h) trivial (by simp)
    · cases h
  | select hit =>
    rcases List.mem_append.mp h with h | h
    · exact hkind .hide (kind_of_mem_deHighlightSignals h) trivial (by simp)
    · exact hkind .hide (kind_of_mem_highlightLoopSignals h) trivial (by simp)
  | setMode =>
    simp only [signals] at h
    split_ifs at h
    · cases h
    · exact hkind .hide (kind_of_mem_deHighlightSignals h) trivial (by simp)
  | setEnable enable => exact hkind .hide (kind_of_mem_deHighlightSignals h) trivial (by simp)
  | save => exact hkind .hide (kind_of_mem_deHighlightSignals h) trivial (by simp)
  | lineWidth width all => exact hkind (.lineWidth width) (kind_of_mem_lineSignals h) trivial (by simp)
  | lineStyle style all => exact hkind (.lineStyle style) (kind_of_mem_lineSignals h) trivial (by simp)
  | lineColor color all => exact hkind (.lineColor color) (kind_of_mem_lineSignals h) trivial (by simp)
  | _ => cases h

end Page

/-! ## What is sent -/

/-- What the holder of the board sends: an action as it is, the element of a `ShowAction`, or the page that
is switched to. -/
inductive Posting where
  | action (a : AnimationAction)
  | element (e : Element)
  | switch (page : Page)

namespace Posting

/-- The action that is packed.  A `NetworkShowAction` has no uuids, and no time yet. -/
def animation (machine : BoardMachine) : Posting → AnimationAction
  | .action a => a
  | .element e => ⟨[], [], machine.uninitialised.int,
      .networkShow e.getType.toInt (.ofData (machine.zip e.getMsgPackData)), false⟩
  | .switch page => page.switchAction machine

/-- The board data with its record. -/
def boardData (machine : BoardMachine) (posting : Posting) : LokiBuffer :=
  (BoardData.mk (posting.animation machine).getType.toInt
    (.ofData (posting.animation machine).getMsgPackData)).getMsgPackData machine.uninitialised

/-- What a participant that takes it in is told about the drawing. -/
def update : Posting → Update DrawnPage (Option (Rearrangement Bytes))
  | .action a => .change a.rearrangement?
  | .element e => .change (some (.show e.objUuid))
  | .switch page => .snapshot page.getMsgPackData.1.drawnPage

/-- The record of the element or of the page. -/
def record : Posting → Bytes
  | .action _ => []
  | .element e => e.getMsgPackData
  | .switch page => page.getMsgPackData.2

/-- Records that are packed with 32 bits for their lengths. -/
structure Fits (machine : BoardMachine) (posting : Posting) : Prop where
  record : posting.record.length < 2 ^ 32
  animation : (posting.animation machine).getMsgPackData.length < 2 ^ 32

/-- What is in it: no action that stands for another one, and a settled page. -/
def Proper (machine : BoardMachine) : Posting → Prop
  | .action a => a.kind.IsLocal ∧ a.kind ≠ .show
  | .element _ => True
  | .switch page => page.Settled ∧ machine.quuid page.uuid = page.uuid

end Posting

/-- Work that shows a page, which is then sent as a whole. -/
def LiveEvent.ShowsPage : LiveEvent → Prop
  | .newPage _ | .selectPage _ | .insertPixmapBackground _ => True
  | _ => False

namespace LiveBoard

/-- `AddActionTriggered`, for an action with its element. -/
def addActionTriggered (board : LiveBoard) (a : AnimationAction) (element : Option Element) :
    Option Posting :=
  if board.controlingBoard then
    match a.kind with
    | .show => element.map .element
    | .switchPage => some (.switch board.current)
    | _ => some (.action a)
  else
    none

/-- What is sent for the actions that a page emits. -/
def posts (board : LiveBoard) (actions : List AnimationAction) (element : Option Element) :
    List Posting :=
  actions.filterMap fun a => board.addActionTriggered a element

/-- What `SendSwitchPageAnimation` sends.  The data of the page are made first, and that hides what is
highlighted. -/
def switchPosts (board : LiveBoard) : List Posting :=
  board.posts (board.current.signals false .save) none ++
    board.posts [⟨board.current.uuid, [], 0, .switchPage, false⟩] none

/-- The mode and the line attributes that a page gets when it is selected. -/
def attributes (board : LiveBoard) : List PageEvent :=
  PageEvent.attributes board.cachedWidth board.cachedStyle board.cachedColor

/-- What `OnSelectPageTriggered` sends. -/
def selectPosts (board : LiveBoard) (i : Nat) : List Posting :=
  if h : i < board.allPages.length then
    match (board.allPages.get ⟨i, h⟩).nextAll false board.attributes with
    | some (page, actions) => board.posts actions none ++ (board.showPage i page h).switchPosts
    | none => []
  else
    []

/-- What is sent while the holder works on the pages.  A page that has just been made emits nothing. -/
def sent (board : LiveBoard) : LiveEvent → List Posting
  | .newPage env => (board.appendPage (board.newPage env)).switchPosts
  | .previousPage =>
    if board.currentPageIndex = 0 then [] else board.selectPosts (board.currentPageIndex - 1)
  | .nextPage =>
    if board.allPages.length - 1 ≤ board.currentPageIndex then []
    else board.selectPosts (board.currentPageIndex + 1)
  | .selectPage page => board.selectPosts page
  | .lineWidth width => board.posts (board.current.signals false (.lineWidth width false)) none
  | .lineStyle style => board.posts (board.current.signals false (.lineStyle style false)) none
  | .lineColor color => board.posts (board.current.signals false (.lineColor color false)) none
  | .insertPixmapBackground image =>
    if board.controlingBoard then
      (board.setCurrent { board.current with backgroundImage := image }).switchPosts
    else []
  | .edit e _ =>
    match board.current.next e with
    | some page => board.posts (board.current.signals false e) ((board.current.shownBy e).bind page.element)
    | none => []
  | .newPageWithBackground _ _ | .pageSizeChange _ => []
  | .command _ _ | .socketError | .answerApplication _ | .takeBoard => []

/-- Work that is sent and goes well: an operation of the user is about elements of the page, an element
that is added has a uuid and an address of its own, and a page that is made has a uuid of `QUuid`. -/
def Admits (machine : BoardMachine) (board : LiveBoard) : LiveEvent → Prop
  | .edit e _ => Page.IsOperation e ∧ board.current.Targets e ∧ board.current.Allocates e ∧
      board.current.ProceedsWell e
  | .newPage env => machine.quuid (env.newUuid []) = env.newUuid []
  | .newPageWithBackground _ _ => False
  | e => e.isWork = true

end LiveBoard

/-! ## What the holder sends -/

/-- A page of the holder: it is settled, no redo is going on, and `QUuid` writes its uuid. -/
structure Page.Tended (machine : BoardMachine) (page : Page) : Prop where
  settled : page.Settled
  redoing : page.redoing = false
  quuid : machine.quuid page.uuid = page.uuid

/-- What is sent leads the others from one page to another. -/
def Carries (v : DrawnPage) (postings : List Posting) (w : DrawnPage) : Prop :=
  ∀ (P : DrawnPage → Prop) us, Leads drawnPages P us v →
    Leads drawnPages P (us ++ postings.map Posting.update) w

/-- What is sent brings the others a page, whatever they show. -/
def Brings (postings : List Posting) (w : DrawnPage) : Prop :=
  ∀ (P : DrawnPage → Prop) us, Leads drawnPages P (us ++ postings.map Posting.update) w

variable {machine : BoardMachine}

/-- What brings a page leads to it from any other one. -/
lemma Brings.carries {postings : List Posting} {v w : DrawnPage} (h : Brings postings w) :
    Carries v postings w := fun P us _ => h P us

/-- Nothing leads from a page to itself. -/
lemma carries_nil (v : DrawnPage) : Carries v [] v := fun P us h => by
  rwa [List.map_nil, List.append_nil]

namespace Page

variable {page page' : Page} {a : AnimationAction}

/-- A page that tells what it does stays tended. -/
lemma Tended.tells (h : page.Tended machine) {actions : List AnimationAction}
    (htells : Tells page actions page') (hsettled : page'.Settled ∧ page'.redoing = false) :
    page'.Tended machine := by
  refine ⟨hsettled.1, hsettled.2, ?_⟩
  rw [uuid_of_own htells.own]
  exact h.quuid

/-- What a page emits when it gets its attributes: no switches and nothing that is shown. -/
lemma of_mem_nextAll {es : List PageEvent} (hes : ∀ e ∈ es, ∀ page : Page, page.shownBy e = none)
    {actions : List AnimationAction} (hnext : page.nextAll false es = some (page', actions))
    (h : a ∈ actions) : a.kind.IsLocal ∧ a.kind ≠ .show := by
  induction es generalizing page actions with
  | nil =>
    obtain ⟨-, rfl⟩ := Prod.mk.inj (Option.some.inj hnext)
    cases h
  | cons e es ih =>
    obtain ⟨hfirst, hothers⟩ := List.forall_mem_cons.mp hes
    simp only [nextAll, Option.bind_eq_bind, Option.bind_eq_some_iff] at hnext
    obtain ⟨mid, hmid, ⟨last, others⟩, hlast, heq⟩ := hnext
    obtain ⟨rfl, rfl⟩ := Prod.mk.inj (Option.some.inj heq)
    rcases List.mem_append.mp h with h | h
    · obtain ⟨hlocal, hshow⟩ := of_mem_signals hmid h
      refine ⟨hlocal, fun hkind => ?_⟩
      have huuid := hshow hkind
      rw [hfirst page] at huuid
      cases huuid
    · exact ih hothers hlast h

end Page

namespace LiveBoard

variable {board : LiveBoard} {actions : List AnimationAction} {element : Option Element}

/-- Actions with their elements, that are sent as they are or with the record of the element. -/
def Sendable (actions : List AnimationAction) (element : Option Element) : Prop :=
  ∀ a ∈ actions, a.kind.IsLocal ∧ (a.kind = .show → element.map (·.objUuid) = some a.targetElementUuid)

/-- What is sent for an action tells the others what the action does to the drawing. -/
lemma exists_addActionTriggered (machine : BoardMachine) (hcontrols : board.controlingBoard = true) {a : AnimationAction}
    (hlocal : a.kind.IsLocal)
    (hshow : a.kind = .show → element.map (·.objUuid) = some a.targetElementUuid) :
    ∃ posting, board.addActionTriggered a element = some posting ∧ posting.Proper machine ∧
      posting.update = .change a.rearrangement? := by
  obtain ⟨sc, uuid, time, kind, played⟩ := a
  unfold addActionTriggered
  rw [if_pos hcontrols]
  cases kind with
  | «show» =>
    obtain ⟨e, rfl, huuid⟩ := Option.map_eq_some_iff.mp (hshow rfl)
    exact ⟨.element e, rfl, trivial, by rw [Posting.update, huuid]; rfl⟩
  | switchPage | networkShow | networkSwitchPage => exact hlocal.elim
  | _ => exact ⟨_, rfl, ⟨trivial, by simp⟩, rfl⟩

/-- What is sent for actions tells the others what the actions do to the drawing. -/
lemma posts_spec (machine : BoardMachine) (hcontrols : board.controlingBoard = true)
    (h : Sendable actions element) :
    (∀ posting ∈ board.posts actions element, posting.Proper machine) ∧
      (board.posts actions element).map Posting.update =
        (actions.map (·.rearrangement?)).map .change := by
  induction actions with
  | nil => exact ⟨List.forall_mem_nil _, rfl⟩
  | cons a actions ih =>
    obtain ⟨⟨hlocal, hshow⟩, hothers⟩ := List.forall_mem_cons.mp h
    obtain ⟨posting, hposting, hproper, hupdate⟩ :=
      exists_addActionTriggered machine hcontrols hlocal hshow
    obtain ⟨hpropers, hupdates⟩ := ih hothers
    have hposts : board.posts (a :: actions) element = posting :: board.posts actions element :=
      List.filterMap_cons_some hposting
    rw [hposts]
    refine ⟨List.forall_mem_cons.mpr ⟨hproper, hpropers⟩, ?_⟩
    rw [List.map_cons, hupdate, hupdates]
    rfl

/-- What is sent for the actions that a page tells leads the others to its drawing. -/
lemma carries_posts (machine : BoardMachine) (hcontrols : board.controlingBoard = true)
    (h : Sendable actions element) {page page' : Page} (htells : Page.Tells page actions page') :
    Carries page.drawnPage (board.posts actions element) page'.drawnPage := by
  intro P us hleads
  rw [(posts_spec machine hcontrols h).2]
  exact hleads.run htells.run

/-- Actions that show nothing are sent without an element. -/
lemma sendable_of_forall (h : ∀ a ∈ actions, a.kind.IsLocal ∧ a.kind ≠ .show) :
    Sendable actions element := fun a ha => ⟨(h a ha).1, fun hshow => absurd hshow (h a ha).2⟩

/-- A page that is sent is brought to the others. -/
lemma switchPosts_spec (hcontrols : board.controlingBoard = true) (h : board.current.Tended machine) :
    (∀ posting ∈ board.switchPosts, posting.Proper machine) ∧
      ∀ postings, Brings (postings ++ board.switchPosts) board.sendSwitchPageAnimation.current.drawnPage := by
  have hsave : Sendable (board.current.signals false .save) none := by
    refine sendable_of_forall fun a ha => ?_
    rw [Page.kind_of_mem_deHighlightSignals ha]
    exact ⟨trivial, by simp⟩
  have hswitch : board.posts [⟨board.current.uuid, [], 0, .switchPage, false⟩] none =
      [.switch board.current] := by
    simp [posts, addActionTriggered, hcontrols]
  have hcurrent : board.sendSwitchPageAnimation.current = board.current.getMsgPackData.1 := by
    rw [sendSwitchPageAnimation, if_pos hcontrols, setCurrent, current_showPage]
  refine ⟨fun posting hposting => ?_, fun postings P us => ?_⟩
  · rcases List.mem_append.mp hposting with hposting | hposting
    · exact (posts_spec machine hcontrols hsave).1 posting hposting
    · rw [hswitch] at hposting
      obtain rfl := List.mem_singleton.mp hposting
      exact ⟨h.settled, h.quuid⟩
  · rw [hcurrent, switchPosts, hswitch, ← List.append_assoc, List.map_append]
    exact Leads.updates_snapshot _ _ _

/-! ## Work of the holder -/

/-- A board that is held, with tended pages. -/
structure Tended (machine : BoardMachine) (board : LiveBoard) : Prop where
  controls : board.controlingBoard = true
  pages : ∀ page ∈ board.allPages, page.Tended machine

/-- The page that is shown is tended. -/
lemma Tended.current (h : board.Tended machine) : board.current.Tended machine :=
  h.pages _ (List.get_mem _ _)

/-- A board comes to another one while that is sent. -/
structure Sends (machine : BoardMachine) (board : LiveBoard) (postings : List Posting)
    (board' : LiveBoard) : Prop where
  tended : board'.Tended machine
  proper : ∀ posting ∈ postings, posting.Proper machine
  carries : Carries board.current.drawnPage postings board'.current.drawnPage

/-- A tended page is put in a place and shown. -/
lemma Tended.showPage (h : board.Tended machine) {i : Nat} (hi : i < board.allPages.length) {page : Page}
    (hpage : page.Tended machine) : (board.showPage i page hi).Tended machine := by
  refine ⟨h.controls, fun other hother => ?_⟩
  rcases List.mem_or_eq_of_mem_set hother with hother | rfl
  · exact h.pages other hother
  · exact hpage

/-- The page that is shown tells what it does. -/
lemma Tended.sends_setCurrent (h : board.Tended machine) {page : Page} (hsendable : Sendable actions element)
    (htells : Page.Tells board.current actions page) (hsettled : page.Settled ∧ page.redoing = false) :
    Sends machine board (board.posts actions element) (board.setCurrent page) where
  tended := h.showPage _ (h.current.tells htells hsettled)
  proper := (posts_spec machine h.controls hsendable).1
  carries := by
    rw [setCurrent, current_showPage]
    exact carries_posts machine h.controls hsendable htells

/-- A page that is sent stays tended. -/
lemma Tended.sendSwitchPageAnimation (h : board.Tended machine) :
    board.sendSwitchPageAnimation.Tended machine := by
  have hpage : board.current.getMsgPackData.1.Tended machine :=
    h.current.tells h.current.settled.tells_deHighlightElement
      ⟨h.current.settled.deHighlightElement,
        (Page.redoing_deHighlightElement board.current).trans h.current.redoing⟩
  rw [LiveBoard.sendSwitchPageAnimation, if_pos h.controls]
  exact h.showPage _ hpage

/-- A page is shown and sent. -/
lemma Tended.sends_switch {shown : LiveBoard} (h : shown.Tended machine) (postings : List Posting)
    (hproper : ∀ posting ∈ postings, posting.Proper machine) :
    Sends machine board (postings ++ shown.switchPosts) shown.sendSwitchPageAnimation where
  tended := h.sendSwitchPageAnimation
  proper posting hposting := by
    rcases List.mem_append.mp hposting with hposting | hposting
    · exact hproper posting hposting
    · exact (switchPosts_spec h.controls h.current).1 posting hposting
  carries := ((switchPosts_spec h.controls h.current).2 postings).carries

/-- What a page gets when it is shown. -/
lemma exists_nextAll_attributes (board : LiveBoard) {page : Page} (h : page.Tended machine) :
    ∃ actions, page.nextAll false board.attributes = some (board.setAttributes page, actions) ∧
      (board.setAttributes page).Tended machine ∧ ∀ a ∈ actions, a.kind.IsLocal ∧ a.kind ≠ .show := by
  obtain ⟨actions, hnext⟩ : ∃ actions,
      page.nextAll false board.attributes = some (board.setAttributes page, actions) := ⟨_, rfl⟩
  obtain ⟨htells, hsettled⟩ :=
    h.settled.tells_nextAll h.redoing (fun e he => Page.of_mem_attributes he) hnext
  refine ⟨actions, hnext, h.tells htells hsettled, fun a ha => Page.of_mem_nextAll (fun e he page => ?_) hnext ha⟩
  simp only [attributes, PageEvent.attributes, List.mem_cons, List.not_mem_nil, or_false] at he
  rcases he with rfl | rfl | rfl | rfl <;> rfl

/-- A page is selected: it gets its attributes, is shown, and is sent. -/
lemma Tended.onSelectPageTriggered (h : board.Tended machine) {i : Nat} {board' : LiveBoard}
    (hselect : board.onSelectPageTriggered i = some board') :
    Sends machine board (board.selectPosts i) board' ∧ Brings (board.selectPosts i) board'.current.drawnPage := by
  unfold LiveBoard.onSelectPageTriggered at hselect
  split_ifs at hselect with hi
  obtain rfl := Option.some.inj hselect
  have hpage := h.pages _ (List.get_mem board.allPages ⟨i, hi⟩)
  obtain ⟨actions, hnext, htended, hactions⟩ := exists_nextAll_attributes board hpage
  let shown := { board.showPage i (board.setAttributes (board.allPages.get ⟨i, hi⟩)) hi with
    currentPageIndex := i }
  have htended' := h.showPage hi htended
  have hshown : shown.Tended machine := ⟨htended'.controls, htended'.pages⟩
  have hposts : board.selectPosts i = board.posts actions none ++ shown.switchPosts := by
    rw [selectPosts, dif_pos hi, hnext]
    rfl
  rw [hposts]
  exact ⟨hshown.sends_switch _ (posts_spec machine h.controls (sendable_of_forall hactions)).1,
    (switchPosts_spec hshown.controls hshown.current).2 _⟩

/-- A page that is made is tended. -/
lemma tended_newPage (board : LiveBoard) (env : Surroundings)
    (huuid : machine.quuid (env.newUuid []) = env.newUuid []) :
    (board.newPage env).Tended machine := by
  have hnew : Page.Tended machine { Page.new (env.newUuid []) with elementMatrix := board.elementMatrix } :=
    ⟨Page.settled_of_empty rfl rfl rfl rfl, rfl, huuid⟩
  obtain ⟨actions, -, htended, -⟩ := exists_nextAll_attributes board hnew
  exact htended

/-- A tended page is put behind the others. -/
lemma Tended.appendPage (h : board.Tended machine) {page : Page} (hpage : page.Tended machine) :
    (board.appendPage page).Tended machine := by
  refine ⟨h.controls, fun other hother => ?_⟩
  rcases List.mem_append.mp hother with hother | hother
  · exact h.pages other hother
  · rw [List.mem_singleton.mp hother]
    exact hpage

/-- A line attribute is set on the page that is shown, and kept. -/
lemma Tended.sends_line (h : board.Tended machine) {e : PageEvent} (hoperation : Page.IsOperation e)
    (hfree : ∀ page : Page, page.Targets e ∧ page.Allocates e ∧ page.ProceedsWell e)
    (hshown : ∀ page : Page, page.shownBy e = none) {page : Page} (hnext : board.current.next e = some page) :
    Sends machine board (board.posts (board.current.signals false e) none) (board.setCurrent page) := by
  obtain ⟨htargets, hallocates, hwell⟩ := hfree board.current
  refine h.sends_setCurrent (sendable_of_forall fun a ha => ?_)
    (Page.tells_next h.current.settled hoperation htargets hallocates hwell hnext)
    (h.current.settled.next h.current.redoing hallocates hwell hnext)
  obtain ⟨hlocal, hshow⟩ := Page.of_mem_signals hnext ha
  refine ⟨hlocal, fun hkind => ?_⟩
  have huuid := hshow hkind
  rw [hshown] at huuid
  cases huuid

/-- What the holder sends while it works leads the others to what it shows then. -/
lemma Tended.sends (h : board.Tended machine) {client : LokiClient} {e : LiveEvent}
    (hadmits : board.Admits machine e) {t : LivePages}
    (hnext : LivePages.next machine.unzip ⟨client, board⟩ e = some t) :
    Sends machine board (board.sent e) t.board := by
  have hstays : Sends machine board [] board := ⟨h, List.forall_mem_nil _, carries_nil _⟩
  have hselect : ∀ {i : Nat} {f : LiveBoard → LivePages}, (∀ board, (f board).board = board) →
      (board.onSelectPageTriggered i).map f = some t → Sends machine board (board.selectPosts i) t.board := by
    intro i f hf hmap
    obtain ⟨board', hboard, rfl⟩ := Option.map_eq_some_iff.mp hmap
    rw [hf]
    exact (h.onSelectPageTriggered hboard).1
  cases e with
  | command | socketError | answerApplication | takeBoard => cases hadmits
  | newPageWithBackground => exact hadmits.elim
  | newPage env =>
    obtain rfl := Option.some.inj hnext
    exact (h.appendPage (tended_newPage board env hadmits)).sends_switch [] (List.forall_mem_nil _)
  | selectPage page => exact hselect (fun _ => rfl) hnext
  | previousPage =>
    unfold LivePages.next LiveBoard.onPreviousPageTriggered at hnext
    unfold sent
    dsimp only at hnext ⊢
    split_ifs at hnext ⊢
    · obtain rfl := Option.some.inj hnext
      exact hstays
    · exact hselect (fun _ => rfl) hnext
  | nextPage =>
    unfold LivePages.next LiveBoard.onNextPageTriggered at hnext
    unfold sent
    dsimp only at hnext ⊢
    split_ifs at hnext ⊢
    · obtain rfl := Option.some.inj hnext
      exact hstays
    · exact hselect (fun _ => rfl) hnext
  | lineWidth width =>
    obtain rfl := Option.some.inj hnext
    have hline := h.sends_line (e := .lineWidth width false) trivial
      (fun _ => ⟨trivial, trivial, trivial⟩) (fun _ => rfl) rfl
    exact ⟨⟨hline.tended.controls, hline.tended.pages⟩, hline.proper, hline.carries⟩
  | lineStyle style =>
    obtain rfl := Option.some.inj hnext
    have hline := h.sends_line (e := .lineStyle style false) trivial
      (fun _ => ⟨trivial, trivial, trivial⟩) (fun _ => rfl) rfl
    exact ⟨⟨hline.tended.controls, hline.tended.pages⟩, hline.proper, hline.carries⟩
  | lineColor color =>
    obtain rfl := Option.some.inj hnext
    have hline := h.sends_line (e := .lineColor color false) trivial
      (fun _ => ⟨trivial, trivial, trivial⟩) (fun _ => rfl) rfl
    exact ⟨⟨hline.tended.controls, hline.tended.pages⟩, hline.proper, hline.carries⟩
  | insertPixmapBackground image =>
    obtain rfl := Option.some.inj hnext
    have hpage : Page.Tended machine { board.current with backgroundImage := image } :=
      ⟨h.current.settled.of_attributes rfl rfl rfl rfl rfl rfl, h.current.redoing, h.current.quuid⟩
    simp only [sent, LiveBoard.onInsertPixmapBackgroundTriggered, if_pos h.controls]
    exact (h.showPage _ hpage).sends_switch [] (List.forall_mem_nil _)
  | pageSizeChange matrix =>
    obtain rfl := Option.some.inj hnext
    refine ⟨⟨h.controls, fun page hpage => ?_⟩, List.forall_mem_nil _, ?_⟩
    · obtain ⟨other, hother, rfl⟩ := List.mem_map.mp hpage
      have htended := h.pages other hother
      exact ⟨htended.settled.of_attributes rfl rfl rfl rfl rfl rfl, htended.redoing, htended.quuid⟩
    · have hcurrent : (board.onPageSizeChange matrix).current =
          { board.current with elementMatrix := matrix } := by
        simp [LiveBoard.current, LiveBoard.onPageSizeChange]
      dsimp only
      rw [hcurrent]
      exact carries_nil _
  | edit e isEdit =>
    obtain ⟨hoperation, htargets, hallocates, hwell⟩ := hadmits
    obtain ⟨page, hpage, rfl⟩ := Option.map_eq_some_iff.mp hnext
    have hsent : board.sent (.edit e isEdit) = board.posts (board.current.signals false e)
        ((board.current.shownBy e).bind page.element) := by
      simp only [sent]
      dsimp only at hpage
      rw [hpage]
    rw [hsent]
    refine h.sends_setCurrent (fun a ha => ?_)
      (Page.tells_next h.current.settled hoperation htargets hallocates hwell hpage)
      (h.current.settled.next h.current.redoing hallocates hwell hpage)
    obtain ⟨hlocal, hshow⟩ := Page.of_mem_signals hpage ha
    refine ⟨hlocal, fun hkind => ?_⟩
    rw [← hshow hkind, Option.map_bind]
    rfl

/-- A page that is shown is brought to the others. -/
lemma Tended.brings (h : board.Tended machine) {client : LokiClient} {e : LiveEvent} (hshows : e.ShowsPage)
    (hadmits : board.Admits machine e) {t : LivePages}
    (hnext : LivePages.next machine.unzip ⟨client, board⟩ e = some t) :
    Brings (board.sent e) t.board.current.drawnPage := by
  cases e with
  | newPage env =>
    obtain rfl := Option.some.inj hnext
    have hshown := h.appendPage (tended_newPage board env hadmits)
    exact (switchPosts_spec hshown.controls hshown.current).2 []
  | selectPage page =>
    obtain ⟨board', hboard, rfl⟩ := Option.map_eq_some_iff.mp hnext
    exact (h.onSelectPageTriggered hboard).2
  | insertPixmapBackground image =>
    obtain rfl := Option.some.inj hnext
    have hpage : Page.Tended machine { board.current with backgroundImage := image } :=
      ⟨h.current.settled.of_attributes rfl rfl rfl rfl rfl rfl, h.current.redoing, h.current.quuid⟩
    have hshown := h.showPage board.currentPage.isLt hpage
    simp only [sent, LiveBoard.onInsertPixmapBackgroundTriggered, if_pos h.controls]
    exact (switchPosts_spec hshown.controls hshown.current).2 []
  | _ => exact hshows.elim

/-! ## Taking in what has been sent -/

variable {env : Surroundings} {board' : LiveBoard} {posting : Posting}

/-- The board data of what has been sent hold the action. -/
lemma boardAction_boardData (h : posting.Fits machine) (u : Uninitialised) :
    boardAction u (posting.boardData machine) = some (posting.animation machine).unplayed := by
  have hcreate := AnimationAction.createFromType_getMsgPackData u h.animation
  rw [AnimationAction.createFromType] at hcreate
  have hlength : (LokiBuffer.ofData (posting.animation machine).getMsgPackData).buffer.length < 2 ^ 32 := by
    rw [LokiBuffer.ofData, List.length_map]
    exact h.animation
  rw [boardAction, Posting.boardData, BoardData.fromLokiBuffer_getMsgPackData _ u hlength]
  simp only [Option.bind_eq_bind, Option.bind_some, LokiBuffer.data_ofData]
  split at hcreate
  · cases hcreate
  · rename_i msg hmsg
    rw [hmsg, Option.bind_some]
    exact Except.ok.inj hcreate

/-- A participant that takes in a page that has been sent presents it. -/
lemma presents_of_playNetworkSwitchPageAction (henv : machine.Runs env) {page : Page}
    (hlength : page.getMsgPackData.2.length < 2 ^ 32) (hsettled : page.Settled)
    (huuid : machine.quuid page.uuid = page.uuid) {uuid : Bytes}
    (hplay : board.playNetworkSwitchPageAction env uuid page.getMsgPackData.2 = .ok board') :
    board'.current.Presents page.getMsgPackData.1.drawnPage := by
  have hloads : ∀ page' loaded : Page, page'.setMsgPackData env page.getMsgPackData.2 = .ok loaded →
      (loaded.setEnable false).Presents page.getMsgPackData.1.drawnPage := by
    intro page' loaded hload
    have haddress : Function.Injective fun i => env.address [i] := fun i j hij =>
      (List.cons.inj (henv.regular.address hij)).1
    have hown : page.getMsgPackData.1.uuid = page.uuid :=
      Page.uuid_of_own (Page.own_deHighlightElement page)
    have hquuid : env.quuid page.getMsgPackData.1.uuid = page.getMsgPackData.1.uuid := by
      rw [henv.quuid, hown]
      exact huuid
    exact (Page.presents_of_load henv.regular.address hlength hsettled.deHighlightElement hquuid hload).setEnable
      (Page.setMsgPackData_spec haddress hload).2.1 false
  unfold playNetworkSwitchPageAction at hplay
  dsimp only at hplay
  split at hplay
  · obtain ⟨shown, hpage, rfl⟩ := map_eq_ok.mp hplay
    obtain ⟨loaded, hload, rfl⟩ := map_eq_ok.mp hpage
    rw [current_showPage]
    exact hloads _ loaded hload
  · obtain ⟨loaded, hload, rfl⟩ := map_eq_ok.mp hplay
    rw [current_appendPage]
    exact hloads _ loaded hload

/-- A participant that takes in an action does to its drawing what the action tells. -/
lemma Presents.playAction {v v' : DrawnPage} {a : AnimationAction} (h : board.current.Presents v)
    (hlocal : a.kind.IsLocal) (hshow : a.kind ≠ .show)
    (hfinds : a.kind = .hide → board.current.FindsDrawn a.targetElementUuid)
    (hplay : board.playAction env machine.unzip a = .ok board')
    (hstep : drawnPages.step v a.rearrangement? v') : board'.current.Presents v' := by
  obtain ⟨sc, uuid, time, kind, played⟩ := a
  have hset : ∀ page : Page, (board.setCurrent page).current = page := fun page => by
    rw [setCurrent, current_showPage]
  cases kind with
  | switchPage | networkShow | networkSwitchPage => exact hlocal.elim
  | «show» => exact absurd rfl hshow
  | hide =>
    obtain rfl := Except.ok.inj hplay
    obtain ⟨-, rfl⟩ := hstep
    rw [hset]
    exact h.playHideAction (hfinds rfl)
  | topMost =>
    obtain rfl := Except.ok.inj hplay
    obtain ⟨-, rfl⟩ := hstep
    rw [hset]
    exact h.playTopMostAction uuid
  | bottomMost =>
    obtain rfl := Except.ok.inj hplay
    obtain ⟨-, rfl⟩ := hstep
    rw [hset]
    exact h.playBottomMostAction uuid
  | lineWidth width =>
    obtain rfl := Except.ok.inj hplay
    obtain rfl : v' = v := hstep
    rw [hset]
    exact h.playChange uuid (Page.objUuid_setLineWidth width)
  | lineStyle style =>
    obtain rfl := Except.ok.inj hplay
    obtain rfl : v' = v := hstep
    rw [hset]
    exact h.playChange uuid (Page.objUuid_setLineStyle style)
  | lineColor color =>
    obtain rfl := Except.ok.inj hplay
    obtain rfl : v' = v := hstep
    rw [hset]
    exact h.playChange uuid (Page.objUuid_setLineColor color.ofRgb)
  | size leftTop width height =>
    obtain rfl := Except.ok.inj hplay
    obtain rfl : v' = v := hstep
    rw [hset]
    exact h.playChange uuid fun _ => rfl
  | textChanged text fontSize =>
    obtain rfl := Except.ok.inj hplay
    obtain rfl : v' = v := hstep
    rw [hset]
    exact h.playChange uuid fun _ => rfl

/-- A participant that takes in what has been sent does what it is told. -/
lemma takes (henv : machine.Runs env) (hfits : posting.Fits machine) (hproper : posting.Proper machine)
    (hfree : board.current.element (env.address []) = none)
    (hfinds : ∀ a, boardAction env.uninitialised (posting.boardData machine) = some a → a.kind = .hide →
      board.current.FindsDrawn a.targetElementUuid)
    (hdata : board.onBoardDataTriggered env machine.unzip (posting.boardData machine) = .ok board') :
    (∀ r, posting.update = .change r → ∀ v v', board.current.Presents v → drawnPages.step v r v' →
      board'.current.Presents v') ∧ ∀ v, posting.update = .snapshot v → board'.current.Presents v := by
  have haction := boardAction_boardData hfits env.uninitialised
  obtain ⟨_, haction', hplay⟩ := (onBoardDataTriggered_eq _ board').mp hdata
  obtain rfl := Option.some.inj (haction.symm.trans haction')
  replace hfinds := hfinds _ haction
  cases posting with
  | action a =>
    refine ⟨fun r hr v v' hv hstep => ?_, nofun⟩
    obtain rfl := Update.change.inj hr
    exact Presents.playAction hv hproper.1 hproper.2 hfinds hplay hstep
  | element e =>
    refine ⟨fun r hr v v' hv hstep => ?_, nofun⟩
    obtain rfl := Update.change.inj hr
    obtain ⟨hnew, rfl⟩ := hstep
    have hlength : e.getMsgPackData.length < 2 ^ 32 := hfits.record
    obtain ⟨page, hpage, rfl⟩ := map_eq_ok.mp hplay
    simp only [LokiBuffer.data_ofData, machine.unzip_zip, Page.playNetworkShowAction] at hpage
    cases hcreate : Element.createFromType env e.getMsgPackData.length [] e.getType.toInt
        e.getMsgPackData with
    | error fault =>
      rw [hcreate] at hpage
      cases hpage
    | ok r =>
      obtain ⟨e', rfl, -, huuid, -⟩ := Element.alike_of_createFromType hlength hcreate
      rw [hcreate] at hpage
      obtain rfl := Except.ok.inj hpage
      rw [setCurrent, current_showPage, ← huuid]
      exact hv.playShow hfree (huuid ▸ hnew)
  | switch page =>
    refine ⟨nofun, fun v hv => ?_⟩
    obtain rfl := Update.snapshot.inj hv
    have hrecord : page.getMsgPackData.2.length < 2 ^ 32 := hfits.record
    unfold LiveBoard.playAction at hplay
    simp only [Posting.animation, AnimationAction.unplayed, Page.switchAction, LokiBuffer.data_ofData,
      machine.unzip_zip] at hplay
    exact presents_of_playNetworkSwitchPageAction henv hrecord hproper.1 hproper.2 hplay

end LiveBoard

end Liangshi
