import Liangshi.Board.SavedPages
import Liangshi.Lesson.KeWidget
import Liangshi.Lesson.Seeking
import Liangshi.Live.BoardRobustness

/-!
# Lessons that are opened for editing

`KeFile::LoadKeAsKeWidget` makes a recorder of the player of a lesson.  Every page of the player is
saved with all its elements in their initial states and loaded again as a page of the recorder.  The
player has not been moved to the end of the lesson, as `OnReRecordTriggered` moves it before it copies
the pages, and none of the pages becomes the current one.

So a recorder that is opened with a lesson that has pages has no current page (`not_showsEnd`), and what
a page of it displays are all elements of the page as they were at the beginning (`pagesDisplay_iff`).
-/

namespace Liangshi

open Wire MessagePack Ordered Transition

/-! ## The recorder with its pages -/

namespace Page

/-- A page that draws all its elements in their initial states. -/
def initial (resetElementToInit : Page → Page) (page : Page) : Page :=
  { resetElementToInit page.deHighlightElement with drawingElements := page.allElements.elems }

/-- `GetMsgPackData(true)`, as far as it writes: all elements, in their initial states. -/
def initData (resetElementToInit : Page → Page) (page : Page) : Bytes :=
  (page.initial resetElementToInit).data

/-- What `AddPage` of a new recorder makes of a page: it gets the mode and the line attributes of the
recorder. -/
def prepared (page : Page) : Page :=
  ((page.setMode.lineWidthChanged 2 false).lineStyleChanged 1 false).lineColorChanged 0xffffffff false

end Page

/-- A recorder with its pages, in the order of `_allPages`. -/
structure KeDocument where
  widget : KeWidget
  pages : List Page

namespace KeDocument

/-- `AddPage` without an action. -/
def addPage (now : Instant) (document : KeDocument) (page : Page) : KeDocument :=
  ⟨document.widget.addPage now page.uuid false, document.pages ++ [page.prepared]⟩

/-- A turn of the loop in `LoadKeAsKeWidget`: the page of a player is saved and loaded again. -/
def copyPage (env : Surroundings) (resetElementToInit : Page → Page) (now : Instant)
    (document : KeDocument) (entry : Bytes × Option Page) : Except PlayerFault KeDocument :=
  match entry.2 with
  | none => .error .nullPage
  | some page =>
    match (Page.new (env.newUuid [])).setMsgPackData env (page.initData resetElementToInit) with
    | .error fault => .error (.load fault)
    | .ok banPage => .ok (document.addPage now banPage)

/-- The recorder that `LoadKeAsKeWidget` makes of the player that is loaded. -/
def ofPlayer (env : Surroundings) (resetElementToInit : Page → Page) (now : Instant)
    (hadesTime : Int32) (uuid : Bytes) (player : Option PlayerWidget) (duration : Int32) :
    Except PlayerFault KeDocument :=
  let widget := KeWidget.new now hadesTime uuid
  match player with
  | none => .ok ⟨widget, [(Page.new uuid).prepared]⟩
  | some player => do
    let widget := widget.clearPages.initHadesFromExistingFile now duration
    let document ← player.allPages.entries.foldlM (copyPage env resetElementToInit now) ⟨widget, []⟩
    return { document with widget := { document.widget with actions := player.actions } }

end KeDocument

/-- `KeFile::LoadKeAsKeWidget` with the length of the audio. -/
def KeFile.loadKeAsKeWidget (env : Surroundings) (penv : PlayerSurroundings) (now : Instant)
    (hadesTime : Int32) (uuid : Bytes) (file : LessonFile) (duration : Int32) :
    Except PlayerFault KeDocument := do
  let player ← loadKeAsPlayerWidget penv file
  KeDocument.ofPlayer env penv.resetElementToInit now hadesTime uuid player duration

/-- What a page displays: the classes and the attributes of the elements that are painted, in the order
of the drawing. -/
def Page.display (page : Page) : List (ElementType × Obj) :=
  page.visible.map fun e => (e.getType, e.attributes)

/-- A recorder that shows the page a player shows, and each page of which displays what the player
displays on it. -/
structure KeDocument.ShowsEnd (played : PlayerWidget) (document : KeDocument) : Prop where
  current : ∃ i page, document.widget.currentPage = some i ∧ document.pages[i]? = some page ∧
    KeWidget.shownUuid played = .ok page.uuid
  pages : (played.allPages.entries.map fun entry => entry.2.map Page.display) =
    document.pages.map fun page => some page.display

/-! ## What is opened -/

namespace KeDocument

variable {env : Surroundings} {resetElementToInit : Page → Page} {now : Instant}

/-- The page of a recorder is the loaded copy of a page of the player. -/
def Copies (env : Surroundings) (resetElementToInit : Page → Page) (entry : Bytes × Option Page)
    (copy : Page) : Prop :=
  ∃ page loaded, entry.2 = some page ∧ copy = loaded.prepared ∧
    (Page.new (env.newUuid [])).setMsgPackData env (page.initData resetElementToInit) = .ok loaded

/-- The loop adds a copy of every page, and leaves the current page alone. -/
lemma ends_copyPages (entries : List (Bytes × Option Page)) (document : KeDocument) :
    Ends (entries.foldlM (copyPage env resetElementToInit now) document)
      (fun opened => opened.widget.currentPage = document.widget.currentPage ∧
        ∃ copies, opened.pages = document.pages ++ copies ∧
          List.Forall₂ (Copies env resetElementToInit) entries copies) (fun _ => True) := by
  induction entries generalizing document with
  | nil => exact ⟨rfl, [], (List.append_nil _).symm, .nil⟩
  | cons entry entries ih =>
    rw [List.foldlM_cons]
    have hfirst : Ends (copyPage env resetElementToInit now document entry)
        (fun next => next.widget.currentPage = document.widget.currentPage ∧
          ∃ copy, next.pages = document.pages ++ [copy] ∧ Copies env resetElementToInit entry copy)
        (fun _ => True) := by
      unfold copyPage
      cases hpage : entry.2 with
      | none => trivial
      | some page =>
        dsimp only
        cases hload : (Page.new (env.newUuid [])).setMsgPackData env
            (page.initData resetElementToInit) with
        | error fault => trivial
        | ok loaded => exact ⟨rfl, _, rfl, page, loaded, hpage, rfl, hload⟩
    refine hfirst.bind fun next hnext => (ih next).mono fun opened hopened => ?_
    obtain ⟨hcurrent, copy, hpages, hcopy⟩ := hnext
    obtain ⟨hcurrent', copies, hpages', hcopies⟩ := hopened
    refine ⟨hcurrent'.trans hcurrent, copy :: copies, ?_, .cons hcopy hcopies⟩
    rw [hpages', hpages, List.append_assoc]
    rfl

/-- An opened recorder has no current page, and a copy of every page of the player. -/
lemma ends_ofPlayer (hadesTime : Int32) (uuid : Bytes) (player : PlayerWidget) (duration : Int32) :
    Ends (ofPlayer env resetElementToInit now hadesTime uuid (some player) duration)
      (fun document => document.widget.currentPage = none ∧
        List.Forall₂ (Copies env resetElementToInit) player.allPages.entries document.pages)
      (fun _ => True) := by
  unfold ofPlayer
  refine (ends_copyPages _ _).bind fun document hdocument => ?_
  obtain ⟨hcurrent, copies, hpages, hcopies⟩ := hdocument
  rw [List.nil_append] at hpages
  exact ⟨hcurrent, hpages ▸ hcopies⟩

end KeDocument

/-! ## What the pages display -/

namespace Page

variable {page page' : Page}

/-- Pages that show the same display the same. -/
lemma Shows.display_eq (h : page.Shows page') : page'.display = page.display := by
  have hall : List.Forall₂ Eq page.display page'.display := by
    refine List.forall₂_map_left_iff.mpr (List.forall₂_map_right_iff.mpr ?_)
    exact h.visible.imp fun e e' halike => Prod.ext halike.getType.symm halike.attributes.symm
  rw [List.forall₂_eq_eq_eq] at hall
  exact hall.symm

/-- Without a highlighted element a line attribute changes nothing on a page. -/
lemma lineChanged_of_none (page : Page) (change : Element → Element)
    (h : page.highlightElement = none) : page.lineChanged change false = page := by
  unfold lineChanged
  rw [h]
  rfl

/-- The mode and the line attributes of a recorder change nothing that a page without a highlighted
element displays. -/
lemma display_prepared (h : page.highlightElement = none) : page.prepared.display = page.display := by
  have hmode : page.setMode = page := by
    unfold setMode deHighlightElement
    rw [h]
    exact ite_self _
  have hwidth : page.lineWidthChanged 2 false = { page with lineWidth := 2 } :=
    lineChanged_of_none _ _ h
  have hstyle : lineStyleChanged { page with lineWidth := 2 } 1 false =
      { page with lineWidth := 2, lineStyle := 1 } := lineChanged_of_none _ _ h
  have hcolor : lineColorChanged { page with lineWidth := 2, lineStyle := 1 } 0xffffffff false =
      { page with lineWidth := 2, lineStyle := 1, lineColor := 0xffffffff } := lineChanged_of_none _ _ h
  unfold prepared
  rw [hmode, hwidth, hstyle, hcolor]
  rfl

/-- A copy of a page displays all elements of the page as they began. -/
lemma display_copy {env : Surroundings} (hinjective : Function.Injective env.address)
    {resetElementToInit : Page → Page} {loaded : Page} {uuid : Bytes}
    (hlength : (page.initData resetElementToInit).length < 2 ^ 32)
    (hplain : ∀ e ∈ (page.initial resetElementToInit).shown, e.Plain)
    (huuid : env.quuid (page.initial resetElementToInit).uuid = (page.initial resetElementToInit).uuid)
    (hload : (Page.new uuid).setMsgPackData env (page.initData resetElementToInit) = .ok loaded) :
    loaded.prepared.display = (page.initial resetElementToInit).display := by
  have hhighlight : loaded.highlightElement = none := (of_setMsgPackData hinjective hload).2.highlight
  rw [display_prepared hhighlight]
  exact (shows_of_setMsgPackData hinjective hlength hplain huuid hload).display_eq

end Page

/-- A page of a lesson can be copied: all that it has is painted by itself, its data are not too long,
and its uuid is that of a `QUuid`. -/
structure Page.Copyable (env : Surroundings) (resetElementToInit : Page → Page) (page : Page) : Prop where
  length : (page.initData resetElementToInit).length < 2 ^ 32
  plain : ∀ e ∈ (page.initial resetElementToInit).shown, e.Plain
  quuid : env.quuid (page.initial resetElementToInit).uuid = (page.initial resetElementToInit).uuid

namespace KeDocument

variable {env : Surroundings} {penv : PlayerSurroundings} {now : Instant} {hadesTime duration : Int32}
  {uuid : Bytes} {file : LessonFile} {player played : PlayerWidget} {document : KeDocument}

/-- What the copies of pages display. -/
lemma map_display_copies {resetElementToInit : Page → Page} (hinjective : Function.Injective env.address)
    {entries : List (Bytes × Option Page)} {copies : List Page}
    (h : List.Forall₂ (Copies env resetElementToInit) entries copies)
    (hcopyable : ∀ entry ∈ entries, ∀ page, entry.2 = some page →
      page.Copyable env resetElementToInit) :
    (copies.map fun page => some page.display) =
      entries.map fun entry => entry.2.map fun page => (page.initial resetElementToInit).display := by
  induction h with
  | nil => rfl
  | cons hcopy _ ih =>
    obtain ⟨hfirst, hothers⟩ := List.forall_mem_cons.mp hcopyable
    obtain ⟨page, loaded, hpage, rfl, hload⟩ := hcopy
    obtain ⟨hlength, hplain, hquuid⟩ := hfirst page hpage
    rw [List.map_cons, List.map_cons, ih hothers, hpage,
      Page.display_copy hinjective hlength hplain hquuid hload]
    rfl

/-- The player of a recorder that is opened. -/
lemma ofPlayer_of_load (hload : KeFile.loadKeAsPlayerWidget penv file = .ok (some player))
    (hopen : KeFile.loadKeAsKeWidget env penv now hadesTime uuid file duration = .ok document) :
    ofPlayer env penv.resetElementToInit now hadesTime uuid (some player) duration = .ok document := by
  unfold KeFile.loadKeAsKeWidget at hopen
  rw [hload] at hopen
  exact hopen

/-- The pages of an opened recorder display what the player displays at the end of the lesson exactly
when on every page the player displays all elements, as they began. -/
theorem pagesDisplay_iff (hinjective : Function.Injective env.address)
    (hload : KeFile.loadKeAsPlayerWidget penv file = .ok (some player))
    (hcopyable : ∀ entry ∈ player.allPages.entries, ∀ page, entry.2 = some page →
      page.Copyable env penv.resetElementToInit)
    (hopen : KeFile.loadKeAsKeWidget env penv now hadesTime uuid file duration = .ok document) :
    ((played.allPages.entries.map fun entry => entry.2.map Page.display) =
        document.pages.map fun page => some page.display) ↔
      (played.allPages.entries.map fun entry => entry.2.map Page.display) =
        player.allPages.entries.map fun entry =>
          entry.2.map fun page => (page.initial penv.resetElementToInit).display := by
  obtain ⟨-, hcopies⟩ :=
    (ends_ofPlayer hadesTime uuid player duration).of_eq (ofPlayer_of_load hload hopen)
  rw [map_display_copies hinjective hcopies hcopyable]

/-- A recorder that is opened with a lesson does not show what the player shows at the end: it has no
current page. -/
theorem not_showsEnd (env : Surroundings) (penv : PlayerSurroundings) (now : Instant)
    (hadesTime : Int32) (uuid : Bytes) (file : LessonFile) (duration : Int32) (player : PlayerWidget)
    (hload : KeFile.loadKeAsPlayerWidget penv file = .ok (some player)) :
    ¬ ∃ document played,
      KeFile.loadKeAsKeWidget env penv now hadesTime uuid file duration = .ok document ∧
        player.gotoTime penv duration = .ok played ∧ document.ShowsEnd played := by
  rintro ⟨document, played, hopen, -, hshows⟩
  obtain ⟨hnone, -⟩ :=
    (ends_ofPlayer hadesTime uuid player duration).of_eq (ofPlayer_of_load hload hopen)
  obtain ⟨i, page, hcurrent, -⟩ := hshows.current
  rw [hnone] at hcurrent
  cases hcurrent

/-- The lesson with a line that is hidden again. -/
def hiddenLine : LessonFile :=
  { lineLesson with
    actions := KeFile.saveActions [⟨[1], [], 0, .switchPage, false⟩, ⟨[1], [2], 10, .show, false⟩,
      ⟨[1], [2], 20, .hide, false⟩] }

/-- The lesson is loaded, so it is not shown as it ends. -/
theorem not_showsEnd_hiddenLine : ∃ player,
    KeFile.loadKeAsPlayerWidget lineDocument hiddenLine = .ok (some player) ∧
      ¬ ∃ document played,
        KeFile.loadKeAsKeWidget LiveBoard.plainSurroundings lineDocument 0 0 [] hiddenLine 60000 =
            .ok document ∧
          player.gotoTime lineDocument 60000 = .ok played ∧ document.ShowsEnd played := by
  have hlesson : Gives (KeFile.loadKeAsPlayerWidget lineDocument hiddenLine) fun r => r.isSome := by
    decide +kernel
  obtain ⟨r, hload, hr⟩ := hlesson
  obtain ⟨player, rfl⟩ := Option.isSome_iff_exists.mp hr
  exact ⟨player, hload, not_showsEnd LiveBoard.plainSurroundings lineDocument 0 0 [] hiddenLine 60000
    player hload⟩

/-- The player shows the page without the line at the end.  The recorder has the line on its page, and no
current page. -/
theorem hiddenLine_opened : ∃ player document played,
    KeFile.loadKeAsPlayerWidget lineDocument hiddenLine = .ok (some player) ∧
      KeFile.loadKeAsKeWidget LiveBoard.plainSurroundings lineDocument 0 0 [] hiddenLine 60000 =
          .ok document ∧
        player.gotoTime lineDocument 60000 = .ok played ∧ played.currentPage = some [1] ∧
          document.widget.currentPage = none ∧
            (played.allPages.entries.map fun entry => entry.2.map (·.display.length)) = [some 0] ∧
              document.pages.map (·.display.length) = [1] ∧ ¬ document.ShowsEnd played := by
  have hplay : Gives (KeFile.loadKeAsPlayerWidget lineDocument hiddenLine) fun r => ∃ player ∈ r,
      Gives (player.gotoTime lineDocument 60000) fun played => played.currentPage = some [1] ∧
        (played.allPages.entries.map fun entry => entry.2.map (·.display.length)) = [some 0] := by
    decide +kernel
  have hopen : Gives
      (KeFile.loadKeAsKeWidget LiveBoard.plainSurroundings lineDocument 0 0 [] hiddenLine 60000)
      fun document => document.widget.currentPage = none ∧
        document.pages.map (·.display.length) = [1] := by
    decide +kernel
  obtain ⟨r, hload, player, hr, played, hplayed, hshown, hplayer⟩ := hplay
  obtain rfl := Option.mem_def.mp hr
  obtain ⟨document, hopened, hnone, hrecorder⟩ := hopen
  refine ⟨player, document, played, hload, hopened, hplayed, hshown, hnone, hplayer, hrecorder, ?_⟩
  rintro ⟨⟨i, page, hcurrent, -⟩, -⟩
  rw [hnone] at hcurrent
  cases hcurrent

end KeDocument

end Liangshi
