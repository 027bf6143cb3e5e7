import Liangshi.Board.RoundTrip
import Liangshi.Lesson.ActionTrack
import Liangshi.Lesson.FileEnvelope
import Liangshi.Lesson.PageOutline
import Liangshi.Lesson.RecordedDrawing
import Liangshi.Live.DrawnPage

/-!
# A recording that is saved and played

`KeFile::SaveFile` writes every page of a recorder with all its elements in their init states, and the
actions.  The lesson that is loaded from the files has the pages with nothing drawn on them and the same
actions (`KeFile.exists_loadKeAsPlayerWidget`).  Played to a time, or going to it, it shows the page that
the recorder showed at the time and draws the same elements in the same order (`KeSession.plays_recorded`).
What the elements look like is not compared, so it does not matter how much of it `ResetElementToInit`
brings back.

The elements of a page are restored from the page that has been saved, so it is asked of a page that
loading does restore them: a state element comes behind its source, and the pages inside elements have been
written by pages.
-/

namespace Liangshi

open Wire MessagePack Ordered Transition

/-! ## Saving -/

/-- What decides the files of a recorder besides what it has recorded: what Qt works out for elements and
their helpers, the init states of the elements of a page, the random bytes of the files, and what the
recorder packs of itself. -/
structure RecorderSurroundings where
  toolkit : ElementToolkit
  helpers : HelperEvents
  initStates : Bytes → Pointer → ElementState
  pageFiller : Bytes → Bytes
  filler : Bytes
  ke : KeRecord

namespace KeFile

/-- A page with the init states of its elements. -/
def statedPage (renv : RecorderSurroundings) (page : Page) : StatedPage :=
  ⟨page, renv.initStates page.uuid⟩

/-- `SaveFileWithAllElements` of a page. -/
def savePage (renv : RecorderSurroundings) (page : Page) : Bytes :=
  BanFile.saveThisFile (renv.pageFiller page.uuid) .basic
    ((statedPage renv page).getMsgPackData renv.toolkit renv.helpers true)

/-- `SaveFile`: an archive that begins with `"GY"`, with the files of the pages in the order in which a
listing gives them. -/
structure Saves (renv : RecorderSurroundings) (s : KeSession) (file : LessonFile) : Prop where
  magic1 : file.magic1 = 71
  magic2 : file.magic2 = 89
  this : file.this = saveThisFile renv.filler renv.ke
  actions : file.actions = saveActions s.document.widget.actions
  pages : ∃ listing : List Page, listing.Perm s.document.pages ∧ file.pages = listing.map (savePage renv)

end KeFile

/-! ## Pages that are loaded -/

namespace Element

/-- The record of an element begins with its uuid. -/
lemma exists_attributes_eq (e : Element) :
    ∃ others, e.attributes = .array (Codec.string.toObj e.objUuid :: others) := by
  unfold attributes toObj
  cases e.body <;> exact ⟨_, rfl⟩

/-- Elements that are alike have one uuid. -/
lemma Alike.objUuid {e e' : Element} (h : e.Alike e') : e'.objUuid = e.objUuid := by
  obtain ⟨others, heq⟩ := e.exists_attributes_eq
  obtain ⟨others', heq'⟩ := e'.exists_attributes_eq
  have hattributes := h.attributes
  rw [heq, heq'] at hattributes
  have hfirst := (List.cons.inj (Obj.array.inj hattributes)).1
  exact Obj.raw.inj hfirst

/-- A state does not touch the uuid. -/
lemma objUuid_setState (k : ElementToolkit) (e : Element) (state : ElementState) :
    (e.setState k state).objUuid = e.objUuid := by
  unfold setState
  cases state with
  | path color width style =>
    rw [Page.objUuid_setLineStyle, Page.objUuid_setLineWidth, Page.objUuid_setLineColor]
  | text color leftTop size text => exact Page.objUuid_setLineColor color e
  | placed leftTop width height matrix => rfl
  | none => rfl

/-- Nor does a change. -/
lemma objUuid_change (k : ElementToolkit) (e : Element) (change : AttributeChange) :
    (e.change k change).objUuid = e.objUuid := by
  cases change with
  | lineWidth width => exact Page.objUuid_setLineWidth width e
  | lineStyle style => exact Page.objUuid_setLineStyle style e
  | lineColor color => exact Page.objUuid_setLineColor color e
  | _ => rfl

/-- Nor do the events of a helper. -/
lemma objUuid_closed (k : ElementToolkit) (ev : HelperEvents) (e : Element) :
    (e.closed k ev).objUuid = e.objUuid := by
  have hfold : ∀ (changes : List AttributeChange) (e : Element),
      (changes.foldl (change k) e).objUuid = e.objUuid := by
    intro changes
    induction changes with
    | nil => exact fun _ => rfl
    | cons c changes ih => exact fun e => (ih _).trans (objUuid_change k e c)
  unfold closed
  split_ifs
  · exact hfold _ e
  · rfl

end Element

/-- `ResetElementToInit` clears the drawing and keeps the uuids of the elements, as
`PlayerSurroundings.Clears` has it. -/
lemma Canvas.clears_resetElementToInit (k : ElementToolkit) (c : Canvas) :
    (c.resetElementToInit k).drawingElements = [] ∧ ∀ p,
      ((c.resetElementToInit k).element p).map (·.objUuid) = (c.element p).map (·.objUuid) := by
  refine ⟨rfl, fun p => ?_⟩
  unfold resetElementToInit toInitState element
  rw [OrderedMap.find_mapValues, Option.map_map, Option.map_map, Option.map_map]
  exact Option.map_congr fun s _ => Element.objUuid_setState k s.element s.initState

namespace StatedPage

/-- What is saved of a page in the init mode are the elements of the page. -/
lemma map_objUuid_saved (k : ElementToolkit) (ev : HelperEvents) (s : StatedPage) :
    (s.saved k ev true).map (·.objUuid) = s.page.allElements.elems.filterMap s.page.uuidOf := by
  have hclosing : Page.Similar s.page (s.page.closing k ev) := by
    unfold Page.closing
    split
    · exact .refl _
    · exact Page.similar_modify _ _ (Element.objUuid_closed k ev)
  have hall : (s.page.closing k ev).deHighlightElement.allElements = s.page.allElements := by
    rw [Page.allElements_deHighlightElement, hclosing.allElements_eq]
  show ((s.page.closing k ev).deHighlightElement.allElements.elems.filterMap _).map _ = _
  rw [hall, List.map_filterMap]
  refine List.filterMap_congr fun p _ => ?_
  rw [← hclosing.uuidOf_eq, ← Page.uuidOf_deHighlightElement, Page.uuidOf, Option.map_map]
  exact Option.map_congr fun e _ => Element.objUuid_setState k e _

end StatedPage

namespace Page

variable {env : Surroundings} {page page' loaded : Page} {bytes : Bytes}

/-- The uuids of what a page shows. -/
lemma drawnUuids_eq_map_shown (page : Page) : page.drawnUuids = page.shown.map (·.objUuid) := by
  unfold drawnUuids shown
  rw [List.map_filterMap]
  rfl

/-- The elements of a settled page have different uuids. -/
lemma Settled.nodup_filterMap_uuidOf (h : Settled page) :
    (page.allElements.elems.filterMap page.uuidOf).Nodup := by
  refine List.pairwise_filterMap.mpr (page.allElements.nodup.imp_of_mem fun {p q} hp hq hne => ?_)
  rintro uuid huuid uuid' huuid' rfl
  exact hne (h.uuids p hp q hq (huuid.trans huuid'.symm))

/-- A page whose data have the elements of a settled page is settled, and has these elements. -/
lemma settled_of_reloads (h : Settled page') {es : List Element}
    (hes : es.map (·.objUuid) = page'.allElements.elems.filterMap page'.uuidOf)
    (hinjective : Function.Injective env.address)
    (hload : page.setMsgPackData env bytes = .ok loaded) (hreloads : Reloads env es loaded) :
    Settled loaded ∧ ∀ uuid, page'.HoldsUuid uuid → loaded.HoldsUuid uuid := by
  have hshown : loaded.shown.map (·.objUuid) = es.map (·.objUuid) := by
    rw [← List.forall₂_eq_eq_eq, List.forall₂_map_left_iff, List.forall₂_map_right_iff]
    exact hreloads.elements.flip.imp fun _ _ hrestored => hrestored.alike.objUuid
  have hdrawn : loaded.drawnUuids = page'.allElements.elems.filterMap page'.uuidOf := by
    rw [drawnUuids_eq_map_shown, hshown, hes]
  have haddress : Function.Injective fun i => env.address [i] := fun i j hij =>
    (List.cons.inj (hinjective hij)).1
  obtain ⟨-, -, -, hsettled⟩ := setMsgPackData_spec haddress hload
  have hdifferent : DifferentUuids env bytes := by
    rw [DifferentUuids, ← drawnUuids_of_setMsgPackData hinjective hload, hdrawn]
    exact h.nodup_filterMap_uuidOf
  refine ⟨hsettled hdifferent, ?_⟩
  rintro uuid ⟨p, hp, huuid⟩
  have hmem : uuid ∈ loaded.drawnUuids := by
    rw [hdrawn]
    exact List.mem_filterMap.mpr ⟨p, hp, huuid⟩
  obtain ⟨q, hq, hquuid⟩ := mem_drawnUuids.mp hmem
  exact ⟨q, (hreloads.displayed q).mpr hq, hquuid⟩

/-- A settled page on which nothing is drawn any more is stocked. -/
lemma Settled.stocked (h : Settled page) : Stocked (page.asLoaded page) where
  nodup := List.nodup_nil
  drawn _ hp := absurd hp List.not_mem_nil
  uuids := h.uuids
  live := h.live

end Page

/-! ## Loading -/

/-- The player opens the files of pages: what Qt promises holds while they are opened. -/
structure PlayerSurroundings.Opens (env : PlayerSurroundings) (files : Bytes → FileSurroundings) :
    Prop where
  load : ∀ bytes page, BanFile.loadScDocument (files bytes) [] false bytes = .ok (some (.basic page)) →
    env.loadAsScDocument bytes = .ok (some page)
  regular : ∀ bytes, ((files bytes).page 0).Regular

/-- A page that can be saved: its uuid is one of a `QUuid`, its file fits in a `QByteArray`, a state
element comes behind its source, and the data of the pages in it have been written by pages. -/
structure KeFile.Storable (renv : RecorderSurroundings) (quuid : Bytes → Bytes) (page : Page) : Prop where
  quuid : quuid page.uuid = page.uuid
  length : (savePage renv page).length < 2 ^ 31
  anchored : Anchored ((statedPage renv page).saved renv.toolkit renv.helpers true)
  viewers : ∀ e ∈ (statedPage renv page).saved renv.toolkit renv.helpers true, ∀ test data,
    e.body.viewer? = some (test, data) → Written test data

/-- A page with the uuid and the elements of another one. -/
structure Page.Stocks (page loaded : Page) : Prop where
  uuid : loaded.uuid = page.uuid
  settled : loaded.Settled
  elements : ∀ uuid, page.HoldsUuid uuid → loaded.HoldsUuid uuid

namespace KeFile

variable {renv : RecorderSurroundings} {env : PlayerSurroundings} {files : Bytes → FileSurroundings}

/-- A page that has been saved is loaded with its elements. -/
lemma exists_loadAsScDocument (hopens : env.Opens files) {page : Page} (hsettled : page.Settled)
    (hstorable : Storable renv ((files (savePage renv page)).page 0).quuid page) :
    ∃ loaded, env.loadAsScDocument (savePage renv page) = .ok (some loaded) ∧ page.Stocks loaded := by
  have hround : unpackAll (savePage renv page) = (BanFile.thisObjects BanFile.header
      BanFile.materialFileCurrenVersion (renv.pageFiller page.uuid) [(ScType.toInt .basic,
        (statedPage renv page).getMsgPackData renv.toolkit renv.helpers true)], .finished) :=
    BanFile.unpackAll_thisObjects (hstorable.length.trans (by decide))
  have hlength : ((statedPage renv page).getMsgPackData renv.toolkit renv.helpers true).length <
      2 ^ 32 := by
    refine lt_of_le_of_lt ?_ (hstorable.length.trans (by decide))
    exact Page.length_le_of_raw_mem (by simp [BanFile.thisObjects, Entry.objects])
  have henv := hopens.regular (savePage renv page)
  have hsaved := StatedPage.shown_written renv.toolkit renv.helpers true (statedPage renv page)
  have hdata := StatedPage.getMsgPackData_eq renv.toolkit renv.helpers true (statedPage renv page)
  have hown := StatedPage.own_written renv.toolkit renv.helpers true (statedPage renv page)
  rw [hdata] at hlength
  obtain ⟨loaded, hload, hloaded, hreloads, -⟩ := Page.exists_reloads henv []
    (Page.new ((files (savePage renv page)).documentUuid 0)) hlength le_rfl
    (by rw [hsaved]; exact hstorable.anchored) fun e he test data hviewer =>
      (hstorable.viewers e (hsaved ▸ he) test data hviewer).opens henv
  rw [hsaved] at hreloads
  have hdocument := BanFile.loadScDocument_saveThisFile (files (savePage renv page)) [] false
    (renv.pageFiller page.uuid) _ .basic hround
  have hset : (Page.new ((files (savePage renv page)).documentUuid 0)).setMsgPackData
      ((files (savePage renv page)).page 0)
        ((statedPage renv page).getMsgPackData renv.toolkit renv.helpers true) = .ok loaded := by
    rw [hdata]
    exact hload
  have hsection : BanFile.sectionDocument (files (savePage renv page)) none 0 (.basic,
      (statedPage renv page).getMsgPackData renv.toolkit renv.helpers true) = .ok (.basic loaded) := by
    unfold BanFile.sectionDocument BanDocument.new BanDocument.setMsgPackData
    dsimp only
    rw [hset]
    rfl
  rw [if_neg Bool.false_ne_true, hsection] at hdocument
  obtain ⟨hloadedSettled, helements⟩ := Page.settled_of_reloads hsettled
    (StatedPage.map_objUuid_saved renv.toolkit renv.helpers (statedPage renv page)) henv.address hset
    hreloads
  refine ⟨loaded, hopens.load _ _ hdocument, ?_, hloadedSettled, helements⟩
  have huuid : ((statedPage renv page).written renv.toolkit renv.helpers true).uuid = page.uuid :=
    Page.uuid_of_own hown
  have hquuid : loaded.own.uuid = ((files (savePage renv page)).page 0).quuid
      ((statedPage renv page).written renv.toolkit renv.helpers true).uuid := by rw [hloaded]
  rw [huuid, hstorable.quuid] at hquuid
  exact hquuid

/-- The head of a lesson that has been saved is loaded. -/
lemma loadPlayerFile_saveThisFile (u : Uninitialised) {filler : Bytes} {ke : KeRecord}
    (hlength : (saveThisFile filler ke).length < 2 ^ 31) :
    loadPlayerFile u (saveThisFile filler ke) = .ok (some ke.player.updateDataFromMsgPack) := by
  have hround : unpackAll (saveThisFile filler ke) = (BanFile.thisObjects BanFile.header
      BanFile.materialFileCurrenVersion filler [(KeRecord.getType, ke.getMsgPackData)], .finished) :=
    BanFile.unpackAll_thisObjects (hlength.trans (by decide))
  rw [loadPlayerFile, hround, readThis_thisObjects, loadRecord_getMsgPackData]
  rfl

/-- A player that holds, at the uuid of a page, what has been loaded of it. -/
def HoldsPage (env : PlayerSurroundings) (player : PlayerWidget) (page : Page) : Prop :=
  ∃ bytes loaded, env.loadAsScDocument bytes = .ok (some loaded) ∧ page.Stocks loaded ∧
    player.allPages.find page.uuid = some (some (env.resetElementToInit loaded))

/-- The loop over the files of pages with different uuids loads each of them. -/
lemma exists_loadPlayerPages {pages : List Page} (hnodup : (pages.map (·.uuid)).Nodup)
    (hload : ∀ page ∈ pages, ∃ loaded, env.loadAsScDocument (savePage renv page) = .ok (some loaded) ∧
      page.Stocks loaded) (player : PlayerWidget)
    (hnew : ∀ page ∈ pages, player.allPages.find page.uuid = none) :
    ∃ player', (pages.map (savePage renv)).foldlM (loadPlayerPage env) (some player) =
        .ok (some player') ∧ player'.actions = player.actions ∧
      (∀ page ∈ pages, HoldsPage env player' page) ∧
      ∀ uuid, uuid ∉ pages.map (·.uuid) → player'.allPages.find uuid = player.allPages.find uuid := by
  induction pages generalizing player with
  | nil => exact ⟨player, rfl, rfl, nofun, fun _ _ => rfl⟩
  | cons page pages ih =>
    obtain ⟨hfirst, hnodup⟩ := List.nodup_cons.mp hnodup
    obtain ⟨⟨loaded, hloaded, hstocks⟩, hload⟩ := List.forall_mem_cons.mp hload
    obtain ⟨hfree, hnew⟩ := List.forall_mem_cons.mp hnew
    have hadd : loadPlayerPage env (some player) (savePage renv page) =
        .ok (some (player.addPage env loaded)) := by
      rw [loadPlayerPage, hloaded]
    have hadded : player.addPage env loaded = { player with
        allPages := player.allPages.insert page.uuid (some (env.resetElementToInit loaded)) } := by
      rw [PlayerWidget.addPage, hstocks.uuid, hfree]
    obtain ⟨player', hloop, hactions, hholds, hothers⟩ :=
      ih hnodup hload (player.addPage env loaded) fun other hother => by
        have hne : other.uuid ≠ page.uuid := fun heq => by
          have hmem : other.uuid ∈ pages.map (·.uuid) := List.mem_map_of_mem hother
          rw [heq] at hmem
          exact hfirst hmem
        rw [hadded, OrderedMap.find_insert, if_neg hne.symm]
        exact hnew other hother
    refine ⟨player', ?_, ?_, List.forall_mem_cons.mpr ⟨?_, hholds⟩, fun uuid huuid => ?_⟩
    · rw [List.map_cons, List.foldlM_cons, hadd]
      exact hloop
    · rw [hactions, hadded]
    · refine ⟨_, loaded, hloaded, hstocks, ?_⟩
      rw [hothers _ hfirst, hadded, OrderedMap.find_insert, if_pos rfl]
    · rw [List.map_cons, List.mem_cons, not_or] at huuid
      rw [hothers _ huuid.2, hadded, OrderedMap.find_insert, if_neg (Ne.symm huuid.1)]

/-- Adding the entries of actions to a player. -/
lemma foldlM_loadPlayerAction (u : Uninitialised) {actions : List AnimationAction}
    (hlength : ∀ a ∈ actions, a.getMsgPackData.length < 2 ^ 32) (player : PlayerWidget) :
    (actions.map AnimationAction.entry).foldlM (loadPlayerAction u) (some player) =
      .ok (some { player with actions := player.actions ++ actions.map AnimationAction.unplayed }) := by
  induction actions generalizing player with
  | nil =>
    rw [List.map_nil, List.map_nil, List.append_nil]
    rfl
  | cons a actions ih =>
    obtain ⟨hfirst, hothers⟩ := List.forall_mem_cons.mp hlength
    have hne : a.getType.toInt ≠ 0 := by
      intro heq
      have hpos := a.getType.toInt_pos
      rw [heq] at hpos
      exact lt_irrefl _ hpos
    have hadd : loadPlayerAction u (some player) a.entry = .ok (some (player.addAction a.unplayed)) := by
      simp only [loadPlayerAction, AnimationAction.entry, ne_eq, hne, not_false_eq_true, if_true,
        AnimationAction.createFromType_getMsgPackData u hfirst]
    rw [List.map_cons, List.foldlM_cons, hadd]
    refine (ih hothers (player.addAction a.unplayed)).trans ?_
    rw [PlayerWidget.addAction, List.map_cons, List.append_assoc]
    rfl

/-- The actions that have been saved are loaded. -/
lemma scanTrack_saveActions (u : Uninitialised) {actions : List AnimationAction}
    (hlength : (saveActions actions).length < 2 ^ 31) (player : PlayerWidget) :
    scanTrack (loadPlayerAction u) (.load (.throws .typeError)) (.load (.throws .unpackError))
        (some player) (saveActions actions) =
      .ok (some { player with actions := player.actions ++ actions.map AnimationAction.unplayed }) := by
  have hrecord : ∀ a ∈ actions, a.getMsgPackData.length < 2 ^ 32 := by
    intro a ha
    have hle : a.getMsgPackData.length ≤ (saveActions actions).length :=
      length_body_le (List.mem_map_of_mem (f := AnimationAction.entry) ha)
    omega
  have htypes : ∀ entry ∈ actions.map AnimationAction.entry, 0 ≤ entry.1.toInt := by
    intro entry hentry
    obtain ⟨a, -, rfl⟩ := List.mem_map.mp hentry
    exact a.getType.toInt_pos.le
  rw [← foldlM_loadPlayerAction u hrecord]
  exact scanTrack_pack htypes (lt_trans hlength (by decide)) (some player)

/-- A recording that has been saved is loaded with its actions and its pages. -/
lemma exists_loadKeAsPlayerWidget (hopens : env.Opens files) {s : KeSession} (hs : s.Recorded)
    {file : LessonFile} (hsaves : Saves renv s file) (hthis : file.this.length < 2 ^ 31)
    (hactions : file.actions.length < 2 ^ 31) (hstorable : ∀ page ∈ s.document.pages,
      Storable renv ((files (savePage renv page)).page 0).quuid page) :
    ∃ lesson, loadKeAsPlayerWidget env file = .ok (some lesson) ∧
      lesson.actions = s.document.widget.actions.map AnimationAction.unplayed ∧
        ∀ page ∈ s.document.pages, HoldsPage env lesson page := by
  obtain ⟨listing, hperm, hpages⟩ := hsaves.pages
  rw [hsaves.this] at hthis
  rw [hsaves.actions] at hactions
  have hnodup : (listing.map (·.uuid)).Nodup := (hperm.map _).nodup_iff.mpr hs.nodup
  obtain ⟨player, hloop, hnone, hholds, -⟩ := exists_loadPlayerPages hnodup (fun page hpage =>
    exists_loadAsScDocument hopens (hs.settled page (hperm.mem_iff.mp hpage)).1
      (hstorable page (hperm.mem_iff.mp hpage)))
    renv.ke.player.updateDataFromMsgPack fun page _ => OrderedMap.find_empty _
  refine ⟨{ player with
    actions := player.actions ++ s.document.widget.actions.map AnimationAction.unplayed }, ?_, ?_,
    fun page hpage => hholds page (hperm.mem_iff.mpr hpage)⟩
  · have hmagic : ¬ (file.magic1 ≠ 71 ∧ file.magic2 ≠ 89) := fun h => h.1 hsaves.magic1
    rw [loadKeAsPlayerWidget, if_neg hmagic, hsaves.this, hsaves.actions,
      loadPlayerFile_saveThisFile env.uninitialised hthis, hpages]
    show (do
      let player ← (listing.map (savePage renv)).foldlM (loadPlayerPage env)
        (some renv.ke.player.updateDataFromMsgPack)
      let player ← scanTrack (loadPlayerAction env.uninitialised) (.load (.throws .typeError))
        (.load (.throws .unpackError)) player (saveActions s.document.widget.actions)
      initMedia player) = _
    rw [hloop]
    exact congrArg (· >>= initMedia) (scanTrack_saveActions env.uninitialised hactions player)
  · rw [hnone]
    exact List.nil_append _

end KeFile

/-! ## What is played -/

namespace KeSession

variable {renv : RecorderSurroundings} {env : PlayerSurroundings} {files : Bytes → FileSurroundings}

/-- The outline of the lesson that is loaded has what a session has recorded. -/
lemma Recorded.outline_holds {s : KeSession} (hs : s.Recorded) {file : LessonFile} {lesson : PlayerWidget}
    (hclears : env.Clears) (hload : KeFile.loadKeAsPlayerWidget env file = .ok (some lesson))
    (hactions : lesson.actions = s.document.widget.actions.map AnimationAction.unplayed)
    (hpages : ∀ page ∈ s.document.pages, KeFile.HoldsPage env lesson page) :
    lesson.outline.Holds env.outline s where
  isLesson := by
    refine ((KeFile.asLoaded_of_load hload).outline hclears).isLesson (fun a ha => ?_)
      (env.outline_resetsAsLoaded _)
    have ha' : a ∈ lesson.actions := ha
    rw [hactions] at ha'
    obtain ⟨b, hb, rfl⟩ := List.mem_map.mp ha'
    obtain ⟨page, hpage, huuid⟩ := List.mem_map.mp (hs.known b hb)
    obtain ⟨bytes, loaded, -, -, hfind⟩ := hpages page hpage
    have htarget : (AnimationAction.unplayed b).targetScUuid = page.uuid := huuid.symm
    rw [PlayerWidget.hasPage_eq_of_find (lesson.find_outline _), PlayerWidget.hasPage, htarget, hfind]
    rfl
  actions := hactions
  pages page hpage := by
    obtain ⟨bytes, loaded, -, hstocks, hfind⟩ := hpages page hpage
    have hempty : lesson.outline.allPages.find page.uuid = some (some loaded.outline.cleared) := by
      rw [PlayerWidget.find_outline, hfind, ← hclears loaded]
      rfl
    exact ⟨_, hempty, hstocks.settled.stocked.similar loaded.cleared.similar_outline, rfl,
      fun uuid huuid => loaded.holdsUuid_outline.mpr (hstocks.elements uuid huuid)⟩

/-- What a session has recorded is saved and loaded as a lesson that shows, at every time behind the
switch to the first page, what the recorder showed when it had recorded the actions before that time:
the same page, with the same elements in the same order of drawing.  That is so where the lesson is
played up to the time from its start, and, after any events and up to the total time, where a pausing
player seeks the time, where one that is not pausing comes to it after a seek, and where the player goes to
it. -/
theorem plays_recorded (hopens : env.Opens files) (hclears : env.Clears) (now : Instant)
    (hadesTime : Int32) (uuid : Bytes) {es : List (Instant × SessionEvent)} {s : KeSession}
    (hrun : (keSessions (new now hadesTime uuid)).Run (new now hadesTime uuid) es s)
    {file : LessonFile} (hsaves : KeFile.Saves renv s file) (hthis : file.this.length < 2 ^ 31)
    (hactions : file.actions.length < 2 ^ 31) (hstorable : ∀ page ∈ s.document.pages,
      KeFile.Storable renv ((files (KeFile.savePage renv page)).page 0).quuid page) :
    ∃ lesson, KeFile.loadKeAsPlayerWidget env file = .ok (some lesson) ∧
      ∀ time, hadesTime < time → ∃ es₁ es₂ r page, es = es₁ ++ es₂ ∧
        (keSessions (new now hadesTime uuid)).Run (new now hadesTime uuid) es₁ r ∧
        (keSessions (new now hadesTime uuid)).Run r es₂ s ∧
        r.document.widget.actions = actionsBefore time s.document.widget.actions ∧
        r.current = some page ∧
        (∀ times : List Int32, (times ++ [time]).Pairwise (· ≤ ·) →
          Gives ((times ++ [time]).foldlM (PlayerWidget.animatedTriggered env) lesson)
            (·.Draws page)) ∧
        ∀ (events : List PlayerEvent) (player : PlayerWidget),
          events.foldlM (PlayerWidget.next env) lesson = .ok player →
            ∀ keTime now totalTime, time ≤ totalTime →
              (keTime.isPausing →
                Gives (LessonWindow.onGotoPosition env now time ⟨player, keTime, totalTime⟩)
                  (·.player.Draws page)) ∧
              (¬ keTime.isPausing → ∀ position ≤ totalTime,
                Gives (LessonWindow.onGotoPosition env now position ⟨player, keTime, totalTime⟩) fun w =>
                  ∀ now', w.keTime.getAnimatedTime now' = time →
                    Gives (w.animatedTriggered env now') (·.player.Draws page)) ∧
              Gives (LessonWindow.gotoTime env now time ⟨player, keTime, totalTime⟩)
                (·.player.Draws page) := by
  have hnew := recorded_new now hadesTime uuid
  have hs := (hnew.run hrun).1
  obtain ⟨lesson, hload, hplayed, hpages⟩ :=
    KeFile.exists_loadKeAsPlayerWidget hopens hs hsaves hthis hactions hstorable
  have hholds := hs.outline_holds hclears hload hplayed hpages
  refine ⟨lesson, hload, fun time hbehind => ?_⟩
  -- The switch to the first page has the time of the stopwatch that is not set yet.
  have htime : ∀ a ∈ (new now hadesTime uuid).document.widget.actions, a.time < time := by
    intro a ha
    have heq : a = _ := List.mem_singleton.mp ha
    rw [heq]
    exact hbehind
  obtain ⟨others, hothers⟩ := (hnew.run hrun).2.2
  have hfirst : s.document.widget.actions.head? =
      some ⟨uuid, [], hadesTime, .switchPage, false⟩ := by
    rw [← hothers]
    rfl
  obtain ⟨es₁, es₂, r, hes, hbefore, hafter, hrecorded⟩ := hnew.exists_before hrun htime
  have hr := (hnew.run hbefore).1
  obtain ⟨page, hcurrent, hticks, hseeks⟩ := hholds.gives_draws hr (hr.run hafter).2.1 hrecorded hfirst
    rfl hbehind
  refine ⟨es₁, es₂, r, page, hes, hbefore, hafter, hrecorded, hcurrent, fun times htimes => ?_,
    fun events player hevents keTime now totalTime hend => ?_⟩
  · exact (hticks times htimes).of_map_eq (PlayerWidget.outline_ticks lesson.outline_outline _)
      fun _ _ => PlayerWidget.Draws.of_outline_eq
  · -- The outline has come through the same events.
    obtain ⟨outlined, houtlined, hsame⟩ : Gives (events.foldlM (PlayerWidget.next env.outline)
        lesson.outline) (·.outline = player.outline) := by
      have hsame := PlayerWidget.outline_foldlM_next hclears lesson.outline_outline.symm events
      rw [hevents] at hsame
      have hplayer : Gives (.ok player : Except PlayerFault PlayerWidget) (· = player) := .ok rfl
      exact hplayer.of_map_eq hsame fun p q heq hp => by rw [← heq, hp]
    obtain ⟨hseek, hgoto⟩ := hseeks events outlined houtlined
    have hnext : ∀ event, (outlined.next env.outline event).map PlayerWidget.outline =
        (player.next env event).map PlayerWidget.outline := fun event =>
      (PlayerWidget.outline_next hclears hsame.symm event).symm
    exact LessonWindow.gives_seeks hend
      (hseek.of_map_eq (hnext (.gotoPosition true time)) fun _ _ => PlayerWidget.Draws.of_outline_eq)
      (hgoto.of_map_eq (hnext (.gotoTime time)) fun _ _ => PlayerWidget.Draws.of_outline_eq) keTime now

/-- A line on the first page, and a second page. -/
def lineRecording : List (Instant × SessionEvent) :=
  [(0, .clock (.recordTime 10)),
    (0, .edit (.addNew 1 (.new [2] (.line ⟨0, 0⟩ ⟨10, 10⟩)) false false)),
    (0, .clock (.recordTime 20)), (0, .newPage [5])]

/-- The session after them. -/
def lineSession : KeSession :=
  (lineRecording.foldlM (fun s e => KeSession.next e.1 s e.2) (new 0 0 [1])).getD (new 0 0 [1])

/-- Surroundings without helpers, init states and random bytes. -/
def plainRecorder : RecorderSurroundings :=
  ⟨unzoomed, ⟨fun _ => [], fun _ => []⟩, fun _ _ => .none, fun _ => [], [], ⟨1278, 732, 20⟩⟩

/-- The files of pages are opened one after the other. -/
def plainFiles : FileSurroundings :=
  ⟨fun _ => emptyViewers Encodable.encode, fun _ => [], fun _ => [], fun _ => ⟨0, 0⟩⟩

/-- Surroundings in which pages are loaded from their files.  The elements of a page that has not been
changed are reset by clearing its drawing. -/
def savedDocument : PlayerSurroundings where
  uninitialised := ⟨0, false⟩
  doubles := ⟨fun _ _ => SMatrix.one, fun n _ => n⟩
  loadAsScDocument bytes := (BanFile.loadScDocument plainFiles [] false bytes).map fun document =>
    match document with
    | some (.basic page) => some page
    | _ => none
  resetElementToInit page := { page with drawingElements := [], highlightElement := none }

/-- The files of the session. -/
def lineFile : LessonFile where
  magic1 := 71
  magic2 := 89
  this := KeFile.saveThisFile [] ⟨1278, 732, 20⟩
  pages := lineSession.document.pages.map (KeFile.savePage plainRecorder)
  actions := KeFile.saveActions lineSession.document.widget.actions

/-- The lesson that is loaded shows the pages of the recorder. -/
theorem plays_recorded_lineSession : ∃ lesson,
    KeFile.loadKeAsPlayerWidget savedDocument lineFile = .ok (some lesson) ∧
      ∃ (r : KeSession) (page : Page),
        r.document.widget.actions = actionsBefore 15 lineSession.document.widget.actions ∧
          r.current = some page ∧
          Gives (LessonWindow.gotoTime savedDocument 0 15 ⟨lesson, .new 0, 20⟩) (·.player.Draws page) := by
  have hrun : (keSessions (new 0 0 [1])).Run (new 0 0 [1]) lineRecording lineSession := by
    refine .cons ⟨trivial, rfl⟩ (.cons ⟨⟨trivial, fun page hpage => ?_⟩, rfl⟩
      (.cons ⟨trivial, rfl⟩ (.cons ⟨?_, rfl⟩ (.nil _))))
    · obtain rfl := Option.some.inj hpage
      exact ⟨trivial, rfl, fun p hp => absurd hp List.not_mem_nil⟩
    · show ∀ page ∈ _, _
      decide +kernel
  have hopens : savedDocument.Opens fun _ => plainFiles := by
    refine ⟨fun bytes page hload => ?_, fun _ => ⟨fun _ => rfl, fun _ _ _ => rfl,
      Encodable.encode_injective⟩⟩
    show (BanFile.loadScDocument plainFiles [] false bytes).map _ = _
    rw [hload]
    rfl
  have hstorable : ∀ page ∈ lineSession.document.pages, KeFile.Storable plainRecorder id page := by
    have hfiles : ∀ page ∈ lineSession.document.pages,
        (KeFile.savePage plainRecorder page).length < 2 ^ 31 ∧
          ∀ e ∈ (KeFile.statedPage plainRecorder page).saved unzoomed ⟨fun _ => [], fun _ => []⟩ true,
            e.body.sourceUuid = none ∧ e.body.viewer? = none := by
      decide +kernel
    intro page hpage
    obtain ⟨hlength, hplain⟩ := hfiles page hpage
    refine ⟨rfl, hlength, fun i e he uuid huuid => ?_, fun e he test data hviewer => ?_⟩
    · rw [(hplain e (List.mem_of_getElem? he)).1] at huuid
      cases huuid
    · rw [(hplain e he).2] at hviewer
      cases hviewer
  have hsaves : KeFile.Saves plainRecorder lineSession lineFile := ⟨rfl, rfl, rfl, rfl, _, .refl _, rfl⟩
  obtain ⟨lesson, hload, hplays⟩ := plays_recorded hopens (fun _ => rfl) 0 0 [1] hrun hsaves
    (by decide +kernel) (by decide +kernel) hstorable
  obtain ⟨-, -, r, page, -, -, -, hactions, hcurrent, -, hseeks⟩ := hplays 15 (by decide)
  exact ⟨lesson, hload, r, page, hactions, hcurrent, (hseeks [] lesson rfl (.new 0) 0 20 (by decide)).2.2⟩

end KeSession

end Liangshi
