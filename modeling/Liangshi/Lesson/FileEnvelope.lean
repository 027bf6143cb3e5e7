import Liangshi.Board.SectionReaders
import Liangshi.Lesson.PlayerWidget

/-!
# Files that are read back

A board file and the head of a lesson are written alike: header, version, random bytes, and one
section.  The readers tell their parts by what they are and by what has been seen, not by their
places.  The random bytes come before any type and the payload after one, so each is taken for what it
is, whatever bytes they are (`this_roundTrip`).
-/

namespace Liangshi

open Wire MessagePack BanFile

/-- What a `KeWidget` packs of itself. -/
structure KeRecord where
  pageWidth : Int32
  pageHeight : Int32
  totalTime : Int32

namespace KeRecord

/-- The record. -/
def toObj (ke : KeRecord) : Obj :=
  .array [Codec.int32.toObj ke.pageWidth, Codec.int32.toObj ke.pageHeight,
    Codec.int32.toObj ke.totalTime]

/-- `GetMsgPackData`. -/
def getMsgPackData (ke : KeRecord) : Bytes := ke.toObj.pack

/-- `GetType`. -/
def getType : Int32 := 1030

/-- The player of a lesson before its size is looked at. -/
def player (ke : KeRecord) : PlayerWidget :=
  ⟨ke.pageWidth, ke.pageHeight, ke.totalTime, .empty, [], none⟩

end KeRecord

namespace KeFile

/-- `SaveThisFile`. -/
def saveThisFile (filler : Bytes) (ke : KeRecord) : Bytes :=
  packThis filler KeRecord.getType ke.getMsgPackData

/-- The record of a lesson converts to its player. -/
lemma convert_toObj (u : Uninitialised) (ke : KeRecord) :
    PlayerWidget.convert u ke.toObj = some ke.player := by
  simp [PlayerWidget.convert, KeRecord.toObj, KeRecord.player]

/-- The record of a lesson is read by a new player. -/
lemma loadRecord_getMsgPackData (u : Uninitialised) (ke : KeRecord) :
    loadRecord u ke.getMsgPackData = .ok ke.player := by
  have hint : ∀ i : Int32, (Codec.int32.toObj i).Packable (embedStackSize - 1) := fun i =>
    packable_ofInt (Int32.le_toInt i) (Int32.toInt_lt i)
  have hpackable : ke.toObj.Packable embedStackSize :=
    ⟨Nat.succ_pos _, by simp, hint _, hint _, hint _, trivial⟩
  have hunpack := unpackOne_pack hpackable []
  rw [List.append_nil] at hunpack
  rw [loadRecord, KeRecord.getMsgPackData, hunpack]
  simp only [convert_toObj]

/-- The loop over the objects of a lesson's head hands the payload to a new player. -/
lemma readThis_thisObjects (u : Uninitialised) (filler payload : Bytes) :
    readThis u (thisObjects header materialFileCurrenVersion filler [(KeRecord.getType, payload)]) =
      (loadRecord u payload).map fun player =>
        ⟨true, true, true, KeRecord.getType, some player⟩ := by
  have hpayload : nextObject u ⟨true, true, true, KeRecord.getType, none⟩ (.raw payload) =
      (loadRecord u payload).map fun player =>
        ⟨true, true, true, KeRecord.getType, some player⟩ := rfl
  show nextObject u ⟨true, true, true, KeRecord.getType, none⟩ (.raw payload) >>= pure = _
  rw [hpayload]
  cases loadRecord u payload <;> rfl

end KeFile

namespace BanFile

/-- The loop over a file with one section of a known type hands its payload to a new document of the
type. -/
lemma loadScDocument_saveThisFile (env : FileSurroundings) (tempFolder : Bytes) (direct : Bool)
    (filler payload : Bytes) (type : ScType)
    (hround : unpackAll (saveThisFile filler type payload) =
      (thisObjects header materialFileCurrenVersion filler [(type.toInt, payload)], .finished)) :
    loadScDocument env tempFolder direct (saveThisFile filler type payload) =
      (sectionDocument env (if direct then some (tempFolder ++ scriptDeps) else none) 0
        (type, payload)).map fun d => some d.updateDataFromMsgPack := by
  have hsection (deps : Option Bytes) : [(type.toInt, payload)].foldlM
      (readSection (readDocument env deps)) (0, 0, none) =
        (sectionDocument env deps 0 (type, payload)).map fun d => (type.toInt, 1, some d) := by
    rw [List.foldlM_cons, readSection_known _ (ScType.ofInt?_toInt type), readDocument_known]
    cases sectionDocument env deps 0 (type, payload) <;> rfl
  rw [loadScDocument, readThis_eq _ _ hround (by decide), hsection]
  cases sectionDocument env (if direct then some (tempFolder ++ scriptDeps) else none) 0
    (type, payload) <;> rfl

end BanFile

/-- What was written to a board file is handed to a new document of its type, and what was written to
a lesson is restored in a player, whatever the random bytes are. -/
theorem this_roundTrip (filler : Bytes) :
    (∀ (env : FileSurroundings) (tempFolder : Bytes) (direct : Bool) (type : ScType) (payload : Bytes),
      unpackAll (saveThisFile filler type payload) =
        (thisObjects header materialFileCurrenVersion filler [(type.toInt, payload)], .finished) →
      loadScDocument env tempFolder direct (saveThisFile filler type payload) =
        ((BanDocument.new (env.documentUuid 0)
          (if direct then some (tempFolder ++ scriptDeps) else none) type).setMsgPackData
            (env.page 0) payload).map fun d => some d.updateDataFromMsgPack) ∧
    ∀ (u : Uninitialised) (ke : KeRecord),
      unpackAll (KeFile.saveThisFile filler ke) =
        (thisObjects header materialFileCurrenVersion filler
          [(KeRecord.getType, ke.getMsgPackData)], .finished) →
      ∃ player, KeFile.loadPlayerFile u (KeFile.saveThisFile filler ke) = .ok (some player) ∧
        (0 < ke.pageWidth → player.pageWidth = ke.pageWidth) ∧
        (0 < ke.pageHeight → player.pageHeight = ke.pageHeight) ∧
        player.totalTime = ke.totalTime := by
  constructor
  · intro env tempFolder direct type payload hround
    exact loadScDocument_saveThisFile env tempFolder direct filler payload type hround
  · intro u ke hround
    refine ⟨ke.player.updateDataFromMsgPack, ?_, fun h => if_pos h, fun h => if_pos h, rfl⟩
    rw [KeFile.loadPlayerFile, hround, KeFile.readThis_thisObjects,
      KeFile.loadRecord_getMsgPackData]
    rfl

/-- A filler whose bytes look like a header, a version and a type. -/
def lookalike : Bytes := header ++ [0x05, 0xcd, 0x04, 0x00]

/-- A page with a line on it. -/
def linedPage : Page := (Page.new [1]).addNew 1 (.new [2] (.line ⟨0, 0⟩ ⟨10, 10⟩)) false false

/-- Behind such a filler a page is read back with its line, and the head of a lesson with its numbers. -/
theorem this_roundTrip_lookalike :
    (∃ page, loadScDocument plainFile [] false (saveThisFile lookalike .basic linedPage.data) =
        .ok (some (.basic page)) ∧
      page.uuid = [1] ∧ page.drawingElements.map page.uuidOf = [some [2]]) ∧
    ∃ player, KeFile.loadPlayerFile ⟨0, false⟩
        (KeFile.saveThisFile lookalike ⟨800, 600, 42⟩) = .ok (some player) ∧
      player.pageWidth = 800 ∧ player.pageHeight = 600 := by
  obtain ⟨hdocument, hplayer⟩ := this_roundTrip lookalike
  constructor
  · have hread : ((Page.new []).setMsgPackData (plainFile.page 0) linedPage.data).toOption.map
        (fun page => (page.uuid, page.drawingElements.map page.uuidOf)) = some ([1], [some [2]]) := by
      decide +kernel
    have hload := hdocument plainFile [] false .basic linedPage.data
      (unpackAll_thisObjects (by decide +kernel))
    obtain ⟨page, hpage, hshown⟩ := exists_ok_of_map hread
    obtain ⟨huuid, hdrawn⟩ := Prod.mk.inj hshown
    have hdocumentPage : (BanDocument.new [] none .basic).setMsgPackData (plainFile.page 0) linedPage.data =
        .ok (.basic page) := congrArg (Except.map BanDocument.basic) hpage
    refine ⟨page, hload.trans ?_, huuid, hdrawn⟩
    exact congrArg (Except.map fun d : BanDocument => some d.updateDataFromMsgPack) hdocumentPage
  · obtain ⟨player, hload, hwidth, hheight, -⟩ := hplayer ⟨0, false⟩ ⟨800, 600, 42⟩
      (unpackAll_thisObjects (by decide +kernel))
    exact ⟨player, hload, hwidth (by decide), hheight (by decide)⟩

end Liangshi
