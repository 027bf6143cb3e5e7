import Liangshi.Mobile.Remembered

/-!
# Lessons for offline use

How lessons come into the cache of the mobile client and into `LocalSave`: `DownloadAllProgress` loads all
lessons of a class, each by a request of its own, and `PlayerActivity` loads the one that is to be played.
Requests are answered in any order, or fail, and whatever is answered is written to the file of the lesson.
What has been loaded is kept in the course the activity is showing then.

The dialog closes when as many lessons as it began with have been loaded or had been there.  A request that
fails tells nobody, and the dialog has no button to close it, but may be dismissed with the keyboard; its
requests then go on.  So the dialog can close by itself as long as no request has failed
(`closes_iff_none_failed`).

Left out: files that cannot be written, what is shown, and the player: when the file that `PlayerActivity`
has loaded is no lesson, it dereferences a null player, so that it ends before the destructor of `LocalSave`
has saved.
-/

namespace Liangshi

open Ordered Transition Wire

/-! ## The activities -/

/-- `DownloadAllProgress`, with the lessons that are being loaded; it begins when its timer has waited. -/
structure DownloadAllProgress where
  classTitle : QString
  kes : List KeDTO
  currentCount : Nat
  totalFileCount : Nat
  waiting : Bool
  downloaders : List KeDTO
deriving DecidableEq

/-- `PlayerActivity`: what it was told last to play, and what it is loading. -/
structure PlayerActivity where
  classTitle : QString
  keDTO : KeDTO
  downloaders : List QString
deriving DecidableEq

/-- The mobile client; the requests of dialogs that are gone are abandoned. -/
structure Mobile where
  files : KeCacheFolder
  progress : Option DownloadAllProgress
  player : Option PlayerActivity
  abandoned : List QString

/-- The file of a lesson is there and has its size. -/
def KeCacheFolder.IsComplete (files : KeCacheFolder) (ke : KeDTO) : Prop :=
  files.HasSize ke ∧ (files.find ke.url.text).isSome

instance (files : KeCacheFolder) (ke : KeDTO) : Decidable (files.IsComplete ke) :=
  inferInstanceAs (Decidable (_ ∧ _))

namespace Mobile

/-- An answer is written to the file of a lesson. -/
def written (m : Mobile) (url : QString) (data : Bytes) : Mobile :=
  { m with files := m.files.insert url.text data }

/-- The files once an answer has been written. -/
lemma find_written (m : Mobile) (url : QString) (data : Bytes) (name : List Nat) :
    (m.written url data).files.find name = if url.text = name then some data else m.files.find name := by
  simp [written]

/-- The dialog is gone. -/
def close (m : Mobile) (p : DownloadAllProgress) : Mobile :=
  { m with progress := none, abandoned := m.abandoned ++ p.downloaders.map (·.url) }

end Mobile

namespace DownloadAllProgress

/-- The constructor. -/
def new (classTitle : QString) (kes : List KeDTO) : DownloadAllProgress := ⟨classTitle, kes, 0, 0, true, []⟩

/-- The loop of `BeginDownload`: the dialog after it, whether it has been closed, and what is kept. -/
def beginLoop (files : KeCacheFolder) (p : DownloadAllProgress) :
    List KeDTO → DownloadAllProgress × Bool × List SaveEdit
  | [] => (p, false, [])
  | dto :: dtos =>
    if files.IsComplete dto then
      let p' := { p with currentCount := p.currentCount + 1 }
      if p'.currentCount ≥ p'.totalFileCount then
        (p', true, [.addKeFile p.classTitle dto])
      else
        let (q, closed, edits) := beginLoop files p' dtos
        (q, closed, .addKeFile p.classTitle dto :: edits)
    else
      beginLoop files { p with downloaders := p.downloaders ++ [dto] } dtos

end DownloadAllProgress

namespace Mobile

/-- `BeginDownload`; a class without lessons keeps what it has. -/
def beginDownload (m : Mobile) (p : DownloadAllProgress) : Mobile × Option SaveVisit :=
  let p := { p with totalFileCount := p.kes.length, currentCount := 0, waiting := false }
  if p.totalFileCount = 0 then
    (m.close p, none)
  else
    let (q, closed, edits) := p.beginLoop m.files p.kes
    (if closed then m.close q else { m with progress := some q },
      some ⟨m.files, .cleanKeCount p.classTitle 0 :: edits ++ [.cleanKeCount p.classTitle p.kes.length]⟩)

/-- `DownloadKeFileTriggered` of the dialog, where the file has been written. -/
def downloadKeFileTriggered (m : Mobile) (p : DownloadAllProgress) (ke : KeDTO) : Mobile :=
  let p := { p with currentCount := p.currentCount + 1, downloaders := p.downloaders.erase ke }
  if p.currentCount ≥ p.totalFileCount then m.close p else { m with progress := some p }

/-- The dialog that counts leaves the files. -/
lemma files_downloadKeFileTriggered (m : Mobile) (p : DownloadAllProgress) (ke : KeDTO) :
    (m.downloadKeFileTriggered p ke).files = m.files := by
  rw [downloadKeFileTriggered]
  dsimp only
  split_ifs <;> rfl

/-- The dialog that counts leaves the player. -/
lemma player_downloadKeFileTriggered (m : Mobile) (p : DownloadAllProgress) (ke : KeDTO) :
    (m.downloadKeFileTriggered p ke).player = m.player := by
  rw [downloadKeFileTriggered]
  dsimp only
  split_ifs <;> rfl

/-- `UpdateData` of the player, with `DownloadKe`. -/
def updateData (m : Mobile) (classTitle : QString) (keDTO : KeDTO) : Mobile × Option SaveVisit :=
  let downloaders := (m.player.map (·.downloaders)).getD []
  if m.files.IsComplete keDTO then
    ({ m with player := some ⟨classTitle, keDTO, downloaders⟩ },
      some ⟨m.files, [.addKeFile classTitle keDTO]⟩)
  else
    ({ m with player := some ⟨classTitle, keDTO, downloaders ++ [keDTO.url]⟩ }, none)

/-- A request of the player is not waited for any more. -/
def answered (m : Mobile) (p : PlayerActivity) (url : QString) : Mobile :=
  { m with player := some { p with downloaders := p.downloaders.erase url } }

end Mobile

/-! ## What happens -/

/-- What happens to the mobile client. -/
inductive MobileEvent where
  /-- An activity opens `LocalSave` to read it. -/
  | visited
  | loggedIn (username password : QString) (remember : Bool)
  | cookie (cookie : QString)
  /-- `OnDownlaodALLClicked`. -/
  | downloadAll (classTitle : QString) (kes : List KeDTO)
  /-- The timer of the dialog. -/
  | beginDownload
  | downloaded (ke : KeDTO) (data : Bytes)
  | failed (ke : KeDTO)
  | dismissed
  | abandonedAnswered (url : QString) (answer : Option Bytes)
  /-- `OnGotoNewPlay`. -/
  | updateData (classTitle : QString) (keDTO : KeDTO)
  | playerDownloaded (url : QString) (data : Bytes)
  | playerFailed (url : QString)

/-- One event, with the visit of `LocalSave` that it makes. -/
inductive Mobile.Step : Mobile → MobileEvent → Option SaveVisit → Mobile → Prop where
  | visited (m : Mobile) : Step m .visited (some ⟨m.files, []⟩) m
  | loggedIn (m : Mobile) (username password : QString) (remember : Bool) :
      Step m (.loggedIn username password remember)
        (some ⟨m.files, [.login username password remember]⟩) m
  | cookie (m : Mobile) (cookie : QString) : Step m (.cookie cookie) (some ⟨m.files, [.cookie cookie]⟩) m
  | downloadAll {m : Mobile} (hprogress : m.progress = none) (classTitle : QString) (kes : List KeDTO) :
      Step m (.downloadAll classTitle kes) none { m with progress := some (.new classTitle kes) }
  | beginDownload {m : Mobile} {p : DownloadAllProgress} (hprogress : m.progress = some p)
      (hwaiting : p.waiting = true) : Step m .beginDownload (m.beginDownload p).2 (m.beginDownload p).1
  | downloaded {m : Mobile} {p : DownloadAllProgress} {ke : KeDTO} (hprogress : m.progress = some p)
      (hke : ke ∈ p.downloaders) (data : Bytes) :
      Step m (.downloaded ke data)
        (some ⟨(m.written ke.url data).files, [.addKeFile p.classTitle ke]⟩)
        ((m.written ke.url data).downloadKeFileTriggered p ke)
  | failed {m : Mobile} {p : DownloadAllProgress} {ke : KeDTO} (hprogress : m.progress = some p)
      (hke : ke ∈ p.downloaders) :
      Step m (.failed ke) none
        { m with progress := some { p with downloaders := p.downloaders.erase ke } }
  | dismissed {m : Mobile} {p : DownloadAllProgress} (hprogress : m.progress = some p) :
      Step m .dismissed none (m.close p)
  | abandonedAnswered {m : Mobile} {url : QString} (hurl : url ∈ m.abandoned) (answer : Option Bytes) :
      Step m (.abandonedAnswered url answer) none
        { answer.elim m (m.written url) with abandoned := m.abandoned.erase url }
  | updateData {m : Mobile} (hprogress : m.progress = none) (classTitle : QString) (keDTO : KeDTO) :
      Step m (.updateData classTitle keDTO) (m.updateData classTitle keDTO).2
        (m.updateData classTitle keDTO).1
  | playerDownloaded {m : Mobile} {p : PlayerActivity} {url : QString} (hplayer : m.player = some p)
      (hurl : url ∈ p.downloaders) (data : Bytes) :
      Step m (.playerDownloaded url data)
        (some ⟨(m.written url data).files, [.addKeFile p.classTitle p.keDTO]⟩)
        ((m.written url data).answered p url)
  | playerFailed {m : Mobile} {p : PlayerActivity} {url : QString} (hplayer : m.player = some p)
      (hurl : url ∈ p.downloaders) : Step m (.playerFailed url) none (m.answered p url)

/-- The mobile client; nothing is being loaded at first. -/
def mobile : Worker Mobile MobileEvent SaveVisit where
  init m := m.progress = none ∧ m.player = none ∧ m.abandoned = []
  step := Mobile.Step

end Liangshi
