import Liangshi.Transition.System
import Liangshi.Update.ReleaseListing

/-!
# Updating a client

A client that finds itself out of date asks for the address of the release, loads the list of its files
into the folder `Update`, loads the files whose md5 is not the one of its own list there as well, each by
a request of its own, and starts `update.exe` when the last of them has been answered.  `update.exe` ends
the client, deletes its own successor and moves all that is in `Update` over the client.

A client can be closed at any time, which leaves what has been loaded in `Update`.  Whatever is answered
to a request is written, an error or nothing as well.  Paths are those of the list, of the client's folder
and of `Update` alike.

Left out: a client that is started while `update.exe` waits, a file that takes the place of a folder, a
released file under `Update` itself, and a client that has no later version to update to.
-/

namespace Liangshi

open Wire Ordered Transition

/-! ## The client -/

/-- `HttpFileDownloader`. -/
structure HttpFileDownloader where
  remote : String
  localFile : String
deriving DecidableEq

/-- What an `UpdateProgress` waits for. -/
inductive Awaited where
  | updateUrl
  | json (downloader : HttpFileDownloader)
  | files (downloaders : List HttpFileDownloader)
deriving DecidableEq

/-- `UpdateProgress`. -/
structure UpdateProgress where
  updateUrl : String
  currentCount : Nat
  totalFileCount : Nat
  awaited : Awaited
deriving DecidableEq

namespace UpdateProgress

/-- The constructor, which asks for the address of the release. -/
def new : UpdateProgress := ⟨"", 0, 0, .updateUrl⟩

/-- `OnGetUpdateUrlTriggered`. -/
def onGetUpdateUrlTriggered (p : UpdateProgress) (url : String) : UpdateProgress :=
  { p with updateUrl := url, awaited := .json ⟨url ++ "/all.json", "/all.json"⟩ }

end UpdateProgress

/-- What `OnDownloadJsonTriggered` finds to be loaded. -/
def downloadUrls (remoteMd5 localMd5 : OrderedMap String String) : List String :=
  (remoteMd5.entries.filter fun e =>
    match localMd5.find e.1 with
    | none => true
    | some md5 => md5 != e.2).map Prod.fst

/-- A client: the files of its folder, those of the folder `Update`, and the instances of `update.exe`
that have been started. -/
structure Installation where
  files : OrderedMap String Bytes
  update : OrderedMap String Bytes
  progress : Option UpdateProgress
  updaters : Nat
deriving DecidableEq

namespace Installation

/-- `DownloadedTriggered`. -/
def downloaded (i : Installation) (d : HttpFileDownloader) (data : Bytes) : Installation :=
  { i with update := i.update.insert d.localFile data }

/-- `OnDownloadJsonTriggered`, where the list has been written. -/
def onDownloadJsonTriggered (k : UpdateToolkit) (i : Installation) (p : UpdateProgress)
    (jsonFile : String) : Installation :=
  let remoteMd5 := parseJsonFile k i.update jsonFile
  let localMd5 := parseJsonFile k i.files "/all.json"
  let urls := downloadUrls remoteMd5 localMd5
  if urls.length = 0 then
    { i with progress := none }
  else
    { i with
      progress := some { p with
        totalFileCount := urls.length
        awaited := .files (urls.map fun subfix => ⟨p.updateUrl ++ subfix, subfix⟩) } }

/-- `OnDownloadFileTriggered`, where the file has been written and the other downloads are left. -/
def onDownloadFileTriggered (i : Installation) (p : UpdateProgress)
    (others : List HttpFileDownloader) : Installation :=
  let currentCount := p.currentCount + 1
  { i with
    progress := some { p with currentCount, awaited := .files others }
    updaters := if currentCount ≥ p.totalFileCount then i.updaters + 1 else i.updaters }

/-- `main` of `update.exe`: every client is ended, `DeleteSelf` and `MoveUpdate`. -/
def updated (i : Installation) : Installation :=
  { files := i.files.insertAll (i.update.erase "/update.exe").entries
    update := .empty
    progress := none
    updaters := i.updaters - 1 }

end Installation

/-- What happens to a client. -/
inductive UpdateEvent where
  /-- `OnCheckVersionTriggered` finds a later version. -/
  | outOfDate
  | updateUrl (url : String)
  /-- The list is answered. -/
  | json (data : Bytes)
  /-- A file is answered. -/
  | file (downloader : HttpFileDownloader) (data : Bytes)
  | close
  /-- `update.exe` is done. -/
  | updated

namespace Installation

/-- One event. -/
inductive Step (k : UpdateToolkit) : Installation → UpdateEvent → Installation → Prop where
  | outOfDate {i : Installation} (hprogress : i.progress = none) (hupdaters : i.updaters = 0) :
      Step k i .outOfDate { i with progress := some .new }
  | updateUrl {i : Installation} {p : UpdateProgress} (hprogress : i.progress = some p)
      (hawaited : p.awaited = .updateUrl) (url : String) :
      Step k i (.updateUrl url) { i with progress := some (p.onGetUpdateUrlTriggered url) }
  | json {i : Installation} {p : UpdateProgress} {d : HttpFileDownloader}
      (hprogress : i.progress = some p) (hawaited : p.awaited = .json d) (data : Bytes) :
      Step k i (.json data) ((i.downloaded d data).onDownloadJsonTriggered k p d.localFile)
  | file {i : Installation} {p : UpdateProgress} {ds : List HttpFileDownloader}
      {d : HttpFileDownloader} (hprogress : i.progress = some p) (hawaited : p.awaited = .files ds)
      (hd : d ∈ ds) (data : Bytes) :
      Step k i (.file d data) ((i.downloaded d data).onDownloadFileTriggered p (ds.erase d))
  | close {i : Installation} (hprogress : i.progress.isSome) : Step k i .close { i with progress := none }
  | updated {i : Installation} (hupdaters : 0 < i.updaters) : Step k i .updated i.updated

/-- No client and no `update.exe` is running. -/
def Idle (i : Installation) : Prop := i.progress = none ∧ i.updaters = 0

end Installation

/-- The update of a client, step by step. -/
def autoUpdate (k : UpdateToolkit) : System Installation UpdateEvent where
  init := Installation.Idle
  step := Installation.Step k

/-! ## What is to be loaded -/

/-- What the list in a folder records. -/
def record (k : UpdateToolkit) (files : OrderedMap String Bytes) (path : String) : Option String :=
  (parseJsonFile k files "/all.json").find path

/-- Exactly what is outdated is loaded. -/
lemma mem_downloadUrls {remoteMd5 localMd5 : OrderedMap String String} {path : String} :
    path ∈ downloadUrls remoteMd5 localMd5 ↔ Outdated localMd5.find remoteMd5.find path := by
  have hentry : ∀ md5 : String, (match localMd5.find path with
      | none => true
      | some md5' => md5' != md5) = true ↔ localMd5.find path ≠ some md5 := by
    intro md5
    cases localMd5.find path <;> simp
  simp only [downloadUrls, List.mem_map, List.mem_filter, Prod.exists, exists_and_right, exists_eq_right,
    Outdated]
  constructor
  · rintro ⟨md5, hmem, hlocal⟩
    rw [OrderedMap.find_eq_some.mpr hmem]
    exact ⟨Option.some_ne_none md5, (hentry md5).mp hlocal⟩
  · rintro ⟨hremote, hlocal⟩
    obtain ⟨md5, hmd5⟩ := Option.ne_none_iff_exists'.mp hremote
    rw [hmd5] at hlocal
    exact ⟨md5, OrderedMap.find_eq_some.mp hmd5, (hentry md5).mpr hlocal⟩

/-- No file is loaded twice. -/
lemma nodup_downloadUrls (remoteMd5 localMd5 : OrderedMap String String) :
    (downloadUrls remoteMd5 localMd5).Nodup :=
  remoteMd5.nodup_keys.sublist (List.filter_sublist.map Prod.fst)

/-- The list in a folder is what lies under its name. -/
lemma record_congr {k : UpdateToolkit} {files files' : OrderedMap String Bytes}
    (h : files'.find "/all.json" = files.find "/all.json") : record k files' = record k files := by
  funext path
  rw [record, record, parseJsonFile, parseJsonFile, h]

namespace Installation

variable {k : UpdateToolkit} {i j : Installation} {e : UpdateEvent}

/-- The downloads of files that have not been answered. -/
def downloaders (i : Installation) : List HttpFileDownloader :=
  match i.progress with
  | some ⟨_, _, _, .files ds⟩ => ds
  | _ => []

/-- The files of the list are being loaded or have been loaded. -/
def Fetching (i : Installation) : Prop :=
  i.updaters = 1 ∨ ∃ p ds, i.progress = some p ∧ p.awaited = .files ds

/-- The requests of a download that waits for files. -/
lemma downloaders_of_files {p : UpdateProgress} {ds : List HttpFileDownloader}
    (hprogress : i.progress = some p) (hawaited : p.awaited = .files ds) : i.downloaders = ds := by
  obtain ⟨url, current, total, awaited⟩ := p
  obtain rfl : awaited = .files ds := hawaited
  rw [downloaders, hprogress]

/-- A download that waits for no file is fetching nothing. -/
lemma not_fetching_of_progress {p : UpdateProgress} (hprogress : i.progress = some p)
    (hawaited : ∀ ds, p.awaited ≠ .files ds) (hupdaters : i.updaters = 0) : ¬ i.Fetching := by
  rintro (h | ⟨p', ds, hprogress', hawaited'⟩)
  · omega
  · obtain rfl := Option.some.inj (hprogress.symm.trans hprogress')
    exact hawaited ds hawaited'

/-- What holds of a client at any time.  Every answer is counted, so that `update.exe` is started by the
last one; and while files are being loaded and from then on, each that is outdated has been loaded or is
being loaded. -/
structure Sound (k : UpdateToolkit) (i : Installation) : Prop where
  updaters_le : i.updaters ≤ 1
  waiting : ∀ p ∈ i.progress, (∀ ds, p.awaited ≠ .files ds) → p.currentCount = 0 ∧ i.updaters = 0
  loading : ∀ p ∈ i.progress, ∀ ds, p.awaited = .files ds →
    p.currentCount + ds.length = p.totalFileCount ∧ i.updaters = if ds = [] then 1 else 0
  nodup : (i.downloaders.map (·.localFile)).Nodup
  asks : ∀ p ∈ i.progress, ∀ d, p.awaited = .json d → d = ⟨p.updateUrl ++ "/all.json", "/all.json"⟩
  addresses : ∀ p ∈ i.progress, ∀ d ∈ i.downloaders, d.remote = p.updateUrl ++ d.localFile
  listed : i.Fetching → (i.update.find "/all.json").isSome
  outdated : i.Fetching → ∀ path, Outdated (record k i.files) (record k i.update) path →
    (i.update.find path).isSome ∨ ∃ d ∈ i.downloaders, d.localFile = path

/-- A reply for the list, if the list names itself, is the list that has been read. -/
def KeepsList (i : Installation) : UpdateEvent → Prop
  | .file d data => d.localFile = "/all.json" → i.update.find "/all.json" = some data
  | _ => True

/-- Nothing is asked of a download that is not there. -/
lemma forall_progress_of_none {P : UpdateProgress → Prop} (h : i.progress = none) :
    ∀ p ∈ i.progress, P p := by
  intro p hp
  rw [h] at hp
  cases hp

/-- What holds of the download that is there. -/
lemma forall_progress_of_some {P : UpdateProgress → Prop} {p : UpdateProgress}
    (h : i.progress = some p) (hP : P p) : ∀ q ∈ i.progress, P q := by
  intro q hq
  rw [h] at hq
  obtain rfl := Option.some.inj hq
  exact hP

/-- It is so where no client runs and all that is outdated has been loaded for `update.exe`. -/
lemma sound_of_none (hprogress : i.progress = none) (hupdaters : i.updaters ≤ 1)
    (hlisted : i.updaters = 1 → (i.update.find "/all.json").isSome)
    (hloaded : i.updaters = 1 → ∀ path, Outdated (record k i.files) (record k i.update) path →
      (i.update.find path).isSome) : Sound k i := by
  have hstarted : i.Fetching → i.updaters = 1 := by
    rintro (hstarted | ⟨p, ds, hp, -⟩)
    · exact hstarted
    · exact (forall_progress_of_none hprogress (P := fun _ => False) p hp).elim
  have hnone : i.downloaders = [] := by rw [downloaders, hprogress]
  exact ⟨hupdaters, forall_progress_of_none hprogress, forall_progress_of_none hprogress,
    by simp [hnone], forall_progress_of_none hprogress, forall_progress_of_none hprogress,
    fun h => hlisted (hstarted h), fun h path hpath => .inl (hloaded (hstarted h) path hpath)⟩

/-- It is so of an idle client. -/
lemma Idle.sound (h : i.Idle) : Sound k i :=
  sound_of_none h.1 (by rw [h.2]; omega) (fun hstarted => by rw [h.2] at hstarted; cases hstarted)
    fun hstarted => by rw [h.2] at hstarted; cases hstarted

/-- While the address of the release or its list is awaited, little is to be shown. -/
lemma sound_of_asking {p : UpdateProgress} (hprogress : i.progress = some p)
    (hawaited : ∀ ds, p.awaited ≠ .files ds) (hcount : p.currentCount = 0) (hupdaters : i.updaters = 0)
    (hasks : ∀ d, p.awaited = .json d → d = ⟨p.updateUrl ++ "/all.json", "/all.json"⟩) : Sound k i := by
  have hnone : i.downloaders = [] := by
    obtain ⟨url, current, total, awaited⟩ := p
    rw [downloaders, hprogress]
    cases awaited with
    | files ds => exact absurd rfl (hawaited ds)
    | _ => rfl
  have hfetching := not_fetching_of_progress hprogress hawaited hupdaters
  exact ⟨by omega, forall_progress_of_some hprogress fun _ => ⟨hcount, hupdaters⟩,
    forall_progress_of_some hprogress fun ds hds => absurd hds (hawaited ds), by simp [hnone],
    forall_progress_of_some hprogress hasks, by simp [hnone], fun h => absurd h hfetching,
    fun h => absurd h hfetching⟩

/-- The list has been answered. -/
lemma Sound.json (h : Sound k i) {p : UpdateProgress} {d : HttpFileDownloader}
    (hprogress : i.progress = some p) (hawaited : p.awaited = .json d) (data : Bytes) :
    Sound k ((i.downloaded d data).onDownloadJsonTriggered k p d.localFile) := by
  obtain ⟨hcount, hupdaters⟩ := h.waiting p hprogress fun ds hds => by simp [hawaited] at hds
  obtain rfl := h.asks p hprogress d hawaited
  have hlist : ∀ path, Outdated (record k i.files) (record k (i.update.insert "/all.json" data)) path ↔
      path ∈ downloadUrls (parseJsonFile k (i.update.insert "/all.json" data) "/all.json")
        (parseJsonFile k i.files "/all.json") := fun path => mem_downloadUrls.symm
  unfold onDownloadJsonTriggered
  dsimp only [downloaded]
  split_ifs with hnone
  · exact Idle.sound ⟨rfl, hupdaters⟩
  · refine ⟨by dsimp only; omega, forall_progress_of_some rfl fun hfiles => absurd rfl (hfiles _),
      forall_progress_of_some rfl fun ds hds => ?_, ?_,
      forall_progress_of_some rfl fun d hd => (by cases hd),
      forall_progress_of_some rfl fun d hd => ?_, fun _ => ?_, fun _ path hpath => .inr ?_⟩
    · obtain rfl := Awaited.files.inj hds
      refine ⟨by simp [hcount], ?_⟩
      rw [if_neg fun hempty => hnone (by simpa using hempty)]
      exact hupdaters
    · simpa [downloaders, Function.comp_def] using nodup_downloadUrls _ _
    · obtain ⟨subfix, -, rfl⟩ := List.mem_map.mp hd
      rfl
    · rw [OrderedMap.find_insert, if_pos rfl]
      rfl
    · exact ⟨_, List.mem_map.mpr ⟨path, (hlist path).mp hpath, rfl⟩, rfl⟩

/-- The last answer is the one that leaves no download. -/
lemma updaters_onDownloadFileTriggered {p : UpdateProgress} {ds : List HttpFileDownloader}
    {d : HttpFileDownloader} (hd : d ∈ ds) (htotal : p.currentCount + ds.length = p.totalFileCount)
    (hupdaters : i.updaters = 0) :
    p.currentCount + 1 + (ds.erase d).length = p.totalFileCount ∧
      (i.onDownloadFileTriggered p (ds.erase d)).updaters = if ds.erase d = [] then 1 else 0 := by
  have hlength : (ds.erase d).length + 1 = ds.length := by
    rw [List.length_erase_of_mem hd]
    have := List.length_pos_of_mem hd
    omega
  have hlast : p.currentCount + 1 ≥ p.totalFileCount ↔ ds.erase d = [] := by
    rw [← List.length_eq_zero_iff]
    omega
  refine ⟨by omega, ?_⟩
  simp only [onDownloadFileTriggered, hlast, hupdaters, Nat.zero_add]

/-- A file has been answered. -/
lemma Sound.file (h : Sound k i) {p : UpdateProgress} {ds : List HttpFileDownloader}
    {d : HttpFileDownloader} (hprogress : i.progress = some p) (hawaited : p.awaited = .files ds)
    (hd : d ∈ ds) {data : Bytes} (hkeeps : i.KeepsList (.file d data)) :
    Sound k ((i.downloaded d data).onDownloadFileTriggered p (ds.erase d)) := by
  obtain ⟨htotal, hupdaters⟩ := h.loading p hprogress ds hawaited
  rw [if_neg (List.ne_nil_of_mem hd)] at hupdaters
  have hdownloaders := downloaders_of_files hprogress hawaited
  obtain ⟨hcount, hlast⟩ :=
    updaters_onDownloadFileTriggered (i := i.downloaded d data) hd htotal hupdaters
  have hrecord : record k (i.update.insert d.localFile data) = record k i.update := by
    refine record_congr ?_
    rw [OrderedMap.find_insert]
    split_ifs with hpath
    · exact (hkeeps hpath).symm
    · rfl
  refine ⟨?_, forall_progress_of_some rfl fun hfiles => absurd rfl (hfiles _),
    forall_progress_of_some rfl fun ds' hds' => ?_, ?_,
    forall_progress_of_some rfl fun d hd => (by cases hd),
    forall_progress_of_some rfl fun d' hd' => ?_, fun _ => ?_, fun _ path hpath => ?_⟩
  · rw [hlast]
    split_ifs <;> omega
  · obtain rfl := Awaited.files.inj hds'
    exact ⟨hcount, hlast⟩
  · have hnodup := h.nodup
    rw [hdownloaders] at hnodup
    exact hnodup.sublist (List.erase_sublist.map _)
  · exact h.addresses p hprogress d' (hdownloaders ▸ List.mem_of_mem_erase hd')
  · show ((i.update.insert d.localFile data).find "/all.json").isSome
    rw [OrderedMap.find_insert]
    split_ifs
    · rfl
    · exact h.listed (.inr ⟨p, ds, hprogress, hawaited⟩)
  · change Outdated (record k i.files) (record k (i.update.insert d.localFile data)) path at hpath
    rw [hrecord] at hpath
    show ((i.update.insert d.localFile data).find path).isSome ∨ ∃ d' ∈ ds.erase d, d'.localFile = path
    rw [OrderedMap.find_insert]
    by_cases hloaded : d.localFile = path
    · exact .inl (by rw [if_pos hloaded]; rfl)
    · rw [if_neg hloaded]
      obtain hsome | ⟨d', hd', hpath'⟩ := h.outdated (.inr ⟨p, ds, hprogress, hawaited⟩) path hpath
      · exact .inl hsome
      · rw [hdownloaders] at hd'
        have hne : d' ≠ d := fun heq => hloaded (heq ▸ hpath')
        exact .inr ⟨d', (List.mem_erase_of_ne hne).mpr hd', hpath'⟩

/-- Nothing is being loaded any more when `update.exe` has been started. -/
lemma Sound.downloaders_eq_nil (h : Sound k i) (hstarted : i.updaters = 1) : i.downloaders = [] := by
  unfold downloaders
  split
  · rename_i url current total ds hprogress
    obtain ⟨-, hupdaters⟩ := h.loading _ hprogress ds rfl
    by_contra hne
    rw [hstarted, if_neg hne] at hupdaters
    cases hupdaters
  · rfl

/-- When `update.exe` has been started, all that is outdated has been loaded. -/
lemma Sound.loaded (h : Sound k i) (hstarted : i.updaters = 1) {path : String}
    (hpath : Outdated (record k i.files) (record k i.update) path) : (i.update.find path).isSome := by
  obtain hsome | ⟨d, hd, -⟩ := h.outdated (.inl hstarted) path hpath
  · exact hsome
  · rw [h.downloaders_eq_nil hstarted] at hd
    cases hd

/-- Every step keeps it, as long as the list is kept. -/
lemma Sound.step (h : Sound k i) (hkeeps : i.KeepsList e) (hstep : Step k i e j) : Sound k j := by
  cases hstep with
  | outOfDate hprogress hupdaters =>
    exact sound_of_asking rfl (fun ds hds => by cases hds) rfl hupdaters fun d hd => by cases hd
  | updateUrl hprogress hawaited url =>
    obtain ⟨hcount, hupdaters⟩ := h.waiting _ hprogress fun ds hds => by simp [hawaited] at hds
    refine sound_of_asking rfl (fun ds hds => by cases hds) hcount hupdaters fun d hd => ?_
    exact (Awaited.json.inj hd).symm
  | json hprogress hawaited data => exact h.json hprogress hawaited data
  | file hprogress hawaited hd data => exact h.file hprogress hawaited hd hkeeps
  | close hprogress =>
    exact sound_of_none rfl h.updaters_le (fun hstarted => h.listed (.inl hstarted))
      fun hstarted path => h.loaded hstarted
  | updated hupdaters =>
    have hle := h.updaters_le
    exact Idle.sound ⟨rfl, by dsimp only [Installation.updated]; omega⟩

/-- Every installation that is reached is sound. -/
lemma sound_of_reachable (h : ((autoUpdate k).guarded KeepsList).Reachable i) : Sound k i := by
  refine h.invariant (I := Sound k) (fun s hidle => Idle.sound hidle) ?_
  rintro s e t hs ⟨hkeeps, hstep⟩
  exact hs.step hkeeps hstep

/-- What `update.exe` leaves under a path. -/
lemma find_files_updated (i : Installation) (path : String) :
    i.updated.files.find path =
      laidOver (fun path => if "/update.exe" = path then none else i.update.find path) i.files.find path := by
  rw [updated, OrderedMap.find_insertAll_entries, OrderedMap.find_erase]
  rfl

end Installation

end Liangshi
