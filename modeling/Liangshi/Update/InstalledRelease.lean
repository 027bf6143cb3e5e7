import Liangshi.Update.UpdateProgress

/-!
# What an update installs

However a client is closed in between and in whatever order the files are answered, as long as one release
is served all of the client is either as before or as released, but for `update.exe`, which is never
replaced (`Installation.installs_release`).  Over several releases something of an earlier one may be left
in `Update`: the client stays what its list says exactly as long as `update.exe` moves nothing that the new
list does not say (`Installation.accurate_iff`).
-/

namespace Liangshi

open Wire Ordered Transition

/-! ## Clients and their lists -/

/-- The paths of the files that an update replaces and the list describes. -/
def replaced : Set String := {path | path ≠ "/all.json" ∧ path ≠ "/update.exe"}

namespace Installation

variable {k : UpdateToolkit} {s t i : Installation} {es : List UpdateEvent}

/-- The files of the client are those of its list. -/
def IsAccurate (k : UpdateToolkit) (i : Installation) : Prop :=
  Accurate replaced k.md5 i.files.find (record k i.files)

/-- `update.exe` moves nothing that is not as the list in `Update` says. -/
def MovesListed (k : UpdateToolkit) (i : Installation) : UpdateEvent → Prop
  | .updated => Agrees replaced k.md5 i.update.find (record k i.update)
  | _ => True

/-- Only `update.exe` changes the files of a client. -/
lemma Step.files_eq {e : UpdateEvent} (h : Step k s e t) (he : e ≠ .updated) : t.files = s.files := by
  cases h with
  | json hprogress hawaited data =>
    unfold onDownloadJsonTriggered
    dsimp only
    split_ifs <;> rfl
  | updated => exact absurd rfl he
  | _ => rfl

/-- What runs as `update.exe` has been started. -/
lemma Step.updaters_pos (h : Step k s .updated t) : 0 < s.updaters ∧ t = s.updated := by
  cases h with
  | updated hupdaters => exact ⟨hupdaters, rfl⟩

/-- An event leads to one state. -/
lemma Step.unique {e : UpdateEvent} (h : Step k s e t) (h' : Step k s e i) : t = i := by
  cases h with
  | outOfDate =>
    cases h' with
    | outOfDate => rfl
  | updateUrl hprogress =>
    cases h' with
    | updateUrl hprogress' =>
      obtain rfl := Option.some.inj (hprogress.symm.trans hprogress')
      rfl
  | json hprogress hawaited =>
    cases h' with
    | json hprogress' hawaited' =>
      obtain rfl := Option.some.inj (hprogress.symm.trans hprogress')
      obtain rfl := Awaited.json.inj (hawaited.symm.trans hawaited')
      rfl
  | file hprogress hawaited =>
    cases h' with
    | file hprogress' hawaited' =>
      obtain rfl := Option.some.inj (hprogress.symm.trans hprogress')
      obtain rfl := Awaited.files.inj (hawaited.symm.trans hawaited')
      rfl
  | close =>
    cases h' with
    | close => rfl
  | updated =>
    cases h' with
    | updated => rfl

/-- What `update.exe` leaves is laid over the client. -/
lemma accurate_updated_iff (h : Sound k i) (haccurate : i.IsAccurate k) (hstarted : 0 < i.updaters) :
    i.updated.IsAccurate k ↔ Agrees replaced k.md5 i.update.find (record k i.update) := by
  have hone : i.updaters = 1 := le_antisymm h.updaters_le hstarted
  have hlist : i.updated.files.find "/all.json" = i.update.find "/all.json" := by
    obtain ⟨data, hdata⟩ := Option.isSome_iff_exists.mp (h.listed (.inl hone))
    rw [find_files_updated, laidOver, if_neg (by decide), hdata, Option.some_or]
  have hfind : ∀ path ∈ replaced, i.updated.files.find path =
      laidOver i.update.find i.files.find path := by
    intro path hpath
    rw [find_files_updated, laidOver, laidOver, if_neg fun heq => hpath.2 heq.symm]
  have hlaid : i.updated.IsAccurate k ↔
      Accurate replaced k.md5 (laidOver i.update.find i.files.find) (record k i.update) := by
    rw [IsAccurate, record_congr hlist]
    refine forall₂_congr fun path hpath => ?_
    rw [hfind path hpath]
  rw [hlaid]
  exact Accurate.laidOver_iff haccurate fun path _ hpath => h.loaded hone hpath

/-- A client stays what its list says exactly as long as `update.exe` moves nothing that is not as the list
in `Update` says. -/
theorem accurate_iff (hidle : s.Idle) (haccurate : s.IsAccurate k) (es : List UpdateEvent) :
    ((autoUpdate k).guarded KeepsList).EveryState (IsAccurate k) s es ↔
      ((autoUpdate k).guarded KeepsList).EveryStep (MovesListed k) s es := by
  refine System.everyState_iff (I := Sound k) ⟨hidle.sound, haccurate⟩ ?_ es
  rintro i e j hsound hgood ⟨hkeeps, hstep⟩
  refine ⟨?_, fun _ => hsound.step hkeeps hstep⟩
  by_cases he : e = .updated
  · subst he
    obtain ⟨hstarted, rfl⟩ := hstep.updaters_pos
    exact (accurate_updated_iff hsound hgood hstarted).symm
  · have hmoves : MovesListed k i e := by
      cases e with
      | updated => exact absurd rfl he
      | _ => trivial
    have hfiles : j.IsAccurate k ↔ i.IsAccurate k := by
      unfold IsAccurate
      rw [hstep.files_eq he]
    exact iff_of_true hmoves (hfiles.mpr hgood)

/-- The md5 of the empty file and of one that holds the letter a. -/
def md5OfSmall (content : Bytes) : String :=
  if content = [] then "d41d8cd98f00b204e9800998ecf8427e" else "0cc175b9c0f1b6a831c399e269772661"

/-- The list of two such files. -/
def smallList (content : Bytes) : List JsonObject :=
  [fileJson "/a.txt" (md5OfSmall content), fileJson "/b.txt" (md5OfSmall content)]

/-- The text of an item of the list. -/
def smallItem (name md5 : String) : String :=
  "\x7b\"md5\":\"" ++ md5 ++ "\",\"name\":\"" ++ name ++ "\"\x7d"

/-- The text of the list. -/
def smallText (content : Bytes) : Bytes :=
  ("[" ++ smallItem "/a.txt" (md5OfSmall content) ++ "," ++ smallItem "/b.txt" (md5OfSmall content) ++
    "]").toList.map (·.toNat.toUInt8)

/-- Qt on the lists of empty files and of files that hold the letter a. -/
def smallToolkit : UpdateToolkit where
  md5 := md5OfSmall
  toJson array := smallText (if array = smallList [] then [] else [97])
  fromJson text :=
    if text = smallText [] then some (smallList [])
    else if text = smallText [97] then some (smallList [97])
    else none

/-- What the list of the two files records. -/
def smallRecord (content : Bytes) : OrderedMap String String :=
  (OrderedMap.empty.insert "/a.txt" (md5OfSmall content)).insert "/b.txt" (md5OfSmall content)

/-- The texts of the two lists differ. -/
lemma smallText_ne : smallText [97] ≠ smallText [] := by decide +kernel

/-- The texts are read as the lists. -/
lemma fromJson_smallText {content : Bytes} (h : content = [] ∨ content = [97]) :
    smallToolkit.fromJson (smallText content) = some (smallList content) := by
  obtain rfl | rfl := h
  · simp [smallToolkit]
  · simp [smallToolkit, smallText_ne]

/-- A folder with the list of such files records them. -/
lemma parseJsonFile_small {content : Bytes} (h : content = [] ∨ content = [97])
    {files : OrderedMap String Bytes} (hlist : files.find "/all.json" = some (smallText content)) :
    parseJsonFile smallToolkit files "/all.json" = smallRecord content := by
  rw [parseJsonFile, hlist, Option.getD_some, parseJson, fromJson_smallText h]
  obtain rfl | rfl := h
  · decide +kernel
  · decide +kernel

/-- The md5 of a file that is recorded, and its path. -/
lemma record_small {content : Bytes} (h : content = [] ∨ content = [97])
    {files : OrderedMap String Bytes} (hlist : files.find "/all.json" = some (smallText content))
    {path md5 : String} (hmd5 : record smallToolkit files path = some md5) :
    (path = "/a.txt" ∨ path = "/b.txt") ∧ md5 = md5OfSmall content := by
  rw [record, parseJsonFile_small h hlist, smallRecord, OrderedMap.find_insert, OrderedMap.find_insert,
    OrderedMap.find_empty] at hmd5
  split_ifs at hmd5 with hb ha
  · exact ⟨.inr hb.symm, (Option.some.inj hmd5).symm⟩
  · exact ⟨.inl ha.symm, (Option.some.inj hmd5).symm⟩

/-- A client with two empty files. -/
def smallClient : Installation where
  files := ((OrderedMap.empty.insert "/a.txt" []).insert "/b.txt" []).insert "/all.json" (smallText [])
  update := .empty
  progress := none
  updaters := 0

/-- Its list. -/
lemma list_smallClient : smallClient.files.find "/all.json" = some (smallText []) := by
  rw [smallClient, OrderedMap.find_insert, if_pos rfl]

/-- The client is accurate. -/
lemma isAccurate_smallClient : smallClient.IsAccurate smallToolkit := by
  intro path _ md5 hmd5
  obtain ⟨hpath, rfl⟩ := record_small (.inl rfl) list_smallClient hmd5
  obtain rfl | rfl := hpath
  · decide
  · decide

/-- The download of a file. -/
def smallDownload (name : String) : HttpFileDownloader := ⟨"http://update" ++ name, name⟩

/-- The client while it asks for the list. -/
def askingClient : Installation :=
  { smallClient with progress := some (UpdateProgress.new.onGetUpdateUrlTriggered "http://update") }

/-- The client while it loads the files. -/
def loadingClient : Installation :=
  { smallClient with
    update := OrderedMap.empty.insert "/all.json" (smallText [97])
    progress := some ⟨"http://update", 0, 2, .files [smallDownload "/a.txt", smallDownload "/b.txt"]⟩ }

/-- The client when one of the files has been answered. -/
def halfLoadedClient : Installation :=
  { smallClient with
    update := (OrderedMap.empty.insert "/all.json" (smallText [97])).insert "/b.txt" [97]
    progress := some ⟨"http://update", 1, 2, .files [smallDownload "/a.txt"]⟩ }

/-- The client when both have been answered. -/
def loadedClient : Installation :=
  { smallClient with
    update := ((OrderedMap.empty.insert "/all.json" (smallText [97])).insert "/b.txt" [97]).insert
      "/a.txt" [97]
    progress := some ⟨"http://update", 2, 2, .files []⟩
    updaters := 1 }

/-- The list is answered. -/
lemma step_loadingClient : Step smallToolkit askingClient (.json (smallText [97])) loadingClient := by
  have hstep := Step.json (k := smallToolkit) (i := askingClient) rfl rfl (smallText [97])
  have hloading : (askingClient.downloaded ⟨"http://update/all.json", "/all.json"⟩
      (smallText [97])).onDownloadJsonTriggered smallToolkit
        (UpdateProgress.new.onGetUpdateUrlTriggered "http://update") "/all.json" = loadingClient := by
    have hremote : parseJsonFile smallToolkit (OrderedMap.empty.insert "/all.json" (smallText [97]))
        "/all.json" = smallRecord [97] :=
      parseJsonFile_small (.inr rfl) (by rw [OrderedMap.find_insert, if_pos rfl])
    have hlocal : parseJsonFile smallToolkit smallClient.files "/all.json" = smallRecord [] :=
      parseJsonFile_small (.inl rfl) list_smallClient
    have hurls : downloadUrls (smallRecord [97]) (smallRecord []) = ["/a.txt", "/b.txt"] := by
      decide +kernel
    have hread : downloadUrls (parseJsonFile smallToolkit
        (OrderedMap.empty.insert "/all.json" (smallText [97])) "/all.json")
          (parseJsonFile smallToolkit smallClient.files "/all.json") = ["/a.txt", "/b.txt"] := by
      rw [hremote, hlocal, hurls]
    unfold onDownloadJsonTriggered downloaded askingClient
    dsimp only
    rw [show smallClient.update = OrderedMap.empty from rfl, hread]
    rfl
  rwa [← hloading]

/-- The second file is answered. -/
lemma step_halfLoadedClient :
    Step smallToolkit loadingClient (.file (smallDownload "/b.txt") [97]) halfLoadedClient := by
  have hothers : [smallDownload "/a.txt", smallDownload "/b.txt"].erase (smallDownload "/b.txt") =
      [smallDownload "/a.txt"] := by decide +kernel
  have hstep := Step.file (k := smallToolkit) (i := loadingClient) (d := smallDownload "/b.txt") rfl rfl
    (by decide) [97]
  rwa [hothers] at hstep

/-- The first file is answered. -/
lemma step_loadedClient :
    Step smallToolkit halfLoadedClient (.file (smallDownload "/a.txt") [97]) loadedClient := by
  have hothers : [smallDownload "/a.txt"].erase (smallDownload "/a.txt") = [] := by decide +kernel
  have hstep := Step.file (k := smallToolkit) (i := halfLoadedClient) (d := smallDownload "/a.txt") rfl rfl
    (by decide) [97]
  rwa [hothers] at hstep

/-- What has happened to the client until it loads the files. -/
def loadingEvents : List UpdateEvent :=
  [.outOfDate, .updateUrl "http://update", .json (smallText [97])]

/-- The answers, the second file first, and `update.exe`. -/
def installingEvents : List UpdateEvent :=
  [.file (smallDownload "/b.txt") [97], .file (smallDownload "/a.txt") [97], .updated]

variable {condition : Installation → UpdateEvent → Prop}

/-- The files are asked for, whatever is required of the events. -/
lemma run_loadingClient (h : ∀ i, ∀ e ∈ loadingEvents, condition i e) :
    ((autoUpdate smallToolkit).guarded condition).Run smallClient loadingEvents loadingClient := by
  have hstarted : ((autoUpdate smallToolkit).guarded condition).Run smallClient ([] ++ [.outOfDate])
      { smallClient with progress := some .new } :=
    (System.Run.nil smallClient).snoc ⟨h _ _ (by simp [loadingEvents]), .outOfDate rfl rfl⟩
  have hasked : ((autoUpdate smallToolkit).guarded condition).Run smallClient
      ([] ++ [.outOfDate] ++ [.updateUrl "http://update"]) askingClient :=
    hstarted.snoc ⟨h _ _ (by simp [loadingEvents]), .updateUrl rfl rfl "http://update"⟩
  exact hasked.snoc ⟨h _ _ (by simp [loadingEvents]), step_loadingClient⟩

/-- They are answered and installed. -/
lemma run_loadedClient (hloading : ∀ i, ∀ e ∈ loadingEvents, condition i e)
    (hsecond : condition loadingClient (.file (smallDownload "/b.txt") [97]))
    (hfirst : condition halfLoadedClient (.file (smallDownload "/a.txt") [97]))
    (hupdated : condition loadedClient .updated) : ((autoUpdate smallToolkit).guarded condition).Run
      smallClient (loadingEvents ++ installingEvents) loadedClient.updated := by
  have hrun := (((run_loadingClient hloading).snoc ⟨hsecond, step_halfLoadedClient⟩).snoc
    ⟨hfirst, step_loadedClient⟩).snoc ⟨hupdated, .updated (by decide)⟩
  simpa [installingEvents] using hrun

/-- What is in `Update` then is as its list says. -/
lemma movesListed_loadedClient : loadedClient.MovesListed smallToolkit .updated := by
  have hlist : loadedClient.update.find "/all.json" = some (smallText [97]) := by
    simp [loadedClient, OrderedMap.find_insert]
  intro path _ md5 content hmd5 hcontent
  obtain ⟨hpath, rfl⟩ := record_small (.inr rfl) hlist hmd5
  have hletter : loadedClient.update.find path = some [97] := by
    obtain rfl | rfl := hpath
    · decide
    · decide
  rw [← Option.some.inj (hletter.symm.trans hcontent)]
  rfl

/-- `update.exe` installs the two files, and in every state the files are as the list says. -/
theorem accurate_iff_smallClient :
    ((autoUpdate smallToolkit).guarded KeepsList).Run smallClient (loadingEvents ++ installingEvents)
        loadedClient.updated ∧
      loadedClient.updated.files.find "/a.txt" = some [97] ∧
      ((autoUpdate smallToolkit).guarded KeepsList).EveryState (IsAccurate smallToolkit) smallClient
        (loadingEvents ++ installingEvents) := by
  refine ⟨run_loadedClient (fun i e he => ?_) ?_ ?_ trivial, by decide,
    (accurate_iff ⟨rfl, rfl⟩ isAccurate_smallClient _).mpr ?_⟩
  · obtain rfl | rfl | rfl := by simpa [loadingEvents] using he
    all_goals trivial
  · exact fun hname => absurd hname (by decide)
  · exact fun hname => absurd hname (by decide)
  · refine .cons trivial fun i hi => ?_
    obtain rfl := hi.2.unique (.outOfDate rfl rfl)
    refine .cons trivial fun i hi => ?_
    obtain rfl : i = askingClient := hi.2.unique (.updateUrl rfl rfl "http://update")
    refine .cons trivial fun i hi => ?_
    obtain rfl := hi.2.unique step_loadingClient
    refine .cons trivial fun i hi => ?_
    obtain rfl := hi.2.unique step_halfLoadedClient
    refine .cons trivial fun i hi => ?_
    obtain rfl := hi.2.unique step_loadedClient
    exact .cons movesListed_loadedClient fun i _ => .nil i

/-! ## The order of the answers -/

/-- The files of the list are being loaded, every answer so far has been counted, and no two answers are
written to one file. -/
structure Counts (i : Installation) (ds : List HttpFileDownloader) : Prop where
  loading : ∃ p, i.progress = some p ∧ p.awaited = .files ds ∧
    p.currentCount + ds.length = p.totalFileCount
  updaters : i.updaters = if ds = [] then 1 else 0
  nodup : (ds.map (·.localFile)).Nodup

/-- A download that waits for files counts them. -/
lemma Sound.counts (h : Sound k i) {p : UpdateProgress} {ds : List HttpFileDownloader}
    (hprogress : i.progress = some p) (hawaited : p.awaited = .files ds) : i.Counts ds := by
  obtain ⟨htotal, hupdaters⟩ := h.loading p hprogress ds hawaited
  have hnodup := h.nodup
  rw [downloaders_of_files hprogress hawaited] at hnodup
  exact ⟨⟨p, hprogress, hawaited, htotal⟩, hupdaters, hnodup⟩

variable {ds order : List HttpFileDownloader} {data : HttpFileDownloader → Bytes}

/-- A download that has not been answered can be. -/
lemma Counts.answer (h : i.Counts ds) {d : HttpFileDownloader} (hd : d ∈ ds) (content : Bytes) :
    ∃ j, Step k i (.file d content) j := by
  obtain ⟨⟨p, hprogress, hawaited, -⟩, -, -⟩ := h
  exact ⟨_, .file hprogress hawaited hd content⟩

/-- One more answer. -/
lemma Counts.file (h : i.Counts ds) {d : HttpFileDownloader} {content : Bytes} {j : Installation}
    (hstep : Step k i (.file d content) j) :
    d ∈ ds ∧ j.Counts (ds.erase d) ∧ j.update = i.update.insert d.localFile content := by
  obtain ⟨⟨p, hprogress, hawaited, htotal⟩, hupdaters, hnodup⟩ := h
  cases hstep with
  | file hprogress' hawaited' hd =>
    obtain rfl := Option.some.inj (hprogress.symm.trans hprogress')
    obtain rfl := Awaited.files.inj (hawaited.symm.trans hawaited')
    rw [if_neg (List.ne_nil_of_mem hd)] at hupdaters
    obtain ⟨hcount, hlast⟩ :=
      updaters_onDownloadFileTriggered (i := i.downloaded d content) hd htotal hupdaters
    exact ⟨hd, ⟨⟨_, rfl, rfl, hcount⟩, hlast, hnodup.sublist (List.erase_sublist.map _)⟩, rfl⟩

/-- The answers of downloads. -/
def answers (data : HttpFileDownloader → Bytes) (order : List HttpFileDownloader) : List UpdateEvent :=
  order.map fun d => .file d (data d)

/-- After some of the answers the others are awaited, and what was answered lies in `Update`. -/
lemma Counts.run (h : i.Counts ds) {others : List HttpFileDownloader} (hperm : (order ++ others).Perm ds)
    {j : Installation} (hrun : (autoUpdate k).Run i (answers data order) j) :
    (∃ ds', ds'.Perm others ∧ j.Counts ds') ∧ (∀ d ∈ order, j.update.find d.localFile = some (data d)) ∧
      ∀ path, (∀ d ∈ order, d.localFile ≠ path) → j.update.find path = i.update.find path := by
  induction order generalizing i ds with
  | nil =>
    obtain rfl := hrun.of_nil
    exact ⟨⟨ds, hperm.symm, h⟩, List.forall_mem_nil _, fun _ _ => rfl⟩
  | cons d order ih =>
    obtain ⟨mid, hstep, hrest⟩ := hrun.of_cons
    obtain ⟨hd, hcounts, hupdate⟩ := h.file hstep
    have hperm' : (order ++ others).Perm (ds.erase d) := by
      have := hperm.erase d
      rwa [List.cons_append, List.erase_cons_head] at this
    obtain ⟨hothers, hanswered, hkept⟩ := ih hcounts hperm' hrest
    have hnodup : ((d :: (order ++ others)).map (·.localFile)).Nodup :=
      (hperm.map _).nodup_iff.mpr h.nodup
    have hfirst : ∀ d' ∈ order, d'.localFile ≠ d.localFile := by
      intro d' hd' heq
      rw [List.map_cons, List.nodup_cons] at hnodup
      exact hnodup.1 (heq ▸ List.mem_map_of_mem (List.mem_append_left others hd'))
    refine ⟨hothers, fun d' hd' => ?_, fun path hpath => ?_⟩
    · obtain rfl | hd' := List.mem_cons.mp hd'
      · rw [hkept d'.localFile hfirst, hupdate, OrderedMap.find_insert, if_pos rfl]
      · exact hanswered d' hd'
    · rw [hkept path fun d' hd' => hpath d' (List.mem_cons_of_mem d hd'), hupdate,
        OrderedMap.find_insert, if_neg (hpath d List.mem_cons_self)]

/-- Downloads can be answered in any order. -/
lemma Counts.exists_run (h : i.Counts ds) (hperm : order.Perm ds) :
    ∃ j, (autoUpdate k).Run i (answers data order) j := by
  induction order generalizing i ds with
  | nil => exact ⟨i, .nil i⟩
  | cons d order ih =>
    have hd : d ∈ ds := hperm.subset List.mem_cons_self
    obtain ⟨mid, hstep⟩ := h.answer (k := k) hd (data d)
    obtain ⟨-, hcounts, -⟩ := h.file hstep
    have hperm' : order.Perm (ds.erase d) := by
      have := hperm.erase d
      rwa [List.erase_cons_head] at this
    obtain ⟨j, hrest⟩ := ih hcounts hperm'
    exact ⟨j, hrest.cons hstep⟩

/-- In whatever order the files are answered, `update.exe` is started by the last answer and not before,
and then the same files lie in `Update`. -/
theorem started_by_last (hreachable : ((autoUpdate k).guarded KeepsList).Reachable i)
    {p : UpdateProgress} (hprogress : i.progress = some p) (hawaited : p.awaited = .files ds)
    (hperm : order.Perm ds) :
    ∃ j, (autoUpdate k).Run i (answers data order) j ∧ j.updaters = 1 ∧
      (∀ path, j.update.find path =
        ((ds.find? (·.localFile = path)).map data).or (i.update.find path)) ∧
      ∀ first others t, order = first ++ others → others ≠ [] →
        (autoUpdate k).Run i (answers data first) t → t.updaters = 0 := by
  have hcounts := (sound_of_reachable hreachable).counts hprogress hawaited
  obtain ⟨j, hrun⟩ : ∃ j, (autoUpdate k).Run i (answers data order) j := hcounts.exists_run hperm
  have hall : (order ++ []).Perm ds := by rwa [List.append_nil]
  obtain ⟨⟨ds', hds', hlast⟩, hanswered, hkept⟩ := hcounts.run hall hrun
  obtain rfl := hds'.eq_nil
  refine ⟨j, hrun, hlast.updaters, fun path => ?_, fun first others t horder hothers hfirst => ?_⟩
  · cases hfind : ds.find? (·.localFile = path) with
    | none =>
      rw [List.find?_eq_none] at hfind
      refine hkept path fun d hd => ?_
      simpa using hfind d (hperm.subset hd)
    | some d =>
      have hd := hperm.symm.subset (List.mem_of_find?_eq_some hfind)
      obtain rfl : d.localFile = path := by simpa using List.find?_some hfind
      exact hanswered d hd
  · obtain ⟨⟨ds', hds', hmid⟩, -, -⟩ := hcounts.run (horder ▸ hperm) hfirst
    rw [hmid.updaters, if_neg]
    rintro rfl
    exact hothers hds'.symm.eq_nil

/-- The second file is answered before the first. -/
theorem started_by_last_loadingClient :
    let order := [smallDownload "/b.txt", smallDownload "/a.txt"]
    ∃ j, (autoUpdate smallToolkit).Run loadingClient (answers (fun _ => [97]) order) j ∧
      j.updaters = 1 ∧
      (∀ path, j.update.find path = (([smallDownload "/a.txt", smallDownload "/b.txt"].find?
        (·.localFile = path)).map fun _ => [97]).or (loadingClient.update.find path)) ∧
      ∀ first others t, order = first ++ others → others ≠ [] →
        (autoUpdate smallToolkit).Run loadingClient (answers (fun _ => [97]) first) t → t.updaters = 0 :=
  started_by_last ⟨smallClient, loadingEvents, ⟨rfl, rfl⟩, run_loadingClient fun i e he => by
    obtain rfl | rfl | rfl := by simpa [loadingEvents] using he
    all_goals trivial⟩ rfl rfl (.swap _ _ _)

/-! ## One release -/

/-- What the server has of a release, by the path behind its address. -/
def served (k : UpdateToolkit) (folder : Folder) (path : String) : Option Bytes :=
  if path = "/all.json" then some (allJson k folder) else folder.contentAt "" path

/-- The release is served at an address: every request that is answered is answered with it. -/
def Serves (k : UpdateToolkit) (folder : Folder) (url : String) (_ : Installation) : UpdateEvent → Prop
  | .updateUrl url' => url' = url
  | .json data => data = allJson k folder
  | .file d data => ∃ path, d.remote = url ++ path ∧ served k folder path = some data
  | _ => True

/-- All that lies in `Update` is of the release. -/
def HoldsReleased (k : UpdateToolkit) (folder : Folder) (i : Installation) : Prop :=
  ∀ path content, i.update.find path = some content → served k folder path = some content

/-- The address that the client works with is that of the release. -/
def Asks (url : String) (i : Installation) : Prop :=
  ∀ p ∈ i.progress, p.awaited ≠ .updateUrl → p.updateUrl = url

variable {folder : Folder} {url : String}

/-- One more file of the release arrives. -/
lemma HoldsReleased.insert (h : HoldsReleased k folder i) {path : String} {content : Bytes}
    (hserved : served k folder path = some content) {j : Installation}
    (hupdate : j.update = i.update.insert path content) : HoldsReleased k folder j := by
  intro path' content' hcontent
  rw [hupdate, OrderedMap.find_insert] at hcontent
  split_ifs at hcontent with hpath
  · obtain rfl := Option.some.inj hcontent
    rwa [← hpath]
  · exact h path' content' hcontent

/-- Reading a list leaves the files that have been loaded. -/
lemma update_onDownloadJsonTriggered (i : Installation) (p : UpdateProgress) (jsonFile : String) :
    (i.onDownloadJsonTriggered k p jsonFile).update = i.update := by
  unfold onDownloadJsonTriggered
  dsimp only
  split_ifs <;> rfl

/-- The list of the release is served under its own name. -/
lemma served_allJson : served k folder "/all.json" = some (allJson k folder) := if_pos rfl

/-- What is loaded where the release is served. -/
structure Loads (k : UpdateToolkit) (folder : Folder) (url : String) (i : Installation) : Prop where
  sound : Sound k i
  asks : Asks url i
  holds : HoldsReleased k folder i

/-- A file that is answered is the released one. -/
lemma Loads.served_file (h : Loads k folder url i) {p : UpdateProgress} {ds : List HttpFileDownloader}
    {d : HttpFileDownloader} {data : Bytes} (hprogress : i.progress = some p)
    (hawaited : p.awaited = .files ds) (hd : d ∈ ds)
    (hserves : Serves k folder url i (.file d data)) : served k folder d.localFile = some data := by
  obtain ⟨path, hremote, hserved⟩ := hserves
  have haddress := h.sound.addresses p hprogress d (downloaders_of_files hprogress hawaited ▸ hd)
  rw [h.asks p hprogress (by simp [hawaited]), hremote, String.append_right_inj] at haddress
  rwa [← haddress]

/-- While files are loaded, the list in `Update` is that of the release. -/
lemma Loads.list (h : Loads k folder url i) (hfetching : i.Fetching) :
    i.update.find "/all.json" = some (allJson k folder) := by
  obtain ⟨data, hdata⟩ := Option.isSome_iff_exists.mp (h.sound.listed hfetching)
  rw [hdata, ← h.holds "/all.json" data hdata, served_allJson]

/-- While a release is loaded its list is kept. -/
lemma Loads.keepsList (h : Loads k folder url i) {e : UpdateEvent} {j : Installation}
    (hserves : Serves k folder url i e) (hstep : Step k i e j) : i.KeepsList e := by
  cases hstep with
  | file hprogress hawaited hd data =>
    intro hpath
    have hserved := h.served_file hprogress hawaited hd hserves
    rw [hpath, served_allJson] at hserved
    rw [h.list (.inr ⟨_, _, hprogress, hawaited⟩), hserved]
  | _ => trivial

/-- Every step keeps it. -/
lemma Loads.step (h : Loads k folder url i) {e : UpdateEvent} {j : Installation}
    (hserves : Serves k folder url i e) (hstep : Step k i e j) : Loads k folder url j := by
  refine ⟨h.sound.step (h.keepsList hserves hstep) hstep, ?_, ?_⟩
  · cases hstep with
    | outOfDate hprogress hupdaters => exact forall_progress_of_some rfl fun hne => absurd rfl hne
    | updateUrl hprogress hawaited url' => exact forall_progress_of_some rfl fun _ => hserves
    | json hprogress hawaited data =>
      have hurl := h.asks _ hprogress (by simp [hawaited])
      unfold onDownloadJsonTriggered
      dsimp only
      split_ifs
      · exact forall_progress_of_none rfl
      · exact forall_progress_of_some rfl fun _ => hurl
    | file hprogress hawaited hd data =>
      have hurl := h.asks _ hprogress (by simp [hawaited])
      exact forall_progress_of_some rfl fun _ => hurl
    | close hprogress => exact forall_progress_of_none rfl
    | updated hupdaters => exact forall_progress_of_none rfl
  · cases hstep with
    | json hprogress hawaited data =>
      obtain rfl := h.sound.asks _ hprogress _ hawaited
      refine h.holds.insert ?_ (update_onDownloadJsonTriggered _ _ _)
      rw [served_allJson]
      exact congrArg some hserves.symm
    | file hprogress hawaited hd data =>
      exact h.holds.insert (h.served_file hprogress hawaited hd hserves) rfl
    | updated hupdaters =>
      intro path content hcontent
      cases hcontent
    | _ => exact h.holds

/-- A client whose list is that of the release asks for no file. -/
lemma Loads.not_fetching_step (h : Loads k folder url i)
    (hlist : i.files.find "/all.json" = some (allJson k folder)) (hidle : ¬ i.Fetching)
    {e : UpdateEvent} {j : Installation} (hserves : Serves k folder url i e) (hstep : Step k i e j) :
    ¬ j.Fetching := by
  have hupdaters : i.updaters = 0 := by
    have hle := h.sound.updaters_le
    by_contra hne
    exact hidle (.inl (by omega))
  cases hstep with
  | outOfDate hprogress _ => exact not_fetching_of_progress rfl (fun ds hds => by cases hds) hupdaters
  | updateUrl hprogress hawaited url' =>
    exact not_fetching_of_progress rfl (fun ds hds => by cases hds) hupdaters
  | json hprogress hawaited data =>
    obtain rfl := h.sound.asks _ hprogress _ hawaited
    obtain rfl : data = allJson k folder := hserves
    have hnone : downloadUrls (parseJsonFile k (i.update.insert "/all.json" (allJson k folder)) "/all.json")
        (parseJsonFile k i.files "/all.json") = [] := by
      have hsame : parseJsonFile k (i.update.insert "/all.json" (allJson k folder)) "/all.json" =
          parseJsonFile k i.files "/all.json" := by
        rw [parseJsonFile, parseJsonFile, OrderedMap.find_insert, if_pos rfl, hlist]
      rw [hsame, List.eq_nil_iff_forall_not_mem]
      intro path hpath
      exact (mem_downloadUrls.mp hpath).2 rfl
    unfold onDownloadJsonTriggered downloaded
    dsimp only
    rw [hnone, if_pos List.length_nil]
    rintro (hstarted | ⟨p, ds, hp, -⟩)
    · exact absurd (hupdaters.symm.trans hstarted) (by decide)
    · cases hp
  | file hprogress hawaited hd data => exact absurd (.inr ⟨_, _, hprogress, hawaited⟩) hidle
  | close hprogress =>
    rintro (hstarted | ⟨p, ds, hp, -⟩)
    · exact absurd (hupdaters.symm.trans hstarted) (by decide)
    · cases hp
  | updated hpos => omega

/-- What has become of a client's files, as long as one release is served. -/
structure Installed (k : UpdateToolkit) (folder : Folder) (s t : Installation) : Prop where
  idle : ¬ t.Fetching
  files : ∀ path, t.files.find path =
    if path = "/update.exe" then s.files.find path else (served k folder path).or (s.files.find path)

/-- `update.exe` installs the release over an accurate client. -/
lemma Loads.installed (h : Loads k folder url i) (hstarted : 0 < i.updaters)
    (haccurate : i.IsAccurate k) (hwell : folder.WellNamed)
    (hreads : k.Reads (getFolderFileJson k folder ""))
    (htells : TellsApart k.md5 (folder.contentAt "") i.files.find) : Installed k folder i i.updated := by
  have hone : i.updaters = 1 := le_antisymm h.sound.updaters_le hstarted
  have hlist := h.list (.inl hone)
  have hrecord : ∀ path, record k i.update path = (folder.contentAt "" path).map k.md5 := by
    intro path
    rw [record, parseJsonFile, hlist, Option.getD_some, find_parseJson_allJson hwell hreads]
  refine ⟨?_, fun path => ?_⟩
  · rintro (hstarted' | ⟨p, ds, hp, -⟩)
    · dsimp only [updated] at hstarted'
      omega
    · cases hp
  · rw [find_files_updated, laidOver]
    by_cases hexe : path = "/update.exe"
    · rw [if_pos hexe, if_pos hexe.symm, Option.none_or]
    · rw [if_neg hexe, if_neg (Ne.symm hexe)]
      cases hcontent : i.update.find path with
      | some content => rw [h.holds path content hcontent, Option.some_or]
      | none =>
        -- What has not been loaded is not outdated: the client has the released file.
        rw [Option.none_or]
        cases hserved : served k folder path with
        | none => rfl
        | some content =>
          have hjson : path ≠ "/all.json" := by
            rintro rfl
            rw [hlist] at hcontent
            cases hcontent
          rw [served, if_neg hjson] at hserved
          have hnew : record k i.update path = some (k.md5 content) := by rw [hrecord, hserved]; rfl
          have hold : record k i.files path = some (k.md5 content) := by
            by_contra hne
            have houtdated : Outdated (record k i.files) (record k i.update) path := by
              rw [Outdated, hnew]
              exact ⟨Option.some_ne_none _, hne⟩
            have hsome := h.sound.loaded hone houtdated
            rw [hcontent] at hsome
            cases hsome
          have hsum := haccurate path ⟨hjson, hexe⟩ _ hold
          obtain ⟨content', hfile, hmd5⟩ := Option.map_eq_some_iff.mp hsum
          rw [hfile, htells path content content' hserved hfile hmd5]
          rfl

/-- As long as one release is served, the files of an accurate client stay as they are until `update.exe`
is done; from then on all files of the release but `update.exe` are as released, all others as they were,
and nothing is loaded any more. -/
theorem installs_release (hidle : s.Idle) (haccurate : s.IsAccurate k)
    (hholds : HoldsReleased k folder s) (hwell : folder.WellNamed)
    (hreads : k.Reads (getFolderFileJson k folder ""))
    (htells : TellsApart k.md5 (folder.contentAt "") s.files.find)
    (hrun : ((autoUpdate k).guarded (Serves k folder url)).Run s es t) :
    (.updated ∉ es → t.files = s.files) ∧ (.updated ∈ es → Installed k folder s t) := by
  have hloads : Loads k folder url s := ⟨hidle.sound, forall_progress_of_none hidle.1, hholds⟩
  have hboth : Loads k folder url t ∧
      ((.updated ∉ es → t.files = s.files) ∧ (.updated ∈ es → Installed k folder s t)) := by
    induction hrun with
    | nil => exact ⟨hloads, fun _ => rfl, fun hmem => by cases hmem⟩
    | @snoc i j front e hfront hlast ih =>
      obtain ⟨hserves, hstep⟩ := hlast
      obtain ⟨hi, hbefore, hafter⟩ := ih
      refine ⟨hi.step hserves hstep, fun hmem => ?_, fun hmem => ?_⟩
      · rw [List.mem_append, List.mem_singleton, not_or] at hmem
        rw [hstep.files_eq (Ne.symm hmem.2), hbefore hmem.1]
      · by_cases hfrontmem : UpdateEvent.updated ∈ front
        · -- A client that has been updated is not updated again.
          obtain ⟨hfetching, hfiles⟩ := hafter hfrontmem
          have he : e ≠ .updated := by
            rintro rfl
            obtain ⟨hstarted, -⟩ := hstep.updaters_pos
            exact hfetching (.inl (le_antisymm hi.sound.updaters_le hstarted))
          have hlist : i.files.find "/all.json" = some (allJson k folder) := by
            rw [hfiles, if_neg (by decide), served_allJson, Option.some_or]
          refine ⟨hi.not_fetching_step hlist hfetching hserves hstep, fun path => ?_⟩
          rw [hstep.files_eq he, hfiles]
        · obtain hmem | hmem := List.mem_append.mp hmem
          · exact absurd hmem hfrontmem
          · obtain rfl := List.mem_singleton.mp hmem
            obtain ⟨hstarted, rfl⟩ := hstep.updaters_pos
            have hfiles := hbefore hfrontmem
            have hi' : i.IsAccurate k := by rwa [IsAccurate, hfiles]
            obtain ⟨hnot, hinstalled⟩ := hi.installed hstarted hi' hwell hreads (by rwa [hfiles])
            exact ⟨hnot, fun path => by rw [hinstalled, hfiles]⟩
  exact hboth.2

/-- The release with the two files. -/
def smallRelease : Folder := .file "a.txt" [97] (.file "b.txt" [97] .empty)

/-- Its list. -/
lemma list_smallRelease : getFolderFileJson smallToolkit smallRelease "" = smallList [97] := by
  decide +kernel

/-- The text of its list. -/
lemma allJson_smallRelease : allJson smallToolkit smallRelease = smallText [97] := by
  have hne : smallList [97] ≠ smallList [] := by decide +kernel
  rw [allJson, list_smallRelease]
  simp [smallToolkit, hne]

/-- The client is updated. -/
theorem installs_release_smallClient : ∃ t,
    ((autoUpdate smallToolkit).guarded (Serves smallToolkit smallRelease "http://update")).Run
        smallClient (loadingEvents ++ installingEvents) t ∧
      Installed smallToolkit smallRelease smallClient t := by
  have hserves : ∀ i, ∀ e ∈ loadingEvents, Serves smallToolkit smallRelease "http://update" i e := by
    intro i e he
    obtain rfl | rfl | rfl := by simpa [loadingEvents] using he
    · trivial
    · rfl
    · exact allJson_smallRelease.symm
  have hrun := run_loadedClient hserves ⟨"/b.txt", by decide, by decide⟩ ⟨"/a.txt", by decide, by decide⟩
    trivial
  refine ⟨_, hrun, ?_⟩
  refine (installs_release ⟨rfl, rfl⟩ isAccurate_smallClient (fun path content h => by cases h) ?_ ?_ ?_
    hrun).2 (by simp [installingEvents])
  · simp [Folder.WellNamed, Folder.names, smallRelease]
  · rw [list_smallRelease]
    show smallToolkit.fromJson (allJson smallToolkit smallRelease) = _
    rw [allJson_smallRelease, fromJson_smallText (.inr rfl)]
  · intro path content content' hnew hold hmd5
    simp only [smallRelease, Folder.contentAt] at hnew
    have hempty : smallClient.files.find path = some [] := by
      split_ifs at hnew with ha hb
      · obtain rfl := ha
        decide
      · obtain rfl := hb
        decide
    obtain rfl := Option.some.inj (hempty.symm.trans hold)
    have hletter : content = [97] := by
      split_ifs at hnew
      · exact (Option.some.inj hnew).symm
      · exact (Option.some.inj hnew).symm
    subst hletter
    exact absurd hmd5 (by decide)

end Installation

end Liangshi
