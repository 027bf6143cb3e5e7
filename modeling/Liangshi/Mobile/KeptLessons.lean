import Liangshi.Mobile.DownloadDialog

/-!
# The lessons that can be played offline

`OfflineClasseActivity` shows the lessons of `LocalSave` whose files are complete.  After any run that begins
without a file it shows those of the record, every course once and its lessons by their indices
(`shows_remembered`).

When a class is loaded, its course keeps the lessons that were complete and those that arrive with the size
that the server told, whatever the order of the answers and whatever else happens in the meantime
(`keeps_arrived`).
-/

namespace Liangshi

open Ordered Transition Wire

/-! ## What is shown -/

/-- `UpdateData` of `OfflineClasseActivity`: the courses with the lessons that can be played. -/
def offlineClasses (files : KeCacheFolder) (s : LocalSave) : List (QString × List KeDTO) :=
  (s.cachedKes.filter fun c => c.cource.text ≠ []).map fun c =>
    (c.cource, c.kes.filter fun ke => files.IsComplete ke)

/-- The lessons that are remembered, which are none at first. -/
def Remembered.lessonsOf (o : Option Remembered) : List Nat → OrderedMap Int KeDTO :=
  (o.getD (.new false)).lessons

/-- A lesson is kept in a course. -/
def LocalSave.Keeps (s : LocalSave) (course : List Nat) (ke : KeDTO) : Prop :=
  ∃ c ∈ s.cachedKes, c.cource.text = course ∧ ke ∈ c.kes

/-- What is shown are the complete lessons of a record, in order. -/
structure ShowsLessons (files : KeCacheFolder) (s : LocalSave) (lessons : List Nat → OrderedMap Int KeDTO) :
    Prop where
  once : ((offlineClasses files s).map (·.1.text)).Nodup
  sorted : ∀ c ∈ offlineClasses files s, c.2.Pairwise fun ke ke' => ke.place < ke'.place
  shown_iff : ∀ course ke, (∃ c ∈ offlineClasses files s, c.1.text = course ∧ ke ∈ c.2) ↔
    (lessons course).find ke.place = some ke ∧ files.IsComplete ke

namespace Represents

variable {s : LocalSave} {r : Remembered} {files : KeCacheFolder}

/-- What is kept is what is remembered. -/
lemma keeps_iff (h : Represents s r) {course : List Nat} {ke : KeDTO} :
    s.Keeps course ke ↔ (r.lessons course).find ke.place = some ke := by
  constructor
  · rintro ⟨c, hc, rfl, hke⟩
    exact (h.lessons c hc).mem_iff.mp hke
  · intro hfind
    by_cases hnone : ∀ c ∈ s.cachedKes, c.cource.text ≠ course
    · rw [h.others course hnone] at hfind
      cases hfind
    · push Not at hnone
      obtain ⟨c, hc, rfl⟩ := hnone
      exact ⟨c, hc, rfl, (h.lessons c hc).mem_iff.mpr hfind⟩

/-- The activity shows a record. -/
lemma showsLessons (h : Represents s r) : ShowsLessons files s r.lessons := by
  refine ⟨?_, fun c hc => ?_, fun course ke => ?_⟩
  · have hcourses := h.nodup.sublist ((List.filter_sublist (p := fun c : CachedKe =>
      decide (c.cource.text ≠ []))).map (·.cource.text))
    simpa [offlineClasses, Function.comp_def] using hcourses
  · obtain ⟨c, hmem, rfl⟩ := List.mem_map.mp hc
    exact (h.lessons c (List.mem_filter.mp hmem).1).increasing.sublist List.filter_sublist
  · rw [← h.keeps_iff]
    constructor
    · rintro ⟨_, hc, rfl, hke⟩
      obtain ⟨c, hmem, rfl⟩ := List.mem_map.mp hc
      obtain ⟨hke, hcomplete⟩ := List.mem_filter.mp hke
      exact ⟨⟨c, (List.mem_filter.mp hmem).1, rfl, hke⟩, of_decide_eq_true hcomplete⟩
    · rintro ⟨⟨c, hc, rfl, hke⟩, hcomplete⟩
      refine ⟨_, List.mem_map.mpr ⟨c, List.mem_filter.mpr ⟨hc, ?_⟩, rfl⟩, rfl, ?_⟩
      · exact decide_eq_true (h.named c hc)
      · exact List.mem_filter.mpr ⟨hke, decide_eq_true hcomplete⟩

end Represents

/-- The activity shows what a file stands for. -/
lemma StandsFor.showsLessons {d : Option Bytes} {o : Option Remembered} (h : StandsFor d o)
    (files : KeCacheFolder) (uninitialised : Bool) :
    ∃ s, LocalSave.load uninitialised d = some s ∧ ShowsLessons files s (Remembered.lessonsOf o) := by
  obtain ⟨s, hload, hrepresents⟩ := h.exists_load uninitialised
  have hlessons : (o.getD (.new uninitialised)).lessons = Remembered.lessonsOf o := by cases o <;> rfl
  exact ⟨s, hload, hlessons ▸ hrepresents.showsLessons⟩

/-- However lessons are loaded and kept, the file can be loaded, and the activity shows then what the same
events make of the record. -/
theorem Mobile.shows_remembered {m m' : Mobile} {d : Option Bytes} {es : List MobileEvent}
    (hrun : (mobile.workingOn disk).Run (m, none) es (m', d)) (uninitialised : Bool) :
    ∃ o s, (mobile.workingOn remembered).Run (m, none) es (m', o) ∧
      LocalSave.load uninitialised d = some s ∧
      ShowsLessons m'.files s (Remembered.lessonsOf o) := by
  obtain ⟨o, hremembered, ho⟩ := Worker.run_refines disk_refines hrun standsFor_none
  obtain ⟨s, hload, hshows⟩ := ho.showsLessons m'.files uninitialised
  exact ⟨o, s, hremembered, hload, hshows⟩

/-- What the client has kept when some lessons of the class have been loaded. -/
def smallSave (kes : List KeDTO) : LocalSave := ⟨.null, .null, true, .null, [⟨smallTitle, kes⟩]⟩

/-- The client when the second lesson has been loaded. -/
def halfLoadedMobile : Mobile :=
  ⟨OrderedMap.empty.insert [99] [0, 0], some (smallDialog 1 [smallLesson]), none, []⟩

/-- The client when both lessons have been loaded. -/
def loadedMobile : Mobile :=
  ⟨(OrderedMap.empty.insert [99] [0, 0]).insert [98] [0], none, none, []⟩

/-- A new record has room. -/
lemma fits_new (uninitialised : Bool) : (LocalSave.new uninitialised).Fits :=
  ⟨Nat.two_pow_pos 32, fun c hc => by cases hc⟩

/-- The client opens the dialog. -/
lemma next_openedMobile :
    (mobile.workingOn disk).step (freshMobile, none) (.downloadAll smallTitle smallClass)
      (openedMobile, none) :=
  ⟨none, step_openedMobile, rfl⟩

/-- While the dialog waits, an activity looks at what has been kept. -/
lemma next_visitedMobile :
    (mobile.workingOn disk).step (openedMobile, none) .visited
      (openedMobile, some (LocalSave.new true).save) :=
  ⟨some _, .visited openedMobile, true, .new true, rfl, fits_new true, rfl⟩

/-- The dialog begins. -/
lemma next_begunMobile :
    (mobile.workingOn disk).step (openedMobile, some (LocalSave.new true).save) .beginDownload
      (begunMobile, some (LocalSave.new true).save) :=
  ⟨some _, step_begunMobile, true, .new true, LocalSave.load_save (fits_new true) true, fits_new true, rfl⟩

/-- The second lesson is answered first. -/
lemma next_halfLoadedMobile :
    (mobile.workingOn disk).step (begunMobile, some (LocalSave.new true).save)
      (.downloaded secondLesson [0, 0]) (halfLoadedMobile, some (smallSave [secondLesson]).save) := by
  have hanswered : Mobile.Step begunMobile (.downloaded secondLesson [0, 0])
      (some ⟨halfLoadedMobile.files, [.addKeFile smallTitle secondLesson]⟩) halfLoadedMobile := by
    have hstep := Mobile.Step.downloaded (m := begunMobile) (p := smallDialog 0 smallClass) rfl
      (List.mem_cons_of_mem smallLesson List.mem_cons_self) [0, 0]
    have hmore : ¬ (smallDialog 0 smallClass).currentCount + 1 ≥
        (smallDialog 0 smallClass).totalFileCount := by decide
    rw [Mobile.downloadKeFileTriggered] at hstep
    dsimp only at hstep
    rwa [if_neg hmore] at hstep
  exact ⟨some _, hanswered, true, .new true, LocalSave.load_save (fits_new true) true,
    ⟨by decide, by decide⟩, rfl⟩

/-- The other lesson is answered. -/
lemma next_loadedMobile :
    (mobile.workingOn disk).step (halfLoadedMobile, some (smallSave [secondLesson]).save)
      (.downloaded smallLesson [0]) (loadedMobile, some (smallSave smallClass).save) := by
  have hanswered : Mobile.Step halfLoadedMobile (.downloaded smallLesson [0])
      (some ⟨loadedMobile.files, [.addKeFile smallTitle smallLesson]⟩) loadedMobile := by
    have hstep := Mobile.Step.downloaded (m := halfLoadedMobile) (p := smallDialog 1 [smallLesson]) rfl
      List.mem_cons_self [0]
    have hlast : (smallDialog 1 [smallLesson]).currentCount + 1 ≥
        (smallDialog 1 [smallLesson]).totalFileCount := by decide
    rw [Mobile.downloadKeFileTriggered] at hstep
    dsimp only at hstep
    rwa [if_pos hlast] at hstep
  exact ⟨some _, hanswered, true, smallSave [secondLesson],
    LocalSave.load_save ⟨by decide, by decide⟩ true, ⟨by decide, by decide⟩, rfl⟩

/-- The dialog is opened and waits. -/
lemma run_visitedMobile : (mobile.workingOn disk).Run (freshMobile, none)
    [.downloadAll smallTitle smallClass, .visited] (openedMobile, some (LocalSave.new true).save) :=
  ((System.Run.nil _).snoc next_openedMobile).snoc next_visitedMobile

/-- The class is loaded. -/
lemma run_loadedMobile : (mobile.workingOn disk).Run (openedMobile, some (LocalSave.new true).save)
    [.beginDownload, .downloaded secondLesson [0, 0], .downloaded smallLesson [0]]
    (loadedMobile, some (smallSave smallClass).save) :=
  (((System.Run.nil _).snoc next_begunMobile).snoc next_halfLoadedMobile).snoc next_loadedMobile

/-- The activity shows both lessons. -/
theorem Mobile.shows_remembered_loadedMobile :
    ∃ o s, (mobile.workingOn remembered).Run (freshMobile, none)
        [.downloadAll smallTitle smallClass, .visited, .beginDownload, .downloaded secondLesson [0, 0],
          .downloaded smallLesson [0]] (loadedMobile, o) ∧
      LocalSave.load true (some (smallSave smallClass).save) = some s ∧
      ShowsLessons loadedMobile.files s (Remembered.lessonsOf o) :=
  Mobile.shows_remembered (run_visitedMobile.append run_loadedMobile) true

/-! ## Loading a class -/

/-- A map has the lessons of a list that have arrived. -/
def KeptAre (kes : List KeDTO) (arrived : KeDTO → Prop) (m : OrderedMap Int KeDTO) : Prop :=
  ∀ i ke, m.find i = some ke ↔ ke ∈ kes ∧ arrived ke ∧ ke.place = i

namespace KeptAre

variable {kes : List KeDTO} {arrived arrived' : KeDTO → Prop} {m : OrderedMap Int KeDTO} {ke : KeDTO}

/-- Only what has arrived of the list counts. -/
lemma congr (h : KeptAre kes arrived m) (hiff : ∀ ke ∈ kes, arrived ke ↔ arrived' ke) :
    KeptAre kes arrived' m := by
  intro i ke
  rw [h i ke]
  exact and_congr_right fun hke => and_congr_left fun _ => hiff ke hke

/-- An empty map has nothing that has arrived. -/
lemma empty (kes : List KeDTO) : KeptAre kes (fun _ => False) .empty := by
  intro i ke
  simp

/-- One more lesson has arrived. -/
lemma insert (h : KeptAre kes arrived m) (hplaces : (kes.map KeDTO.place).Nodup) (hke : ke ∈ kes) :
    KeptAre kes (fun ke' => arrived ke' ∨ ke' = ke) (m.insert ke.place ke) := by
  intro i ke'
  rw [OrderedMap.find_insert]
  split_ifs with hplace
  · constructor
    · intro heq
      obtain rfl := Option.some.inj heq
      exact ⟨hke, .inr rfl, hplace⟩
    · rintro ⟨hke', -, hplace'⟩
      rw [List.inj_on_of_nodup_map hplaces hke hke' (hplace.trans hplace'.symm)]
  · rw [h i ke']
    refine and_congr_right fun _ => and_congr_left fun hplace' => ?_
    have hne : ke' ≠ ke := by
      rintro rfl
      exact hplace hplace'
    simp [hne]

/-- Taking out the index of a lesson that has not arrived changes nothing. -/
lemma erase (h : KeptAre kes arrived m) (hplaces : (kes.map KeDTO.place).Nodup) (hke : ke ∈ kes)
    (hnot : ¬ arrived ke) : KeptAre kes arrived (m.erase ke.place) := by
  intro i ke'
  rw [OrderedMap.find_erase]
  split_ifs with hplace
  · refine iff_of_false (fun hfind => by cases hfind) ?_
    rintro ⟨hke', harrived, hplace'⟩
    rw [← List.inj_on_of_nodup_map hplaces hke hke' (hplace.trans hplace'.symm)] at harrived
    exact hnot harrived
  · exact h i ke'

/-- The first lessons are all of them. -/
lemma firsts (h : KeptAre kes arrived m) : m.firsts kes.length = m := by
  have hplaces : ∀ i ke, m.find i = some ke → i ∈ kes.map KeDTO.place := by
    intro i ke hfind
    obtain ⟨hke, -, rfl⟩ := (h i ke).mp hfind
    exact List.mem_map_of_mem hke
  have hkeys := OrderedMap.firsts_of_keys hplaces
  rwa [List.length_map] at hkeys

end KeptAre

namespace Remembered

variable {r : Remembered} {files : KeCacheFolder} {course : QString} {kes dtos : List KeDTO}

/-- A lesson is kept in the course, or taken out of it. -/
lemma lessons_addKeFile (hnamed : course.text ≠ []) (ke : KeDTO) :
    (r.edit files (.addKeFile course ke)).lessons course.text =
      files.keep (r.lessons course.text) ke := by
  rw [edit, if_neg hnamed]
  exact Function.update_self _ _ _

/-- The course keeps its first lessons. -/
lemma lessons_cleanKeCount (size : Nat) :
    (r.edit files (.cleanKeCount course size)).lessons course.text =
      (r.lessons course.text).firsts size :=
  Function.update_self _ _ _

/-- The lessons that are there already are kept. -/
lemma keptAre_foldl {arrived : KeDTO → Prop} (hnamed : course.text ≠ [])
    (hplaces : (kes.map KeDTO.place).Nodup) (hdtos : ∀ ke ∈ dtos, ke ∈ kes ∧ files.HasSize ke)
    (h : KeptAre kes arrived (r.lessons course.text)) :
    KeptAre kes (fun ke => arrived ke ∨ ke ∈ dtos)
      (((dtos.map (.addKeFile course)).foldl (edit files) r).lessons course.text) := by
  induction dtos generalizing r arrived with
  | nil => exact h.congr fun ke _ => by simp
  | cons dto dtos ih =>
    obtain ⟨hke, hsize⟩ := hdtos dto List.mem_cons_self
    have hfirst : KeptAre kes (fun ke => arrived ke ∨ ke = dto)
        ((r.edit files (.addKeFile course dto)).lessons course.text) := by
      rw [lessons_addKeFile hnamed, KeCacheFolder.keep, if_pos hsize]
      exact h.insert hplaces hke
    rw [List.map_cons, List.foldl_cons]
    refine (ih (fun ke hke => hdtos ke (List.mem_cons_of_mem dto hke)) hfirst).congr fun ke _ => ?_
    rw [List.mem_cons, or_assoc]

/-- What the dialog keeps when it begins are the lessons that are complete. -/
lemma keptAre_visit (hnamed : course.text ≠ []) (hplaces : (kes.map KeDTO.place).Nodup) :
    KeptAre kes files.IsComplete
      ((r.visit ⟨files, .cleanKeCount course 0 ::
        (kes.filter fun ke => files.IsComplete ke).map (.addKeFile course) ++
          [.cleanKeCount course kes.length]⟩).lessons course.text) := by
  have hcleaned : KeptAre kes (fun _ => False)
      ((r.edit files (.cleanKeCount course 0)).lessons course.text) := by
    rw [lessons_cleanKeCount]
    exact KeptAre.empty kes
  have hcomplete : ∀ ke ∈ kes.filter fun ke => files.IsComplete ke, ke ∈ kes ∧ files.HasSize ke := by
    intro ke hke
    obtain ⟨hmem, hke⟩ := List.mem_filter.mp hke
    exact ⟨hmem, (of_decide_eq_true hke).1⟩
  have hkept := keptAre_foldl hnamed hplaces hcomplete hcleaned
  rw [visit]
  dsimp only
  rw [List.cons_append, List.foldl_cons, List.foldl_append, List.foldl_cons, List.foldl_nil,
    lessons_cleanKeCount, hkept.firsts]
  refine hkept.congr fun ke hke => ?_
  simp [hke]

end Remembered

/-- An event that may happen while a class is loaded. -/
def MobileEvent.Meanwhile : MobileEvent → Prop
  | .downloadAll .. | .beginDownload | .dismissed | .updateData .. => False
  | _ => True

/-- A lesson was complete, or has arrived since with its size. -/
def Arrived (files : KeCacheFolder) (es : List MobileEvent) (ke : KeDTO) : Prop :=
  files.IsComplete ke ∨ ∃ data, .downloaded ke data ∈ es ∧ ke.filesize.toInt = data.length

/-- The dialog of a class waits for its timer, and the player is at another class. -/
structure Opened (title : QString) (kes : List KeDTO) (m : Mobile) : Prop where
  progress : m.progress = some (.new title kes)
  player : ∀ p, m.player = some p → p.classTitle.text ≠ title.text

namespace Opened

variable {title : QString} {kes : List KeDTO} {es : List MobileEvent} {m m' : Mobile} {e : MobileEvent}

/-- A dialog that waits has asked for nothing, so that no lesson of the class is answered. -/
lemma not_mem (h : Opened title kes m) {p : DownloadAllProgress} (hprogress : m.progress = some p)
    (ke : KeDTO) : ke ∉ p.downloaders := by
  obtain rfl := Option.some.inj (h.progress.symm.trans hprogress)
  exact List.not_mem_nil

/-- The dialog waits through one more event. -/
lemma step (h : Opened title kes m) (he : e.Meanwhile) {i : Option SaveVisit} (hstep : m.Step e i m') :
    Opened title kes m' := by
  -- the player stays at its class, whatever it loads
  have hanswered : ∀ {p : PlayerActivity} (downloaders : List QString), m.player = some p →
      ∀ q, some { p with downloaders } = some q → q.classTitle.text ≠ title.text := by
    rintro p downloaders hplayer q hq
    obtain rfl := Option.some.inj hq
    exact h.player p hplayer
  cases hstep with
  | downloadAll | beginDownload | dismissed | updateData => exact he.elim
  | visited | loggedIn | cookie => exact ⟨h.progress, h.player⟩
  | downloaded hprogress hke | failed hprogress hke => exact absurd hke (h.not_mem hprogress _)
  | abandonedAnswered hurl answer => cases answer <;> exact ⟨h.progress, h.player⟩
  | playerDownloaded hplayer | playerFailed hplayer => exact ⟨h.progress, hanswered _ hplayer⟩

/-- The dialog waits through a run of such events. -/
lemma run (h : Opened title kes m) {s t : Mobile × Option Remembered} (hs : s.1 = m)
    (hrun : (mobile.workingOn remembered).Run s es t) (hes : ∀ e ∈ es, e.Meanwhile) :
    Opened title kes t.1 := by
  induction hrun with
  | nil =>
    subst hs
    exact h
  | snoc _ hlast ih =>
    obtain ⟨i, hstep, -⟩ := hlast
    refine (ih fun e he => hes e (List.mem_append_left _ he)).step ?_ hstep
    exact hes _ (List.mem_append_right _ (List.mem_singleton_self _))

end Opened

/-- While a class is loaded, each request that waits is for a lesson of its own that has not arrived. -/
structure LoadsClass (files : KeCacheFolder) (title : QString) (kes : List KeDTO) (es : List MobileEvent)
    (m : Mobile) (o : Option Remembered) : Prop where
  player : ∀ p, m.player = some p → p.classTitle.text ≠ title.text
  titled : ∀ p, m.progress = some p → p.classTitle = title
  begun : ∀ p, m.progress = some p → p.waiting = false
  nodup : ∀ p, m.progress = some p → p.downloaders.Nodup
  missing : ∀ p, m.progress = some p → ∀ ke ∈ p.downloaders,
    ke ∈ kes ∧ ¬ files.IsComplete ke ∧ ∀ data, .downloaded ke data ∉ es
  kept : ∃ r, o = some r ∧ KeptAre kes (Arrived files es) (r.lessons title.text)

/-- Nothing arrives at an event that is no answer. -/
lemma arrived_concat {files : KeCacheFolder} {es : List MobileEvent} {e : MobileEvent}
    (he : ∀ ke data, e ≠ .downloaded ke data) (ke : KeDTO) :
    Arrived files (es ++ [e]) ke ↔ Arrived files es ke := by
  have hne : ∀ data, MobileEvent.downloaded ke data ≠ e := fun data heq => he ke data heq.symm
  simp [Arrived, hne]

/-- A file has the size of what was written last. -/
lemma hasSize_written {m : Mobile} {ke : KeDTO} {data : Bytes} :
    (m.written ke.url data).files.HasSize ke ↔ ke.filesize.toInt = data.length := by
  rw [KeCacheFolder.HasSize, KeCacheFolder.size, m.find_written, if_pos rfl]
  rfl

namespace LoadsClass

variable {files : KeCacheFolder} {title : QString} {kes : List KeDTO} {es : List MobileEvent}
  {m m' : Mobile} {o o' : Option Remembered} {e : MobileEvent}

/-- Nothing arrives, and at most a request is not waited for any more. -/
lemma frame (h : LoadsClass files title kes es m o) (he : ∀ ke data, e ≠ .downloaded ke data)
    (hplayer : ∀ p, m'.player = some p → p.classTitle.text ≠ title.text)
    (hfewer : m.Fewer m')
    (hkept : ∃ r r', o = some r ∧ o' = some r' ∧ r'.lessons title.text = r.lessons title.text) :
    LoadsClass files title kes (es ++ [e]) m' o' := by
  refine ⟨hplayer, fun p' hp' => ?_, fun p' hp' => ?_, fun p' hp' => ?_, fun p' hp' ke hke => ?_, ?_⟩
  · obtain ⟨p, hp, htitle, -⟩ := hfewer p' hp'
    exact htitle.trans (h.titled p hp)
  · obtain ⟨p, hp, -, -, hwaiting, -⟩ := hfewer p' hp'
    exact hwaiting.trans (h.begun p hp)
  · obtain ⟨p, hp, -, -, -, hsublist⟩ := hfewer p' hp'
    exact (h.nodup p hp).sublist hsublist
  · obtain ⟨p, hp, -, -, -, hsublist⟩ := hfewer p' hp'
    obtain ⟨hkes, hnot, hmissing⟩ := h.missing p hp ke (hsublist.subset hke)
    refine ⟨hkes, hnot, fun data hmem => ?_⟩
    rcases List.mem_append.mp hmem with hmem | hmem
    · exact hmissing data hmem
    · exact he ke data (List.mem_singleton.mp hmem).symm
  · obtain ⟨r, hr, hkept'⟩ := h.kept
    obtain ⟨r₀, r', hr₀, hr', hsame⟩ := hkept
    obtain rfl := Option.some.inj (hr.symm.trans hr₀)
    refine ⟨r', hr', ?_⟩
    rw [hsame]
    exact hkept'.congr fun ke _ => (arrived_concat he ke).symm

/-- A lesson is answered. -/
lemma downloaded (h : LoadsClass files title kes es m o) (hnamed : title.text ≠ [])
    (hplaces : (kes.map KeDTO.place).Nodup) {p : DownloadAllProgress} {ke : KeDTO} {data : Bytes}
    (hprogress : m.progress = some p) (hke : ke ∈ p.downloaders)
    (hafter : remembered.After o
      (some ⟨(m.written ke.url data).files, [.addKeFile p.classTitle ke]⟩) o') :
    LoadsClass files title kes (es ++ [.downloaded ke data])
      ((m.written ke.url data).downloadKeFileTriggered p ke) o' := by
  obtain ⟨r, rfl, hkept⟩ := h.kept
  obtain ⟨uninitialised, rfl⟩ := hafter
  have htitle := h.titled p hprogress
  have hnodup := h.nodup p hprogress
  obtain ⟨hkes, hnot, hmissing⟩ := h.missing p hprogress ke hke
  have hnext : ∀ p', ((m.written ke.url data).downloadKeFileTriggered p ke).progress = some p' →
      p' = { p with currentCount := p.currentCount + 1, downloaders := p.downloaders.erase ke } := by
    intro p' hp'
    rw [Mobile.progress_downloadKeFileTriggered] at hp'
    split_ifs at hp'
    exact (Option.some.inj hp').symm
  refine ⟨fun q hq => ?_, fun p' hp' => ?_, fun p' hp' => ?_, fun p' hp' => ?_, fun p' hp' ke' hke' => ?_,
    _, rfl, ?_⟩
  · rw [Mobile.player_downloadKeFileTriggered] at hq
    exact h.player q hq
  · rw [hnext p' hp']
    exact htitle
  · rw [hnext p' hp']
    exact h.begun p hprogress
  · rw [hnext p' hp']
    exact hnodup.erase ke
  · rw [hnext p' hp'] at hke'
    obtain ⟨hne, hke'⟩ := hnodup.mem_erase_iff.mp hke'
    obtain ⟨hkes', hnot', hmissing'⟩ := h.missing p hprogress ke' hke'
    refine ⟨hkes', hnot', fun data' hmem => ?_⟩
    rcases List.mem_append.mp hmem with hmem | hmem
    · exact hmissing' data' hmem
    · exact hne (MobileEvent.downloaded.inj (List.mem_singleton.mp hmem)).1
  · have hlessons : ((r.visit ⟨(m.written ke.url data).files, [.addKeFile p.classTitle ke]⟩).lessons
        title.text) = (m.written ke.url data).files.keep (r.lessons title.text) ke := by
      rw [htitle]
      exact Remembered.lessons_addKeFile hnamed ke
    have hlast : ∀ ke', Arrived files (es ++ [.downloaded ke data]) ke' ↔
        Arrived files es ke' ∨ ke' = ke ∧ ke.filesize.toInt = data.length := by
      intro ke'
      rw [Arrived, Arrived, or_assoc]
      refine or_congr_right ?_
      constructor
      · rintro ⟨data', hmem, hsize⟩
        rcases List.mem_append.mp hmem with hmem | hmem
        · exact .inl ⟨data', hmem, hsize⟩
        · obtain ⟨rfl, rfl⟩ := MobileEvent.downloaded.inj (List.mem_singleton.mp hmem)
          exact .inr ⟨rfl, hsize⟩
      · rintro (⟨data', hmem, hsize⟩ | ⟨rfl, hsize⟩)
        · exact ⟨data', List.mem_append_left _ hmem, hsize⟩
        · exact ⟨data, List.mem_append_right _ (List.mem_singleton_self _), hsize⟩
    dsimp only [Option.getD_some]
    rw [hlessons, KeCacheFolder.keep]
    split_ifs with hsize
    · refine (hkept.insert hplaces hkes).congr fun ke' _ => ?_
      rw [hlast ke', and_iff_left (hasSize_written.mp hsize)]
    · have hnot' : ¬ Arrived files es ke := by
        rintro (hcomplete | ⟨data', hmem, -⟩)
        · exact hnot hcomplete
        · exact hmissing data' hmem
      refine (hkept.erase hplaces hkes hnot').congr fun ke' _ => ?_
      have hwrong : ke.filesize.toInt ≠ data.length := fun heq => hsize (hasSize_written.mpr heq)
      rw [hlast ke']
      simp [hwrong]

/-- One more event. -/
lemma step (h : LoadsClass files title kes es m o) (hnamed : title.text ≠ [])
    (hplaces : (kes.map KeDTO.place).Nodup) (he : e.Meanwhile)
    (hstep : (mobile.workingOn remembered).step (m, o) e (m', o')) :
    LoadsClass files title kes (es ++ [e]) m' o' := by
  obtain ⟨i, hstep, hafter⟩ := hstep
  dsimp only at hstep hafter
  obtain ⟨r, rfl, -⟩ := h.kept
  cases hstep with
  | downloadAll | beginDownload | dismissed | updateData => exact he.elim
  | visited =>
    obtain ⟨uninitialised, rfl⟩ := hafter
    exact h.frame (fun _ _ heq => by cases heq) h.player (.of_eq rfl) ⟨r, _, rfl, rfl, rfl⟩
  | loggedIn =>
    obtain ⟨uninitialised, rfl⟩ := hafter
    exact h.frame (fun _ _ heq => by cases heq) h.player (.of_eq rfl) ⟨r, _, rfl, rfl, rfl⟩
  | cookie =>
    obtain ⟨uninitialised, rfl⟩ := hafter
    exact h.frame (fun _ _ heq => by cases heq) h.player (.of_eq rfl) ⟨r, _, rfl, rfl, rfl⟩
  | downloaded hprogress hke data => exact h.downloaded hnamed hplaces hprogress hke hafter
  | failed hprogress hke =>
    obtain rfl : o' = some r := hafter
    exact h.frame (fun _ _ heq => by cases heq) h.player (.of_erase hprogress rfl) ⟨r, r, rfl, rfl, rfl⟩
  | abandonedAnswered hurl answer =>
    obtain rfl : o' = some r := hafter
    refine h.frame (fun _ _ heq => by cases heq) ?_ ?_ ⟨r, r, rfl, rfl, rfl⟩
    · cases answer <;> exact h.player
    · cases answer <;> exact .of_eq rfl
  | playerDownloaded hplayer hurl data =>
    obtain ⟨uninitialised, rfl⟩ := hafter
    refine h.frame (fun _ _ heq => by cases heq) (fun q hq => ?_) (.of_eq rfl) ⟨r, _, rfl, rfl, ?_⟩
    · have hother := h.player _ hplayer
      obtain rfl := Option.some.inj hq
      exact hother
    · show (r.edit _ (.addKeFile _ _)).lessons title.text = r.lessons title.text
      rw [Remembered.edit]
      split_ifs
      · rfl
      · exact Function.update_of_ne (h.player _ hplayer).symm _ _
  | playerFailed hplayer hurl =>
    obtain rfl : o' = some r := hafter
    refine h.frame (fun _ _ heq => by cases heq) (fun q hq => ?_) (.of_eq rfl) ⟨r, r, rfl, rfl, rfl⟩
    have hother := h.player _ hplayer
    obtain rfl := Option.some.inj hq
    exact hother

/-- A run of such events. -/
lemma run (h : LoadsClass files title kes [] m o) (hnamed : title.text ≠ [])
    (hplaces : (kes.map KeDTO.place).Nodup) {s t : Mobile × Option Remembered} (hs : s = (m, o))
    (hrun : (mobile.workingOn remembered).Run s es t) (hes : ∀ e ∈ es, e.Meanwhile) :
    LoadsClass files title kes es t.1 t.2 := by
  induction hrun with
  | nil =>
    subst hs
    exact h
  | snoc _ hlast ih =>
    refine (ih fun e he => hes e (List.mem_append_left _ he)).step hnamed hplaces ?_ hlast
    exact hes _ (List.mem_append_right _ (List.mem_singleton_self _))

/-- The dialog has begun. -/
lemma begin (hopened : Opened title kes m) (hnamed : title.text ≠ [])
    (hkes : kes ≠ []) (hplaces : (kes.map KeDTO.place).Nodup)
    (hstep : (mobile.workingOn remembered).step (m, o) .beginDownload (m', o')) :
    LoadsClass m.files title kes [] m' o' := by
  obtain ⟨i, hstep, hafter⟩ := hstep
  dsimp only at hstep hafter
  cases hstep with
  | beginDownload hprogress' hwaiting =>
    obtain rfl := Option.some.inj (hprogress'.symm.trans hopened.progress)
    rw [Mobile.beginDownload_of_ne hkes rfl] at hafter ⊢
    obtain ⟨uninitialised, rfl⟩ := hafter
    have hnext : ∀ p, (if ((DownloadAllProgress.new title kes).started m.files).downloaders = [] then
        m.close ((DownloadAllProgress.new title kes).started m.files) else
        { m with progress := some ((DownloadAllProgress.new title kes).started m.files) }).progress =
          some p → p = (DownloadAllProgress.new title kes).started m.files := by
      intro p hp
      split_ifs at hp
      · cases hp
      · exact (Option.some.inj hp).symm
    have hdownloaders : ((DownloadAllProgress.new title kes).started m.files).downloaders =
        kes.filter fun ke => ¬ m.files.IsComplete ke := rfl
    refine ⟨fun q hq => ?_, fun p hp => ?_, fun p hp => ?_, fun p hp => ?_, fun p hp ke hke => ?_, _, rfl, ?_⟩
    · refine hopened.player q ?_
      dsimp only at hq
      split_ifs at hq <;> exact hq
    · rw [hnext p hp]
      rfl
    · rw [hnext p hp]
      rfl
    · rw [hnext p hp, hdownloaders]
      exact (List.Nodup.of_map _ hplaces).filter _
    · rw [hnext p hp, hdownloaders] at hke
      obtain ⟨hmem, hnot⟩ := List.mem_filter.mp hke
      exact ⟨hmem, of_decide_eq_true hnot, fun data => List.not_mem_nil⟩
    · refine (Remembered.keptAre_visit hnamed hplaces).congr fun ke _ => ?_
      simp [Arrived]

end LoadsClass

/-- A class that is loaded keeps the lessons that are there when its dialog begins or arrive with their size
then, in whatever order they are answered and whatever else happens before and after: other answers, failures,
logins and the player of another class. -/
theorem Mobile.keeps_arrived {m m₁ m' : Mobile} {d d₁ d' : Option Bytes} {o : Option Remembered}
    {title : QString} {kes : List KeDTO} {waiting es : List MobileEvent} (hd : StandsFor d o)
    (hplayer : ∀ p, m.player = some p → p.classTitle.text ≠ title.text) (hnamed : title.text ≠ [])
    (hkes : kes ≠ []) (hplaces : (kes.map KeDTO.place).Nodup) (hwaiting : ∀ e ∈ waiting, e.Meanwhile)
    (hes : ∀ e ∈ es, e.Meanwhile)
    (hopened : (mobile.workingOn disk).Run (m, d) (.downloadAll title kes :: waiting) (m₁, d₁))
    (hrun : (mobile.workingOn disk).Run (m₁, d₁) (.beginDownload :: es) (m', d')) (uninitialised : Bool) :
    ∃ s, LocalSave.load uninitialised d' = some s ∧
      ∀ ke, s.Keeps title.text ke ↔ ke ∈ kes ∧ Arrived m₁.files es ke := by
  obtain ⟨o₁, hopened, ho₁⟩ := Worker.run_refines disk_refines hopened hd
  obtain ⟨o', hrun, ho'⟩ := Worker.run_refines disk_refines hrun ho₁
  obtain ⟨⟨m₀, o₀⟩, ⟨i, hfirst, -⟩, hwaits⟩ := hopened.of_cons
  obtain ⟨⟨m₂, o₂⟩, hbegan, hothers⟩ := hrun.of_cons
  have hnew : Opened title kes m₀ := by
    dsimp only at hfirst
    cases hfirst with
    | downloadAll hprogress => exact ⟨rfl, hplayer⟩
  have hbegun := LoadsClass.begin (hnew.run rfl hwaits hwaiting) hnamed hkes hplaces hbegan
  obtain ⟨r, hr, hkept⟩ := (hbegun.run hnamed hplaces rfl hothers hes).kept
  obtain rfl : o' = some r := hr
  obtain ⟨s, hload, hrepresents⟩ := ho'
  refine ⟨s, hload uninitialised, fun ke => ?_⟩
  rw [hrepresents.keeps_iff, hkept ke.place ke]
  simp

/-- The class keeps both lessons. -/
theorem Mobile.keeps_arrived_loadedMobile :
    ∃ s, LocalSave.load true (some (smallSave smallClass).save) = some s ∧
      ∀ ke, s.Keeps smallTitle.text ke ↔ ke ∈ smallClass ∧
        Arrived openedMobile.files [.downloaded secondLesson [0, 0], .downloaded smallLesson [0]] ke :=
  Mobile.keeps_arrived standsFor_none (fun _ hp => by cases hp) (by decide) (by decide) (by decide)
    (fun e he => by
      rw [List.mem_singleton.mp he]
      trivial)
    (fun e he => by
      rcases List.mem_pair.mp he with rfl | rfl <;> trivial)
    run_visitedMobile run_loadedMobile true

end Liangshi
