import Liangshi.Mobile.KeptLessons

/-!
# Lessons that stay playable

A lesson is kept when its file has its size, and from then on nobody looks at the file until the lesson is
shown.  The activity shows all that is kept as long as every lesson that is told has a size and no answer
changes the size of a file that is there (`shows_all_kept`).
-/

namespace Liangshi

open Ordered Transition Wire

/-- An answer has the size of the file it is written to, if there is one. -/
def Mobile.SameSize (m : Mobile) (url : QString) (data : Bytes) : Prop :=
  ∀ content, m.files.find url.text = some content → content.length = data.length

/-- Lessons have a size, and no file changes its size. -/
def KeepsSizes (s : Mobile × Option Bytes) : MobileEvent → Prop
  | .downloadAll _ kes => ∀ ke ∈ kes, ke.filesize.toInt ≠ 0
  | .updateData _ ke => ke.filesize.toInt ≠ 0
  | .downloaded ke data => s.1.SameSize ke.url data
  | .abandonedAnswered url (some data) => s.1.SameSize url data
  | .playerDownloaded url data => s.1.SameSize url data
  | _ => True

/-- All lessons that are remembered are complete. -/
def Remembered.AllComplete (files : KeCacheFolder) (r : Remembered) : Prop :=
  ∀ course i ke, (r.lessons course).find i = some ke → files.IsComplete ke

/-- Every lesson that the edits may keep has a size. -/
def SaveEdit.HasSize : SaveEdit → Prop
  | .addKeFile _ ke => ke.filesize.toInt ≠ 0
  | _ => True

/-- A lesson that has a size, and whose file has it, is complete. -/
lemma KeCacheFolder.HasSize.isComplete {files : KeCacheFolder} {ke : KeDTO} (h : files.HasSize ke)
    (hsize : ke.filesize.toInt ≠ 0) : files.IsComplete ke := by
  refine ⟨h, ?_⟩
  rw [KeCacheFolder.HasSize, KeCacheFolder.size] at h
  cases hfind : files.find ke.url.text with
  | none =>
    rw [hfind] at h
    exact absurd h hsize
  | some content => rfl

/-- A complete file stays complete. -/
lemma KeCacheFolder.IsComplete.written {m : Mobile} {ke : KeDTO} (h : m.files.IsComplete ke) {url : QString}
    {data : Bytes} (hsame : m.SameSize url data) : (m.written url data).files.IsComplete ke := by
  obtain ⟨hsize, hfound⟩ := h
  by_cases hurl : url.text = ke.url.text
  · obtain ⟨content, hfind⟩ := Option.isSome_iff_exists.mp hfound
    have hlength := hsame content (hurl ▸ hfind)
    have hwritten : (m.written url data).files.find ke.url.text = some data := by
      rw [m.find_written, if_pos hurl]
    rw [KeCacheFolder.HasSize, KeCacheFolder.size, hfind] at hsize
    refine ⟨?_, by rw [hwritten]; rfl⟩
    rw [KeCacheFolder.HasSize, KeCacheFolder.size, hwritten, hsize]
    simp [hlength]
  · rw [KeCacheFolder.IsComplete, KeCacheFolder.HasSize, KeCacheFolder.size, m.find_written, if_neg hurl]
    exact ⟨hsize, hfound⟩

namespace Remembered.AllComplete

variable {files : KeCacheFolder} {r : Remembered}

/-- A new record has no lessons. -/
lemma new (files : KeCacheFolder) (uninitialised : Bool) : AllComplete files (.new uninitialised) := by
  intro course i ke hfind
  cases hfind

/-- The lessons of one course become complete ones. -/
lemma update (h : AllComplete files r) {course : List Nat} {kes : OrderedMap Int KeDTO}
    (hkes : ∀ i ke, kes.find i = some ke → files.IsComplete ke) :
    AllComplete files { r with lessons := Function.update r.lessons course kes } := by
  intro other i ke hfind
  by_cases heq : other = course
  · subst heq
    dsimp only at hfind
    rw [Function.update_self] at hfind
    exact hkes i ke hfind
  · dsimp only at hfind
    rw [Function.update_of_ne heq] at hfind
    exact h other i ke hfind

/-- An edit keeps a lesson only when its file has its size. -/
lemma edit (h : AllComplete files r) {e : SaveEdit} (he : e.HasSize) : AllComplete files (r.edit files e) := by
  cases e with
  | addKeFile course ke =>
    rw [Remembered.edit]
    split_ifs with hnamed
    · exact h
    · refine h.update fun i ke' hfind => ?_
      rw [KeCacheFolder.keep] at hfind
      split_ifs at hfind with hsize
      · rw [OrderedMap.find_insert] at hfind
        split_ifs at hfind
        · obtain rfl := Option.some.inj hfind
          exact hsize.isComplete he
        · exact h _ i ke' hfind
      · rw [OrderedMap.find_erase] at hfind
        split_ifs at hfind
        exact h _ i ke' hfind
  | cleanKeCount course size =>
    refine h.update fun i ke hfind => h course.text i ke ?_
    rw [OrderedMap.find_eq_some] at hfind ⊢
    exact List.mem_of_mem_take hfind
  | login | cookie => exact h

/-- So do the edits of a visit. -/
lemma visit (h : AllComplete files r) {edits : List SaveEdit} (hedits : ∀ e ∈ edits, e.HasSize) :
    AllComplete files (r.visit ⟨files, edits⟩) := by
  rw [Remembered.visit]
  dsimp only
  induction edits generalizing r with
  | nil => exact h
  | cons e edits ih =>
    exact ih (h.edit (hedits e List.mem_cons_self)) fun e' he' => hedits e' (List.mem_cons_of_mem e he')

end Remembered.AllComplete

/-- What holds of the client at any time: the lessons it deals with have a size, and those that are
remembered are complete. -/
structure Playable (m : Mobile) (o : Option Remembered) : Prop where
  told : ∀ p, m.progress = some p →
    (∀ ke ∈ p.kes, ke.filesize.toInt ≠ 0) ∧ ∀ ke ∈ p.downloaders, ke.filesize.toInt ≠ 0
  idle : ∀ p, m.progress = some p → p.waiting = true → p.downloaders = []
  playing : ∀ p, m.player = some p → p.keDTO.filesize.toInt ≠ 0
  complete : ∀ r, o = some r → r.AllComplete m.files

/-- The edits of a visit keep complete lessons only, in the files that are there then. -/
lemma Playable.after {m : Mobile} {o o' : Option Remembered} (h : Playable m o) {v : SaveVisit}
    (hfiles : ∀ ke, m.files.IsComplete ke → v.files.IsComplete ke) (hedits : ∀ e ∈ v.edits, e.HasSize)
    (hchange : remembered.change o v o') : ∀ r, o' = some r → r.AllComplete v.files := by
  rintro r hr
  obtain ⟨uninitialised, rfl⟩ := hchange
  obtain rfl := Option.some.inj hr
  refine Remembered.AllComplete.visit ?_ hedits
  cases o with
  | none => exact Remembered.AllComplete.new _ _
  | some r => exact fun course i ke hfind => hfiles ke (h.complete r rfl course i ke hfind)

namespace Playable

variable {m m' : Mobile} {o o' : Option Remembered} {d : Option Bytes} {e : MobileEvent}
  {p : DownloadAllProgress}

/-- At most the dialog or some of its requests are gone. -/
lemma of_fewer (h : Playable m o) (hfewer : m.Fewer m')
    (hplaying : ∀ p, m'.player = some p → p.keDTO.filesize.toInt ≠ 0)
    (hcomplete : ∀ r, o' = some r → r.AllComplete m'.files) : Playable m' o' := by
  refine ⟨fun p' hp' => ?_, fun p' hp' hwaiting => ?_, hplaying, hcomplete⟩
  · obtain ⟨p, hp, -, hkes, -, hsublist⟩ := hfewer p' hp'
    obtain ⟨htold, hloading⟩ := h.told p hp
    rw [hkes]
    exact ⟨htold, fun ke hke => hloading ke (hsublist.subset hke)⟩
  · obtain ⟨p, hp, -, -, hsame, hsublist⟩ := hfewer p' hp'
    rw [h.idle p hp (hsame ▸ hwaiting)] at hsublist
    exact List.sublist_nil.mp hsublist

/-- The dialog begins. -/
lemma begin (h : Playable m o) (hprogress : m.progress = some p) (hwaiting : p.waiting = true)
    (hafter : remembered.After o (m.beginDownload p).2 o') : Playable (m.beginDownload p).1 o' := by
  obtain ⟨htold, -⟩ := h.told p hprogress
  by_cases hkes : p.kes = []
  · have hclosed : ∃ q, m.beginDownload p = (m.close q, none) := by
      rw [Mobile.beginDownload]
      dsimp only
      rw [if_pos (by rw [hkes]; rfl)]
      exact ⟨_, rfl⟩
    obtain ⟨q, hq⟩ := hclosed
    rw [hq] at hafter ⊢
    obtain rfl : o' = o := hafter
    exact h.of_fewer (.of_none rfl) h.playing h.complete
  · have hidle := h.idle p hprogress hwaiting
    rw [Mobile.beginDownload_of_ne hkes hidle] at hafter ⊢
    have hcomplete := h.after (fun _ hke => hke) (fun e he => ?_) hafter
    · dsimp only at hcomplete ⊢
      split_ifs with hdone
      · exact h.of_fewer (.of_none rfl) h.playing hcomplete
      · refine ⟨fun q hq => ?_, fun q hq hstarted => ?_, h.playing, hcomplete⟩
        · obtain rfl := Option.some.inj hq
          refine ⟨htold, fun ke hke => ?_⟩
          have hmem : ke ∈ p.downloaders ++ p.kes.filter fun ke => ¬ m.files.IsComplete ke := hke
          rw [hidle, List.nil_append] at hmem
          exact htold ke (List.mem_filter.mp hmem).1
        · obtain rfl := Option.some.inj hq
          cases hstarted
    · dsimp only at he
      rw [List.mem_append, List.mem_cons, List.mem_map, List.mem_singleton] at he
      rcases he with (rfl | ⟨ke, hke, rfl⟩) | rfl
      · trivial
      · exact htold ke (List.mem_filter.mp hke).1
      · trivial

/-- One more event. -/
lemma step (h : Playable m o) (hkeeps : KeepsSizes (m, d) e) {i : Option SaveVisit} (hstep : m.Step e i m')
    (hafter : remembered.After o i o') : Playable m' o' := by
  cases hstep with
  | visited => exact h.of_fewer (.of_eq rfl) h.playing (h.after (fun _ hke => hke) (by simp) hafter)
  | loggedIn =>
    exact h.of_fewer (.of_eq rfl) h.playing (h.after (fun _ hke => hke) (by simp [SaveEdit.HasSize]) hafter)
  | cookie =>
    exact h.of_fewer (.of_eq rfl) h.playing (h.after (fun _ hke => hke) (by simp [SaveEdit.HasSize]) hafter)
  | downloadAll hprogress classTitle kes =>
    obtain rfl : o' = o := hafter
    refine ⟨fun p hp => ?_, fun p hp _ => ?_, h.playing, h.complete⟩
    · obtain rfl := Option.some.inj hp
      exact ⟨hkeeps, fun ke hke => by cases hke⟩
    · obtain rfl := Option.some.inj hp
      rfl
  | beginDownload hprogress hwaiting => exact h.begin hprogress hwaiting hafter
  | @downloaded p ke hprogress hke data =>
    refine h.of_fewer (fun p' hp' => ?_) (fun q hq => ?_) ?_
    · rw [Mobile.progress_downloadKeFileTriggered] at hp'
      split_ifs at hp'
      obtain rfl := Option.some.inj hp'
      exact ⟨p, hprogress, rfl, rfl, rfl, List.erase_sublist⟩
    · rw [Mobile.player_downloadKeFileTriggered] at hq
      exact h.playing q hq
    · rw [Mobile.files_downloadKeFileTriggered]
      refine h.after (fun _ hke' => hke'.written hkeeps) (fun e he => ?_) hafter
      rw [List.mem_singleton.mp he]
      exact (h.told p hprogress).2 ke hke
  | failed hprogress hke =>
    obtain rfl : o' = o := hafter
    exact h.of_fewer (.of_erase hprogress rfl) h.playing h.complete
  | dismissed hprogress =>
    obtain rfl : o' = o := hafter
    exact h.of_fewer (.of_none rfl) h.playing h.complete
  | abandonedAnswered hurl answer =>
    obtain rfl : o' = o := hafter
    cases answer with
    | none => exact h.of_fewer (.of_eq rfl) h.playing h.complete
    | some data =>
      refine h.of_fewer (.of_eq rfl) h.playing fun r hr course i ke hfind => ?_
      have hcomplete := h.complete r hr course i ke hfind
      exact hcomplete.written hkeeps
  | updateData hprogress classTitle keDTO =>
    rw [Mobile.updateData] at hafter ⊢
    split_ifs at hafter ⊢ with hthere
    · refine h.of_fewer (.of_eq rfl) (fun q hq => ?_) (h.after (fun _ hke => hke) (fun e he => ?_) hafter)
      · obtain rfl := Option.some.inj hq
        exact hkeeps
      · rw [List.mem_singleton.mp he]
        exact hkeeps
    · obtain rfl : o' = o := hafter
      refine h.of_fewer (.of_eq rfl) (fun q hq => ?_) h.complete
      obtain rfl := Option.some.inj hq
      exact hkeeps
  | @playerDownloaded p url hplayer hurl data =>
    refine h.of_fewer (.of_eq rfl) (fun q hq => ?_)
      (h.after (fun _ hke => hke.written hkeeps) (fun e he => ?_) hafter)
    · have hplaying := h.playing p hplayer
      obtain rfl := Option.some.inj hq
      exact hplaying
    · rw [List.mem_singleton.mp he]
      exact h.playing p hplayer
  | @playerFailed p url hplayer hurl =>
    obtain rfl : o' = o := hafter
    have hplaying := h.playing p hplayer
    refine h.of_fewer (.of_eq rfl) (fun q hq => ?_) h.complete
    obtain rfl := Option.some.inj hq
    exact hplaying

end Playable

/-- As long as lessons have a size and no file changes its size, the activity shows all that is kept. -/
theorem Mobile.shows_all_kept {m : Mobile} {d : Option Bytes}
    (h : ((mobile.workingOn disk).guarded KeepsSizes).Reachable (m, d)) (uninitialised : Bool) :
    ∃ s, LocalSave.load uninitialised d = some s ∧
      offlineClasses m.files s = s.cachedKes.map fun c => (c.cource, c.kes) := by
  have hinvariant : ∃ o, StandsFor d o ∧ Playable m o := by
    refine h.invariant (I := fun s => ∃ o, StandsFor s.2 o ∧ Playable s.1 o) ?_ ?_
    · rintro ⟨m, d⟩ ⟨⟨hprogress, hplayer, -⟩, rfl⟩
      have hnone : ∀ p, m.progress ≠ some p := by simp_all
      have hsilent : ∀ p, m.player ≠ some p := by simp_all
      exact ⟨none, standsFor_none, fun p hp => absurd hp (hnone p), fun p hp => absurd hp (hnone p),
        fun p hp => absurd hp (hsilent p), fun r hr => by cases hr⟩
    · rintro ⟨m, d⟩ e ⟨m', d'⟩ ⟨o, hd, hplayable⟩ ⟨hkeeps, i, hstep, hafter⟩
      cases i with
      | none =>
        obtain rfl : d' = d := hafter
        exact ⟨o, hd, hplayable.step hkeeps hstep rfl⟩
      | some v =>
        obtain ⟨o', hchange, hd'⟩ := disk_refines d o v d' hd hafter
        exact ⟨o', hd', hplayable.step hkeeps hstep hchange⟩
  obtain ⟨o, hd, hplayable⟩ := hinvariant
  obtain ⟨s, hload, hrepresents⟩ := hd.exists_load uninitialised
  refine ⟨s, hload, ?_⟩
  have hcomplete : (o.getD (.new uninitialised)).AllComplete m.files := by
    cases o with
    | none => exact Remembered.AllComplete.new _ _
    | some r => exact hplayable.complete r rfl
  have hnamed : s.cachedKes.filter (fun c => c.cource.text ≠ []) = s.cachedKes :=
    List.filter_eq_self.mpr fun c hc => decide_eq_true (hrepresents.named c hc)
  rw [offlineClasses, hnamed]
  refine List.map_congr_left fun c hc => ?_
  have hall : c.kes.filter (fun ke => m.files.IsComplete ke) = c.kes := by
    refine List.filter_eq_self.mpr fun ke hke => decide_eq_true ?_
    exact hcomplete c.cource.text ke.place ke ((hrepresents.lessons c hc).mem_iff.mp hke)
  rw [hall]

/-- The client shows the lessons that it has loaded. -/
theorem Mobile.shows_all_kept_loadedMobile :
    ∃ s, LocalSave.load true (some (smallSave smallClass).save) = some s ∧
      offlineClasses loadedMobile.files s = s.cachedKes.map fun c => (c.cource, c.kes) := by
  have hinit : ((mobile.workingOn disk).guarded KeepsSizes).Reachable (freshMobile, none) :=
    .of_init ⟨⟨rfl, rfl, rfl⟩, rfl⟩
  have hsize : KeepsSizes (freshMobile, none) (.downloadAll smallTitle smallClass) := by
    intro ke hke
    rcases List.mem_pair.mp hke with rfl | rfl <;> decide
  have hsecond : KeepsSizes (begunMobile, some (LocalSave.new true).save)
      (.downloaded secondLesson [0, 0]) := fun content hfind => by cases hfind
  have hfirst : KeepsSizes (halfLoadedMobile, some (smallSave [secondLesson]).save)
      (.downloaded smallLesson [0]) := fun content hfind => by cases hfind
  have hvisits : KeepsSizes (openedMobile, none) .visited := trivial
  have hbegins : KeepsSizes (openedMobile, some (LocalSave.new true).save) .beginDownload := trivial
  have hwaits := (hinit.step ⟨hsize, next_openedMobile⟩).step ⟨hvisits, next_visitedMobile⟩
  have hbegun := hwaits.step ⟨hbegins, next_begunMobile⟩
  have hloaded := (hbegun.step ⟨hsecond, next_halfLoadedMobile⟩).step ⟨hfirst, next_loadedMobile⟩
  exact Mobile.shows_all_kept hloaded true

end Liangshi
