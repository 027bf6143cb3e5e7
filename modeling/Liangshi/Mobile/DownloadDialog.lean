import Liangshi.Mobile.OfflineLessons

/-!
# The dialog that loads a class

What has been loaded, what is being loaded and what has failed are all that the dialog began with.  A
failure is not counted, so the count falls short from then on: the dialog can close by itself exactly when
no request has failed since it was opened (`closes_iff_none_failed`).
-/

namespace Liangshi

open Ordered Transition Wire

namespace DownloadAllProgress

variable {files : KeCacheFolder} {p : DownloadAllProgress}

/-- The dialog behind its loop. -/
def looped (files : KeCacheFolder) (p : DownloadAllProgress) (dtos : List KeDTO) : DownloadAllProgress :=
  { p with
    currentCount := p.currentCount + (dtos.filter fun ke => files.IsComplete ke).length
    downloaders := p.downloaders ++ dtos.filter fun ke => ¬ files.IsComplete ke }

/-- The loop closes the dialog when all lessons are complete, and keeps those that are. -/
lemma beginLoop_eq {dtos : List KeDTO}
    (h : p.currentCount + p.downloaders.length + dtos.length = p.totalFileCount) :
    p.beginLoop files dtos =
      (p.looped files dtos, decide (dtos ≠ [] ∧ (p.looped files dtos).downloaders = []),
        (dtos.filter fun ke => files.IsComplete ke).map (.addKeFile p.classTitle)) := by
  induction dtos generalizing p with
  | nil => simp [beginLoop, looped]
  | cons dto dtos ih =>
    rw [List.length_cons] at h
    rw [beginLoop]
    by_cases hcomplete : files.IsComplete dto
    · rw [if_pos hcomplete]
      dsimp only
      by_cases hlast : p.currentCount + 1 ≥ p.totalFileCount
      · obtain rfl : dtos = [] := List.length_eq_zero_iff.mp (by omega)
        have hnone : p.downloaders = [] := List.length_eq_zero_iff.mp (by omega)
        rw [if_pos hlast]
        simp [looped, hcomplete, hnone]
      · rw [if_neg hlast, ih (by dsimp only; omega)]
        have hclosed : (dtos ≠ [] ∧ p.downloaders ++ dtos.filter (fun ke => ¬ files.IsComplete ke) = []) ↔
            p.downloaders ++ dtos.filter (fun ke => ¬ files.IsComplete ke) = [] := by
          refine and_iff_right_of_imp fun hnone hdtos => hlast ?_
          subst hdtos
          have hzero : p.downloaders.length = 0 := by simpa using hnone
          rw [List.length_nil] at h
          omega
        simp only [looped, hclosed]
        simp [hcomplete, Nat.add_assoc, Nat.add_comm]
    · rw [if_neg hcomplete, ih (by simp only [List.length_append, List.length_singleton]; omega)]
      simp [looped, hcomplete]

/-- The dialog when it has begun. -/
def started (files : KeCacheFolder) (p : DownloadAllProgress) : DownloadAllProgress :=
  looped files { p with totalFileCount := p.kes.length, currentCount := 0, waiting := false } p.kes

/-- What a dialog that has begun may hold: it has not loaded everything. -/
structure Counts (p : DownloadAllProgress) : Prop where
  idle : p.waiting = true → p.downloaders = []
  lt : p.waiting = false → p.currentCount < p.totalFileCount
  le : p.waiting = false → p.currentCount + p.downloaders.length ≤ p.totalFileCount

/-- Nothing that the dialog began with is missing. -/
def Lossless (p : DownloadAllProgress) : Prop :=
  p.waiting = true ∨ p.currentCount + p.downloaders.length = p.totalFileCount

/-- A new dialog has counted nothing. -/
lemma counts_new (classTitle : QString) (kes : List KeDTO) : (new classTitle kes).Counts :=
  ⟨fun _ => rfl, fun h => (by cases h), fun h => (by cases h)⟩

/-- A dialog that is loading a lesson waits no more. -/
lemma Counts.waiting_eq (h : p.Counts) {ke : KeDTO} (hke : ke ∈ p.downloaders) : p.waiting = false := by
  by_contra hwaiting
  rw [h.idle (by simpa using hwaiting)] at hke
  cases hke

/-- A dialog that has begun has all lessons: those that are complete, and those that it loads. -/
lemma started_sum (hnone : p.downloaders = []) :
    (p.started files).currentCount + (p.started files).downloaders.length =
      (p.started files).totalFileCount := by
  have hsplit := List.length_eq_length_filter_add (l := p.kes) fun ke => decide (files.IsComplete ke)
  have hnot : (p.kes.filter fun ke => !decide (files.IsComplete ke)).length =
      (p.kes.filter fun ke => decide ¬ files.IsComplete ke).length := by
    congr 2
    funext ke
    simp
  show 0 + (p.kes.filter fun ke => decide (files.IsComplete ke)).length +
    (p.downloaders ++ p.kes.filter fun ke => decide ¬ files.IsComplete ke).length = p.kes.length
  rw [hnone, List.nil_append]
  omega

end DownloadAllProgress

namespace Mobile

variable {m m' : Mobile} {p : DownloadAllProgress} {e : MobileEvent} {i : Option SaveVisit}

open DownloadAllProgress

/-- A class without lessons closes the dialog. -/
lemma beginDownload_nil (hkes : p.kes = []) : (m.beginDownload p).1.progress = none := by
  rw [beginDownload]
  dsimp only
  rw [if_pos (by rw [hkes]; rfl)]
  rfl

/-- Otherwise it stays when there is something to be loaded. -/
lemma beginDownload_of_ne (hkes : p.kes ≠ []) (hnone : p.downloaders = []) :
    m.beginDownload p =
      (if (p.started m.files).downloaders = [] then m.close (p.started m.files)
        else { m with progress := some (p.started m.files) },
      some ⟨m.files, .cleanKeCount p.classTitle 0 ::
        (p.kes.filter fun ke => m.files.IsComplete ke).map (.addKeFile p.classTitle) ++
          [.cleanKeCount p.classTitle p.kes.length]⟩) := by
  have hlength : p.kes.length ≠ 0 := fun h => hkes (List.length_eq_zero_iff.mp h)
  have hloop : beginLoop m.files
      { p with totalFileCount := p.kes.length, currentCount := 0, waiting := false } p.kes = _ :=
    beginLoop_eq (by simp [hnone])
  rw [beginDownload]
  dsimp only
  rw [if_neg hlength, hloop]
  dsimp only
  rw [show looped m.files { p with totalFileCount := p.kes.length, currentCount := 0, waiting := false }
    p.kes = p.started m.files from rfl]
  simp only [hkes, ne_eq, not_false_eq_true, true_and, decide_eq_true_eq]

/-- An answer closes the dialog when it is the last. -/
lemma progress_downloadKeFileTriggered {ke : KeDTO} :
    (m.downloadKeFileTriggered p ke).progress =
      if p.currentCount + 1 ≥ p.totalFileCount then none
      else some { p with currentCount := p.currentCount + 1, downloaders := p.downloaders.erase ke } := by
  rw [downloadKeFileTriggered]
  dsimp only
  split_ifs <;> rfl

/-- The dialog is gone, or has no more requests than before. -/
def Fewer (m m' : Mobile) : Prop :=
  ∀ p', m'.progress = some p' → ∃ p, m.progress = some p ∧ p'.classTitle = p.classTitle ∧ p'.kes = p.kes ∧
    p'.waiting = p.waiting ∧ p'.downloaders.Sublist p.downloaders

/-- The dialog is as it was. -/
lemma Fewer.of_eq (h : m'.progress = m.progress) : Fewer m m' :=
  fun p' hp' => ⟨p', h.symm.trans hp', rfl, rfl, rfl, .refl _⟩

/-- The dialog is gone. -/
lemma Fewer.of_none (h : m'.progress = none) : Fewer m m' := by
  intro p' hp'
  rw [h] at hp'
  cases hp'

/-- One request is not waited for any more. -/
lemma Fewer.of_erase (hprogress : m.progress = some p) {ke : KeDTO}
    (h : m'.progress = some { p with downloaders := p.downloaders.erase ke }) : Fewer m m' := by
  intro p' hp'
  obtain rfl := Option.some.inj (h.symm.trans hp')
  exact ⟨p, hprogress, rfl, rfl, rfl, List.erase_sublist⟩

/-- What an event does to the dialog. -/
inductive Turns (m m' : Mobile) : MobileEvent → Prop where
  | stays {e : MobileEvent} (hfailed : ∀ ke, e ≠ .failed ke) (h : m'.progress = m.progress) : Turns m m' e
  | opened {classTitle : QString} {kes : List KeDTO} (hnone : m.progress = none)
      (h : m'.progress = some (.new classTitle kes)) : Turns m m' (.downloadAll classTitle kes)
  | began {p : DownloadAllProgress} (hprogress : m.progress = some p) (hwaiting : p.waiting = true)
      (h : m' = (m.beginDownload p).1) : Turns m m' .beginDownload
  | loaded {p : DownloadAllProgress} {ke : KeDTO} {data : Bytes} (hprogress : m.progress = some p)
      (hke : ke ∈ p.downloaders)
      (h : m'.progress = if p.currentCount + 1 ≥ p.totalFileCount then none
        else some { p with currentCount := p.currentCount + 1, downloaders := p.downloaders.erase ke }) :
      Turns m m' (.downloaded ke data)
  | lost {p : DownloadAllProgress} {ke : KeDTO} (hprogress : m.progress = some p)
      (hke : ke ∈ p.downloaders)
      (h : m'.progress = some { p with downloaders := p.downloaders.erase ke }) :
      Turns m m' (.failed ke)

/-- What an event other than a dismissal does to the dialog. -/
lemma Step.turns (h : Step m e i m') (he : e ≠ .dismissed) : Turns m m' e := by
  cases h with
  | downloadAll hprogress classTitle kes => exact .opened hprogress rfl
  | beginDownload hprogress hwaiting => exact .began hprogress hwaiting rfl
  | downloaded hprogress hke data => exact .loaded hprogress hke progress_downloadKeFileTriggered
  | failed hprogress hke => exact .lost hprogress hke rfl
  | dismissed hprogress => exact absurd rfl he
  | abandonedAnswered hurl answer =>
    refine .stays (fun ke hke => by cases hke) ?_
    cases answer <;> rfl
  | updateData hprogress classTitle keDTO =>
    refine .stays (fun ke hke => by cases hke) ?_
    rw [Mobile.updateData]
    split_ifs <;> rfl
  | _ => exact .stays (fun ke hke => by cases hke) rfl

end Mobile

/-- No request of a dialog has failed. -/
def NoneFailed (es : List MobileEvent) : Prop := ∀ ke, .failed ke ∉ es

/-- An event that is no failure changes nothing. -/
lemma noneFailed_concat {es : List MobileEvent} {e : MobileEvent} (he : ∀ ke, e ≠ .failed ke) :
    NoneFailed (es ++ [e]) ↔ NoneFailed es := by
  have hne : ∀ ke, MobileEvent.failed ke ≠ e := fun ke heq => he ke heq.symm
  simp [NoneFailed, hne]

/-- What the dialog counts after some events: a dialog that has missed something is still open. -/
structure Counted (es : List MobileEvent) (m : Mobile) : Prop where
  closed : m.progress = none → NoneFailed es
  counts : ∀ p, m.progress = some p → p.Counts
  lossless : ∀ p, m.progress = some p → (p.Lossless ↔ NoneFailed es)

namespace Counted

variable {es : List MobileEvent} {m m' : Mobile} {e : MobileEvent}

/-- A dialog that is gone has missed nothing. -/
lemma of_none (h : m.progress = none) (hnone : NoneFailed es) : Counted es m := by
  refine ⟨fun _ => hnone, fun p hp => ?_, fun p hp => ?_⟩ <;>
  · rw [h] at hp
    cases hp

/-- The dialog that is open is the one that counts. -/
lemma of_some {p : DownloadAllProgress} (h : m.progress = some p) (hcounts : p.Counts)
    (hlossless : p.Lossless ↔ NoneFailed es) : Counted es m := by
  refine ⟨fun hnone => ?_, fun q hq => ?_, fun q hq => ?_⟩
  · rw [h] at hnone
    cases hnone
  · obtain rfl := Option.some.inj (h.symm.trans hq)
    exact hcounts
  · obtain rfl := Option.some.inj (h.symm.trans hq)
    exact hlossless

/-- The dialog begins. -/
lemma began (h : Counted es m) {p : DownloadAllProgress} (hprogress : m.progress = some p)
    (hwaiting : p.waiting = true) : Counted (es ++ [.beginDownload]) (m.beginDownload p).1 := by
  have hnone : NoneFailed (es ++ [.beginDownload]) :=
    (noneFailed_concat fun ke hke => (by cases hke)).mpr ((h.lossless p hprogress).mp (.inl hwaiting))
  have hidle := (h.counts p hprogress).idle hwaiting
  by_cases hkes : p.kes = []
  · exact of_none (Mobile.beginDownload_nil hkes) hnone
  · rw [Mobile.beginDownload_of_ne hkes hidle]
    dsimp only
    have hsum : (p.started m.files).currentCount + (p.started m.files).downloaders.length =
        (p.started m.files).totalFileCount := DownloadAllProgress.started_sum hidle
    split_ifs with hdone
    · exact of_none rfl hnone
    · have hpos := List.length_pos_iff.mpr hdone
      refine of_some rfl ⟨fun hstarted => (by cases hstarted), fun _ => by omega, fun _ => by omega⟩ ?_
      exact iff_of_true (.inr hsum) hnone

/-- One more event. -/
lemma snoc (h : Counted es m) (hturns : m.Turns m' e) : Counted (es ++ [e]) m' := by
  cases hturns with
  | stays hfailed hsame =>
    have hiff : NoneFailed (es ++ [e]) ↔ NoneFailed es := noneFailed_concat hfailed
    refine ⟨?_, ?_, ?_⟩ <;> rw [hsame]
    · exact fun hnone => hiff.mpr (h.closed hnone)
    · exact h.counts
    · exact fun p hp => (h.lossless p hp).trans hiff.symm
  | opened hnone hopened =>
    refine of_some hopened (DownloadAllProgress.counts_new _ _) (iff_of_true (.inl rfl) ?_)
    exact (noneFailed_concat fun ke hke => (by cases hke)).mpr (h.closed hnone)
  | began hprogress hwaiting hbegan =>
    subst hbegan
    exact h.began hprogress hwaiting
  | @loaded p ke data hprogress hke hloaded =>
    have hcounts := h.counts p hprogress
    have hwaiting := hcounts.waiting_eq hke
    have hle := hcounts.le hwaiting
    have hlength := List.length_erase_of_mem hke
    have hpos := List.length_pos_of_mem hke
    have hiff : NoneFailed (es ++ [.downloaded ke data]) ↔ NoneFailed es :=
      noneFailed_concat fun ke' hke' => (by cases hke')
    by_cases hlast : p.currentCount + 1 ≥ p.totalFileCount
    · rw [if_pos hlast] at hloaded
      exact of_none hloaded (hiff.mpr ((h.lossless p hprogress).mp (.inr (by omega))))
    · rw [if_neg hlast] at hloaded
      have hsame : DownloadAllProgress.Lossless
          { p with currentCount := p.currentCount + 1, downloaders := p.downloaders.erase ke } ↔
            p.Lossless := by
        simp only [DownloadAllProgress.Lossless, hwaiting, Bool.false_eq_true, false_or]
        omega
      refine of_some hloaded ⟨fun htrue => ?_, fun _ => ?_, fun _ => ?_⟩ ?_
      · rw [hwaiting] at htrue
        cases htrue
      · dsimp only
        omega
      · dsimp only
        omega
      · exact hsame.trans ((h.lossless p hprogress).trans hiff.symm)
  | @lost p ke hprogress hke hlost =>
    have hcounts := h.counts p hprogress
    have hwaiting := hcounts.waiting_eq hke
    have hlt := hcounts.lt hwaiting
    have hle := hcounts.le hwaiting
    have hlength := List.length_erase_of_mem hke
    have hpos := List.length_pos_of_mem hke
    refine of_some hlost ⟨fun htrue => ?_, fun _ => hlt, fun _ => ?_⟩ (iff_of_false ?_ ?_)
    · rw [hwaiting] at htrue
      cases htrue
    · dsimp only
      omega
    · simp only [DownloadAllProgress.Lossless, hwaiting, Bool.false_eq_true, false_or]
      omega
    · exact fun hnone => hnone ke (List.mem_append_right es (List.mem_singleton_self _))

/-- A run without a dismissal. -/
lemma run {m₀ : Mobile} {before : List MobileEvent} (h : Counted before m₀)
    (hrun : mobile.alone.Run m₀ es m) (hdismissed : .dismissed ∉ es) : Counted (before ++ es) m := by
  induction hrun with
  | nil => rwa [List.append_nil]
  | snoc _ hlast ih =>
    obtain ⟨i, hstep⟩ := hlast
    rw [← List.append_assoc]
    refine (ih fun hmem => hdismissed (List.mem_append_left _ hmem)).snoc (hstep.turns ?_)
    rintro rfl
    exact hdismissed (List.mem_append_right _ (List.mem_singleton_self _))

end Counted

namespace Mobile

variable {m : Mobile} {p : DownloadAllProgress}

/-- When all that is left is loaded, the dialog closes. -/
lemma exists_closing (hprogress : m.progress = some p) (hcounts : p.Counts) (hwaiting : p.waiting = false)
    (hlossless : p.Lossless) :
    ∃ es m', .dismissed ∉ es ∧ mobile.alone.Run m es m' ∧ m'.progress = none := by
  induction hlength : p.downloaders.length generalizing m p with
  | zero =>
    have hlt := hcounts.lt hwaiting
    simp only [DownloadAllProgress.Lossless, hwaiting, Bool.false_eq_true, false_or] at hlossless
    omega
  | succ count ih =>
    obtain ⟨ke, hke⟩ := List.exists_mem_of_length_pos (l := p.downloaders) (by omega)
    have hstep := Step.downloaded hprogress hke []
    have hcounted : Counted [] m :=
      Counted.of_some hprogress hcounts (iff_of_true hlossless fun _ => List.not_mem_nil)
    obtain ⟨hclosed, hafter, hsame⟩ := hcounted.snoc (hstep.turns fun heq => by cases heq)
    have hnone : NoneFailed ([] ++ [MobileEvent.downloaded ke []]) := by simp [NoneFailed]
    by_cases hlast : p.currentCount + 1 ≥ p.totalFileCount
    · refine ⟨[.downloaded ke []], _, by simp, .snoc (.nil m) ⟨_, hstep⟩, ?_⟩
      rw [progress_downloadKeFileTriggered, if_pos hlast]
    · have hopen : ((m.written ke.url []).downloadKeFileTriggered p ke).progress = _ :=
        progress_downloadKeFileTriggered
      rw [if_neg hlast] at hopen
      have herase : (p.downloaders.erase ke).length = count := by
        rw [List.length_erase_of_mem hke]
        omega
      obtain ⟨es, m', hes, hrun, hdone⟩ :=
        ih hopen (hafter _ hopen) hwaiting ((hsame _ hopen).mpr hnone) herase
      exact ⟨.downloaded ke [] :: es, m', by simp [hes], .cons ⟨_, hstep⟩ hrun, hdone⟩

end Mobile

/-- A dialog that is open can close by itself exactly when no request has failed since. -/
theorem Mobile.closes_iff_none_failed {m m' : Mobile} {es : List MobileEvent} (hidle : m.progress = none)
    (hrun : mobile.alone.Run m es m') (hdismissed : .dismissed ∉ es) (hopen : m'.progress.isSome) :
    (∃ es' m'', .dismissed ∉ es' ∧ mobile.alone.Run m' es' m'' ∧ m''.progress = none) ↔
      ∀ ke, .failed ke ∉ es := by
  have hbefore : Counted [] m := Counted.of_none hidle fun _ => List.not_mem_nil
  have hcounted : Counted es m' := hbefore.run hrun hdismissed
  obtain ⟨p, hp⟩ := Option.isSome_iff_exists.mp hopen
  have hcounts := hcounted.counts p hp
  constructor
  · rintro ⟨es', m'', hes', hrun', hclosed⟩ ke hke
    exact (hcounted.run hrun' hes').closed hclosed ke (List.mem_append_left es' hke)
  · intro hnone
    by_cases hwaiting : p.waiting = true
    · have hstep : mobile.alone.step m' .beginDownload (m'.beginDownload p).1 :=
        ⟨_, .beginDownload hp hwaiting⟩
      have hbegan := hcounted.began hp hwaiting
      cases hnext : (m'.beginDownload p).1.progress with
      | none => exact ⟨[.beginDownload], _, by simp, .snoc (.nil m') hstep, hnext⟩
      | some q =>
        have hnone' : NoneFailed (es ++ [.beginDownload]) :=
          (noneFailed_concat fun ke hke => (by cases hke)).mpr hnone
        have hstarted : q.waiting = false := by
          by_cases hkes : p.kes = []
          · rw [Mobile.beginDownload_nil hkes] at hnext
            cases hnext
          · rw [Mobile.beginDownload_of_ne hkes (hcounts.idle hwaiting)] at hnext
            dsimp only at hnext
            split_ifs at hnext with hdone
            · cases hnext
            · obtain rfl := Option.some.inj hnext
              rfl
        obtain ⟨es', m'', hes', hrun', hclosed⟩ := Mobile.exists_closing hnext (hbegan.counts q hnext)
          hstarted ((hbegan.lossless q hnext).mpr hnone')
        exact ⟨.beginDownload :: es', m'', by simp [hes'], .cons hstep hrun', hclosed⟩
    · exact Mobile.exists_closing hp hcounts (by simpa using hwaiting) ((hcounted.lossless p hp).mpr hnone)

/-- The title of a class. -/
def smallTitle : QString := ⟨some [97], by decide⟩

/-- A lesson of one byte. -/
def smallLesson : KeDTO := ⟨.empty, .empty, ⟨some [98], by decide⟩, 1, 0, 1⟩

/-- A lesson of two bytes behind it. -/
def secondLesson : KeDTO := ⟨.empty, .empty, ⟨some [99], by decide⟩, 2, 0, 2⟩

/-- The lessons of the class. -/
def smallClass : List KeDTO := [smallLesson, secondLesson]

/-- A client that has nothing. -/
def freshMobile : Mobile := ⟨.empty, none, none, []⟩

/-- A client that has opened the dialog. -/
def openedMobile : Mobile := { freshMobile with progress := some (.new smallTitle smallClass) }

/-- Its dialog while it loads some lessons and has loaded others. -/
def smallDialog (currentCount : Nat) (kes : List KeDTO) : DownloadAllProgress :=
  ⟨smallTitle, smallClass, currentCount, 2, false, kes⟩

/-- A client that loads the class. -/
def begunMobile : Mobile := { freshMobile with progress := some (smallDialog 0 smallClass) }

/-- The client opens the dialog. -/
lemma step_openedMobile : Mobile.Step freshMobile (.downloadAll smallTitle smallClass) none openedMobile :=
  .downloadAll rfl smallTitle smallClass

/-- The dialog begins. -/
lemma step_begunMobile : Mobile.Step openedMobile .beginDownload
    (some ⟨.empty, [.cleanKeCount smallTitle 0, .cleanKeCount smallTitle 2]⟩) begunMobile := by
  have hbegin : openedMobile.beginDownload (.new smallTitle smallClass) =
      (begunMobile, some ⟨.empty, [.cleanKeCount smallTitle 0, .cleanKeCount smallTitle 2]⟩) := by
    have hsmall : ¬ KeCacheFolder.IsComplete .empty smallLesson := by decide
    have hsecond : ¬ KeCacheFolder.IsComplete .empty secondLesson := by decide
    rw [Mobile.beginDownload_of_ne (List.cons_ne_nil _ _) rfl]
    simp [DownloadAllProgress.started, DownloadAllProgress.looped, DownloadAllProgress.new, openedMobile,
      begunMobile, freshMobile, smallDialog, smallClass, hsmall, hsecond]
  have hstep := Mobile.Step.beginDownload (m := openedMobile) rfl rfl
  rwa [hbegin] at hstep

/-- One lesson cannot be loaded, while the other one may still come. -/
theorem Mobile.closes_iff_none_failed_smallLesson :
    (∃ es' m'', .dismissed ∉ es' ∧ mobile.alone.Run
      { freshMobile with progress := some (smallDialog 0 [secondLesson]) } es' m'' ∧ m''.progress = none) ↔
      ∀ ke, .failed ke ∉ [MobileEvent.downloadAll smallTitle smallClass, .beginDownload,
        .failed smallLesson] := by
  have hfailed : Mobile.Step begunMobile (.failed smallLesson) none
      { freshMobile with progress := some (smallDialog 0 [secondLesson]) } :=
    .failed (p := smallDialog 0 smallClass) rfl List.mem_cons_self
  have hrun := (((System.Run.nil (S := mobile.alone) freshMobile).snoc ⟨_, step_openedMobile⟩).snoc
    ⟨_, step_begunMobile⟩).snoc ⟨_, hfailed⟩
  exact Mobile.closes_iff_none_failed rfl hrun (by simp) rfl

end Liangshi
