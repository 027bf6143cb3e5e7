import Liangshi.Mobile.LocalSave
import Liangshi.Transition.Store
import Mathlib.Logic.Function.Basic

/-!
# What the file stands for

The file of `LocalSave` stands for a record without lists: by course a map from indices to lessons
(`Remembered`).  Keeping a lesson is an assignment in the map of its course, or takes the index out where
the file of the lesson does not have its size, and cleaning leaves the first lessons.

Whoever needs the file loads it, changes what was loaded and saves it, and the file stands then for what the
changes make of the record (`disk_refines`).
-/

namespace Liangshi

open Ordered Transition Wire

/-! ## Changes -/

/-- What is done to a `LocalSave`. -/
inductive SaveEdit where
  | addKeFile (course : QString) (ke : KeDTO)
  | cleanKeCount (course : QString) (size : Nat)
  /-- `LoginFinishedTriggered` of `LoginActivity`. -/
  | login (username password : QString) (remember : Bool)
  /-- `DownloadImageFileTriggered` of `VerificationCodeImage`. -/
  | cookie (cookie : QString)

/-- A `LocalSave` from its constructor to its destructor, while the files of the lessons stay as they are. -/
structure SaveVisit where
  files : KeCacheFolder
  edits : List SaveEdit

namespace LocalSave

/-- One change. -/
def edit (files : KeCacheFolder) (s : LocalSave) : SaveEdit → LocalSave
  | .addKeFile course ke => s.addKeFile files course ke
  | .cleanKeCount course size => s.cleanKeCount course size
  | .login username password remember =>
    { s with
      username
      password := if remember then password else .empty
      rememmberPassword := remember }
  | .cookie cookie => { s with cookie }

/-- All changes of a visit. -/
def visit (s : LocalSave) (v : SaveVisit) : LocalSave := v.edits.foldl (edit v.files) s

end LocalSave

/-- The file as a store: it is loaded, changed and saved, and no list outgrows its counter. -/
def disk : Store (Option Bytes) SaveVisit where
  init d := d = none
  change d v d' := ∃ uninitialised s, LocalSave.load uninitialised d = some s ∧ (s.visit v).Fits ∧
    d' = some (s.visit v).save

/-! ## The record -/

/-- What the mobile client remembers. -/
structure Remembered where
  username : QString
  password : QString
  rememmberPassword : Bool
  cookie : QString
  lessons : List Nat → OrderedMap Int KeDTO

/-- The file of a lesson has the size that the server told. -/
def KeCacheFolder.HasSize (files : KeCacheFolder) (ke : KeDTO) : Prop := ke.filesize.toInt = files.size ke.url

instance (files : KeCacheFolder) (ke : KeDTO) : Decidable (files.HasSize ke) :=
  inferInstanceAs (Decidable (_ = _))

/-- The lessons of a course after one that is to be kept. -/
def KeCacheFolder.keep (files : KeCacheFolder) (kes : OrderedMap Int KeDTO) (ke : KeDTO) :
    OrderedMap Int KeDTO :=
  if files.HasSize ke then kes.insert ke.place ke else kes.erase ke.place

namespace Remembered

/-- Nothing is remembered yet. -/
def new (uninitialised : Bool) : Remembered := ⟨.null, .null, uninitialised, .null, fun _ => .empty⟩

/-- One change; a course without a name keeps nothing. -/
def edit (files : KeCacheFolder) (r : Remembered) : SaveEdit → Remembered
  | .addKeFile course ke =>
    if course.text = [] then r
    else { r with
      lessons := Function.update r.lessons course.text (files.keep (r.lessons course.text) ke) }
  | .cleanKeCount course size =>
    { r with lessons := Function.update r.lessons course.text ((r.lessons course.text).firsts size) }
  | .login username password remember =>
    { r with
      username
      password := if remember then password else .empty
      rememmberPassword := remember }
  | .cookie cookie => { r with cookie }

/-- All changes of a visit. -/
def visit (r : Remembered) (v : SaveVisit) : Remembered := v.edits.foldl (edit v.files) r

end Remembered

/-- The record as a store. -/
def remembered : Store (Option Remembered) SaveVisit where
  init o := o = none
  change o v o' := ∃ uninitialised, o' = some ((o.getD (.new uninitialised)).visit v)

/-! ## The file and the record -/

/-- A record has what was loaded. -/
structure Represents (s : LocalSave) (r : Remembered) : Prop where
  username : s.username = r.username
  password : s.password = r.password
  rememmberPassword : s.rememmberPassword = r.rememmberPassword
  cookie : s.cookie = r.cookie
  nodup : (s.cachedKes.map (·.cource.text)).Nodup
  named : ∀ c ∈ s.cachedKes, c.cource.text ≠ []
  lessons : ∀ c ∈ s.cachedKes, Lists KeDTO.place c.kes (r.lessons c.cource.text)
  others : ∀ course, (∀ c ∈ s.cachedKes, c.cource.text ≠ course) → r.lessons course = .empty

/-- A file stands for a record: one that is not there, or is of an old version, for none. -/
def StandsFor (d : Option Bytes) (o : Option Remembered) : Prop :=
  match o with
  | none => ∀ uninitialised, LocalSave.load uninitialised d = some (.new uninitialised)
  | some r => ∃ s, (∀ uninitialised, LocalSave.load uninitialised d = some s) ∧ Represents s r

/-- Without a file nothing is remembered. -/
lemma standsFor_none : StandsFor none none := fun _ => rfl

/-- A new save is a new record. -/
lemma represents_new (uninitialised : Bool) :
    Represents (.new uninitialised) (.new uninitialised) := by
  constructor <;> simp [LocalSave.new, Remembered.new]

/-- Keeping a lesson in the list of a course keeps it in its map. -/
lemma lists_addKeFile {files : KeCacheFolder} {c : CachedKe} {m : OrderedMap Int KeDTO}
    (h : Lists KeDTO.place c.kes m) (ke : KeDTO) :
    Lists KeDTO.place (c.addKeFile files ke).kes (files.keep m ke) := by
  rw [CachedKe.addKeFile, KeCacheFolder.keep]
  dsimp only
  by_cases hsize : files.HasSize ke
  · have hsame : ke.filesize.toInt = files.size ke.url := hsize
    rw [if_pos hsize, if_pos hsame]
    exact h.insert ke
  · have hsame : ke.filesize.toInt ≠ files.size ke.url := hsize
    rw [if_neg hsize, if_neg hsame]
    exact h.erase ke.place

/-- Cleaning the list of a course cleans its map. -/
lemma lists_cleanKeCount {c : CachedKe} {m : OrderedMap Int KeDTO} (h : Lists KeDTO.place c.kes m)
    (size : Nat) : Lists KeDTO.place (c.cleanKeCount size).kes (m.firsts size) := by
  rw [CachedKe.cleanKeCount]
  split_ifs with hsize
  · exact h.take size
  · have htake := h.take size
    rwa [List.take_of_length_le (by omega)] at htake

/-- Cleaning leaves the name of a course. -/
lemma cource_cleanKeCount (c : CachedKe) (size : Nat) : (c.cleanKeCount size).cource = c.cource := by
  rw [CachedKe.cleanKeCount]
  split_ifs <;> rfl

namespace Represents

variable {s : LocalSave} {r : Remembered} {files : KeCacheFolder}

/-- The lists of one course are changed, and the map of the course with them. -/
lemma update (h : Represents s r) {course : List Nat} {f : CachedKe → CachedKe} {kes : OrderedMap Int KeDTO}
    (hcource : ∀ c, (f c).cource = c.cource)
    (hlists : ∀ c ∈ s.cachedKes, c.cource.text = course → Lists KeDTO.place (f c).kes kes)
    (hothers : (∀ c ∈ s.cachedKes, c.cource.text ≠ course) → kes = .empty) :
    Represents
      { s with cachedKes := s.cachedKes.map fun c => if c.cource.text = course then f c else c }
      { r with lessons := Function.update r.lessons course kes } := by
  have hsame : ∀ c : CachedKe,
      (if c.cource.text = course then f c else c).cource.text = c.cource.text := by
    intro c
    split_ifs
    · rw [hcource]
    · rfl
  refine ⟨h.username, h.password, h.rememmberPassword, h.cookie, ?_, ?_, ?_, ?_⟩
  · have hcourses := h.nodup
    simpa [Function.comp_def, hsame] using hcourses
  · intro c hc
    obtain ⟨c, hmem, rfl⟩ := List.mem_map.mp hc
    rw [hsame]
    exact h.named c hmem
  · intro c hc
    obtain ⟨c, hmem, rfl⟩ := List.mem_map.mp hc
    dsimp only
    rw [hsame]
    split_ifs with heq
    · rw [heq, Function.update_self]
      exact hlists c hmem heq
    · rw [Function.update_of_ne heq]
      exact h.lessons c hmem
  · intro other hother
    have hnone : ∀ c ∈ s.cachedKes, c.cource.text ≠ other := by
      intro c hc
      rw [← hsame c]
      exact hother _ (List.mem_map.mpr ⟨c, hc, rfl⟩)
    by_cases heq : other = course
    · subst heq
      dsimp only
      rw [Function.update_self]
      exact hothers hnone
    · dsimp only
      rw [Function.update_of_ne heq]
      exact h.others other hnone

/-- A course that was not there is put at the end. -/
lemma append (h : Represents s r) {course : QString} {c : CachedKe} {kes : OrderedMap Int KeDTO}
    (hcource : c.cource = course) (hnamed : course.text ≠ [])
    (hnone : ∀ c ∈ s.cachedKes, c.cource.text ≠ course.text) (hlists : Lists KeDTO.place c.kes kes) :
    Represents { s with cachedKes := s.cachedKes ++ [c] }
      { r with lessons := Function.update r.lessons course.text kes } := by
  subst hcource
  refine ⟨h.username, h.password, h.rememmberPassword, h.cookie, ?_, ?_, ?_, ?_⟩
  · rw [List.map_append, List.nodup_append]
    refine ⟨h.nodup, List.nodup_singleton _, ?_⟩
    intro course hcourse other hother
    obtain ⟨c', hc', rfl⟩ := List.mem_map.mp hcourse
    rw [List.map_singleton, List.mem_singleton] at hother
    rw [hother]
    exact hnone c' hc'
  · intro c' hc'
    rcases List.mem_append.mp hc' with hc' | hc'
    · exact h.named c' hc'
    · rwa [List.mem_singleton.mp hc']
  · intro c' hc'
    dsimp only
    rcases List.mem_append.mp hc' with hc' | hc'
    · rw [Function.update_of_ne (hnone c' hc')]
      exact h.lessons c' hc'
    · rw [List.mem_singleton.mp hc', Function.update_self]
      exact hlists
  · intro other hother
    have hne : other ≠ c.cource.text :=
      (hother c (List.mem_append_right _ (List.mem_singleton_self c))).symm
    dsimp only
    rw [Function.update_of_ne hne]
    exact h.others other fun c' hc' => hother c' (List.mem_append_left _ hc')

/-- A lesson is kept or taken out. -/
lemma addKeFile (h : Represents s r) (course : QString) (ke : KeDTO) :
    Represents (s.addKeFile files course ke) (r.edit files (.addKeFile course ke)) := by
  rw [LocalSave.addKeFile, Remembered.edit]
  split_ifs with hnamed hany
  · exact h
  · obtain ⟨c₀, hc₀, heq₀⟩ := List.any_eq_true.mp hany
    refine h.update (fun _ => rfl) (fun c hc heq => ?_) fun hnone => ?_
    · rw [← heq]
      exact lists_addKeFile (h.lessons c hc) ke
    · exact absurd (of_decide_eq_true heq₀) (hnone c₀ hc₀)
  · have hnone : ∀ c ∈ s.cachedKes, c.cource.text ≠ course.text := by
      intro c hc heq
      exact hany (List.any_eq_true.mpr ⟨c, hc, decide_eq_true heq⟩)
    refine h.append rfl hnamed hnone ?_
    rw [h.others course.text hnone]
    exact lists_addKeFile lists_empty ke

/-- A course is cleaned. -/
lemma cleanKeCount (h : Represents s r) (course : QString) (size : Nat) :
    Represents (s.cleanKeCount course size) (r.edit files (.cleanKeCount course size)) := by
  refine h.update (cource_cleanKeCount · size) (fun c hc heq => ?_) fun hnone => ?_
  · rw [← heq]
    exact lists_cleanKeCount (h.lessons c hc) size
  · rw [h.others course.text hnone, OrderedMap.firsts]
    simp [OrderedMap.empty]

/-- Every change of what was loaded is the change of the record. -/
lemma edit (h : Represents s r) (e : SaveEdit) : Represents (s.edit files e) (r.edit files e) := by
  cases e with
  | addKeFile course ke => exact h.addKeFile course ke
  | cleanKeCount course size => exact h.cleanKeCount course size
  | login username password remember =>
    exact ⟨rfl, rfl, rfl, h.cookie, h.nodup, h.named, h.lessons, h.others⟩
  | cookie cookie =>
    exact ⟨h.username, h.password, h.rememmberPassword, rfl, h.nodup, h.named, h.lessons, h.others⟩

/-- A visit with all its edits. -/
lemma visit (h : Represents s r) (v : SaveVisit) : Represents (s.visit v) (r.visit v) := by
  obtain ⟨files, edits⟩ := v
  rw [LocalSave.visit, Remembered.visit]
  dsimp only
  induction edits generalizing s r with
  | nil => exact h
  | cons e edits ih => exact ih (h.edit e)

end Represents

/-- A file that stands for a record is loaded as the record, or as a new one. -/
lemma StandsFor.exists_load {d : Option Bytes} {o : Option Remembered} (h : StandsFor d o)
    (uninitialised : Bool) :
    ∃ s, LocalSave.load uninitialised d = some s ∧ Represents s (o.getD (.new uninitialised)) := by
  cases o with
  | none => exact ⟨_, h uninitialised, represents_new uninitialised⟩
  | some r =>
    obtain ⟨s, hload, hrepresents⟩ := h
    exact ⟨s, hload uninitialised, hrepresents⟩

/-- What the file stands for after a visit is what the visit makes of the record. -/
theorem disk_refines : disk.Refines StandsFor remembered := by
  rintro d o v _ h ⟨uninitialised, s, hload, hfits, rfl⟩
  obtain ⟨s', hload', hrepresents⟩ := h.exists_load uninitialised
  obtain rfl := Option.some.inj (hload.symm.trans hload')
  exact ⟨_, ⟨uninitialised, rfl⟩, s.visit v, LocalSave.load_save hfits, hrepresents.visit v⟩

end Liangshi
