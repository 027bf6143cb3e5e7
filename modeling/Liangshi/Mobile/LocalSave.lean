import Liangshi.Ordered.KeyedList
import Liangshi.Wire.Streamed

/-!
# What the mobile client keeps

`LocalSave` of `teach_mobile`: who has logged in, the cookie, and by course the lessons that can be played
without a network, sorted by their index.  It is kept in one file as a `QDataStream` writes it; whoever
needs it loads the file, changes what was loaded and saves the file again.

A lesson is kept when its file has the size that the server told, and takes the place of one with its
index.  What was saved is loaded again, whatever the strings and the lessons are (`load_save`).

What is read of a damaged file is left out.
-/

namespace Liangshi

open Wire Ordered

/-! ## Strings and numbers in a stream -/

/-- `QString`: null, or fewer UTF-16 units than an `int` counts. -/
structure QString where
  units : Option (List UInt16)
  short : (units.getD []).length < 2 ^ 31
deriving DecidableEq

namespace QString

/-- The null string. -/
def null : QString := ⟨none, by decide⟩

/-- The string `""`. -/
def empty : QString := ⟨some [], by decide⟩

/-- The characters, which are all that comparisons look at. -/
def text (s : QString) : List Nat := (s.units.getD []).map UInt16.toNat

/-- A character in a stream. -/
def unit : Streamed UInt16 :=
  (Streamed.number 2).via UInt16.toNat (fun n => some (UInt16.ofNat n)) (by simp)

/-- A character fits into two bytes. -/
lemma fits_unit (c : UInt16) : unit.Fits c := c.toNat_lt

/-- What is written of a string: its size in bytes, which is `0xffffffff` of a null one, and its
characters. -/
def put (s : QString) : Bytes :=
  match s.units with
  | none => bigEndian 4 0xffffffff
  | some units => bigEndian 4 (2 * units.length) ++ units.flatMap unit.put

/-- What is read of a string; an odd size is an error. -/
def get (bytes : Bytes) : Option (QString × Bytes) := do
  let (size, bytes) ← (Streamed.number 4).get bytes
  if size = 0xffffffff then return (null, bytes)
  if size % 2 = 1 then none
  let (units, bytes) ← unit.getMany (size / 2) bytes
  if h : units.length < 2 ^ 31 then return (⟨some units, h⟩, bytes) else none

/-- A string is read back. -/
lemma get_put (s : QString) (rest : Bytes) : get (s.put ++ rest) = some (s, rest) := by
  obtain ⟨units, hshort⟩ := s
  cases units with
  | none =>
    have hfits : (Streamed.number 4).Fits 0xffffffff := (by omega : (0xffffffff : Nat) < 256 ^ 4)
    have hsize := (Streamed.number 4).get_put rest hfits
    rw [put, get]
    dsimp only
    rw [show bigEndian 4 0xffffffff = (Streamed.number 4).put 0xffffffff from rfl, hsize]
    rfl
  | some units =>
    have hlength : units.length < 2 ^ 31 := hshort
    have hfits : (Streamed.number 4).Fits (2 * units.length) := by
      show 2 * units.length < 256 ^ 4
      omega
    have hsize := (Streamed.number 4).get_put (units.flatMap unit.put ++ rest) hfits
    have hunits := unit.getMany_flatMap (fun c _ => fits_unit c) rest (l := units)
    have hhalf : 2 * units.length / 2 = units.length := by omega
    rw [put, get]
    dsimp only
    rw [List.append_assoc,
      show bigEndian 4 (2 * units.length) = (Streamed.number 4).put (2 * units.length) from rfl, hsize]
    dsimp only [Option.bind_eq_bind, Option.bind_some]
    rw [if_neg (by omega), if_neg (by omega), hhalf, hunits]
    dsimp only [Option.bind_some]
    rw [dif_pos hlength]
    rfl

/-- A string in a stream. -/
def streamed : Streamed QString := ⟨put, get, fun _ => True, fun rest _ => get_put _ rest⟩

end QString

/-- An `int` in a stream. -/
def streamedInt : Streamed Int32 :=
  (Streamed.number 4).via (·.toUInt32.toNat) (fun n => some (UInt32.ofNat n).toInt32) (by simp)

/-- A `bool` in a stream, of one byte. -/
def streamedBool : Streamed Bool :=
  (Streamed.number 1).via (fun b => if b then 1 else 0) (fun n => some (n != 0)) (by decide)

/-- A number fits into four bytes. -/
lemma fits_int (x : Int32) : streamedInt.Fits x := x.toUInt32.toNat_lt

/-- A truth value fits into one byte. -/
lemma fits_bool (b : Bool) : streamedBool.Fits b := by
  show (if b then 1 else 0) < 256 ^ 1
  cases b <;> decide

/-! ## Lessons -/

/-- `KeDTO`: a lesson as the server tells it. -/
structure KeDTO where
  id : QString
  title : QString
  url : QString
  filesize : Int32
  time : Int32
  index : Int32
deriving DecidableEq

/-- A lesson in a stream. -/
def KeDTO.streamed : Streamed KeDTO :=
  (QString.streamed.pair (QString.streamed.pair (QString.streamed.pair
    (streamedInt.pair (streamedInt.pair streamedInt))))).via
    (fun ke => (ke.id, ke.title, ke.url, ke.filesize, ke.time, ke.index))
    (fun ⟨id, title, url, filesize, time, index⟩ => some ⟨id, title, url, filesize, time, index⟩)
    fun _ => rfl

/-- A lesson can always be written. -/
lemma KeDTO.fits (ke : KeDTO) : KeDTO.streamed.Fits ke :=
  ⟨trivial, trivial, trivial, fits_int _, fits_int _, fits_int _⟩

/-- The files in the folder of `GetKeCacheFolder`, by their names. -/
abbrev KeCacheFolder := OrderedMap (List Nat) Bytes

/-- `size` of a `QFileInfo`, which is 0 where there is no file. -/
def KeCacheFolder.size (files : KeCacheFolder) (url : QString) : Int :=
  ((files.find url.text).map fun content => (content.length : Int)).getD 0

/-- The place of a lesson in its course. -/
def KeDTO.place (ke : KeDTO) : Int := ke.index.toInt

/-- `CachedKe`: the lessons of a course. -/
structure CachedKe where
  cource : QString
  kes : List KeDTO
deriving DecidableEq

namespace CachedKe

/-- The lessons of a course in a stream. -/
def streamed : Streamed CachedKe :=
  (QString.streamed.pair (KeDTO.streamed.counted 4)).via (fun c => (c.cource, c.kes))
    (fun ⟨cource, kes⟩ => some ⟨cource, kes⟩) fun _ => rfl

/-- `AddKeFile`. -/
def addKeFile (files : KeCacheFolder) (ke : KeDTO) (c : CachedKe) : CachedKe :=
  let kes := c.kes.eraseP fun aKe => aKe.place = ke.place
  let kes := if ke.filesize.toInt = files.size ke.url then kes ++ [ke] else kes
  { c with kes := kes.insertionSort fun a b => a.place ≤ b.place }

/-- `CleanKeCount`. -/
def cleanKeCount (size : Nat) (c : CachedKe) : CachedKe :=
  if c.kes.length > size then { c with kes := c.kes.take size } else c

end CachedKe

/-! ## The file -/

/-- `LocalSave`. -/
structure LocalSave where
  username : QString
  password : QString
  rememmberPassword : Bool
  cookie : QString
  cachedKes : List CachedKe
deriving DecidableEq

namespace LocalSave

/-- The members before anything is loaded; `_rememmberPassword` is not initialised. -/
def new (uninitialised : Bool) : LocalSave := ⟨.null, .null, uninitialised, .null, []⟩

/-- The members in a stream. -/
def streamed : Streamed LocalSave :=
  (QString.streamed.pair (QString.streamed.pair (streamedBool.pair (QString.streamed.pair
    (CachedKe.streamed.counted 4))))).via
    (fun s => (s.username, s.password, s.rememmberPassword, s.cookie, s.cachedKes))
    (fun ⟨username, password, rememmberPassword, cookie, cachedKes⟩ =>
      some ⟨username, password, rememmberPassword, cookie, cachedKes⟩) fun _ => rfl

/-- `Save`: what the file holds. -/
def save (s : LocalSave) : Bytes := streamedInt.put 101 ++ streamed.put s

/-- `Load`, where there is a file; one of an old version is not read any further. -/
def load (uninitialised : Bool) (disk : Option Bytes) : Option LocalSave :=
  match disk with
  | none => some (new uninitialised)
  | some bytes => do
    let (version, bytes) ← streamedInt.get bytes
    if version < 101 then return new uninitialised
    return (← streamed.get bytes).1

/-- No list has more items than its counter counts. -/
def Fits (s : LocalSave) : Prop :=
  s.cachedKes.length < 2 ^ 32 ∧ ∀ c ∈ s.cachedKes, c.kes.length < 2 ^ 32

/-- A save whose counters have room can be written. -/
lemma Fits.streamed {s : LocalSave} (h : s.Fits) : LocalSave.streamed.Fits s := by
  refine ⟨trivial, trivial, fits_bool _, trivial, h.1, fun c hc => ?_⟩
  exact ⟨trivial, h.2 c hc, fun ke _ => ke.fits⟩

/-- `AddKeFile`. -/
def addKeFile (files : KeCacheFolder) (course : QString) (ke : KeDTO) (s : LocalSave) : LocalSave :=
  if course.text = [] then s
  else if s.cachedKes.any fun cache => cache.cource.text = course.text then
    { s with
      cachedKes := s.cachedKes.map fun cache =>
        if cache.cource.text = course.text then cache.addKeFile files ke else cache }
  else
    { s with cachedKes := s.cachedKes ++ [CachedKe.addKeFile files ke ⟨course, []⟩] }

/-- `CleanKeCount`. -/
def cleanKeCount (course : QString) (size : Nat) (s : LocalSave) : LocalSave :=
  { s with
    cachedKes := s.cachedKes.map fun cache =>
      if cache.cource.text = course.text then cache.cleanKeCount size else cache }

/-- What was saved is loaded. -/
theorem load_save {s : LocalSave} (h : s.Fits) (uninitialised : Bool) :
    load uninitialised (some s.save) = some s := by
  have hbody := LocalSave.streamed.get_put [] h.streamed
  rw [List.append_nil] at hbody
  rw [load, save]
  dsimp only
  rw [streamedInt.get_put _ (fits_int 101)]
  dsimp only [Option.bind_eq_bind, Option.bind_some]
  rw [if_neg (by decide), hbody]
  rfl

end LocalSave

end Liangshi
