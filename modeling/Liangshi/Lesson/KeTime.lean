import Mathlib.Tactic.Lemma

/-!
# The stopwatch of a lesson

`KeTime` of `Client/src/hera`.  A stopwatch of its own (`_selfTimeUpdate`) adds what it has recorded
to what has passed since it was last started; one that follows a recorder says what the recorder last
reported.  A call reads the clock at most once for what it keeps, so the clock is an argument of it.

The constructor sets neither the beginning, which is a null `QDateTime`, nor the recorder's time,
which may be any number.
-/

namespace Liangshi

/-- A `QDateTime`, in milliseconds. -/
abbrev Instant := Int

namespace KeTime

/-- `KeTime::State`. -/
inductive State where
  | notStart
  | working
  | paused
deriving DecidableEq

end KeTime

/-- `KeTime`. -/
structure KeTime where
  beginningTime : Option Instant
  recrodTime : Int32
  state : KeTime.State
  selfTimeUpdate : Bool
  hadesTime : Int32
deriving DecidableEq

namespace KeTime

/-- `QDateTime::msecsTo`, which is zero from a null time. -/
def msecsTo (beginning : Option Instant) (now : Instant) : Int :=
  match beginning with
  | some beginning => now - beginning
  | none => 0

/-- `Reset`. -/
def reset (time : KeTime) : KeTime := { time with state := .notStart, recrodTime := 0 }

/-- The constructor, with what the recorder's time happens to be. -/
def new (hadesTime : Int32) : KeTime := reset ⟨none, 0, .notStart, true, hadesTime⟩

/-- `DisableSeltTime`. -/
def disableSeltTime (time : KeTime) : KeTime := { time with selfTimeUpdate := false }

/-- `Start`. -/
def start (now : Instant) (time : KeTime) : KeTime :=
  if time.state ≠ .working then { time with beginningTime := some now, state := .working } else time

/-- `Pause`; the sum is stored in an `int`. -/
def pause (now : Instant) (time : KeTime) : KeTime :=
  if time.state ≠ .paused then
    { time with
      recrodTime := .ofInt (time.recrodTime.toInt + msecsTo time.beginningTime now)
      state := .paused }
  else
    time

/-- `SetAnimatedTime`. -/
def setAnimatedTime (now : Instant) (t : Int32) (time : KeTime) : KeTime :=
  { time with recrodTime := t, hadesTime := t, beginningTime := some now }

/-- `OnHadesTime`. -/
def onHadesTime (t : Int32) (time : KeTime) : KeTime := { time with hadesTime := t }

/-- `IsPausing`. -/
def isPausing (time : KeTime) : Bool := time.state = .paused ∨ time.state = .notStart

/-- `GetAnimatedTime`. -/
def getAnimatedTime (now : Instant) (time : KeTime) : Int32 :=
  if time.selfTimeUpdate then
    if time.state = .working then
      .ofInt (time.recrodTime.toInt + msecsTo time.beginningTime now)
    else
      time.recrodTime
  else
    time.hadesTime

end KeTime

end Liangshi
