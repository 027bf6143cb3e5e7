import Liangshi.Lesson.KeTime
import Liangshi.Transition.System
import Mathlib.Algebra.Group.Int.Defs
import Mathlib.Algebra.Group.Nat.Defs
import Mathlib.Tactic.SplitIfs

/-!
# What the stopwatch says

Calls of a stopwatch with time passing in between, beside what it is to say: the time last set and
the time spent working since.  The two agree in every state of a run exactly when no step breaks one
of two conditions (`animated_iff`): the time stays an `int`, and `Pause` is not called before `Start`
while a beginning is left from earlier, since it adds the time since that beginning whatever the
state is (`not_animated_pausedAfterReset`).  `HeraMainWidget::OnSaveTriggered` calls it so.
-/

namespace Liangshi

open Transition

/-- What happens to a stopwatch: time passes, a slot is called, its timer ticks. -/
inductive TimeEvent where
  | elapse (duration : Nat)
  | start
  | pause
  | reset
  | setAnimatedTime (time : Int32)
  | tick
deriving DecidableEq

/-- Whether an event sets the time. -/
def TimeEvent.setsTime : TimeEvent → Bool
  | .reset | .setAnimatedTime _ => true
  | _ => false

/-- A stopwatch and the clock, beside the time last set and the time spent working since. -/
structure Stopwatch where
  clock : Instant
  keTime : KeTime
  lastSet : Int
  worked : Nat

namespace Stopwatch

/-- A new stopwatch. -/
def new (clock : Instant) (hadesTime : Int32) : Stopwatch := ⟨clock, .new hadesTime, 0, 0⟩

/-- What an event does; `OnTimerTriggered` only says what the time is. -/
def next (s : Stopwatch) : TimeEvent → Stopwatch
  | .elapse duration =>
    { s with
      clock := s.clock + duration
      worked := if s.keTime.state = .working then s.worked + duration else s.worked }
  | .start => { s with keTime := s.keTime.start s.clock }
  | .pause => { s with keTime := s.keTime.pause s.clock }
  | .reset => { s with keTime := s.keTime.reset, lastSet := 0, worked := 0 }
  | .setAnimatedTime time =>
    { s with keTime := s.keTime.setAnimatedTime s.clock time, lastSet := time.toInt, worked := 0 }
  | .tick => s

/-- Stopwatches and what happens to them. -/
def system : System Stopwatch TimeEvent where
  init s := ∃ clock hadesTime, s = new clock hadesTime
  step s e t := t = s.next e

/-- The time the stopwatch says. -/
def animatedTime (s : Stopwatch) : Int := (s.keTime.getAnimatedTime s.clock).toInt

/-- It says the time last set and the time spent working since. -/
def Accurate (s : Stopwatch) : Prop := s.animatedTime = s.lastSet + s.worked

instance (s : Stopwatch) : Decidable s.Accurate :=
  inferInstanceAs (Decidable (s.animatedTime = s.lastSet + s.worked))

/-- When an event keeps a stopwatch accurate: while it works the time stays an `int`, and nothing is
added by pausing it before it was started. -/
def Sound (s : Stopwatch) : TimeEvent → Prop
  | .elapse duration =>
    s.keTime.state = .working → s.lastSet + s.worked + duration < 2 ^ 31
  | .pause =>
    s.keTime.state = .notStart → (2 ^ 32 : Int) ∣ KeTime.msecsTo s.keTime.beginningTime s.clock
  | _ => True

/-! ## One step -/

/-- How the stored instants make up the time. -/
structure Stored (s : Stopwatch) : Prop where
  selfTimed : s.keTime.selfTimeUpdate = true
  working : s.keTime.state = .working → s.keTime.recrodTime.toInt +
    KeTime.msecsTo s.keTime.beginningTime s.clock = s.lastSet + s.worked
  begun : s.keTime.state = .working → ∃ beginning, s.keTime.beginningTime = some beginning
  idle : s.keTime.state ≠ .working → s.keTime.recrodTime.toInt = s.lastSet + s.worked

/-- What a number is when it is stored in an `int`. -/
lemma toInt_ofInt_eq_iff (n : Int) : (Int32.ofInt n).toInt = n ↔ -2 ^ 31 ≤ n ∧ n < 2 ^ 31 := by
  constructor
  · intro h
    rw [← h]
    exact ⟨Int32.le_toInt _, Int32.toInt_lt _⟩
  · rintro ⟨hle, hlt⟩
    exact Int32.toInt_ofInt_of_le hle hlt

/-- Adding to an `int` leaves it alone exactly when what is added goes round. -/
lemma toInt_ofInt_add_eq_iff (n : Int32) (d : Int) :
    (Int32.ofInt (n.toInt + d)).toInt = n.toInt ↔ (2 ^ 32 : Int) ∣ d := by
  have hle := n.le_toInt
  have hlt := n.toInt_lt
  rw [Int32.toInt_ofInt, Int.bmod_eq_iff (by decide), show n.toInt - (n.toInt + d) = -d by omega,
    Int.dvd_neg]
  constructor
  · rintro ⟨-, -, hdvd⟩
    exact hdvd
  · intro hdvd
    exact ⟨by simpa using hle, by simpa using hlt, hdvd⟩

/-- What a stored stopwatch says. -/
lemma Stored.animatedTime_eq {s : Stopwatch} (h : s.Stored) :
    s.animatedTime = if s.keTime.state = .working then (Int32.ofInt (s.lastSet + s.worked)).toInt
      else s.lastSet + s.worked := by
  unfold animatedTime KeTime.getAnimatedTime
  rw [if_pos h.selfTimed]
  split_ifs with hworking
  · rw [h.working hworking]
  · exact h.idle hworking

/-- Time passes. -/
lemma elapse_spec {s : Stopwatch} (h : s.Stored) (haccurate : s.Accurate) (duration : Nat) :
    (s.next (.elapse duration)).Stored ∧
      (s.Sound (.elapse duration) ↔ (s.next (.elapse duration)).Accurate) := by
  by_cases hworking : s.keTime.state = .working
  · obtain ⟨beginning, hbegun⟩ := h.begun hworking
    have hsum := h.working hworking
    rw [hbegun] at hsum
    have hstored : (s.next (.elapse duration)).Stored := by
      refine ⟨h.selfTimed, fun _ => ?_, fun _ => ⟨beginning, hbegun⟩, fun hidle => (hidle hworking).elim⟩
      simp only [next, hbegun, hworking, if_true, KeTime.msecsTo, Int.natCast_add] at hsum ⊢
      omega
    refine ⟨hstored, ?_⟩
    have hrange : -2 ^ 31 ≤ s.lastSet + s.worked := by
      rw [← haccurate]
      exact Int32.le_toInt _
    have htime := hstored.animatedTime_eq
    simp only [next, hworking, if_true] at htime
    simp only [Accurate, Sound, next, hworking, if_true, forall_const] at htime ⊢
    rw [htime, toInt_ofInt_eq_iff, Int.natCast_add]
    omega
  · have hidle := h.idle hworking
    have hstored : (s.next (.elapse duration)).Stored := by
      refine ⟨h.selfTimed, fun hw => (hworking hw).elim, fun hw => (hworking hw).elim, fun _ => ?_⟩
      simpa only [next, if_neg hworking] using hidle
    refine ⟨hstored, iff_of_true (fun hw => (hworking hw).elim) ?_⟩
    rw [Accurate, hstored.animatedTime_eq]
    exact if_neg hworking

/-- Starting begins to count at the time that has been recorded. -/
lemma start_spec {s : Stopwatch} (h : s.Stored) (haccurate : s.Accurate) :
    (s.next .start).Stored ∧ (s.next .start).Accurate := by
  by_cases hworking : s.keTime.state = .working
  · have heq : s.next .start = s := by
      simp only [next, KeTime.start, hworking, ne_eq, not_true_eq_false, if_false]
    rw [heq]
    exact ⟨h, haccurate⟩
  · have hidle := h.idle hworking
    have hkeTime : s.keTime.start s.clock =
        { s.keTime with beginningTime := some s.clock, state := .working } := if_pos hworking
    have hstored : (s.next .start).Stored := by
      refine ⟨?_, fun _ => ?_, fun _ => ⟨s.clock, ?_⟩, fun hnot => ?_⟩ <;> simp only [next, hkeTime]
      · exact h.selfTimed
      · simpa only [KeTime.msecsTo, Int.sub_self, Int.add_zero] using hidle
      · simp only [next, hkeTime, ne_eq, not_true_eq_false] at hnot
    refine ⟨hstored, ?_⟩
    rw [Accurate, hstored.animatedTime_eq]
    simp only [next, hkeTime, if_true]
    rw [← hidle, Int32.ofInt_toInt]

/-- A stopwatch that does not work is accurate when it has recorded the right time. -/
lemma accurate_iff_of_idle {s : Stopwatch} (hself : s.keTime.selfTimeUpdate = true)
    (hidle : s.keTime.state ≠ .working) :
    s.Accurate ↔ s.keTime.recrodTime.toInt = s.lastSet + s.worked := by
  rw [Accurate, animatedTime, KeTime.getAnimatedTime, if_pos hself, if_neg hidle]

/-- Pausing records the time that has passed since the beginning. -/
lemma pause_spec {s : Stopwatch} (h : s.Stored) (haccurate : s.Accurate) :
    (s.Sound .pause ↔ (s.next .pause).Accurate) ∧ (s.Sound .pause → (s.next .pause).Stored) := by
  by_cases hpaused : s.keTime.state = .paused
  · have heq : s.next .pause = s := by
      simp only [next, KeTime.pause, hpaused, ne_eq, not_true_eq_false, if_false]
    have hsound : s.Sound .pause := fun hnot => by
      rw [hpaused] at hnot
      exact KeTime.State.noConfusion hnot
    rw [heq]
    exact ⟨iff_of_true hsound haccurate, fun _ => h⟩
  · have hkeTime : s.keTime.pause s.clock = { s.keTime with
        recrodTime := .ofInt (s.keTime.recrodTime.toInt +
          KeTime.msecsTo s.keTime.beginningTime s.clock)
        state := .paused } := if_pos hpaused
    have hself : (s.next .pause).keTime.selfTimeUpdate = true := by
      simpa only [next, hkeTime] using h.selfTimed
    have hstate : (s.next .pause).keTime.state = .paused := by simp only [next, hkeTime]
    have hidle : (s.next .pause).keTime.state ≠ .working := by
      rw [hstate]
      exact KeTime.State.noConfusion
    have hiff : s.Sound .pause ↔ (s.next .pause).Accurate := by
      rw [accurate_iff_of_idle hself hidle]
      simp only [next, hkeTime, Sound]
      cases hbefore : s.keTime.state with
      | notStart =>
        have hrecorded := h.idle (by rw [hbefore]; exact KeTime.State.noConfusion)
        rw [← hrecorded, toInt_ofInt_add_eq_iff]
        exact ⟨fun h => h rfl, fun h _ => h⟩
      | working =>
        have htime := h.animatedTime_eq
        rw [haccurate, hbefore, if_pos rfl] at htime
        rw [h.working hbefore, ← htime]
        exact iff_of_true (fun hnot => KeTime.State.noConfusion hnot) rfl
      | paused => exact (hpaused hbefore).elim
    refine ⟨hiff, fun hsound => ⟨hself, ?_, ?_, fun _ => ?_⟩⟩
    · exact fun hworking => (hidle hworking).elim
    · exact fun hworking => (hidle hworking).elim
    · exact (accurate_iff_of_idle hself hidle).mp (hiff.mp hsound)

/-- Setting the time back to zero. -/
lemma reset_spec {s : Stopwatch} (h : s.Stored) : (s.next .reset).Stored ∧ (s.next .reset).Accurate := by
  have hidle : (s.next .reset).keTime.state ≠ .working := KeTime.State.noConfusion
  have hself : (s.next .reset).keTime.selfTimeUpdate = true := h.selfTimed
  refine ⟨⟨hself, ?_, ?_, fun _ => rfl⟩, (accurate_iff_of_idle hself hidle).mpr rfl⟩
  · exact fun hworking => (hidle hworking).elim
  · exact fun hworking => (hidle hworking).elim

/-- Setting the time counts from then on. -/
lemma setAnimatedTime_spec {s : Stopwatch} (h : s.Stored) (time : Int32) :
    (s.next (.setAnimatedTime time)).Stored ∧ (s.next (.setAnimatedTime time)).Accurate := by
  have hstored : (s.next (.setAnimatedTime time)).Stored := by
    refine ⟨h.selfTimed, fun _ => ?_, fun _ => ⟨s.clock, rfl⟩, fun _ => (Int.add_zero _).symm⟩
    simp only [next, KeTime.setAnimatedTime, KeTime.msecsTo, Int.sub_self, Int.ofNat_zero]
  refine ⟨hstored, ?_⟩
  rw [Accurate, hstored.animatedTime_eq]
  simp only [next, Int.natCast_zero, Int.add_zero, Int32.ofInt_toInt, ite_self]

/-- Whether a step is sound decides whether the stopwatch is accurate after it. -/
lemma next_spec {s : Stopwatch} (h : s.Stored) (haccurate : s.Accurate) (e : TimeEvent) :
    (s.Sound e ↔ (s.next e).Accurate) ∧ (s.Sound e → (s.next e).Stored) := by
  cases e with
  | elapse duration =>
    obtain ⟨hstored, hiff⟩ := elapse_spec h haccurate duration
    exact ⟨hiff, fun _ => hstored⟩
  | start =>
    obtain ⟨hstored, htime⟩ := start_spec h haccurate
    exact ⟨iff_of_true trivial htime, fun _ => hstored⟩
  | pause => exact pause_spec h haccurate
  | reset =>
    obtain ⟨hstored, htime⟩ := reset_spec h
    exact ⟨iff_of_true trivial htime, fun _ => hstored⟩
  | setAnimatedTime time =>
    obtain ⟨hstored, htime⟩ := setAnimatedTime_spec h time
    exact ⟨iff_of_true trivial htime, fun _ => hstored⟩
  | tick => exact ⟨iff_of_true trivial haccurate, fun _ => h⟩

/-- A new stopwatch says zero. -/
lemma new_spec (clock : Instant) (hadesTime : Int32) :
    (new clock hadesTime).Stored ∧ (new clock hadesTime).Accurate := by
  refine ⟨⟨rfl, ?_, ?_, fun _ => rfl⟩, rfl⟩
  · exact fun hworking => KeTime.State.noConfusion hworking
  · exact fun hworking => KeTime.State.noConfusion hworking

/-! ## Runs -/

/-- What is to be said grows with the time spent working, unless the time is set. -/
lemma expected_mono (s : Stopwatch) {e : TimeEvent} (he : e.setsTime = false) :
    s.lastSet + s.worked ≤ (s.next e).lastSet + (s.next e).worked ∧
      (s.keTime.state ≠ .working →
        (s.next e).lastSet + (s.next e).worked = s.lastSet + s.worked) := by
  cases e with
  | elapse duration =>
    simp only [next]
    split_ifs with hworking
    · refine ⟨?_, fun hidle => (hidle hworking).elim⟩
      rw [Int.natCast_add]
      omega
    · exact ⟨Int.le_refl _, fun _ => rfl⟩
  | start => exact ⟨Int.le_refl _, fun _ => rfl⟩
  | pause => exact ⟨Int.le_refl _, fun _ => rfl⟩
  | reset => exact Bool.noConfusion he
  | setAnimatedTime time => exact Bool.noConfusion he
  | tick => exact ⟨Int.le_refl _, fun _ => rfl⟩

/-- The time never goes back, nor on while the stopwatch does not work, unless it is set. -/
def Steady (s : Stopwatch) (e : TimeEvent) : Prop :=
  e.setsTime = false → s.animatedTime ≤ (s.next e).animatedTime ∧
    (s.keTime.state ≠ .working → (s.next e).animatedTime = s.animatedTime)

/-- A stopwatch says the time last set and the time spent working since in every state of a run
exactly when every step of the run is sound, and then it is steady. -/
theorem animated_iff (clock : Instant) (hadesTime : Int32) (es : List TimeEvent) :
    (system.EveryState Accurate (new clock hadesTime) es ↔
      system.EveryStep Sound (new clock hadesTime) es) ∧
    (system.EveryState Accurate (new clock hadesTime) es →
      system.EveryStep Steady (new clock hadesTime) es) := by
  constructor
  · refine System.everyState_iff (I := Stored) (new_spec clock hadesTime) ?_ es
    rintro s e _ hstored haccurate rfl
    exact next_spec hstored haccurate e
  · intro hevery first e others s t hes hrun hstep he
    obtain rfl := hstep
    have hbefore : s.Accurate := hevery first (e :: others) s hes hrun
    have hafter : (s.next e).Accurate := by
      refine hevery (first ++ [e]) others (s.next e) ?_ (hrun.snoc rfl)
      rw [hes, List.append_assoc]
      rfl
    rw [hbefore, hafter]
    exact expected_mono s he

/-- A stopwatch that is started, set back and paused a second later says that second. -/
theorem not_animated_pausedAfterReset :
    ¬ ∀ (clock : Instant) (hadesTime : Int32) (es : List TimeEvent),
      system.EveryState Accurate (new clock hadesTime) es := by
  intro hevery
  have hnext : ∀ s e t, (fun s e => some (next s e)) s e = some t → system.step s e t :=
    fun _ _ _ h => (Option.some.inj h).symm
  have hrun : system.Run (new 0 0) [.start, .reset, .elapse 1000, .pause]
      ((((new 0 0).next .start).next .reset).next (.elapse 1000) |>.next .pause) :=
    System.Run.foldlM hnext rfl
  exact absurd (hevery 0 0 _ _ [] _ (List.append_nil _).symm hrun) (by decide)

end Stopwatch

end Liangshi
