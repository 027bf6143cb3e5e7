import Liangshi.Lesson.PlayerWidget
import Liangshi.Transition.Outcome
import Liangshi.Transition.System
import Mathlib.Tactic.SplitIfs

/-!
# Lessons that play safely

When loading and playing a lesson follows no null pointer to a player or a page.  A lesson is loaded
safely when its version is not refused and its head holds the record of a player
(`Loadable`): the load goes on with the null player otherwise.  It is played safely as long as every
page switch that is played leads to a page of the lesson and no page has been looked up in vain when
the pages are reset (`PlaysPages`).
-/

namespace Liangshi

open Wire MessagePack Ordered Transition

namespace KeFile

/-! ## The head of a lesson -/

/-- The integers among objects. -/
def integers (objects : List Obj) : List Nat :=
  objects.filterMap fun
    | .posInt n => some n
    | _ => none

/-- There is a raw object. -/
def hasRaw (objects : List Obj) : Bool := objects.any fun
  | .raw _ => true
  | _ => false

/-- The type that stands before what follows: the last integer but for the first one, which is the
version. -/
def typeAfter (objects : List Obj) : Nat := (integers objects).tail.getLastD 0

/-- The version is one that the loader refuses. -/
def Refused (objects : List Obj) : Prop :=
  ∃ n, (integers objects).head? = some n ∧ 5 < n ∧ n < 2 ^ 31

/-- The record of a player: a raw object behind the first one and behind a type. -/
def HasRecord (objects : List Obj) : Prop :=
  ∃ before bytes, before ++ [.raw bytes] <+: objects ∧ hasRaw before ∧ typeAfter before ≠ 0

/-- What the loop in `LoadPlayerFile` has read. -/
structure HasRead (objects : List Obj) (s : PlayerLoad) : Prop where
  getHeader : s.getHeader = hasRaw objects
  getVersion : s.getVersion = !(integers objects).isEmpty
  type : s.type = Int32.ofInt (typeAfter objects)
  small : ∀ n ∈ integers objects, n < 2 ^ 31
  player : s.player.isSome ↔ HasRecord objects
  actions : ∀ player, s.player = some player → player.actions = []

/-- How the loop in `LoadPlayerFile` ends. -/
def ReadsAs (objects : List Obj) : Except LoadEnd PlayerLoad → Prop
  | .ok s => HasRead objects s ∧ ¬ Refused objects
  | .error .refused => Refused objects
  | .error (.throws _) => ¬ Refused objects ∧ (HasRecord objects ∨ ∃ n ∈ integers objects, 2 ^ 31 ≤ n)

/-- The numbers of some objects and of others behind them. -/
lemma integers_append (a b : List Obj) : integers (a ++ b) = integers a ++ integers b :=
  List.filterMap_append

/-- Bytes among some objects or among others behind them. -/
lemma hasRaw_append (a b : List Obj) : hasRaw (a ++ b) = (hasRaw a || hasRaw b) := List.any_append

/-- The type behind an integer more. -/
lemma typeAfter_posInt (objects : List Obj) (n : Nat) :
    typeAfter (objects ++ [.posInt n]) = if (integers objects).isEmpty then 0 else n := by
  unfold typeAfter
  rw [integers_append]
  cases integers objects with
  | nil => rfl
  | cons m others => exact List.getLastD_concat

/-- Other objects change no type. -/
lemma typeAfter_of_integers {objects : List Obj} {o : Obj} (h : integers [o] = []) :
    typeAfter (objects ++ [o]) = typeAfter objects := by
  rw [typeAfter, integers_append, h, List.append_nil, typeAfter]

/-- A version stays refused, and is decided by the first integer. -/
lemma refused_append {objects : List Obj} (others : List Obj) (h : integers objects ≠ []) :
    Refused (objects ++ others) ↔ Refused objects := by
  unfold Refused
  rw [integers_append, List.head?_append_of_ne_nil _ h]

/-- A record stays there. -/
lemma HasRecord.append {objects : List Obj} (h : HasRecord objects) (others : List Obj) :
    HasRecord (objects ++ others) := by
  obtain ⟨before, bytes, hprefix, hrecord⟩ := h
  exact ⟨before, bytes, hprefix.trans (List.prefix_append _ _), hrecord⟩

/-- Whether there is a record with an object more. -/
lemma hasRecord_concat {objects : List Obj} {o : Obj} : HasRecord (objects ++ [o]) ↔
    HasRecord objects ∨ ((∃ bytes, o = .raw bytes) ∧ hasRaw objects ∧ typeAfter objects ≠ 0) := by
  constructor
  · rintro ⟨before, bytes, hprefix, hraw, htype⟩
    rcases List.prefix_concat_iff.mp hprefix with heq | hbefore
    · obtain ⟨rfl, ho⟩ := List.append_inj' heq rfl
      obtain rfl := (List.cons.inj ho).1
      exact .inr ⟨⟨bytes, rfl⟩, hraw, htype⟩
    · exact .inl ⟨before, bytes, hbefore, hraw, htype⟩
  · rintro (h | ⟨⟨bytes, rfl⟩, hraw, htype⟩)
    · exact h.append _
    · exact ⟨objects, bytes, List.prefix_rfl, hraw, htype⟩

/-- Behind a version there is an integer. -/
lemma HasRecord.integers_ne_nil {objects : List Obj} (h : HasRecord objects) :
    integers objects ≠ [] := by
  obtain ⟨before, bytes, ⟨others, rfl⟩, -, htype⟩ := h
  intro hnil
  rw [List.append_assoc, integers_append, List.append_eq_nil_iff] at hnil
  rw [typeAfter, hnil.1] at htype
  exact htype rfl

/-- Numbers that fit are compared as integers. -/
lemma toInt_ofInt_of_small {n : Nat} (h : n < 2 ^ 31) : (Int32.ofInt n).toInt = n :=
  Int32.toInt_ofInt_of_le (by omega) (by omega)

/-- A type that fits is zero when its number is. -/
lemma ofInt_eq_zero_iff {n : Nat} (h : n < 2 ^ 31) : Int32.ofInt n = 0 ↔ n = 0 := by
  rw [← Int32.toInt_inj, toInt_ofInt_of_small h]
  exact Int.natCast_eq_zero

/-- The type that stands before what follows fits, as all integers do. -/
lemma HasRead.typeAfter_lt {objects : List Obj} {s : PlayerLoad} (h : HasRead objects s) :
    typeAfter objects < 2 ^ 31 := by
  unfold typeAfter
  rw [List.getLastD_eq_getLast?]
  cases hlast : (integers objects).tail.getLast? with
  | none => exact Nat.two_pow_pos 31
  | some n => exact h.small n (List.mem_of_mem_tail (List.mem_of_getLast? hlast))

/-- The record of a player holds neither pages nor actions. -/
lemma ends_loadRecord (u : Uninitialised) (bytes : Bytes) : Ends (loadRecord u bytes)
    (fun player => player.allPages = .empty ∧ player.actions = [])
    fun e => ∃ exception, e = .throws exception := by
  unfold loadRecord
  split
  · exact ⟨_, rfl⟩
  · split
    · exact ⟨_, rfl⟩
    · rename_i player hconvert
      unfold PlayerWidget.convert at hconvert
      simp only [Option.bind_eq_bind, Option.bind_eq_some_iff, Option.pure_def, Option.some.injEq]
        at hconvert
      obtain ⟨_, -, _, -, _, -, _, -, rfl⟩ := hconvert
      exact ⟨rfl, rfl⟩

/-- What is read of an integer more. -/
lemma readsAs_posInt {u : Uninitialised} {objects : List Obj} {s : PlayerLoad}
    (h : HasRead objects s) (hnot : ¬ Refused objects) (n : Nat) :
    ReadsAs (objects ++ [.posInt n]) (nextObject u s (.posInt n)) := by
  have hintegers : integers (objects ++ [.posInt n]) = integers objects ++ [n] :=
    integers_append _ _
  have hraw : hasRaw (objects ++ [.posInt n]) = hasRaw objects := by
    rw [hasRaw_append]
    exact Bool.or_false _
  have hrecord : HasRecord (objects ++ [.posInt n]) ↔ HasRecord objects := by
    rw [hasRecord_concat, or_iff_left]
    rintro ⟨⟨bytes, hbytes⟩, -⟩
    cases hbytes
  have hrefused : Refused (objects ++ [.posInt n]) ↔
      integers objects = [] ∧ 5 < n ∧ n < 2 ^ 31 := by
    by_cases hfirst : integers objects = []
    · rw [Refused, hintegers, hfirst]
      simp
    · rw [refused_append _ hfirst]
      exact iff_of_false hnot fun hand => hfirst hand.1
  unfold nextObject
  dsimp only
  rw [Codec.int32_convert_posInt]
  by_cases hsmall : n < 2 ^ 31
  · have hall : ∀ m ∈ integers (objects ++ [.posInt n]), m < 2 ^ 31 := by
      intro m hm
      rw [hintegers, List.mem_append, List.mem_singleton] at hm
      rcases hm with hm | rfl
      · exact h.small m hm
      · exact hsmall
    have hlt : keFileMinVersion < Int32.ofInt n ↔ 5 < n := by
      rw [Int32.lt_iff_toInt_lt, toInt_ofInt_of_small hsmall]
      exact Int.ofNat_lt
    rw [if_pos hsmall]
    dsimp only
    cases hfirst : integers objects with
    | nil =>
      rw [if_neg (by rw [h.getVersion, hfirst]; simp)]
      rw [hfirst] at hrefused
      split_ifs with hnew
      · exact hrefused.mpr ⟨rfl, hlt.mp hnew, hsmall⟩
      · refine ⟨⟨h.getHeader.trans hraw.symm, ?_, ?_, hall, h.player.trans hrecord.symm, h.actions⟩,
          fun hold => hnew (hlt.mpr (hrefused.mp hold).2.1)⟩
        · rw [hintegers, hfirst]
          rfl
        · rw [typeAfter_posInt, hfirst]
          refine h.type.trans ?_
          rw [typeAfter, hfirst]
          rfl
    | cons m others =>
      rw [if_pos (by rw [h.getVersion, hfirst]; rfl)]
      rw [hfirst] at hrefused
      refine ⟨⟨h.getHeader.trans hraw.symm, ?_, ?_, hall, h.player.trans hrecord.symm, h.actions⟩,
        fun hold => List.cons_ne_nil _ _ (hrefused.mp hold).1⟩
      · refine h.getVersion.trans ?_
        rw [hintegers, hfirst]
        rfl
      · rw [typeAfter_posInt, hfirst]
        rfl
  · rw [if_neg hsmall]
    refine ⟨fun hold => hsmall (hrefused.mp hold).2.2, .inr ⟨n, ?_, Nat.le_of_not_lt hsmall⟩⟩
    rw [hintegers]
    exact List.mem_append_right _ (List.mem_singleton_self n)

/-- What is read of a raw object more. -/
lemma readsAs_raw {u : Uninitialised} {objects : List Obj} {s : PlayerLoad}
    (h : HasRead objects s) (hnot : ¬ Refused objects) (bytes : Bytes) :
    ReadsAs (objects ++ [.raw bytes]) (nextObject u s (.raw bytes)) := by
  have hintegers : integers (objects ++ [.raw bytes]) = integers objects := by
    rw [integers_append]
    exact List.append_nil _
  have hraw : hasRaw (objects ++ [.raw bytes]) = true := by
    rw [hasRaw_append]
    exact Bool.or_true _
  have htype : typeAfter (objects ++ [.raw bytes]) = typeAfter objects := typeAfter_of_integers rfl
  have hnot' : ¬ Refused (objects ++ [.raw bytes]) := by
    unfold Refused
    rwa [hintegers]
  have hrecord : HasRecord (objects ++ [.raw bytes]) ↔
      HasRecord objects ∨ (hasRaw objects ∧ typeAfter objects ≠ 0) := by
    rw [hasRecord_concat]
    exact or_congr_right ⟨And.right, fun hand => ⟨⟨bytes, rfl⟩, hand⟩⟩
  have hzero : s.type = 0 ↔ typeAfter objects = 0 := by
    rw [h.type]
    exact ofInt_eq_zero_iff h.typeAfter_lt
  have hread : ∀ s' : PlayerLoad, s'.getHeader = true → s'.getVersion = s.getVersion →
      s'.type = s.type → (s'.player.isSome ↔ HasRecord (objects ++ [.raw bytes])) →
      (∀ player, s'.player = some player → player.actions = []) →
      ReadsAs (objects ++ [.raw bytes]) (.ok s') := by
    intro s' hheader hversion hsame hplayer hactions
    refine ⟨⟨hheader.trans hraw.symm, ?_, ?_, ?_, hplayer, hactions⟩, hnot'⟩
    · rw [hversion, hintegers]
      exact h.getVersion
    · rw [hsame, htype]
      exact h.type
    · rw [hintegers]
      exact h.small
  have hnone : ¬ (hasRaw objects ∧ typeAfter objects ≠ 0) →
      (s.player.isSome ↔ HasRecord (objects ++ [.raw bytes])) := fun hno => by
    rw [hrecord, or_iff_left hno]
    exact h.player
  unfold nextObject
  dsimp only
  split_ifs with hheader hrandom hbody
  · refine hread _ rfl rfl rfl (hnone fun hand => ?_) h.actions
    rw [h.getHeader, hand.1] at hheader
    exact absurd hheader (by decide)
  · simp only [Bool.and_eq_true, decide_eq_true_eq] at hrandom
    exact hread _ (by simpa using hheader) rfl rfl (hnone fun hand => hand.2 (hzero.mp hrandom.2))
      h.actions
  · have hheader' : s.getHeader = true := by simpa using hheader
    have hthere : HasRecord (objects ++ [.raw bytes]) :=
      hrecord.mpr (.inr ⟨by rw [← h.getHeader, hheader'], mt hzero.mpr hbody⟩)
    have hrecorded := ends_loadRecord u bytes
    revert hrecorded
    generalize loadRecord u bytes = result
    intro hrecorded
    cases result with
    | ok player =>
      refine hread _ hheader' rfl rfl (iff_of_true rfl hthere) fun other hother => ?_
      obtain rfl := Option.some.inj hother
      exact hrecorded.2
    | error e =>
      obtain ⟨exception, rfl⟩ := hrecorded
      exact ⟨hnot', .inl hthere⟩
  · exact hread s (by simpa using hheader) rfl rfl
      (hnone fun hand => hand.2 (hzero.mp (not_not.mp hbody))) h.actions

/-- Other objects are passed over. -/
lemma readsAs_other {objects : List Obj} {s : PlayerLoad} (h : HasRead objects s)
    (hnot : ¬ Refused objects) {o : Obj} (hinteger : integers [o] = []) (hraw : hasRaw [o] = false)
    (hbytes : ∀ bytes, o ≠ .raw bytes) : ReadsAs (objects ++ [o]) (.ok s) := by
  have hintegers : integers (objects ++ [o]) = integers objects := by
    rw [integers_append, hinteger, List.append_nil]
  refine ⟨⟨?_, ?_, ?_, ?_, ?_, h.actions⟩, ?_⟩
  · rw [hasRaw_append, hraw, Bool.or_false]
    exact h.getHeader
  · rw [hintegers]
    exact h.getVersion
  · rw [typeAfter_of_integers hinteger]
    exact h.type
  · rw [hintegers]
    exact h.small
  · rw [hasRecord_concat, or_iff_left]
    · exact h.player
    · rintro ⟨⟨bytes, rfl⟩, -⟩
      exact hbytes bytes rfl
  · unfold Refused
    rwa [hintegers]

/-- How the loop ends, by the objects alone. -/
lemma readsAs_readThis (u : Uninitialised) (objects : List Obj) :
    ReadsAs objects (readThis u objects) := by
  induction objects using List.reverseRecOn with
  | nil =>
    refine ⟨⟨rfl, rfl, rfl, by simp [integers], iff_of_false Bool.false_ne_true ?_, by simp⟩, ?_⟩
    · rintro ⟨before, bytes, hprefix, -⟩
      exact List.append_ne_nil_of_right_ne_nil _ (List.cons_ne_nil _ _) (List.prefix_nil.mp hprefix)
    · rintro ⟨n, hn, -⟩
      cases hn
  | append_singleton objects o ih =>
    have hread : readThis u (objects ++ [o]) =
        (readThis u objects).bind fun s => nextObject u s o := by
      unfold readThis
      rw [List.foldlM_append]
      refine bind_congr fun s => ?_
      exact bind_pure _
    rw [hread]
    cases hbefore : readThis u objects with
    | ok s =>
      rw [hbefore] at ih
      obtain ⟨h, hnot⟩ := ih
      cases o with
      | posInt n => exact readsAs_posInt (u := u) h hnot n
      | raw bytes => exact readsAs_raw (u := u) h hnot bytes
      | _ => exact readsAs_other h hnot rfl rfl fun _ => Obj.noConfusion
    | error e =>
      rw [hbefore] at ih
      cases e with
      | refused =>
        obtain ⟨n, hn, hrange⟩ := ih
        refine ⟨n, ?_, hrange⟩
        rw [integers_append, List.head?_append, hn]
        rfl
      | throws exception =>
        obtain ⟨hnot, hwhy⟩ := ih
        have hfirst : integers objects ≠ [] := by
          rcases hwhy with hrecord | ⟨n, hn, -⟩
          · exact hrecord.integers_ne_nil
          · exact List.ne_nil_of_mem hn
        refine ⟨mt (refused_append _ hfirst).mp hnot, hwhy.imp (·.append _) ?_⟩
        rintro ⟨n, hn, hbig⟩
        refine ⟨n, ?_, hbig⟩
        rw [integers_append]
        exact List.mem_append_left _ hn

/-! ## Loading -/

/-- No null player and no null page has been followed. -/
def FollowsNoNull {α : Type} (result : Except PlayerFault α) : Prop :=
  result ≠ .error .nullPlayer ∧ result ≠ .error .nullPage

/-- Faults that are not the fault of a null player or page. -/
def IsLoad (fault : PlayerFault) : Prop := ∃ reason, fault = .load reason

/-- A load that ends in no other fault follows no null pointer. -/
lemma followsNoNull_of_ends {α : Type} {result : Except PlayerFault α} {post : α → Prop}
    (h : Ends result post IsLoad) : FollowsNoNull result := by
  constructor <;> rintro rfl <;> obtain ⟨reason, hreason⟩ := h <;> cases hreason

/-- What a track is read to, by what its entries are handled to. -/
lemma ends_scanTrack {σ : Type} {handle : σ → Entry → Except PlayerFault σ}
    {typeError unpackError : PlayerFault} {I : σ → Prop} {fault : PlayerFault → Prop} {s : σ}
    (bytes : Bytes) (hs : I s) (htype : fault typeError) (hunpack : fault unpackError)
    (hhandle : ∀ t entry, I t → Ends (handle t entry) I fault) :
    Ends (scanTrack handle typeError unpackError s bytes) I fault := by
  have hfold : Ends ((unpackAll bytes).1.foldlM (TypedScan.next handle typeError) ⟨0, s⟩)
      (fun scan => I scan.state) fault := by
    refine .foldlM hs fun scan o hscan => ?_
    unfold TypedScan.next
    split
    · split
      · exact hscan
      · exact htype
    · rename_i body
      have hnext := hhandle scan.state (scan.type, body) hscan
      revert hnext
      generalize handle scan.state (scan.type, body) = result
      cases result <;> exact id
    · exact hscan
  unfold scanTrack
  revert hfold
  generalize (unpackAll bytes).1.foldlM (TypedScan.next handle typeError) ⟨0, s⟩ = result
  intro hfold
  cases result with
  | error e => exact hfold
  | ok scan =>
    dsimp only
    split_ifs
    · exact hunpack
    · exact hfold

/-- A new action has not been played. -/
lemma played_of_createFromType {u : Uninitialised} {type : Int32} {bytes : Bytes}
    {a : AnimationAction} (h : AnimationAction.createFromType u type bytes = .ok (some a)) :
    a.played = false := by
  unfold AnimationAction.createFromType at h
  split at h
  · cases h
  · obtain ⟨kind, -, hconvert⟩ := Option.bind_eq_some_iff.mp (Except.ok.inj h)
    unfold AnimationAction.convert at hconvert
    simp only [Option.bind_eq_bind, Option.bind_eq_some_iff, Option.pure_def, Option.some.injEq]
      at hconvert
    obtain ⟨_, -, _, -, _, -, _, -, _, -, rfl⟩ := hconvert
    rfl

/-- There is a player, none of whose actions has been played. -/
def IsNew (player : Option PlayerWidget) : Prop :=
  ∃ p, player = some p ∧ ∀ a ∈ p.actions, a.played = false

/-- A player that is there is loaded, or the load ends in an exception. -/
lemma ends_loadRest (env : PlayerSurroundings) (file : LessonFile) {player : Option PlayerWidget}
    (h : IsNew player) : Ends (do
      let player ← file.pages.foldlM (loadPlayerPage env) player
      let player ← scanTrack (loadPlayerAction env.uninitialised) (.load (.throws .typeError))
        (.load (.throws .unpackError)) player file.actions
      initMedia player) IsNew IsLoad := by
  refine (Ends.foldlM (I := IsNew) h fun t page ht => ?_).bind fun t ht =>
    (ends_scanTrack (I := IsNew) _ ht ⟨_, rfl⟩ ⟨_, rfl⟩ fun t entry ht => ?_).bind fun t ht => ?_
  · obtain ⟨p, rfl, hp⟩ := ht
    unfold loadPlayerPage
    split
    · exact ⟨_, rfl⟩
    · exact ⟨p, rfl, hp⟩
    · refine ⟨_, rfl, ?_⟩
      unfold PlayerWidget.addPage
      split <;> exact hp
  · obtain ⟨p, rfl, hp⟩ := ht
    unfold loadPlayerAction
    split_ifs
    · split
      · exact ⟨_, rfl⟩
      · exact ⟨p, rfl, hp⟩
      · rename_i action hcreate
        refine ⟨_, rfl, fun a ha => ?_⟩
        rcases List.mem_append.mp ha with ha | ha
        · exact hp a ha
        · rw [List.mem_singleton.mp ha]
          exact played_of_createFromType hcreate
    · exact ⟨p, rfl, hp⟩
  · obtain ⟨p, rfl, hp⟩ := ht
    exact ⟨p, rfl, hp⟩

/-- Without a player the load ends in a fault. -/
lemma ends_loadRest_null (env : PlayerSurroundings) (file : LessonFile) : Ends (do
      let player ← file.pages.foldlM (loadPlayerPage env) none
      let player ← scanTrack (loadPlayerAction env.uninitialised) (.load (.throws .typeError))
        (.load (.throws .unpackError)) player file.actions
      initMedia player) (fun _ => False) (fun _ => True) := by
  refine (Ends.foldlM (I := (· = none)) rfl fun t page ht => ?_).bind fun t ht =>
    (ends_scanTrack (I := (· = none)) _ ht trivial trivial fun t entry ht => ?_).bind fun t ht => ?_
  · subst ht
    unfold loadPlayerPage
    split
    · trivial
    · rfl
    · trivial
  · subst ht
    unfold loadPlayerAction
    split_ifs
    · split
      · trivial
      · rfl
      · trivial
    · rfl
  · subst ht
    trivial

/-- A lesson that is loaded safely: it is no lesson at all, or its version is not refused and it holds
the record of a player, if it can be read to its end. -/
def Loadable (file : LessonFile) : Prop :=
  (file.magic1 ≠ 71 ∧ file.magic2 ≠ 89) ∨
    ¬ Refused (unpackAll file.this).1 ∧ (HasRecord (unpackAll file.this).1 ∨
      (∃ n ∈ integers (unpackAll file.this).1, 2 ^ 31 ≤ n) ∨ (unpackAll file.this).2 = .malformed)

/-- A load gives no player, a new one or a fault.  It gives no player where the version is refused,
and follows no null pointer, exactly when the lesson is loadable. -/
lemma load_spec (env : PlayerSurroundings) (file : LessonFile) :
    Ends (loadKeAsPlayerWidget env file) (fun player => player = none ∨ IsNew player) (fun _ => True) ∧
      ((Refused (unpackAll file.this).1 → loadKeAsPlayerWidget env file = .ok none) ∧
        FollowsNoNull (loadKeAsPlayerWidget env file) ↔ Loadable file) := by
  unfold loadKeAsPlayerWidget Loadable
  by_cases hmagic : file.magic1 ≠ 71 ∧ file.magic2 ≠ 89
  · rw [if_pos hmagic]
    exact ⟨.inl rfl, iff_of_true ⟨fun _ => rfl, nofun, nofun⟩ (.inl hmagic)⟩
  rw [if_neg hmagic, or_iff_right hmagic]
  have hread := readsAs_readThis env.uninitialised (unpackAll file.this).1
  unfold loadPlayerFile
  revert hread
  generalize readThis env.uninitialised (unpackAll file.this).1 = reading
  intro hread
  rcases reading with e | s
  · cases e with
    | refused =>
      -- The load goes on with the null player, so there is no result.
      have hnull := ends_loadRest_null env file
      refine ⟨hnull.mono fun _ => False.elim, iff_of_false (fun hwell => ?_) fun hand => hand.1 hread⟩
      have hnone := hwell.1 hread
      have himpossible : Ends (.ok none) (fun _ : Option PlayerWidget => False)
          (fun _ : PlayerFault => True) := hnone ▸ hnull
      exact himpossible
    | throws exception =>
      exact ⟨trivial, iff_of_true ⟨fun hrefused => absurd hrefused hread.1, nofun, nofun⟩
        ⟨hread.1, hread.2.imp_right .inl⟩⟩
  · obtain ⟨h, hnot⟩ := hread
    have hbig : ¬ ∃ n ∈ integers (unpackAll file.this).1, 2 ^ 31 ≤ n := by
      rintro ⟨n, hn, hle⟩
      exact absurd (h.small n hn) (Nat.not_lt.mpr hle)
    rw [and_iff_right hnot, or_iff_right hbig]
    dsimp only
    by_cases hmalformed : (unpackAll file.this).2 = .malformed
    · rw [if_pos hmalformed]
      exact ⟨trivial, iff_of_true ⟨fun hrefused => absurd hrefused hnot, nofun, nofun⟩
        (.inr hmalformed)⟩
    · rw [if_neg hmalformed, or_iff_left hmalformed, ← h.player]
      cases hplayer : s.player with
      | none => exact ⟨trivial, iff_of_false (fun hwell => hwell.2.1 rfl) Bool.false_ne_true⟩
      | some player =>
        have hnew : IsNew (some player.updateDataFromMsgPack) := by
          refine ⟨_, rfl, fun a ha => ?_⟩
          rw [show player.updateDataFromMsgPack.actions = [] from h.actions player hplayer] at ha
          cases ha
        have hrest := ends_loadRest env file hnew
        exact ⟨(hrest.mono fun _ => .inr).mono_fault fun _ _ => trivial,
          iff_of_true ⟨fun hrefused => absurd hrefused hnot, followsNoNull_of_ends hrest⟩ rfl⟩

end KeFile

/-! ## Playing -/

namespace PlayerWidget

variable {env : PlayerSurroundings} {p q : PlayerWidget}

/-- The player has a page with a uuid. -/
def hasPage (p : PlayerWidget) (uuid : Bytes) : Bool := (p.allPages.find uuid).any Option.isSome

/-- The player has no null page. -/
def NoNullPage (p : PlayerWidget) : Prop := ∀ entry ∈ p.allPages.entries, entry.2.isSome

/-- When an event follows no null page: the switches it plays lead to pages, and where pages are reset
none of them is null. -/
def PlaysPages (p : PlayerWidget) : PlayerEvent → Prop
  | .tick time => ∀ i a, latestSwitch time p.actions = some i → p.actions[i]? = some a →
      a.played = false → p.hasPage a.targetScUuid
  | .gotoPosition pausing time => p.NoNullPage ∧ (pausing → ∀ i a,
      latestSwitch time p.actions = some i → p.actions[i]? = some a → p.hasPage a.targetScUuid)
  | .gotoTime time => p.NoNullPage ∧
      ∀ a ∈ actionsBefore time p.actions, a.isSwitch → p.hasPage a.targetScUuid
  | .reset => p.NoNullPage

/-- A page is shown once a switch has been played. -/
def ShowsPlayed (p : PlayerWidget) : Prop :=
  ∀ a ∈ p.actions, a.isSwitch → a.played → p.currentPage.isSome

/-! ### Playing actions -/

/-- The same pages are there, and the same actions. -/
structure SamePages (p q : PlayerWidget) : Prop where
  hasPage_eq : ∀ uuid, q.hasPage uuid = p.hasPage uuid
  actions_eq : q.actions = p.actions

/-- Looking a page up changes no page. -/
lemma samePages_pageAt (p : PlayerWidget) (uuid : Bytes) :
    p.SamePages (p.pageAt uuid).1 ∧ (p.pageAt uuid).1.currentPage = p.currentPage ∧
      ((p.pageAt uuid).2.isSome = p.hasPage uuid) := by
  unfold pageAt
  split
  · rename_i page hpage
    refine ⟨⟨fun _ => rfl, rfl⟩, rfl, ?_⟩
    rw [hasPage, hpage]
    rfl
  · rename_i hnone
    refine ⟨⟨fun other => ?_, rfl⟩, rfl, ?_⟩
    · rw [hasPage, OrderedMap.find_insert, hasPage]
      split_ifs with heq
      · rw [← heq, hnone]
        rfl
      · rfl
    · rw [hasPage, hnone]
      rfl

/-- An action is played unless it is a switch to a page that is not there. -/
lemma playAction_spec (p : PlayerWidget) (a : AnimationAction) :
    GivesIff (p.playAction env a) (a.isSwitch → p.hasPage a.targetScUuid) .nullPage fun q =>
      p.SamePages q ∧ (q.currentPage.isSome ↔ p.currentPage.isSome ∨ a.isSwitch) := by
  obtain ⟨hsame, hcurrent, hpage⟩ := samePages_pageAt p a.targetScUuid
  unfold playAction playSwitchPageAction
  rcases hat : p.pageAt a.targetScUuid with ⟨r, page⟩
  rw [hat] at hsame hcurrent hpage
  rw [← hpage]
  by_cases hswitch : a.isSwitch
  · rw [if_pos hswitch]
    cases page with
    | none => exact ⟨fun hnone => absurd (hnone hswitch) Bool.false_ne_true, fun _ => rfl⟩
    | some page =>
      exact .ok (fun _ => rfl)
        ⟨⟨hsame.hasPage_eq, hsame.actions_eq⟩, iff_of_true rfl (.inr hswitch)⟩
  · rw [if_neg hswitch]
    have hcondition : a.isSwitch = true → page.isSome = true := fun h => absurd h hswitch
    have hshown : ∀ q : PlayerWidget, q.currentPage = r.currentPage →
        (q.currentPage.isSome ↔ p.currentPage.isSome ∨ a.isSwitch = true) := fun q hq => by
      rw [hq, hcurrent, or_iff_left hswitch]
    cases page with
    | none => exact .ok hcondition ⟨hsame, hshown r rfl⟩
    | some page =>
      refine .ok hcondition ⟨⟨fun uuid => ?_, hsame.actions_eq⟩, hshown _ rfl⟩
      rw [← hsame.hasPage_eq, hasPage, OrderedMap.find_insert, hasPage]
      split_ifs with heq
      · subst heq
        have hthere := (hsame.hasPage_eq a.targetScUuid).trans hpage.symm
        rw [hasPage] at hthere
        rw [hthere]
        rfl
      · rfl

/-- Actions are played exactly when the pages of the switches among them are there. -/
lemma playActions_spec (p : PlayerWidget) (l : List AnimationAction) :
    GivesIff (p.playActions env l) (∀ a ∈ l, a.isSwitch → p.hasPage a.targetScUuid) .nullPage
      fun q => p.SamePages q ∧ (q.currentPage.isSome ↔ p.currentPage.isSome ∨ ∃ a ∈ l, a.isSwitch) := by
  unfold playActions
  induction l generalizing p with
  | nil =>
    refine .ok (fun a ha => absurd ha List.not_mem_nil) ⟨⟨fun _ => rfl, rfl⟩, ?_⟩
    simp
  | cons a l ih =>
    rw [List.foldlM_cons]
    refine GivesIff.congr ((playAction_spec p a).bind fun q hq => ?_)
      (List.forall_mem_cons (p := fun b : AnimationAction => b.isSwitch → p.hasPage b.targetScUuid)).symm
    obtain ⟨hsame, hshown⟩ := hq
    have hrest := ih q
    simp only [hsame.hasPage_eq] at hrest
    refine hrest.mono fun _ r hr => ⟨⟨fun uuid => ?_, ?_⟩, ?_⟩
    · exact (hr.1.hasPage_eq uuid).trans (hsame.hasPage_eq uuid)
    · exact hr.1.actions_eq.trans hsame.actions_eq
    · rw [hr.2, hshown, or_assoc, List.exists_mem_cons_iff]

/-! ### Events -/

/-- Pages are reset exactly when none of them is null; then no action has been played. -/
lemma resetPages_spec (p : PlayerWidget) : GivesIff (p.resetPages env) p.NoNullPage .nullPage fun q =>
    (∀ uuid, q.hasPage uuid = p.hasPage uuid) ∧ q.actions = p.actions.map (·.setPlayed false) := by
  have hnull : (p.allPages.entries.any fun entry => entry.2.isNone) = true ↔ ¬ p.NoNullPage := by
    simp [NoNullPage]
  unfold resetPages
  constructor
  · intro h
    rw [if_neg fun hany => hnull.mp hany h]
    refine .ok ⟨fun uuid => ?_, rfl⟩
    rw [hasPage, OrderedMap.find_mapValues, hasPage]
    cases p.allPages.find uuid with
    | none => rfl
    | some page => exact Option.isSome_map
  · intro h
    rw [if_pos (hnull.mpr h)]

/-- The latest switch is a switch. -/
lemma isSwitch_of_latestSwitch {time : Int32} {actions : List AnimationAction} {i : Nat}
    (h : latestSwitch time actions = some i) : ∃ a, actions[i]? = some a ∧ a.isSwitch := by
  have hmem := List.mem_of_getLast? h
  exact (Option.any_eq_true _ _).mp (List.mem_filter.mp hmem).2

/-- What is taken contains no switch but the one that is looked for. -/
lemma not_isSwitch_of_belongsTo {uuid : Bytes} {a : AnimationAction} (h : belongsTo uuid a) :
    a.isSwitch = false := by
  unfold belongsTo at h
  simp only [Bool.and_eq_true, Bool.not_eq_true'] at h
  exact h.2.1

/-- Without a switch nothing is to be played. -/
lemma getLatestSwitchBoardActions_none {time : Int32} {actions : List AnimationAction}
    (h : latestSwitch time actions = none) :
    getLatestSwitchBoardActions time actions = ([], actions) := by
  unfold getLatestSwitchBoardActions
  rw [h]

/-- The latest switch is to be played first, unless it has been played, and no other switch. -/
lemma getLatestSwitchBoardActions_some {time : Int32} {actions : List AnimationAction} {i : Nat}
    {switch : AnimationAction} (h : latestSwitch time actions = some i)
    (hi : actions[i]? = some switch) : ∃ taken actions',
      getLatestSwitchBoardActions time actions =
        (if switch.played then taken else switch :: taken, actions') ∧
      ∀ a ∈ taken, a.isSwitch = false := by
  unfold getLatestSwitchBoardActions
  rw [h]
  dsimp only
  rw [hi]
  exact ⟨_, _, rfl, fun a ha => not_isSwitch_of_belongsTo (List.of_mem_filter ha)⟩

/-- A tick plays the latest switch, unless it has been played. -/
lemma animatedTriggered_spec (h : p.ShowsPlayed) (time : Int32) :
    GivesIff (p.animatedTriggered env time) (p.PlaysPages (.tick time)) .nullPage ShowsPlayed := by
  unfold animatedTriggered
  cases hlatest : latestSwitch time p.actions with
  | none =>
    rw [getLatestSwitchBoardActions_none hlatest]
    exact .ok (fun i a hi => by rw [hlatest] at hi; cases hi) h
  | some i =>
    obtain ⟨switch, hi, hswitch⟩ := isSwitch_of_latestSwitch hlatest
    obtain ⟨taken, actions, hsearch, hothers⟩ := getLatestSwitchBoardActions_some hlatest hi
    have hcondition : (switch.played = false → p.hasPage switch.targetScUuid) ↔
        p.PlaysPages (.tick time) := by
      constructor
      · intro hone j a hj ha
        obtain rfl := Option.some.inj (hlatest.symm.trans hj)
        obtain rfl := Option.some.inj (hi.symm.trans ha)
        exact hone
      · exact fun hall => hall i switch hlatest hi
    have hupdate : ∀ {q : PlayerWidget}, q.currentPage.isSome →
        GivesIff q.updateCurrentPage True .nullPage ShowsPlayed := by
      intro q hq
      unfold updateCurrentPage
      rw [if_neg fun hnone => Option.isSome_iff_ne_none.mp hq (Option.isNone_iff_eq_none.mp hnone)]
      exact .ok trivial fun _ _ _ _ => hq
    rw [hsearch]
    refine GivesIff.congr ?_ hcondition
    dsimp only
    by_cases hplayed : switch.played
    · -- The page is shown already, and only actions of that page are played.
      have hshown : p.currentPage.isSome := h switch (List.mem_of_getElem? hi) hswitch hplayed
      rw [if_pos hplayed]
      split_ifs with hempty
      · exact .ok (fun hno => by rw [hplayed] at hno; cases hno) fun _ _ _ _ => hshown
      · refine GivesIff.congr ((playActions_spec { p with actions } taken).bind fun q hq =>
          hupdate (hq.2.mpr (.inl hshown))) (iff_of_true ⟨fun a ha hsw => ?_, trivial⟩ fun hno => ?_)
        · rw [hothers a ha] at hsw
          cases hsw
        · rw [hplayed] at hno
          cases hno
    · have hnew : switch.played = false := Bool.eq_false_iff.mpr hplayed
      rw [if_neg hplayed, if_neg (by simp)]
      refine GivesIff.congr ((playActions_spec { p with actions } (switch :: taken)).bind fun q hq =>
        hupdate (hq.2.mpr (.inr ⟨switch, List.mem_cons_self, hswitch⟩))) ?_
      rw [and_true, List.forall_mem_cons]
      refine ⟨fun hall _ => hall.1 hswitch, fun hone => ⟨fun _ => hone hnew, fun a ha hsw => ?_⟩⟩
      rw [hothers a ha] at hsw
      cases hsw

/-! ### Searching after a reset -/

/-- Whether actions have been played does not matter for their times. -/
lemma actionsBefore_setPlayed (time : Int32) (played : Bool) (actions : List AnimationAction) :
    actionsBefore time (actions.map (·.setPlayed played)) =
      (actionsBefore time actions).map (·.setPlayed played) := by
  unfold actionsBefore
  rw [List.takeWhile_map]
  rfl

/-- Nor for the latest switch. -/
lemma latestSwitch_setPlayed (time : Int32) (played : Bool) (actions : List AnimationAction) :
    latestSwitch time (actions.map (·.setPlayed played)) = latestSwitch time actions := by
  unfold latestSwitch
  rw [actionsBefore_setPlayed, List.length_map]
  refine congrArg List.getLast? (List.filter_congr fun i _ => ?_)
  rw [List.getElem?_map, Option.any_map]
  rfl

/-- After a reset no page is shown for an action that has been played. -/
lemma showsPlayed_of_unplayed (h : q.actions = p.actions.map (·.setPlayed false)) : q.ShowsPlayed := by
  intro a ha _ hplayed
  rw [h] at ha
  obtain ⟨b, -, rfl⟩ := List.mem_map.mp ha
  cases hplayed

/-- A seek of a player that is not converted. -/
lemma onGotoPosition_spec (p : PlayerWidget) (pausing : Bool) (time : Int32) :
    GivesIff (p.onGotoPosition env pausing time) (p.PlaysPages (.gotoPosition pausing time)) .nullPage
      ShowsPlayed := by
  refine (resetPages_spec p).bind fun q hq => ?_
  obtain ⟨hpages, hactions⟩ := hq
  have hshown := showsPlayed_of_unplayed hactions
  cases pausing with
  | false => exact .ok (fun hno => Bool.noConfusion hno) hshown
  | true =>
    refine (animatedTriggered_spec hshown time).congr ?_
    simp only [PlaysPages, hactions, latestSwitch_setPlayed, List.getElem?_map, hpages, forall_const]
    constructor
    · exact fun hall i a hi ha => hall i (a.setPlayed false) hi (by rw [ha]; rfl) rfl
    · intro hall i a hi ha _
      obtain ⟨b, hb, rfl⟩ := Option.map_eq_some_iff.mp ha
      exact hall i b hi hb

/-- A seek for a conversion or for recording again. -/
lemma gotoTime_spec (p : PlayerWidget) (time : Int32) :
    GivesIff (p.gotoTime env time) (p.PlaysPages (.gotoTime time)) .nullPage ShowsPlayed := by
  refine (resetPages_spec p).bind fun q hq => ?_
  obtain ⟨hpages, hactions⟩ := hq
  have hunplayed : ∀ a ∈ q.actions, a.played = false := by
    intro a ha
    rw [hactions] at ha
    obtain ⟨b, -, rfl⟩ := List.mem_map.mp ha
    rfl
  have htaken : (getUnAnimatedActions time q.actions).1 = actionsBefore time q.actions := by
    refine List.filter_eq_self.mpr fun a ha => ?_
    rw [hunplayed a ((List.takeWhile_sublist _).subset ha)]
    rfl
  have hcondition : (∀ a ∈ actionsBefore time q.actions, a.isSwitch → q.hasPage a.targetScUuid) ↔
      ∀ a ∈ actionsBefore time p.actions, a.isSwitch → p.hasPage a.targetScUuid := by
    rw [hactions, actionsBefore_setPlayed]
    simp only [List.forall_mem_map, hpages]
    exact Iff.rfl
  rw [← htaken] at hcondition
  refine ((playActions_spec _ (getUnAnimatedActions time q.actions).1).mono ?_).congr hcondition
  rintro - r ⟨hsame, hcurrent⟩ a ha hswitch hplayed
  refine hcurrent.mpr (.inr ?_)
  rw [htaken]
  rw [hsame.actions_eq] at ha
  -- Only what has been taken has been played.
  rcases List.mem_append.mp ha with hbefore | hafter
  · obtain ⟨b, hb, rfl⟩ := List.mem_map.mp hbefore
    refine ⟨b, hb, ?_⟩
    rwa [apply_ite AnimationAction.isSwitch, show (b.setPlayed true).isSwitch = b.isSwitch from rfl,
      ite_self] at hswitch
  · rw [hunplayed a (List.mem_of_mem_drop hafter)] at hplayed
    cases hplayed

/-- What an event does. -/
lemma next_spec (h : p.ShowsPlayed) (e : PlayerEvent) :
    GivesIff (p.next env e) (p.PlaysPages e) .nullPage ShowsPlayed := by
  cases e with
  | tick time => exact animatedTriggered_spec h time
  | gotoPosition pausing time => exact onGotoPosition_spec p pausing time
  | gotoTime time => exact gotoTime_spec p time
  | reset => exact (resetPages_spec p).mono fun _ q hq => showsPlayed_of_unplayed hq.2

end PlayerWidget

/-! ## Runs -/

/-- A lesson is loaded, and its player plays until a fault. -/
def playing (env : PlayerSurroundings) :
    System (Except PlayerFault (Option PlayerWidget)) PlayerEvent where
  init s := ∃ file, s = KeFile.loadKeAsPlayerWidget env file
  step s e t := ∃ player, s = .ok (some player) ∧ t = (player.next env e).map some

/-- What an event meets when it follows no null page. -/
def PlaysWell (s : Except PlayerFault (Option PlayerWidget)) (e : PlayerEvent) : Prop :=
  ∀ player, s = .ok (some player) → player.PlaysPages e

/-- A page is shown once a switch has been played, by the player that is there. -/
def KeepsPage (s : Except PlayerFault (Option PlayerWidget)) : Prop :=
  ∀ player, s = .ok (some player) → player.ShowsPlayed

/-- A lesson with a version that is refused gives no player, and loading and playing it follows no null
player and no null page, exactly when the lesson is loadable and every event of the run plays pages
that are there. -/
theorem followsNoNull_iff (env : PlayerSurroundings) (file : LessonFile) (es : List PlayerEvent) :
    ((KeFile.Refused (unpackAll file.this).1 → KeFile.loadKeAsPlayerWidget env file = .ok none) ∧
        (playing env).EveryState KeFile.FollowsNoNull (KeFile.loadKeAsPlayerWidget env file) es) ↔
      KeFile.Loadable file ∧
        (playing env).EveryStep PlaysWell (KeFile.loadKeAsPlayerWidget env file) es := by
  obtain ⟨hends, hload⟩ := KeFile.load_spec env file
  have hnew : KeepsPage (KeFile.loadKeAsPlayerWidget env file) := by
    intro player hplayer
    rw [hplayer] at hends
    rcases hends with hnone | ⟨p, hp, hunplayed⟩
    · cases hnone
    · obtain rfl := Option.some.inj hp
      intro a ha _ hplayed
      rw [hunplayed a ha] at hplayed
      cases hplayed
  have hrun : KeFile.FollowsNoNull (KeFile.loadKeAsPlayerWidget env file) →
      ((playing env).EveryState KeFile.FollowsNoNull (KeFile.loadKeAsPlayerWidget env file) es ↔
        (playing env).EveryStep PlaysWell (KeFile.loadKeAsPlayerWidget env file) es) := by
    intro hfollows
    refine System.everyState_iff ⟨hnew, hfollows⟩ (fun s e t hI _ hstep => ?_) es
    obtain ⟨player, rfl, rfl⟩ := hstep
    have hnext : GivesIff (player.next env e) (player.PlaysPages e) .nullPage
        PlayerWidget.ShowsPlayed := PlayerWidget.next_spec (hI player rfl) e
    have hplays : PlaysWell (.ok (some player)) e ↔ player.PlaysPages e := by
      refine ⟨fun h => h player rfl, fun h other hother => ?_⟩
      obtain rfl := Option.some.inj (Except.ok.inj hother)
      exact h
    rw [hplays]
    by_cases hpages : player.PlaysPages e
    · obtain ⟨q, hq, hshown⟩ := hnext.gives hpages
      rw [hq]
      refine ⟨iff_of_true hpages ⟨nofun, nofun⟩, fun _ other hother => ?_⟩
      obtain rfl := Option.some.inj (Except.ok.inj hother)
      exact hshown
    · rw [hnext.error hpages]
      exact ⟨iff_of_false hpages fun h => h.2 rfl, fun h => absurd h hpages⟩
  constructor
  · rintro ⟨hrefused, hstates⟩
    have hfollows := hstates [] es _ rfl (.nil _)
    exact ⟨hload.mp ⟨hrefused, hfollows⟩, (hrun hfollows).mp hstates⟩
  · rintro ⟨hloadable, hsteps⟩
    obtain ⟨hrefused, hfollows⟩ := hload.mpr hloadable
    exact ⟨hrefused, (hrun hfollows).mpr hsteps⟩

/-- A lesson of a version, without pages, that begins with a switch to a page. -/
def pagelessLesson (version : Nat) : LessonFile where
  magic1 := 71
  magic2 := 89
  this := packAll [.raw [71, 89], .posInt version, .raw [0], .posInt 1,
    .raw (Obj.array [.posInt 1278, .posInt 732, .posInt 60000]).pack]
  pages := []
  actions := KeFile.saveActions [⟨[1], [], 0, .switchPage, false⟩]

/-- Surroundings in which no file is the document of a page. -/
def noDocuments : PlayerSurroundings :=
  ⟨⟨0, false⟩, ⟨fun _ _ => SMatrix.one, fun n _ => n⟩, fun _ => .ok none, id⟩

/-- The first seek in a lesson that begins with a switch to a page it does not have follows the null
page, and loading a lesson of the next version follows the null player. -/
theorem not_followsNoNull_pagelessLesson :
    ¬ (playing noDocuments).EveryState KeFile.FollowsNoNull
        (KeFile.loadKeAsPlayerWidget noDocuments (pagelessLesson 5)) [.gotoPosition true 1] ∧
      ¬ KeFile.FollowsNoNull (KeFile.loadKeAsPlayerWidget noDocuments (pagelessLesson 6)) := by
  have hplay : Gives (KeFile.loadKeAsPlayerWidget noDocuments (pagelessLesson 5)) fun r =>
      ∃ player ∈ r, Ends (player.next noDocuments (.gotoPosition true 1)) (fun _ => False)
        (· = .nullPage) := by
    decide +kernel
  have hload : Ends (KeFile.loadKeAsPlayerWidget noDocuments (pagelessLesson 6)) (fun _ => False)
      (· = .nullPlayer) := by
    decide +kernel
  constructor
  · intro h
    obtain ⟨r, hr, player, hplayer, hfault⟩ := hplay
    obtain rfl := Option.mem_def.mp hplayer
    refine (h [.gotoPosition true 1] [] _ rfl (.cons ⟨player, hr, rfl⟩ (.nil _))).2 ?_
    rw [hfault.eq_error]
    rfl
  · exact fun h => h.1 hload.eq_error

end Liangshi
