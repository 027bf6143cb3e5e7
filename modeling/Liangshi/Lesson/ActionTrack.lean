import Liangshi.Board.AnimationAction
import Liangshi.MessagePack.TypedTrack

/-!
# The track of actions

The file `actions` of a lesson: `KeFile::SaveActions` writes the type and the record of every action,
and `KeFile::LoadPlayerActions` creates the actions again and adds them to the player.

What `SaveActions` wrote is loaded as it was.  Actions of types that the reader does not know are
meant to be passed over, and most are.  But `CreateFromType` unpacks the body before it looks at the
type, outside its `try` block, so a body that cannot be unpacked throws out of the loop and takes the
later actions with it; and a negative type is no positive integer, so its body is read as an action
of the type before (`loadPlayerActions_iff`).

A track is read into a `QByteArray`, whose length is an `int`.
-/

namespace Liangshi

open Wire MessagePack

/-- What the track holds for an action. -/
def AnimationAction.entry (a : AnimationAction) : Entry := (a.getType.toInt, a.getMsgPackData)

/-- An action of a type that no enumerator stands for. -/
structure UnknownAction where
  type : Int32
  body : Bytes
  unknown : AnimationType.ofInt? type = none

namespace UnknownAction

/-- What a track holds for an action of unknown type. -/
def entry (a : UnknownAction) : Entry := (a.type, a.body)

/-- The action is harmless behind a type: the type in force for its body is zero, or the body unpacks
and is no action of that type. -/
def IsHarmless (u : Uninitialised) (type : Int32) (a : UnknownAction) : Prop :=
  a.entry.typeFrom type = 0 ∨
    ∃ msg ∈ unpackOne a.body, ∀ known ∈ AnimationType.ofInt? (a.entry.typeFrom type),
      AnimationAction.convert u msg known = none

instance instDecidableIsHarmless (u : Uninitialised) (type : Int32) (a : UnknownAction) :
    Decidable (a.IsHarmless u type) :=
  inferInstanceAs (Decidable (_ ∨ _))

/-- An action whose type is not negative and whose body unpacks is harmless behind every type. -/
lemma isHarmless_of_unpacks {u : Uninitialised} {type : Int32} {a : UnknownAction}
    (htype : 0 ≤ a.type.toInt) (hbody : (unpackOne a.body).isSome) : a.IsHarmless u type := by
  obtain ⟨msg, hmsg⟩ := Option.isSome_iff_exists.mp hbody
  have hown : a.entry.typeFrom type = a.type := if_pos htype
  refine .inr ⟨msg, hmsg, fun known hknown => ?_⟩
  rw [hown, a.unknown] at hknown
  cases hknown

end UnknownAction

/-- Actions with actions of unknown type in between. -/
abbrev ActionTrack := List (AnimationAction ⊕ UnknownAction)

namespace ActionTrack

/-- What a track holds for an item. -/
def entryOf : AnimationAction ⊕ UnknownAction → Entry
  | .inl a => a.entry
  | .inr a => a.entry

/-- The bytes of a track. -/
def bytes (track : ActionTrack) : Bytes := packTrack (track.map entryOf)

/-- The actions of known types in order. -/
def known (track : ActionTrack) : List AnimationAction := track.filterMap Sum.getLeft?

/-- Every action of unknown type is harmless where it stands, behind a type. -/
def AllHarmless (u : Uninitialised) : Int32 → ActionTrack → Prop
  | _, [] => True
  | _, .inl a :: track => AllHarmless u a.getType.toInt track
  | type, .inr a :: track => a.IsHarmless u type ∧ AllHarmless u (a.entry.typeFrom type) track

instance instDecidableAllHarmless (u : Uninitialised) :
    ∀ (type : Int32) (track : ActionTrack), Decidable (track.AllHarmless u type)
  | _, [] => .isTrue trivial
  | _, .inl a :: track => instDecidableAllHarmless u a.getType.toInt track
  | type, .inr a :: track =>
    @instDecidableAnd _ _ (UnknownAction.instDecidableIsHarmless u type a)
      (instDecidableAllHarmless u (a.entry.typeFrom type) track)

/-- Actions of unknown type are harmless when no type is negative and every body unpacks. -/
lemma allHarmless_of_unpacks {u : Uninitialised} {track : ActionTrack} (type : Int32)
    (h : ∀ a : UnknownAction, .inr a ∈ track → 0 ≤ a.type.toInt ∧ (unpackOne a.body).isSome) :
    track.AllHarmless u type := by
  induction track generalizing type with
  | nil => trivial
  | cons item track ih =>
    have hrest : ∀ type, AllHarmless u type track := fun type =>
      ih type fun a ha => h a (List.mem_cons_of_mem _ ha)
    rcases item with a | a
    · exact hrest _
    · obtain ⟨htype, hbody⟩ := h a List.mem_cons_self
      exact ⟨UnknownAction.isHarmless_of_unpacks htype hbody, hrest _⟩

end ActionTrack

namespace KeFile

/-- `SaveActions`: what is written to the file. -/
def saveActions (actions : List AnimationAction) : Bytes :=
  packTrack (actions.map AnimationAction.entry)

/-- The `RAW` branch of `LoadPlayerActions`: what can be created is added to the player. -/
def addAction (u : Uninitialised) (actions : List AnimationAction) (entry : Entry) :
    Except LokiCommand.MsgpackException (List AnimationAction) :=
  if entry.1 ≠ 0 then
    match AnimationAction.createFromType u entry.1 entry.2 with
    | .error exception => .error exception
    | .ok (some action) => .ok (actions ++ [action])
    | .ok none => .ok actions
  else
    .ok actions

/-- `LoadPlayerActions`: the actions of the player after it, or what it throws. -/
def loadPlayerActions (u : Uninitialised) (actions : List AnimationAction) (file : Bytes) :
    Except LokiCommand.MsgpackException (List AnimationAction) :=
  scanTrack (addAction u) .typeError .unpackError actions file

/-- The entry of an action adds the action. -/
lemma addAction_entry {u : Uninitialised} {actions : List AnimationAction} {a : AnimationAction}
    (h : a.getMsgPackData.length < 2 ^ 32) :
    addAction u actions a.entry = .ok (actions ++ [a.unplayed]) := by
  have hne : a.getType.toInt ≠ 0 := by
    intro heq
    have hpos := a.getType.toInt_pos
    rw [heq] at hpos
    exact lt_irrefl _ hpos
  simp only [addAction, AnimationAction.entry, ne_eq, hne, not_false_eq_true, if_true,
    AnimationAction.createFromType_getMsgPackData u h]

/-- No body takes an action away. -/
lemma length_le_addAction {u : Uninitialised} {actions actions' : List AnimationAction}
    {entry : Entry} (h : addAction u actions entry = .ok actions') :
    actions.length ≤ actions'.length := by
  unfold addAction at h
  split_ifs at h
  · split at h <;> cases h <;> simp
  · cases h
    exact le_rfl

/-- A harmless action of unknown type adds nothing. -/
lemma addAction_of_isHarmless {u : Uninitialised} {actions : List AnimationAction} {type : Int32}
    {a : UnknownAction} (h : a.IsHarmless u type) :
    addAction u actions (a.entry.typeFrom type, a.body) = .ok actions := by
  by_cases hzero : a.entry.typeFrom type = 0
  · exact if_neg (not_not_intro hzero)
  · obtain ⟨msg, hmsg, hnone⟩ := h.resolve_left hzero
    have hconvert : (AnimationType.ofInt? (a.entry.typeFrom type)).bind
        (AnimationAction.convert u msg) = none := Option.bind_eq_none_iff.mpr hnone
    rw [addAction, if_pos hzero, AnimationAction.createFromType, Option.mem_def.mp hmsg]
    simp only [hconvert]

/-- A harmful action of unknown type throws or adds an action. -/
lemma length_lt_addAction {u : Uninitialised} {actions actions' : List AnimationAction}
    {type : Int32} {a : UnknownAction} (h : ¬ a.IsHarmless u type)
    (hadd : addAction u actions (a.entry.typeFrom type, a.body) = .ok actions') :
    actions.length < actions'.length := by
  obtain ⟨hzero, hbody⟩ := not_or.mp h
  rw [addAction, if_pos hzero, AnimationAction.createFromType] at hadd
  cases hmsg : unpackOne a.body with
  | none => simp [hmsg] at hadd
  | some msg =>
    have hsome : (AnimationType.ofInt? (a.entry.typeFrom type)).bind
        (AnimationAction.convert u msg) ≠ none := fun hnone =>
      hbody ⟨msg, hmsg, Option.bind_eq_none_iff.mp hnone⟩
    obtain ⟨action, haction⟩ := Option.ne_none_iff_exists'.mp hsome
    simp only [hmsg, haction, Except.ok.injEq] at hadd
    rw [← hadd, List.length_append]
    exact Nat.lt_succ_self _

/-! ## Reading a track -/

section Reading

variable {u : Uninitialised}

/-- The loop over a track, from the variables it has in between. -/
abbrev readTrack (u : Uninitialised) (scan : TypedScan (List AnimationAction))
    (track : ActionTrack) : Except LokiCommand.MsgpackException (TypedScan (List AnimationAction)) :=
  (track.map ActionTrack.entryOf).foldlM (TypedScan.take (addAction u)) scan

/-- The loop adds a known action and goes on. -/
lemma readTrack_known {scan : TypedScan (List AnimationAction)} {track : ActionTrack}
    {a : AnimationAction} (h : a.getMsgPackData.length < 2 ^ 32) :
    readTrack u scan (.inl a :: track) =
      readTrack u ⟨a.getType.toInt, scan.state ++ [a.unplayed]⟩ track := by
  have htype : a.entry.typeFrom scan.type = a.getType.toInt := if_pos a.getType.toInt_pos.le
  have hadd : addAction u scan.state (a.getType.toInt, a.entry.2) =
      .ok (scan.state ++ [a.unplayed]) := addAction_entry h
  have htake : scan.take (addAction u) (ActionTrack.entryOf (.inl a)) =
      .ok ⟨a.getType.toInt, scan.state ++ [a.unplayed]⟩ := by
    rw [TypedScan.take, ActionTrack.entryOf, htype, hadd]
    rfl
  rw [readTrack, List.map_cons, List.foldlM_cons, htake]
  rfl

/-- The loop goes on behind an action of unknown type with what its body added. -/
lemma readTrack_unknown {scan scan' : TypedScan (List AnimationAction)} {track : ActionTrack}
    {a : UnknownAction} (h : readTrack u scan (.inr a :: track) = .ok scan') :
    ∃ actions, addAction u scan.state (a.entry.typeFrom scan.type, a.body) = .ok actions ∧
      readTrack u ⟨a.entry.typeFrom scan.type, actions⟩ track = .ok scan' := by
  rw [readTrack, List.map_cons, List.foldlM_cons, ActionTrack.entryOf, TypedScan.take] at h
  cases hadd : addAction u scan.state (a.entry.typeFrom scan.type, a.entry.2) with
  | error exception => rw [hadd] at h; cases h
  | ok actions => rw [hadd] at h; exact ⟨actions, hadd, h⟩

/-- The loop adds at least the known actions. -/
lemma length_le_readTrack {track : ActionTrack} {scan scan' : TypedScan (List AnimationAction)}
    (hknown : ∀ a ∈ track.known, a.getMsgPackData.length < 2 ^ 32)
    (h : readTrack u scan track = .ok scan') :
    scan.state.length + track.known.length ≤ scan'.state.length := by
  induction track generalizing scan with
  | nil => cases h; exact le_rfl
  | cons item track ih =>
    rcases item with a | a
    · obtain ⟨hfirst, hothers⟩ := List.forall_mem_cons.mp hknown
      rw [readTrack_known hfirst] at h
      have hle := ih hothers h
      simp only [List.length_append, List.length_singleton] at hle
      show _ + (ActionTrack.known track).length.succ ≤ _
      omega
    · obtain ⟨actions, hadd, hrest⟩ := readTrack_unknown h
      exact (Nat.add_le_add_right (length_le_addAction hadd) _).trans (ih hknown hrest)

/-- The loop adds exactly the known actions when the others are harmless where they stand, and only
then: what a harmful one adds is never taken away. -/
lemma readTrack_iff {track : ActionTrack} {scan : TypedScan (List AnimationAction)}
    (hknown : ∀ a ∈ track.known, a.getMsgPackData.length < 2 ^ 32) :
    (readTrack u scan track).map TypedScan.state =
        .ok (scan.state ++ track.known.map AnimationAction.unplayed) ↔
      track.AllHarmless u scan.type := by
  induction track generalizing scan with
  | nil => simp [ActionTrack.known, ActionTrack.AllHarmless, readTrack, Except.map, pure, Except.pure]
  | cons item track ih =>
    rcases item with a | a
    · obtain ⟨hfirst, hothers⟩ := List.forall_mem_cons.mp hknown
      have hmore : scan.state ++ (ActionTrack.known (.inl a :: track)).map AnimationAction.unplayed =
          scan.state ++ [a.unplayed] ++ (ActionTrack.known track).map AnimationAction.unplayed := by
        simp [ActionTrack.known]
      rw [readTrack_known hfirst, ActionTrack.AllHarmless, hmore]
      exact ih hothers
    · by_cases hharmless : a.IsHarmless u scan.type
      · have htake : scan.take (addAction u) (ActionTrack.entryOf (.inr a)) =
            .ok ⟨a.entry.typeFrom scan.type, scan.state⟩ :=
          congrArg (Except.map _) (addAction_of_isHarmless hharmless)
        have hloop : readTrack u scan (.inr a :: track) =
            readTrack u ⟨a.entry.typeFrom scan.type, scan.state⟩ track := by
          rw [readTrack, List.map_cons, List.foldlM_cons, htake]
          rfl
        rw [hloop, ActionTrack.AllHarmless, and_iff_right hharmless]
        exact ih hknown
      · refine iff_of_false (fun hread => ?_) fun hall => hharmless hall.1
        cases hloop : readTrack u scan (.inr a :: track) with
        | error exception => rw [hloop] at hread; cases hread
        | ok scan' =>
          -- one action more than the known ones
          obtain ⟨actions, hadd, hrest⟩ := readTrack_unknown hloop
          have hmore := length_lt_addAction hharmless hadd
          have hle := length_le_readTrack (show ∀ a ∈ ActionTrack.known track, _ from hknown) hrest
          rw [hloop] at hread
          have hlength := congrArg List.length (Except.ok.inj hread)
          rw [List.length_append, List.length_map] at hlength
          have hsame : ActionTrack.known (.inr a :: track) = ActionTrack.known track := rfl
          rw [hsame] at hlength
          simp only at hle
          omega

end Reading

/-- The record of a known action is no longer than its track. -/
lemma length_getMsgPackData_le {track : ActionTrack} {a : AnimationAction}
    (h : a ∈ track.known) : a.getMsgPackData.length ≤ track.bytes.length := by
  obtain ⟨item, hitem, hleft⟩ := List.mem_filterMap.mp h
  obtain rfl : item = .inl a := Sum.getLeft?_eq_some_iff.mp hleft
  exact length_body_le (List.mem_map_of_mem (f := ActionTrack.entryOf) hitem)

/-- A track is loaded as its known actions exactly when its other actions are harmless. -/
lemma loads_known_iff {u : Uninitialised} {track : ActionTrack} (h : track.bytes.length < 2 ^ 31) :
    loadPlayerActions u [] track.bytes = .ok (track.known.map AnimationAction.unplayed) ↔
      track.AllHarmless u 0 := by
  have hscan : loadPlayerActions u [] track.bytes =
      (readTrack u ⟨0, []⟩ track).map TypedScan.state :=
    scanTrack_packTrack (lt_trans h (by decide)) []
  rw [hscan]
  refine readTrack_iff fun a ha => ?_
  have hle := length_getMsgPackData_le ha
  omega

/-- A track is loaded as its known actions when no unknown type in it is negative and every unknown
body unpacks. -/
theorem loadPlayerActions_track (u : Uninitialised) {track : ActionTrack}
    (hlength : track.bytes.length < 2 ^ 31)
    (h : ∀ a : UnknownAction, .inr a ∈ track → 0 ≤ a.type.toInt ∧ (unpackOne a.body).isSome) :
    loadPlayerActions u [] track.bytes = .ok (track.known.map AnimationAction.unplayed) :=
  (loads_known_iff hlength).mpr (ActionTrack.allHarmless_of_unpacks 0 h)

/-- Saved actions are a track without unknown ones. -/
lemma saveActions_eq (actions : List AnimationAction) :
    saveActions actions = ActionTrack.bytes (actions.map Sum.inl) := by
  simp only [saveActions, ActionTrack.bytes, List.map_map]
  rfl

/-- Loading what was saved gives all of the actions, with all that was saved of them and in order; a
track with actions of unknown type in between gives its known actions exactly when each of the
others is harmless where it stands. -/
theorem loadPlayerActions_iff (u : Uninitialised) :
    (∀ actions : List AnimationAction, (saveActions actions).length < 2 ^ 31 →
      loadPlayerActions u [] (saveActions actions) =
        .ok (actions.map AnimationAction.unplayed)) ∧
    ∀ track : ActionTrack, track.bytes.length < 2 ^ 31 →
      (loadPlayerActions u [] track.bytes = .ok (track.known.map AnimationAction.unplayed) ↔
        track.AllHarmless u 0) := by
  refine ⟨fun actions hlength => ?_, fun track hlength => loads_known_iff hlength⟩
  rw [saveActions_eq] at hlength ⊢
  have hknown : ActionTrack.known (actions.map Sum.inl) = actions := by
    simp [ActionTrack.known, List.filterMap_map, Function.comp_def]
  have hload := loadPlayerActions_track u hlength fun a ha => by
    obtain ⟨action, -, haction⟩ := List.mem_map.mp ha
    cases haction
  rw [hload, hknown]

/-- The body of an action of negative type is loaded as one more action of the type before. -/
example : loadPlayerActions ⟨0, false⟩ []
      (ActionTrack.bytes [.inl ⟨[1], [], 0, .switchPage, false⟩,
        .inr ⟨-1, (AnimationAction.mk [2] [] 7 .switchPage false).getMsgPackData, rfl⟩]) =
    .ok [⟨[1], [], 0, .switchPage, false⟩, ⟨[2], [], 7, .switchPage, false⟩] := by
  decide +kernel

/-- A page switch, an action of a later type with a record of its own and a colour. -/
def mixedTrack : ActionTrack :=
  [.inl ⟨[1], [], 0, .switchPage, false⟩, .inr ⟨1013, [0xc0], rfl⟩,
    .inl ⟨[1], [2], -5, .lineColor 0xff336699, false⟩]

/-- The same with an action of a later type that has no record. -/
def emptyBodyTrack : ActionTrack :=
  [.inl ⟨[1], [], 0, .switchPage, false⟩, .inr ⟨1013, [], rfl⟩,
    .inl ⟨[1], [2], -5, .lineColor 0xff336699, false⟩]

/-- The two known actions around an action of unknown type are loaded. -/
theorem loadPlayerActions_iff_mixedTrack : loadPlayerActions ⟨0, false⟩ [] mixedTrack.bytes =
    .ok [⟨[1], [], 0, .switchPage, false⟩, ⟨[1], [2], -5, .lineColor 0xff336699, false⟩] :=
  ((loadPlayerActions_iff ⟨0, false⟩).2 mixedTrack (by decide +kernel)).mpr (by decide +kernel)

/-- Around an action without a record they are not: the reader throws. -/
theorem not_loads_emptyBodyTrack :
    emptyBodyTrack.bytes.length < 2 ^ 31 ∧
      loadPlayerActions ⟨0, false⟩ [] emptyBodyTrack.bytes = .error .unpackError ∧
      loadPlayerActions ⟨0, false⟩ [] emptyBodyTrack.bytes ≠
        .ok (emptyBodyTrack.known.map AnimationAction.unplayed) := by
  have hload : loadPlayerActions ⟨0, false⟩ [] emptyBodyTrack.bytes = .error .unpackError := by
    decide +kernel
  refine ⟨by decide +kernel, hload, ?_⟩
  rw [hload]
  intro heq
  cases heq

end KeFile

end Liangshi
