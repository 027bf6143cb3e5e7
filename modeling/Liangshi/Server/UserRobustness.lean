import Liangshi.Server.UserFraming
import Liangshi.Shared.CommandSchema

/-!
# Frames that cannot be decoded

What `User::OnData` does with a frame whose payload is not a type and the complete record of a
command.  `Undecodable` lists the defects a payload can have.  A payload with a defect should be
discarded; `survives_iff` says exactly when that is what happens to all of a stream.

It is not what happens to a payload that does not decode (`Decodes`): a type beyond `int`, a body
that does not unpack and malformed MessagePack throw out of `OnData`.  Nor to a truncated payload,
one that starts with another object than an integer, or one with a missing field, when its last
body makes a command all the same (`Dropped`): that command is handed over.
-/

namespace Liangshi

open Wire MessagePack LokiCommand

/-- The value of an integer object. -/
def objInteger : Obj → Option Int
  | .posInt n => some n
  | .negInt i => some i
  | _ => none

/-- The defects of a payload: truncated or malformed MessagePack, a type that is not an integer
or is outside `int`, a body that does not unpack, a record with a missing field. -/
inductive Undecodable (payload : Bytes) : Prop where
  | truncated (h : (unpackAll payload).2 = .truncated)
  | malformed (h : (unpackAll payload).2 = .malformed)
  | typeNotInteger (o : Obj) (h : (unpackAll payload).1.head? = some o)
      (hinteger : objInteger o = none)
  | typeOutsideInt (o : Obj) (h : o ∈ (unpackAll payload).1) (i : Int)
      (hinteger : objInteger o = some i) (hrange : i < -2 ^ 31 ∨ 2 ^ 31 ≤ i)
  | badBody (body : Int32 × Bytes) (h : body ∈ bodies 0 (unpackAll payload).1)
      (hunpack : unpackOne body.2 = none)
  | missingField (body : Int32 × Bytes) (h : body ∈ bodies 0 (unpackAll payload).1)
      (type : CommandType) (htype : CommandType.ofInt? body.1 = some type) (objs : List Obj)
      (hunpack : unpackOne body.2 = some (.array objs))
      (hlength : objs.length < type.schema.length)

/-- The last body of a payload makes no command: its type is unknown or an item of its record is
of the wrong kind. -/
def Dropped (payload : Bytes) : Prop :=
  ∀ body ∈ (bodies 0 (unpackAll payload).1).getLast?,
    ∀ type, CommandType.ofInt? body.1 = some type →
      ∀ msg, unpackOne body.2 = some msg → ItemKind.record type.schema msg = false

/-- A payload `OnData` treats as it should: it decodes, and with a defect it is dropped. -/
structure Benign (payload : Bytes) : Prop where
  decodes : Decodes payload
  dropped : Undecodable payload → Dropped payload

open Classical in
/-- What a frame should hand over: nothing when its payload has a defect. -/
noncomputable def expectedCommands (u : Uninitialised) (payload : Bytes) : List LokiCommand :=
  if Undecodable payload then [] else User.frameCommands u payload

/-- Every call returns, and the frames of the stream hand over what they should: those with a
defect nothing, and the others what they would hand over without them. -/
def Survives (u : Uninitialised) (chunks : List Bytes) : Prop :=
  ∃ user commands, User.new.onDataAll u chunks = some (.ok user, commands) ∧
    commands.flatten = (deframe chunks.flatten).1.flatMap (expectedCommands u)

section

variable {u : Uninitialised}

/-- A payload without a defect decodes. -/
lemma decodes_of_not_undecodable {payload : Bytes} (h : ¬ Undecodable payload) :
    Decodes payload := by
  refine ⟨⟨fun n hn => ?_, fun body hbody => ?_⟩, fun hmal => h (.malformed hmal)⟩
  · by_contra hlarge
    exact h (.typeOutsideInt _ hn n rfl (Or.inr (by omega)))
  · by_contra hnone
    exact h (.badBody body hbody (Option.not_isSome_iff_eq_none.mp hnone))

/-- A payload makes no command exactly when its last body is dropped. -/
lemma payloadCommand_eq_none_iff {payload : Bytes} :
    payloadCommand u payload = none ↔ Dropped payload := by
  unfold payloadCommand Dropped
  cases (bodies 0 (unpackAll payload).1).getLast? with
  | none => simp
  | some body =>
    simp only [Option.bind_some, Option.mem_some, forall_eq', bodyCommand]
    cases unpackOne body.2 with
    | none => simp
    | some msg =>
      cases CommandType.ofInt? body.1 with
      | none => simp
      | some type =>
        have hkind := convert_isSome u msg type
        simp only [Option.bind_some, Option.some.injEq, forall_eq', ← hkind,
          Option.isSome_eq_false_iff, Option.isNone_iff_eq_none]

/-- A frame that decodes hands over what it should exactly when a defect makes it dropped. -/
lemma frameCommands_eq_iff {payload : Bytes} (h : Decodes payload) :
    User.frameCommands u payload = expectedCommands u payload ↔
      (Undecodable payload → Dropped payload) := by
  have hcommands : User.frameCommands u payload = (payloadCommand u payload).toList := by
    simp only [User.frameCommands, decoded, scanPayload_of_decodes h]
  unfold expectedCommands
  split
  · rename_i hdefect
    rw [hcommands, Option.toList_eq_nil_iff, payloadCommand_eq_none_iff]
    exact ⟨fun hdropped _ => hdropped, fun hdropped => hdropped hdefect⟩
  · rename_i hsound
    exact ⟨fun _ hdefect => absurd hdefect hsound, fun _ => rfl⟩

/-- Dropping entries can only shorten a concatenation. -/
lemma length_flatMap_expected_le (payloads : List Bytes) :
    (payloads.flatMap (expectedCommands u)).length ≤
      (payloads.flatMap (User.frameCommands u)).length := by
  induction payloads with
  | nil => exact le_rfl
  | cons payload payloads ih =>
    have hfirst : (expectedCommands u payload).length ≤
        (User.frameCommands u payload).length := by
      unfold expectedCommands
      split <;> simp
    simp only [List.flatMap_cons, List.length_append]
    omega

/-- A stream hands over what it should only if every frame does. -/
lemma forall_eq_of_flatMap_eq {payloads : List Bytes}
    (h : payloads.flatMap (User.frameCommands u) = payloads.flatMap (expectedCommands u)) :
    ∀ payload ∈ payloads, User.frameCommands u payload = expectedCommands u payload := by
  induction payloads with
  | nil => simp
  | cons payload payloads ih =>
    have hrest := length_flatMap_expected_le (u := u) payloads
    have hfirst : User.frameCommands u payload = expectedCommands u payload := by
      have hlength := congrArg List.length h
      simp only [List.flatMap_cons, List.length_append] at hlength
      by_cases hdefect : Undecodable payload
      · have hnil : expectedCommands u payload = [] := if_pos hdefect
        rw [hnil, List.length_nil] at hlength
        rw [hnil]
        exact List.length_eq_zero_iff.mp (by omega)
      · exact (if_neg hdefect).symm
    rw [List.flatMap_cons, List.flatMap_cons, hfirst, List.append_cancel_left_eq] at h
    exact List.forall_mem_cons.mpr ⟨hfirst, ih h⟩

/-- While the queue stays below `2 ^ 31` bytes, a run survives a stream exactly when each of its
complete frames is benign. -/
theorem survives_iff {chunks : List Bytes} (hfits : User.Fits 0 [] chunks) :
    Survives u chunks ↔ ∀ payload ∈ (deframe chunks.flatten).1, Benign payload := by
  have hcut := congrArg Prod.fst (feedAll_eq_deframe splitFrame_nil chunks)
  rw [List.nil_append] at hcut
  have hgroups : (∀ group ∈ (feedAll [] chunks).1, ∀ payload ∈ group, Decodes payload) ↔
      ∀ payload ∈ (deframe chunks.flatten).1, Decodes payload := by
    rw [← hcut]
    simp only [List.mem_flatten]
    exact ⟨fun h payload ⟨group, hgroup, hmem⟩ => h group hgroup payload hmem,
      fun h group hgroup payload hmem => h payload ⟨group, hgroup, hmem⟩⟩
  have hflatten : ((feedAll [] chunks).1.map (List.flatMap (User.frameCommands u))).flatten =
      (deframe chunks.flatten).1.flatMap (User.frameCommands u) := by
    rw [← hcut, List.flatMap_def, List.map_flatten, List.flatten_flatten, List.map_map]
    rfl
  constructor
  · rintro ⟨user, commands, hrun, hcommands⟩
    have hdecodes : ∀ payload ∈ (deframe chunks.flatten).1, Decodes payload := by
      rw [← hgroups]
      by_contra hbad
      obtain ⟨e, handed, herror⟩ := User.onDataAll_error (u := u) User.tracks_new
        User.length_pending_new hfits hbad
      rw [hrun] at herror
      cases herror
    obtain ⟨user', hrun', -⟩ := User.onDataAll_eq (u := u) User.tracks_new
      User.length_pending_new hfits (hgroups.mpr hdecodes)
    rw [hrun] at hrun'
    obtain ⟨-, rfl⟩ : user = user' ∧ commands = _ := by simpa using hrun'
    rw [hflatten] at hcommands
    intro payload hmem
    have hpayload := hdecodes payload hmem
    exact ⟨hpayload,
      (frameCommands_eq_iff hpayload).mp (forall_eq_of_flatMap_eq hcommands payload hmem)⟩
  · intro hbenign
    obtain ⟨user, hrun, -⟩ := User.onDataAll_eq (u := u) User.tracks_new
      User.length_pending_new hfits
      (hgroups.mpr fun payload hmem => (hbenign payload hmem).decodes)
    refine ⟨user, _, hrun, hflatten.trans ?_⟩
    refine List.flatMap_congr fun payload hmem => ?_
    exact (frameCommands_eq_iff (hbenign payload hmem).decodes).mpr (hbenign payload hmem).dropped

end

/-- A stream with a frame of the unknown type 5 in front of a `TakeBoardCommand` is survived. -/
theorem survives_iff_unknownType :
    Survives ⟨0, false⟩
      [[0, 0, 0, 3, 0x05, 0xa1, 0xc0, 0, 0], [0, 6, 0xcd, 0x5b, 0x16, 0xa2, 0x91, 0xa0]] := by
  have hframes : (deframe ([[0, 0, 0, 3, 0x05, 0xa1, 0xc0, 0, 0],
      [0, 6, 0xcd, 0x5b, 0x16, 0xa2, 0x91, 0xa0]] : List Bytes).flatten).1 =
      [[0x05, 0xa1, 0xc0], [0xcd, 0x5b, 0x16, 0xa2, 0x91, 0xa0]] := by decide
  have hunknown : unpackAll [0x05, 0xa1, 0xc0] = ([.posInt 5, .raw [0xc0]], .finished) := rfl
  have htake : unpackAll [0xcd, 0x5b, 0x16, 0xa2, 0x91, 0xa0] =
      ([.posInt 23318, .raw [0x91, 0xa0]], .finished) := rfl
  have hbodyUnknown : bodies 0 [.posInt 5, .raw [0xc0]] = [(5, [0xc0])] := by decide
  have hbodyTake : bodies 0 [.posInt 23318, .raw [0x91, 0xa0]] = [(23318, [0x91, 0xa0])] := by decide
  refine (survives_iff (User.fits_of_length (by decide))).mpr ?_
  rw [hframes]
  simp only [List.forall_mem_cons, List.not_mem_nil, false_implies, implies_true, and_true]
  constructor
  · refine ⟨⟨?_, by rw [hunknown]; decide⟩, fun _ body hbody type htype => ?_⟩
    · rw [hunknown]
      exact ⟨by simp, by decide⟩
    · rw [hunknown, hbodyUnknown] at hbody
      cases hbody
      cases htype
  · have hsound : ¬ Undecodable [0xcd, 0x5b, 0x16, 0xa2, 0x91, 0xa0] := by
      intro hdefect
      cases hdefect with
      | truncated h => rw [htake] at h; cases h
      | malformed h => rw [htake] at h; cases h
      | typeNotInteger o h hinteger => rw [htake] at h; cases h; cases hinteger
      | typeOutsideInt o h i hinteger hrange =>
        rw [htake] at h
        simp only [List.mem_cons, List.not_mem_nil, or_false] at h
        rcases h with rfl | rfl
        · cases hinteger
          omega
        · cases hinteger
      | badBody body h hunpack =>
        rw [htake, hbodyTake] at h
        obtain rfl := List.mem_singleton.mp h
        cases hunpack
      | missingField body h type htype objs hunpack hlength =>
        rw [htake, hbodyTake] at h
        obtain rfl := List.mem_singleton.mp h
        cases htype
        cases hunpack
        exact absurd hlength (by decide)
    exact ⟨decodes_of_not_undecodable hsound, fun hdefect => absurd hdefect hsound⟩

/-- A `TakeBoardCommand` frame with an empty body makes `OnData` throw, so not every stream is
survived. -/
theorem not_survives_emptyBody : ¬ ∀ (u : Uninitialised) (chunks : List Bytes),
    Survives u chunks := by
  intro h
  obtain ⟨user, commands, hrun, -⟩ := h ⟨0, false⟩ [[0, 0, 0, 4, 0xcd, 0x5b, 0x16, 0xa0]]
  have hthrow : User.new.onDataAll ⟨0, false⟩ [[0, 0, 0, 4, 0xcd, 0x5b, 0x16, 0xa0]] =
      some (.error .unpackError, [[]]) := by decide
  rw [hthrow] at hrun
  cases hrun

end Liangshi
