import Liangshi.Shared.LokiCommand

/-!
# Scanning the payload of a frame

`User::ParseCommand` on the server and `LokiClient::OnDataReadTriggered` on the client read the
objects of a frame's payload in the same way: an integer sets the type, a raw object after a
nonzero type is the body of a command, and the last body decides which command is handled.  A
type beyond `int`, a body that does not unpack and malformed MessagePack throw.

`scanPayload_of_decodes` describes the scan without its loop: a payload that `Decodes` yields the
command of its last body.  Any other payload throws (`scanPayload_of_not_decodes`).
-/

namespace Liangshi

open Wire MessagePack

/-- The variables of the scanning loop. -/
structure PayloadScan where
  type : Int32
  command : Option LokiCommand

/-- One turn of the scanning loop. -/
def PayloadScan.next (u : Uninitialised) (s : PayloadScan) (object : Obj) :
    Except LokiCommand.MsgpackException PayloadScan :=
  match object with
  | .posInt _ =>
    match Codec.int32.convert object with
    | some type => .ok { s with type }
    | none => .error .typeError
  | .raw bytes =>
    if s.type ≠ 0 then
      match LokiCommand.createFromType u s.type bytes with
      | .ok command => .ok { s with command }
      | .error e => .error e
    else
      .ok s
  | _ => .ok s

/-- The scanning loop: the objects are handled one by one before a malformed one throws. -/
def scanPayload (u : Uninitialised) (payload : Bytes) :
    Except LokiCommand.MsgpackException (Option LokiCommand) := do
  let s ← (unpackAll payload).1.foldlM (PayloadScan.next u) ⟨0, none⟩
  if (unpackAll payload).2 = .malformed then .error .unpackError else .ok s.command

/-- An empty payload holds no command. -/
@[simp] lemma scanPayload_nil (u : Uninitialised) : scanPayload u [] = .ok none := rfl

/-! ## Payloads that do not throw -/

/-- The raw objects read after a nonzero type, each with its type. -/
def bodies : Int32 → List Obj → List (Int32 × Bytes)
  | _, [] => []
  | _, .posInt n :: objs => bodies (Int32.ofInt n) objs
  | type, .raw bytes :: objs =>
    if type ≠ 0 then (type, bytes) :: bodies type objs else bodies type objs
  | type, _ :: objs => bodies type objs

/-- Objects the scanning loop handles without a throw when it starts with a type: types within
`int`, and bodies that unpack. -/
def SoundFrom (type : Int32) (objs : List Obj) : Prop :=
  (∀ n, .posInt n ∈ objs → n < 2 ^ 31) ∧ ∀ body ∈ bodies type objs, (unpackOne body.2).isSome

/-- A payload that is scanned without a throw. -/
def Decodes (payload : Bytes) : Prop :=
  SoundFrom 0 (unpackAll payload).1 ∧ (unpackAll payload).2 ≠ .malformed

/-- The command of a body, where it has one. -/
def bodyCommand (u : Uninitialised) (body : Int32 × Bytes) : Option LokiCommand :=
  (unpackOne body.2).bind fun msg => (CommandType.ofInt? body.1).bind (LokiCommand.convert u msg)

/-- The command of the last body of a payload, where it has one. -/
def payloadCommand (u : Uninitialised) (payload : Bytes) : Option LokiCommand :=
  (bodies 0 (unpackAll payload).1).getLast?.bind (bodyCommand u)

variable {u : Uninitialised}

/-- A type within `int` is stored. -/
lemma next_posInt {s : PayloadScan} {n : Nat} (h : n < 2 ^ 31) :
    s.next u (.posInt n) = .ok { s with type := Int32.ofInt n } := by
  simp only [PayloadScan.next, Codec.int32_convert_posInt, h, if_true]

/-- A type outside `int` throws. -/
lemma next_posInt_error {s : PayloadScan} {n : Nat} (h : ¬ n < 2 ^ 31) :
    s.next u (.posInt n) = .error .typeError := by
  simp only [PayloadScan.next, Codec.int32_convert_posInt, h, if_false]

/-- A raw object before any type is skipped. -/
lemma next_raw_zero {s : PayloadScan} {bytes : Bytes} (h : s.type = 0) :
    s.next u (.raw bytes) = .ok s := by
  simp [PayloadScan.next, h]

/-- A body that unpacks replaces the command. -/
lemma next_raw {s : PayloadScan} {bytes : Bytes} (h : s.type ≠ 0)
    (hbody : (unpackOne bytes).isSome) :
    s.next u (.raw bytes) = .ok { s with command := bodyCommand u (s.type, bytes) } := by
  obtain ⟨msg, hmsg⟩ := Option.isSome_iff_exists.mp hbody
  simp [PayloadScan.next, h, LokiCommand.createFromType, bodyCommand, hmsg]

/-- A body that does not unpack throws. -/
lemma next_raw_error {s : PayloadScan} {bytes : Bytes} (h : s.type ≠ 0)
    (hbody : ¬ (unpackOne bytes).isSome) :
    s.next u (.raw bytes) = .error .unpackError := by
  rw [Option.not_isSome_iff_eq_none] at hbody
  simp [PayloadScan.next, h, LokiCommand.createFromType, hbody]

/-- The loop over sound objects ends with the command of the last body. -/
lemma foldlM_next_of_sound {objs : List Obj} {s : PayloadScan} (h : SoundFrom s.type objs) :
    ∃ type, objs.foldlM (PayloadScan.next u) s =
      .ok ⟨type, ((bodies s.type objs).getLast?.map (bodyCommand u)).getD s.command⟩ := by
  induction objs generalizing s with
  | nil => exact ⟨s.type, rfl⟩
  | cons object objs ih =>
    obtain ⟨hints, hbodies⟩ := h
    have hints' : ∀ n, .posInt n ∈ objs → n < 2 ^ 31 := fun n hn =>
      hints n (List.mem_cons_of_mem object hn)
    rw [List.foldlM_cons]
    cases object with
    | posInt n =>
      rw [next_posInt (hints n List.mem_cons_self)]
      exact ih ⟨hints', hbodies⟩
    | raw bytes =>
      by_cases htype : s.type = 0
      · rw [next_raw_zero htype]
        simp only [bodies, htype, ne_eq, not_true_eq_false, if_false] at hbodies ⊢
        rw [← htype] at hbodies ⊢
        exact ih ⟨hints', hbodies⟩
      · simp only [bodies, ne_eq, htype, not_false_eq_true, if_true, List.forall_mem_cons]
          at hbodies ⊢
        rw [next_raw htype hbodies.1]
        obtain ⟨type, hloop⟩ := ih
          (s := { s with command := bodyCommand u (s.type, bytes) }) ⟨hints', hbodies.2⟩
        refine ⟨type, hloop.trans ?_⟩
        cases hlast : (bodies s.type objs).getLast? <;> simp [List.getLast?_cons, hlast]
    | nil => exact ih ⟨hints', hbodies⟩
    | boolean value => exact ih ⟨hints', hbodies⟩
    | negInt value => exact ih ⟨hints', hbodies⟩
    | double bits => exact ih ⟨hints', hbodies⟩
    | array items => exact ih ⟨hints', hbodies⟩
    | map entries => exact ih ⟨hints', hbodies⟩

/-- The loop over objects that are not sound throws. -/
lemma foldlM_next_of_not_sound {objs : List Obj} {s : PayloadScan}
    (h : ¬ SoundFrom s.type objs) :
    ∃ e, objs.foldlM (PayloadScan.next u) s = .error e := by
  induction objs generalizing s with
  | nil => exact absurd ⟨by simp, by simp [bodies]⟩ h
  | cons object objs ih =>
    rw [List.foldlM_cons]
    cases object with
    | posInt n =>
      by_cases hn : n < 2 ^ 31
      · rw [next_posInt hn]
        refine ih fun ⟨hints, hbodies⟩ => h ⟨fun m hm => ?_, hbodies⟩
        rcases List.mem_cons.mp hm with heq | hm
        · cases heq
          exact hn
        · exact hints m hm
      · exact ⟨.typeError, by rw [next_posInt_error hn]; rfl⟩
    | raw bytes =>
      by_cases htype : s.type = 0
      · rw [next_raw_zero htype]
        refine ih fun ⟨hints, hbodies⟩ => h ⟨by simpa using hints, ?_⟩
        rw [htype] at hbodies ⊢
        simpa [bodies] using hbodies
      · by_cases hbody : (unpackOne bytes).isSome
        · rw [next_raw htype hbody]
          refine ih fun ⟨hints, hbodies⟩ => h ⟨by simpa using hints, ?_⟩
          simpa [bodies, htype, hbody] using hbodies
        · exact ⟨.unpackError, by rw [next_raw_error htype hbody]; rfl⟩
    | nil => exact ih fun ⟨hints, hbodies⟩ => h ⟨by simpa using hints, hbodies⟩
    | boolean value => exact ih fun ⟨hints, hbodies⟩ => h ⟨by simpa using hints, hbodies⟩
    | negInt value => exact ih fun ⟨hints, hbodies⟩ => h ⟨by simpa using hints, hbodies⟩
    | double bits => exact ih fun ⟨hints, hbodies⟩ => h ⟨by simpa using hints, hbodies⟩
    | array items => exact ih fun ⟨hints, hbodies⟩ => h ⟨by simpa using hints, hbodies⟩
    | map entries => exact ih fun ⟨hints, hbodies⟩ => h ⟨by simpa using hints, hbodies⟩

/-- A payload that decodes yields the command of its last body. -/
theorem scanPayload_of_decodes {payload : Bytes} (h : Decodes payload) :
    scanPayload u payload = .ok (payloadCommand u payload) := by
  obtain ⟨type, hloop⟩ := foldlM_next_of_sound (u := u) (s := ⟨0, none⟩) h.1
  rw [scanPayload, hloop]
  show (if _ then _ else _) = _
  rw [if_neg h.2]
  cases hlast : (bodies 0 (unpackAll payload).1).getLast? <;> simp [payloadCommand, hlast]

/-- A payload that does not decode throws. -/
theorem scanPayload_of_not_decodes {payload : Bytes} (h : ¬ Decodes payload) :
    ∃ e, scanPayload u payload = .error e := by
  by_cases hsound : SoundFrom 0 (unpackAll payload).1
  · have hending : (unpackAll payload).2 = .malformed := by
      by_contra hne
      exact h ⟨hsound, hne⟩
    obtain ⟨type, hloop⟩ := foldlM_next_of_sound (u := u) (s := ⟨0, none⟩) hsound
    refine ⟨.unpackError, ?_⟩
    rw [scanPayload, hloop]
    show (if _ then _ else _) = _
    rw [if_pos hending]
  · obtain ⟨e, hloop⟩ := foldlM_next_of_not_sound (u := u) (s := ⟨0, none⟩) hsound
    refine ⟨e, ?_⟩
    rw [scanPayload, hloop]
    rfl

end Liangshi
