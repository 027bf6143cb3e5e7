import Liangshi.Shared.PayloadScan

/-!
# Schemas of command records

Which records convert, in terms of the kinds of their items alone.  `CommandType.schema` lists the
fields of each command; `LokiCommand.convert_isSome` says that a record converts exactly when it
is an array whose items, as far as they go, are of the kinds of the fields in their places.  A
record with fewer items than fields converts too: the missing fields keep what the constructor
left in them.
-/

namespace Liangshi

open Wire MessagePack

/-! ## Kinds of items -/

/-- A predicate deciding which objects a field can be converted from. -/
abbrev ItemKind := Obj → Bool

namespace ItemKind

/-- A 32-bit integer. -/
def int : ItemKind
  | .posInt n => decide (n < 2 ^ 31)
  | .negInt i => decide (-2 ^ 31 ≤ i)
  | _ => false

/-- A signed character. -/
def char : ItemKind
  | .posInt n => decide (n < 2 ^ 7)
  | .negInt i => decide (-2 ^ 7 ≤ i)
  | _ => false

/-- A boolean. -/
def bool : ItemKind
  | .boolean _ => true
  | _ => false

/-- A string. -/
def string : ItemKind
  | .raw _ => true
  | _ => false

/-- A vector of items of one kind. -/
def vector (kind : ItemKind) : ItemKind
  | .array objs => objs.all kind
  | _ => false

/-- A record with fields of the given kinds, the last ones of which may be missing. -/
def record (kinds : List ItemKind) : ItemKind
  | .array objs => (kinds.zip objs).all fun p => p.1 p.2
  | _ => false

/-- A `LokiBuffer`. -/
def buffer : ItemKind := record [vector char]

/-- A `LokiFriend`. -/
def friend : ItemKind := record [int, int, string, string, string]

end ItemKind

open ItemKind in
/-- The kinds of the fields of each command. -/
def CommandType.schema : CommandType → List ItemKind
  | .login => [int, int, string, string, string, string, bool]
  | .chat => [int, int, string]
  | .getFriendList => [vector friend]
  | .boradLogin => [string, bool, bool, string, bool, bool, bool, string, string]
  | .hadesData => [string, string, string, string, buffer]
  | .boardData => [string, buffer]
  | .applyBoard => [string, string, bool, bool, string]
  | .takeBoard => [string]
  | .serverNotifyRelogin => [int, string]
  | .serverNotifyLostConnection => [int, string]

/-! ## Codecs and kinds -/

/-- A codec converts exactly the objects of a kind. -/
def Converts {α : Type} (c : Codec α) (kind : ItemKind) : Prop :=
  ∀ o, (c.convert o).isSome = kind o

section Converts

variable {α β : Type}

/-- Numbers. -/
lemma converts_int : Converts Codec.int32 ItemKind.int := by
  intro o
  cases o with
  | posInt n =>
    simp only [Codec.int32, Codec.convertInteger, ItemKind.int, Option.isSome_map]
    split <;> simp <;> omega
  | negInt i =>
    simp only [Codec.int32, Codec.convertInteger, ItemKind.int, Option.isSome_map]
    split <;> simp <;> omega
  | _ => rfl

/-- Bytes. -/
lemma converts_char : Converts Codec.int8 ItemKind.char := by
  intro o
  cases o with
  | posInt n =>
    simp only [Codec.int8, Codec.convertInteger, ItemKind.char, Option.isSome_map]
    split <;> simp <;> omega
  | negInt i =>
    simp only [Codec.int8, Codec.convertInteger, ItemKind.char, Option.isSome_map]
    split <;> simp <;> omega
  | _ => rfl

/-- Truth values. -/
lemma converts_bool : Converts Codec.bool ItemKind.bool := by
  intro o
  cases o <;> rfl

/-- Strings. -/
lemma converts_string : Converts Codec.string ItemKind.string := by
  intro o
  cases o <;> rfl

/-- Converting items one by one succeeds when all are of the kind. -/
lemma Converts.mapM {c : Codec α} {kind : ItemKind} (h : Converts c kind) (objs : List Obj) :
    (objs.mapM c.convert).isSome = objs.all kind := by
  induction objs with
  | nil => rfl
  | cons o objs ih =>
    rw [List.all_cons, ← h o, ← ih, List.mapM_cons]
    cases c.convert o <;> cases objs.mapM c.convert <;> rfl

/-- Lists. -/
lemma Converts.vector {c : Codec α} {kind : ItemKind} (h : Converts c kind) :
    Converts (Codec.vector c) (ItemKind.vector kind) := by
  intro o
  cases o with
  | array objs => exact h.mapM objs
  | _ => rfl

/-- A field converts when its item, if there is one, is of the kind. -/
lemma Converts.field {c : Codec α} {kind : ItemKind} (h : Converts c kind) (objs : List Obj)
    (i : Nat) (default : α) : (c.field objs i default).isSome = (objs[i]?).all kind := by
  unfold Codec.field
  cases objs[i]? with
  | none => rfl
  | some o => exact h o

/-- A test that ignores the value asks whether there is one. -/
lemma any_const (x : Option α) (b : Bool) : (x.any fun _ => b) = (x.isSome && b) := by
  cases x <;> rfl

/-- The fields of a record are checked from the first on. -/
lemma record_cons (kind : ItemKind) (kinds : List ItemKind) (objs : List Obj) :
    ((kind :: kinds).zip objs).all (fun p => p.1 p.2) =
      ((objs[0]?).all kind && (kinds.zip objs.tail).all fun p => p.1 p.2) := by
  cases objs <;> simp

/-- Items behind the first are counted from it. -/
lemma getElem?_tail (objs : List Obj) (i : Nat) : objs.tail[i]? = objs[i + 1]? := by
  cases objs <;> simp

end Converts

/-- Buffers. -/
lemma converts_buffer : Converts LokiBuffer.codec ItemKind.buffer := by
  intro o
  cases o with
  | array objs =>
    simp only [LokiBuffer.codec, ItemKind.buffer, ItemKind.record, Codec.items_array, record_cons,
      List.zip_nil_left, List.all_nil, Option.bind_eq_bind, Option.bind_some, Option.isSome_bind,
      any_const, converts_char.vector.field, Option.pure_def, Option.isSome_some, Bool.and_true]
  | _ => rfl

/-- Friends. -/
lemma converts_friend : Converts LokiFriend.codec ItemKind.friend := by
  intro o
  cases o with
  | array objs =>
    simp only [LokiFriend.codec, ItemKind.friend, ItemKind.record, Codec.items_array, record_cons,
      getElem?_tail, List.zip_nil_left, List.all_nil, Option.bind_eq_bind, Option.bind_some,
      Option.isSome_bind, any_const, converts_int.field, converts_string.field, Option.pure_def,
      Option.isSome_some, Bool.and_true]
  | _ => rfl

/-- A record converts to a command exactly when its items fit the schema. -/
theorem LokiCommand.convert_isSome (u : Uninitialised) (o : Obj) (t : CommandType) :
    (convert u o t).isSome = ItemKind.record t.schema o := by
  cases o with
  | array objs =>
    cases t <;>
      simp only [convert, LoginCommand.codec, ChatCommand.codec, GetFriendListCommand.codec,
        BoardLoginCommand.codec, HadesDataCommand.codec, BoardDataCommand.codec,
        ApplyBoardCommand.codec, TakeBoardCommand.codec, ServerNotifyCommand.codec,
        CommandType.schema, ItemKind.record, Codec.items_array, record_cons, getElem?_tail,
        List.zip_nil_left, List.all_nil, Option.isSome_map, Option.bind_eq_bind, Option.bind_some,
        Option.isSome_bind, any_const, converts_int.field, converts_string.field,
        converts_bool.field, converts_buffer.field, converts_friend.vector.field, Option.pure_def,
        Option.isSome_some, Bool.and_true]
  | _ => cases t <;> rfl

end Liangshi
