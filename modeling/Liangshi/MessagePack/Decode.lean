import Liangshi.MessagePack.Object

/-!
# Decoding MessagePack

The incremental decoder of the C++ library as a total function.  A decoder reads a value off the
front of a byte string: it is `done` with the bytes it left, `incomplete` when the bytes end
inside the value, or `malformed` at a reserved header byte or a container nested too deeply.

`decodeObject depth` reads one object with at most `depth` nested containers; `decode` uses the
library's stack of `embedStackSize` containers.  `unpackAll` is the streaming unpacker: the
objects a buffer holds and how the scan ended.  `unpackOne` is the one-object entry point, which
fails on an empty, truncated or malformed buffer and ignores bytes after the object.
-/

namespace MessagePack

open Wire

/-! ## Decoder outcomes -/

/-- The outcome of a decoder. -/
inductive Outcome (α : Type) where
  | done (value : α) (rest : Bytes)
  | incomplete
  | malformed

/-- A decoder reads a value off the front of a byte string. -/
abbrev Decoder (α : Type) := Bytes → Outcome α

namespace Outcome

variable {α β : Type}

/-- Continue decoding after a value. -/
def bind (o : Outcome α) (f : α → Decoder β) : Outcome β :=
  match o with
  | done value rest => f value rest
  | incomplete => incomplete
  | malformed => malformed

/-- Transform a decoded value. -/
def map (f : α → β) (o : Outcome α) : Outcome β :=
  o.bind fun value rest => done (f value) rest

/-- A value that has been read is handed on. -/
@[simp] lemma bind_done (value : α) (rest : Bytes) (f : α → Decoder β) :
    (done value rest).bind f = f value rest := rfl

/-- A value that has been read is changed. -/
@[simp] lemma map_done (value : α) (rest : Bytes) (f : α → β) :
    (done value rest).map f = done (f value) rest := rfl

/-- A successful `bind` decodes both parts. -/
lemma bind_eq_done {o : Outcome α} {f : α → Decoder β} {b : β} {rest : Bytes} :
    o.bind f = done b rest ↔ ∃ a mid, o = done a mid ∧ f a mid = done b rest := by
  cases o <;> simp [bind]

/-- A successful `map` transforms a decoded value. -/
lemma map_eq_done {o : Outcome α} {f : α → β} {b : β} {rest : Bytes} :
    o.map f = done b rest ↔ ∃ a, o = done a rest ∧ f a = b := by
  cases o <;> simp [map, bind, and_comm]

end Outcome

/-! ## Primitive decoders -/

/-- Read `n` bytes. -/
def takeBytes (n : Nat) : Decoder Bytes := fun bytes =>
  if n ≤ bytes.length then .done (bytes.take n) (bytes.drop n) else .incomplete

/-- Read a `width`-byte big-endian number. -/
def takeNat (width : Nat) : Decoder Nat := fun bytes =>
  (takeBytes width bytes).map ofBigEndian

/-- Run a decoder `n` times. -/
def decodeMany {α : Type} (decoder : Decoder α) : Nat → Decoder (List α)
  | 0, bytes => .done [] bytes
  | n + 1, bytes =>
    (decoder bytes).bind fun value rest =>
      (decodeMany decoder n rest).map fun values => value :: values

/-- Exactly the bytes in front are read. -/
lemma takeBytes_append {front rest : Bytes} {n : Nat} (h : front.length = n) :
    takeBytes n (front ++ rest) = .done front rest := by
  subst h
  simp [takeBytes]

/-- A number is read back from its big-endian bytes. -/
lemma takeNat_bigEndian {width n : Nat} (rest : Bytes) (h : n < 256 ^ width) :
    takeNat width (bigEndian width n ++ rest) = .done n rest := by
  rw [takeNat, takeBytes_append (length_bigEndian width n), Outcome.map_done,
    ofBigEndian_bigEndian h]

/-! ## Objects -/

/-- What a header byte announces: a complete object, a number, raw bytes or a container, the
last two with their length or with the width of the length that follows. -/
inductive Head where
  | object (value : Obj)
  | single
  | double
  | unsigned (width : Nat)
  | signed (width : Nat)
  | fixRaw (length : Nat)
  | raw (width : Nat)
  | fixArray (count : Nat)
  | array (width : Nat)
  | fixMap (count : Nat)
  | map (width : Nat)
  | reserved

/-- The header switch of the unpacking template. -/
def Head.ofByte (byte : UInt8) : Head :=
  let b := byte.toNat
  if b ≤ 0x7f then .object (.posInt b)
  else if 0xe0 ≤ b then .object (.negInt ((b : Int) - 256))
  else if b ≤ 0x8f then .fixMap (b - 0x80)
  else if b ≤ 0x9f then .fixArray (b - 0x90)
  else if b ≤ 0xbf then .fixRaw (b - 0xa0)
  else match b with
    | 0xc0 => .object .nil
    | 0xc2 => .object (.boolean false)
    | 0xc3 => .object (.boolean true)
    | 0xca => .single
    | 0xcb => .double
    | 0xcc => .unsigned 1
    | 0xcd => .unsigned 2
    | 0xce => .unsigned 4
    | 0xcf => .unsigned 8
    | 0xd0 => .signed 1
    | 0xd1 => .signed 2
    | 0xd2 => .signed 4
    | 0xd3 => .signed 8
    | 0xda => .raw 2
    | 0xdb => .raw 4
    | 0xdc => .array 2
    | 0xdd => .array 4
    | 0xde => .map 2
    | 0xdf => .map 4
    | _ => .reserved

/-- Read the `count` objects of a container with the decoder for one level less of nesting.
There is none when the stack of open containers is full, and then even an empty container is
malformed. -/
def decodeContainer (inner : Option (Decoder Obj)) (wrap : List Obj → Obj) (count : Nat) :
    Decoder Obj := fun bytes =>
  match inner with
  | none => .malformed
  | some decoder => (decodeMany decoder count bytes).map wrap

/-- Read what a header byte announces. -/
def decodeBody (inner : Option (Decoder Obj)) : Head → Decoder Obj
  | .object value, bytes => .done value bytes
  | .single, bytes => (takeNat 4 bytes).map fun n => .double (widenSingle n)
  | .double, bytes => (takeNat 8 bytes).map fun n => .double (UInt64.ofNat n)
  | .unsigned width, bytes => (takeNat width bytes).map .posInt
  | .signed width, bytes => (takeNat width bytes).map (.ofSigned width)
  | .fixRaw length, bytes => (takeBytes length bytes).map .raw
  | .raw width, bytes =>
    (takeNat width bytes).bind fun length rest => (takeBytes length rest).map .raw
  | .fixArray count, bytes => decodeContainer inner .array count bytes
  | .array width, bytes => (takeNat width bytes).bind (decodeContainer inner .array)
  | .fixMap count, bytes => decodeContainer inner .map (2 * count) bytes
  | .map width, bytes =>
    (takeNat width bytes).bind fun count => decodeContainer inner .map (2 * count)
  | .reserved, _ => .malformed

/-- Read one object whose containers the given decoder reads the items of. -/
def decodeWith (inner : Option (Decoder Obj)) : Decoder Obj
  | [] => .incomplete
  | byte :: bytes => decodeBody inner (Head.ofByte byte) bytes

/-- Read one object with at most `depth` nested containers. -/
def decodeObject : Nat → Decoder Obj
  | 0 => decodeWith none
  | depth + 1 => decodeWith (some (decodeObject depth))

/-- The number of containers the library's parser can have open. -/
def embedStackSize : Nat := 32

/-- Read one object as the library does. -/
def decode : Decoder Obj := decodeObject embedStackSize
/-! ## Consumption -/

/-- A decoder that never gives back more bytes than it was given. -/
def Shrinking {α : Type} (decoder : Decoder α) : Prop :=
  ∀ bytes value rest, decoder bytes = .done value rest → rest.length ≤ bytes.length

/-- Reading bytes shrinks the input. -/
lemma takeBytes_shrinking (n : Nat) : Shrinking (takeBytes n) := by
  intro bytes value rest h
  unfold takeBytes at h
  split at h
  · obtain ⟨rfl, rfl⟩ := by simpa using h
    simp
  · cases h

/-- Reading a number shrinks the input. -/
lemma takeNat_shrinking (width : Nat) : Shrinking (takeNat width) := by
  intro bytes value rest h
  obtain ⟨front, hfront, rfl⟩ := Outcome.map_eq_done.mp h
  exact takeBytes_shrinking width bytes front rest hfront

/-- Transforming the value keeps a decoder shrinking. -/
lemma Shrinking.map {α β : Type} {decoder : Decoder α} (hd : Shrinking decoder) (f : α → β) :
    Shrinking fun bytes => (decoder bytes).map f := by
  intro bytes value rest h
  obtain ⟨a, ha, rfl⟩ := Outcome.map_eq_done.mp h
  exact hd bytes a rest ha

/-- Running shrinking decoders one after the other shrinks the input. -/
lemma Shrinking.bind {α β : Type} {decoder : Decoder α} (hd : Shrinking decoder)
    {next : α → Decoder β} (hn : ∀ a, Shrinking (next a)) :
    Shrinking fun bytes => (decoder bytes).bind next := by
  intro bytes value rest h
  obtain ⟨a, mid, ha, hmid⟩ := Outcome.bind_eq_done.mp h
  exact le_trans (hn a mid value rest hmid) (hd bytes a mid ha)

/-- Repeating a shrinking decoder shrinks the input. -/
lemma decodeMany_shrinking {α : Type} {decoder : Decoder α} (hd : Shrinking decoder) (n : Nat) :
    Shrinking (decodeMany decoder n) := by
  induction n with
  | zero =>
    intro bytes value rest h
    cases h
    exact le_rfl
  | succ n ih => exact hd.bind fun a => ih.map _

/-- The items of a container shrink the input. -/
lemma decodeContainer_shrinking {inner : Option (Decoder Obj)}
    (hinner : ∀ decoder ∈ inner, Shrinking decoder) (wrap : List Obj → Obj) (count : Nat) :
    Shrinking (decodeContainer inner wrap count) := by
  cases inner with
  | none => intro bytes value rest h; cases h
  | some decoder => exact (decodeMany_shrinking (hinner decoder rfl) count).map wrap

/-- What follows a header byte shrinks the input. -/
lemma decodeBody_shrinking {inner : Option (Decoder Obj)}
    (hinner : ∀ decoder ∈ inner, Shrinking decoder) (head : Head) :
    Shrinking (decodeBody inner head) := by
  cases head with
  | object value => intro bytes value rest h; cases h; exact le_rfl
  | single => exact (takeNat_shrinking 4).map _
  | double => exact (takeNat_shrinking 8).map _
  | unsigned width => exact (takeNat_shrinking width).map _
  | signed width => exact (takeNat_shrinking width).map _
  | fixRaw length => exact (takeBytes_shrinking length).map _
  | raw width => exact (takeNat_shrinking width).bind fun n => (takeBytes_shrinking n).map _
  | fixArray count => exact decodeContainer_shrinking hinner _ _
  | array width =>
    exact (takeNat_shrinking width).bind fun n => decodeContainer_shrinking hinner _ _
  | fixMap count => exact decodeContainer_shrinking hinner _ _
  | map width =>
    exact (takeNat_shrinking width).bind fun n => decodeContainer_shrinking hinner _ _
  | reserved => intro bytes value rest h; cases h

/-- An object takes at least its header byte. -/
lemma decodeWith_length_lt {inner : Option (Decoder Obj)}
    (hinner : ∀ decoder ∈ inner, Shrinking decoder) {bytes rest : Bytes} {value : Obj}
    (h : decodeWith inner bytes = .done value rest) : rest.length < bytes.length := by
  cases bytes with
  | nil => cases h
  | cons byte bytes =>
    have hle := decodeBody_shrinking hinner _ bytes value rest h
    simpa using Nat.lt_succ_of_le hle

/-- Reading an object shrinks the input, at every depth. -/
lemma decodeObject_shrinking (depth : Nat) : Shrinking (decodeObject depth) := by
  induction depth with
  | zero =>
    intro bytes value rest h
    exact (decodeWith_length_lt (by simp) h).le
  | succ depth ih =>
    intro bytes value rest h
    have hinner : ∀ decoder ∈ some (decodeObject depth), Shrinking decoder := by simpa using ih
    exact (decodeWith_length_lt hinner h).le

/-- Reading an object consumes at least one byte. -/
lemma decode_length_lt {bytes rest : Bytes} {value : Obj} (h : decode bytes = .done value rest) :
    rest.length < bytes.length :=
  decodeWith_length_lt (by simpa using decodeObject_shrinking 31) h

/-! ## Buffers -/

/-- How the scan of a buffer ended: at its end, inside an object or at a malformed one. -/
inductive Ending where
  | finished
  | truncated
  | malformed
deriving DecidableEq

/-- Read the objects of a buffer, at most `fuel` of them. -/
def unpackFuel : Nat → Bytes → List Obj × Ending
  | _, [] => ([], .finished)
  | 0, _ :: _ => ([], .truncated)
  | fuel + 1, byte :: bytes =>
    match decode (byte :: bytes) with
    | .done value rest =>
      let tail := unpackFuel fuel rest
      (value :: tail.1, tail.2)
    | .incomplete => ([], .truncated)
    | .malformed => ([], .malformed)

/-- Read all the objects of a buffer. -/
def unpackAll (bytes : Bytes) : List Obj × Ending :=
  unpackFuel bytes.length bytes

/-- Read the one object of a buffer, whatever follows it. -/
def unpackOne (bytes : Bytes) : Option Obj :=
  match decode bytes with
  | .done value _ => some value
  | .incomplete => none
  | .malformed => none

/-- Fuel for every byte of the buffer is fuel enough. -/
lemma unpackFuel_eq {fuel fuel' : Nat} {bytes : Bytes} (h : bytes.length ≤ fuel)
    (h' : bytes.length ≤ fuel') : unpackFuel fuel bytes = unpackFuel fuel' bytes := by
  induction fuel generalizing fuel' bytes with
  | zero =>
    obtain rfl := List.length_eq_zero_iff.mp (Nat.le_zero.mp h)
    simp [unpackFuel]
  | succ fuel ih =>
    cases bytes with
    | nil => simp [unpackFuel]
    | cons byte bytes =>
      obtain ⟨fuel', rfl⟩ := Nat.exists_eq_succ_of_ne_zero
        (show fuel' ≠ 0 by simp at h'; omega)
      unfold unpackFuel
      cases hdecode : decode (byte :: bytes) with
      | done value rest =>
        have hlt := decode_length_lt hdecode
        simp only [List.length_cons] at h h' hlt
        have htail : unpackFuel fuel rest = unpackFuel fuel' rest := ih (by omega) (by omega)
        simp only [htail]
      | incomplete => rfl
      | malformed => rfl

/-- There is nothing in no bytes. -/
@[simp] lemma unpackAll_nil : unpackAll [] = ([], .finished) := rfl

/-- A buffer that starts with an object yields it first. -/
lemma unpackAll_of_decode {bytes rest : Bytes} {value : Obj}
    (h : decode bytes = .done value rest) :
    unpackAll bytes = (value :: (unpackAll rest).1, (unpackAll rest).2) := by
  cases bytes with
  | nil => cases h
  | cons byte bytes =>
    have hlt := decode_length_lt h
    have hfuel : unpackFuel bytes.length rest = unpackAll rest :=
      unpackFuel_eq (by simp only [List.length_cons] at hlt; omega) le_rfl
    simp only [unpackAll, List.length_cons, unpackFuel, h]
    rw [hfuel]
    rfl

end MessagePack
