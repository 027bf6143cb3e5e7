import Liangshi.MessagePack.Convert

/-!
# How many bytes an object takes

Every object takes at least as many bytes as the raw bytes and the items in it: what is decoded from
a buffer is never longer than the buffer.  Data that is nested in a record is shorter than the record.
-/

namespace MessagePack

open Wire

mutual

/-- A byte for every object and for every raw byte in an object. -/
def Obj.span : Obj → Nat
  | .raw bytes => 1 + bytes.length
  | .array items => 1 + spans items
  | .map entries => 1 + spans entries
  | .nil | .boolean _ | .posInt _ | .negInt _ | .double _ => 1

/-- The span of the objects of a list. -/
def spans : List Obj → Nat
  | [] => 0
  | item :: items => Obj.span item + spans items

end

/-- No object spans more than its list. -/
lemma span_le_spans {item : Obj} {items : List Obj} (h : item ∈ items) :
    item.span ≤ spans items := by
  induction items with
  | nil => cases h
  | cons head items ih =>
    rw [spans]
    rcases List.mem_cons.mp h with rfl | h
    · omega
    · have hle := ih h
      omega

/-- An object spans a byte or more. -/
lemma span_pos (o : Obj) : 1 ≤ o.span := by
  cases o <;> simp only [Obj.span] <;> omega

/-- A list has no more items than its span. -/
lemma length_le_spans (items : List Obj) : items.length ≤ spans items := by
  induction items with
  | nil => exact Nat.le_refl 0
  | cons item items ih =>
    have hpos := span_pos item
    rw [spans, List.length_cons]
    omega

/-- A decoder whose values are no longer than what it reads. -/
def Spanning {α : Type} (size : α → Nat) (decoder : Decoder α) : Prop :=
  ∀ bytes value rest, decoder bytes = .done value rest → size value + rest.length ≤ bytes.length

/-! ## Decoders -/

section Decoders

variable {α β : Type} {size : α → Nat} {decoder : Decoder α}

/-- A value of another size may be made of a decoded one. -/
lemma Spanning.map (h : Spanning size decoder) {size' : β → Nat} {f : α → β}
    (hsize : ∀ a, size' (f a) ≤ size a) :
    Spanning size' fun bytes => (decoder bytes).map f := by
  intro bytes value rest hdone
  obtain ⟨a, ha, rfl⟩ := Outcome.map_eq_done.mp hdone
  have hle := h bytes a rest ha
  have hf := hsize a
  omega

/-- Reading bytes gives as many as were read. -/
lemma takeBytes_spanning (n : Nat) : Spanning List.length (takeBytes n) := by
  intro bytes value rest h
  unfold takeBytes at h
  split at h
  · cases h
    simp only [List.length_take, List.length_drop]
    omega
  · cases h

/-- Decoding many values gives no more than was read. -/
lemma decodeMany_spanning {decoder : Decoder Obj} (h : Spanning Obj.span decoder) (n : Nat) :
    Spanning spans (decodeMany decoder n) := by
  induction n with
  | zero =>
    intro bytes value rest hdone
    cases hdone
    simp [spans]
  | succ n ih =>
    intro bytes value rest hdone
    obtain ⟨a, mid, ha, hmid⟩ := Outcome.bind_eq_done.mp hdone
    obtain ⟨values, hvalues, rfl⟩ := Outcome.map_eq_done.mp hmid
    have hfirst := h bytes a mid ha
    have hrest := ih mid values rest hvalues
    rw [spans]
    omega

/-- The size of an object, its header byte aside. -/
abbrev bodySpan (o : Obj) : Nat := o.span - 1

/-- The items of a container are no longer than what was read. -/
lemma decodeContainer_spanning {inner : Option (Decoder Obj)}
    (hinner : ∀ decoder ∈ inner, Spanning Obj.span decoder) {wrap : List Obj → Obj}
    (hwrap : ∀ items, bodySpan (wrap items) ≤ spans items) (count : Nat) :
    Spanning bodySpan (decodeContainer inner wrap count) := by
  cases inner with
  | none => intro bytes value rest h; cases h
  | some decoder => exact (decodeMany_spanning (hinner decoder rfl) count).map hwrap

/-- After a shrinking decoder, a decoder keeps its values within what is read. -/
lemma Spanning.after {first : Decoder β} (hfirst : Shrinking first) {next : β → Decoder α}
    (hnext : ∀ b, Spanning size (next b)) :
    Spanning size fun bytes => (first bytes).bind next := by
  intro bytes value rest h
  obtain ⟨b, mid, hb, hmid⟩ := Outcome.bind_eq_done.mp h
  have hle := hfirst bytes b mid hb
  have hspan := hnext b mid value rest hmid
  omega

/-- A number takes no byte beside its header. -/
lemma takeNat_spanning {width : Nat} {f : Nat → Obj} (hf : ∀ n, bodySpan (f n) = 0) :
    Spanning bodySpan fun bytes => (takeNat width bytes).map f := by
  intro bytes value rest h
  obtain ⟨n, hn, rfl⟩ := Outcome.map_eq_done.mp h
  have hle := takeNat_shrinking width bytes n rest hn
  rw [hf n]
  omega

end Decoders

/-- An object that is its own header takes one byte. -/
lemma span_of_ofByte {byte : UInt8} {value : Obj} (h : Head.ofByte byte = .object value) :
    value.span = 1 := by
  unfold Head.ofByte at h
  dsimp only at h
  split_ifs at h
  · cases h
    rfl
  · cases h
    rfl
  · split at h <;> cases h <;> rfl

/-- The object of a signed number takes no byte beside its header. -/
lemma bodySpan_ofSigned (width n : Nat) : bodySpan (.ofSigned width n) = 0 := by
  unfold Obj.ofSigned
  split_ifs <;> rfl

/-- What a header byte announces is no longer than the bytes after it. -/
lemma decodeBody_spanning {inner : Option (Decoder Obj)}
    (hinner : ∀ decoder ∈ inner, Spanning Obj.span decoder) (byte : UInt8) :
    Spanning bodySpan (decodeBody inner (Head.ofByte byte)) := by
  have harray : ∀ items, bodySpan (.array items) ≤ spans items := fun items => by
    simp [bodySpan, Obj.span]
  have hmap : ∀ items, bodySpan (.map items) ≤ spans items := fun items => by
    simp [bodySpan, Obj.span]
  have hraw : ∀ bytes : Bytes, bodySpan (.raw bytes) ≤ bytes.length := fun bytes => by
    simp [bodySpan, Obj.span]
  cases hhead : Head.ofByte byte with
  | object value =>
    intro bytes o rest h
    cases h
    have hone := span_of_ofByte hhead
    simp only [bodySpan]
    omega
  | single => exact takeNat_spanning fun _ => rfl
  | double => exact takeNat_spanning fun _ => rfl
  | unsigned width => exact takeNat_spanning fun _ => rfl
  | signed width => exact takeNat_spanning (bodySpan_ofSigned width)
  | fixRaw length => exact (takeBytes_spanning length).map hraw
  | raw width => exact .after (takeNat_shrinking width) fun n => (takeBytes_spanning n).map hraw
  | fixArray count => exact decodeContainer_spanning hinner harray count
  | array width =>
    exact .after (takeNat_shrinking width) fun n => decodeContainer_spanning hinner harray n
  | fixMap count => exact decodeContainer_spanning hinner hmap _
  | map width =>
    exact .after (takeNat_shrinking width) fun n => decodeContainer_spanning hinner hmap _
  | reserved => intro bytes value rest h; cases h

/-- An object takes its header byte and what it announces. -/
lemma decodeWith_spanning {inner : Option (Decoder Obj)}
    (hinner : ∀ decoder ∈ inner, Spanning Obj.span decoder) :
    Spanning Obj.span (decodeWith inner) := by
  intro bytes value rest h
  cases bytes with
  | nil => cases h
  | cons byte bytes =>
    have hle := decodeBody_spanning hinner byte bytes value rest h
    have hpos := span_pos value
    simp only [bodySpan] at hle
    rw [List.length_cons]
    omega

/-- An object takes at least its span, at every depth. -/
lemma decodeObject_spanning (depth : Nat) : Spanning Obj.span (decodeObject depth) := by
  induction depth with
  | zero => exact decodeWith_spanning (by simp)
  | succ depth ih => exact decodeWith_spanning (by simpa using ih)

/-! ## Buffers -/

/-- The object of a buffer spans no more than the buffer. -/
lemma span_le_of_unpackOne {bytes : Bytes} {o : Obj} (h : unpackOne bytes = some o) :
    o.span ≤ bytes.length := by
  unfold unpackOne at h
  split at h
  · rename_i value rest hdecode
    cases h
    have hle := decodeObject_spanning embedStackSize bytes o rest hdecode
    omega
  · cases h
  · cases h

/-- The objects of a buffer span no more than the buffer. -/
lemma spans_unpackAll_le (bytes : Bytes) : spans (unpackAll bytes).1 ≤ bytes.length := by
  have hfuel : ∀ fuel bytes, spans (unpackFuel fuel bytes).1 ≤ bytes.length := by
    intro fuel
    induction fuel with
    | zero => intro bytes; cases bytes <;> simp [unpackFuel, spans]
    | succ fuel ih =>
      intro bytes
      cases bytes with
      | nil => simp [unpackFuel, spans]
      | cons byte bytes =>
        unfold unpackFuel
        cases hdecode : decode (byte :: bytes) with
        | done value rest =>
          have hle := decodeObject_spanning embedStackSize _ value rest hdecode
          have hrest := ih rest
          simp only [spans]
          omega
        | incomplete => simp [spans]
        | malformed => simp [spans]
  exact hfuel bytes.length bytes

/-- A raw object of a buffer is shorter than the buffer. -/
lemma length_lt_of_mem_unpackAll {bytes raw : Bytes} (h : .raw raw ∈ (unpackAll bytes).1) :
    raw.length < bytes.length := by
  have hitem := span_le_spans h
  have hle := spans_unpackAll_le bytes
  rw [Obj.span] at hitem
  omega

end MessagePack
