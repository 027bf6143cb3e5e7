import Liangshi.MessagePack.Decode

/-!
# Encoding MessagePack

The packer of the C++ library: every integer and every length is written with the narrowest
header that holds it.  `Obj.pack` writes one object; `decode_pack` says that an object within the
format's bounds (`Obj.Packable`) is read back from its encoding, whatever bytes follow.
-/

namespace MessagePack

open Wire

/-- Write an unsigned integer with the narrowest header. -/
def packUnsigned (n : Nat) : Bytes :=
  if n < 2 ^ 7 then [UInt8.ofNat n]
  else if n < 2 ^ 8 then 0xcc :: bigEndian 1 n
  else if n < 2 ^ 16 then 0xcd :: bigEndian 2 n
  else if n < 2 ^ 32 then 0xce :: bigEndian 4 n
  else 0xcf :: bigEndian 8 n

/-- The two's complement of a negative integer in `width` bytes. -/
def twosComplement (width : Nat) (i : Int) : Nat :=
  (i + (256 ^ width : Nat)).toNat

/-- Write a negative integer with the narrowest header. -/
def packNegative (i : Int) : Bytes :=
  if -2 ^ 5 ≤ i then [UInt8.ofNat (twosComplement 1 i)]
  else if -2 ^ 7 ≤ i then 0xd0 :: bigEndian 1 (twosComplement 1 i)
  else if -2 ^ 15 ≤ i then 0xd1 :: bigEndian 2 (twosComplement 2 i)
  else if -2 ^ 31 ≤ i then 0xd2 :: bigEndian 4 (twosComplement 4 i)
  else 0xd3 :: bigEndian 8 (twosComplement 8 i)

/-- Write the header of `length` raw bytes. -/
def packRawHeader (length : Nat) : Bytes :=
  if length < 32 then [UInt8.ofNat (0xa0 + length)]
  else if length < 2 ^ 16 then 0xda :: bigEndian 2 length
  else 0xdb :: bigEndian 4 length

/-- Write the header of an array of `count` items. -/
def packArrayHeader (count : Nat) : Bytes :=
  if count < 16 then [UInt8.ofNat (0x90 + count)]
  else if count < 2 ^ 16 then 0xdc :: bigEndian 2 count
  else 0xdd :: bigEndian 4 count

/-- Write the header of a map of `count` entries. -/
def packMapHeader (count : Nat) : Bytes :=
  if count < 16 then [UInt8.ofNat (0x80 + count)]
  else if count < 2 ^ 16 then 0xde :: bigEndian 2 count
  else 0xdf :: bigEndian 4 count

mutual

/-- Write one object. -/
def Obj.pack : Obj → Bytes
  | .nil => [0xc0]
  | .boolean value => [if value then 0xc3 else 0xc2]
  | .posInt value => packUnsigned value
  | .negInt value => packNegative value
  | .double bits => 0xcb :: bigEndian 8 bits.toNat
  | .raw bytes => packRawHeader bytes.length ++ bytes
  | .array items => packArrayHeader items.length ++ packAll items
  | .map entries => packMapHeader (entries.length / 2) ++ packAll entries

/-- Write objects one after the other. -/
def packAll : List Obj → Bytes
  | [] => []
  | item :: items => item.pack ++ packAll items

end

mutual

/-- The bounds of the format: 64-bit integers, 32-bit lengths, and at most `depth` nested
containers. -/
def Obj.Packable : Nat → Obj → Prop
  | _, .nil => True
  | _, .boolean _ => True
  | _, .posInt value => value < 2 ^ 64
  | _, .negInt value => -2 ^ 63 ≤ value ∧ value < 0
  | _, .double _ => True
  | _, .raw bytes => bytes.length < 2 ^ 32
  | depth, .array items => 0 < depth ∧ items.length < 2 ^ 32 ∧ AllPackable (depth - 1) items
  | depth, .map entries =>
    0 < depth ∧ 2 ∣ entries.length ∧ entries.length < 2 ^ 33 ∧ AllPackable (depth - 1) entries

/-- Every object of a list is within the bounds. -/
def AllPackable : Nat → List Obj → Prop
  | _, [] => True
  | depth, item :: items => Obj.Packable depth item ∧ AllPackable depth items

end

/-- The bounds of a list are the bounds of its members. -/
lemma allPackable_iff {depth : Nat} {items : List Obj} :
    AllPackable depth items ↔ ∀ item ∈ items, Obj.Packable depth item := by
  induction items with
  | nil => simp [AllPackable]
  | cons item items ih => simp [AllPackable, ih]

/-- The object of a 32-bit integer is within the bounds. -/
lemma packable_ofInt {depth : Nat} {i : Int} (hlo : -2 ^ 31 ≤ i) (hhi : i < 2 ^ 31) :
    (Obj.ofInt i).Packable depth := by
  unfold Obj.ofInt
  split
  · simp only [Obj.Packable]
    omega
  · simp only [Obj.Packable]
    omega

/-! ## Reading back a header -/

section Headers

variable {inner : Option (Decoder Obj)}

/-- A header byte selects what is read next. -/
lemma decodeWith_cons (byte : UInt8) (bytes : Bytes) :
    decodeWith inner (byte :: bytes) = decodeBody inner (Head.ofByte byte) bytes := rfl

/-- A short non-negative integer is its own header. -/
lemma ofByte_fixPositive {n : Nat} (h : n < 128) :
    Head.ofByte (UInt8.ofNat n) = .object (.posInt n) := by
  have hn : (UInt8.ofNat n).toNat = n := by rw [UInt8.toNat_ofNat']; omega
  simp only [Head.ofByte, hn]
  rw [if_pos (by omega)]

/-- A short negative integer is its own header. -/
lemma ofByte_fixNegative {i : Int} (hlo : -32 ≤ i) (hhi : i < 0) :
    Head.ofByte (UInt8.ofNat (twosComplement 1 i)) = .object (.negInt i) := by
  have hn : (UInt8.ofNat (twosComplement 1 i)).toNat = (i + 256).toNat := by
    rw [UInt8.toNat_ofNat', twosComplement]
    omega
  simp only [Head.ofByte, hn]
  rw [if_neg (by omega), if_pos (by omega)]
  congr 2
  omega

/-- A short map announces its count in the header. -/
lemma ofByte_fixMap {n : Nat} (h : n < 16) :
    Head.ofByte (UInt8.ofNat (0x80 + n)) = .fixMap n := by
  have hn : (UInt8.ofNat (0x80 + n)).toNat = 0x80 + n := by rw [UInt8.toNat_ofNat']; omega
  simp only [Head.ofByte, hn]
  rw [if_neg (by omega), if_neg (by omega), if_pos (by omega), Nat.add_sub_cancel_left]

/-- A short array announces its count in the header. -/
lemma ofByte_fixArray {n : Nat} (h : n < 16) :
    Head.ofByte (UInt8.ofNat (0x90 + n)) = .fixArray n := by
  have hn : (UInt8.ofNat (0x90 + n)).toNat = 0x90 + n := by rw [UInt8.toNat_ofNat']; omega
  simp only [Head.ofByte, hn]
  rw [if_neg (by omega), if_neg (by omega), if_neg (by omega), if_pos (by omega),
    Nat.add_sub_cancel_left]

/-- Short raw bytes announce their length in the header. -/
lemma ofByte_fixRaw {n : Nat} (h : n < 32) :
    Head.ofByte (UInt8.ofNat (0xa0 + n)) = .fixRaw n := by
  have hn : (UInt8.ofNat (0xa0 + n)).toNat = 0xa0 + n := by rw [UInt8.toNat_ofNat']; omega
  simp only [Head.ofByte, hn]
  rw [if_neg (by omega), if_neg (by omega), if_neg (by omega), if_neg (by omega),
    if_pos (by omega), Nat.add_sub_cancel_left]

/-- A number after its header is read back. -/
lemma decodeWith_unsigned {byte : UInt8} {width n : Nat} (rest : Bytes)
    (hbyte : Head.ofByte byte = .unsigned width) (h : n < 256 ^ width) :
    decodeWith inner (byte :: bigEndian width n ++ rest) = .done (.posInt n) rest := by
  rw [List.cons_append, decodeWith_cons, hbyte, decodeBody, takeNat_bigEndian rest h,
    Outcome.map_done]

/-- A negative number after its header is read back. -/
lemma decodeWith_signed {byte : UInt8} {width : Nat} {i : Int} (rest : Bytes)
    (hbyte : Head.ofByte byte = .signed width) (hneg : i < 0)
    (h : -(256 ^ width : Nat) ≤ 2 * i) :
    decodeWith inner (byte :: bigEndian width (twosComplement width i) ++ rest) =
      .done (.negInt i) rest := by
  have hlt : twosComplement width i < 256 ^ width := by
    unfold twosComplement
    omega
  rw [List.cons_append, decodeWith_cons, hbyte, decodeBody, takeNat_bigEndian rest hlt,
    Outcome.map_done, Obj.ofSigned, twosComplement, if_neg (by omega)]
  congr 2
  omega

/-- An unsigned integer is read back. -/
lemma decodeWith_packUnsigned {n : Nat} (h : n < 2 ^ 64) (rest : Bytes) :
    decodeWith inner (packUnsigned n ++ rest) = .done (.posInt n) rest := by
  unfold packUnsigned
  split_ifs with h7 h8 h16 h32
  · rw [List.singleton_append, decodeWith_cons, ofByte_fixPositive h7, decodeBody]
  · exact decodeWith_unsigned rest rfl h8
  · exact decodeWith_unsigned rest rfl h16
  · exact decodeWith_unsigned rest rfl h32
  · exact decodeWith_unsigned rest rfl h

/-- A negative integer is read back. -/
lemma decodeWith_packNegative {i : Int} (hlo : -2 ^ 63 ≤ i) (hhi : i < 0) (rest : Bytes) :
    decodeWith inner (packNegative i ++ rest) = .done (.negInt i) rest := by
  unfold packNegative
  split_ifs with h5 h7 h15 h31
  · rw [List.singleton_append, decodeWith_cons, ofByte_fixNegative h5 hhi, decodeBody]
  · exact decodeWith_signed rest rfl hhi (by omega)
  · exact decodeWith_signed rest rfl hhi (by omega)
  · exact decodeWith_signed rest rfl hhi (by omega)
  · exact decodeWith_signed rest rfl hhi (by omega)

/-- Raw bytes are read back. -/
lemma decodeWith_packRaw {bytes : Bytes} (h : bytes.length < 2 ^ 32) (rest : Bytes) :
    decodeWith inner (packRawHeader bytes.length ++ bytes ++ rest) = .done (.raw bytes) rest := by
  unfold packRawHeader
  rw [List.append_assoc]
  split_ifs with h5 h16
  · rw [List.singleton_append, decodeWith_cons, ofByte_fixRaw h5, decodeBody,
      takeBytes_append rfl, Outcome.map_done]
  · rw [List.cons_append, decodeWith_cons, show Head.ofByte 0xda = .raw 2 from rfl, decodeBody,
      takeNat_bigEndian _ (by exact h16), Outcome.bind_done, takeBytes_append rfl, Outcome.map_done]
  · rw [List.cons_append, decodeWith_cons, show Head.ofByte 0xdb = .raw 4 from rfl, decodeBody,
      takeNat_bigEndian _ (by exact h), Outcome.bind_done, takeBytes_append rfl, Outcome.map_done]

/-- An array header hands its count to the container decoder. -/
lemma decodeWith_packArrayHeader {count : Nat} (h : count < 2 ^ 32) (bytes : Bytes) :
    decodeWith inner (packArrayHeader count ++ bytes) =
      decodeContainer inner .array count bytes := by
  unfold packArrayHeader
  split_ifs with h4 h16
  · rw [List.singleton_append, decodeWith_cons, ofByte_fixArray h4, decodeBody]
  · rw [List.cons_append, decodeWith_cons, show Head.ofByte 0xdc = .array 2 from rfl, decodeBody,
      takeNat_bigEndian _ (by exact h16), Outcome.bind_done]
  · rw [List.cons_append, decodeWith_cons, show Head.ofByte 0xdd = .array 4 from rfl, decodeBody,
      takeNat_bigEndian _ (by exact h), Outcome.bind_done]

/-- A map header hands its count to the container decoder. -/
lemma decodeWith_packMapHeader {count : Nat} (h : count < 2 ^ 32) (bytes : Bytes) :
    decodeWith inner (packMapHeader count ++ bytes) =
      decodeContainer inner .map (2 * count) bytes := by
  unfold packMapHeader
  split_ifs with h4 h16
  · rw [List.singleton_append, decodeWith_cons, ofByte_fixMap h4, decodeBody]
  · rw [List.cons_append, decodeWith_cons, show Head.ofByte 0xde = .map 2 from rfl, decodeBody,
      takeNat_bigEndian _ (by exact h16), Outcome.bind_done]
  · rw [List.cons_append, decodeWith_cons, show Head.ofByte 0xdf = .map 4 from rfl, decodeBody,
      takeNat_bigEndian _ (by exact h), Outcome.bind_done]

end Headers

/-! ## Round trips -/

/-- Items that are read back one by one are read back in sequence. -/
lemma decodeMany_packAll {decoder : Decoder Obj} {items : List Obj}
    (h : ∀ item ∈ items, ∀ rest, decoder (item.pack ++ rest) = .done item rest) (rest : Bytes) :
    decodeMany decoder items.length (packAll items ++ rest) = .done items rest := by
  induction items with
  | nil => rfl
  | cons item items ih =>
    have hitem := h item List.mem_cons_self
    have hitems := ih fun item' hmem => h item' (List.mem_cons_of_mem item hmem)
    rw [packAll, List.append_assoc, List.length_cons, decodeMany, hitem, Outcome.bind_done,
      hitems, Outcome.map_done]

/-- An object is read back when the decoder for one level less of nesting reads its items. -/
lemma decodeWith_pack {inner : Option (Decoder Obj)} {depth : Nat} {o : Obj}
    (hinner : 0 < depth → ∃ decoder, inner = some decoder ∧ ∀ item : Obj,
      item.Packable (depth - 1) → ∀ rest, decoder (item.pack ++ rest) = .done item rest)
    (h : o.Packable depth) (rest : Bytes) :
    decodeWith inner (o.pack ++ rest) = .done o rest := by
  cases o with
  | nil => rfl
  | boolean value => cases value <;> rfl
  | posInt value => exact decodeWith_packUnsigned h rest
  | negInt value => exact decodeWith_packNegative h.1 h.2 rest
  | double bits =>
    rw [Obj.pack, List.cons_append, decodeWith_cons, show Head.ofByte 0xcb = .double from rfl,
      decodeBody, takeNat_bigEndian rest bits.toNat_lt, Outcome.map_done, UInt64.ofNat_toNat]
  | raw bytes => exact decodeWith_packRaw h rest
  | array items =>
    obtain ⟨hdepth, hcount, hitems⟩ := h
    obtain ⟨decoder, rfl, hdecoder⟩ := hinner hdepth
    have hread : ∀ item ∈ items, ∀ rest, decoder (item.pack ++ rest) = .done item rest :=
      fun item hmem => hdecoder item (allPackable_iff.mp hitems item hmem)
    have hmany := decodeMany_packAll hread rest
    rw [Obj.pack, List.append_assoc, decodeWith_packArrayHeader hcount, decodeContainer, hmany,
      Outcome.map_done]
  | map entries =>
    obtain ⟨hdepth, heven, hcount, hentries⟩ := h
    obtain ⟨decoder, rfl, hdecoder⟩ := hinner hdepth
    have hread : ∀ item ∈ entries, ∀ rest, decoder (item.pack ++ rest) = .done item rest :=
      fun item hmem => hdecoder item (allPackable_iff.mp hentries item hmem)
    have hmany := decodeMany_packAll hread rest
    have hhalf : 2 * (entries.length / 2) = entries.length := Nat.mul_div_cancel' heven
    rw [Obj.pack, List.append_assoc, decodeWith_packMapHeader (by omega), hhalf, decodeContainer,
      hmany, Outcome.map_done]

/-- An object within the bounds is read back from its encoding. -/
theorem decodeObject_pack {depth : Nat} {o : Obj} (h : o.Packable depth) (rest : Bytes) :
    decodeObject depth (o.pack ++ rest) = .done o rest := by
  induction depth generalizing o rest with
  | zero => exact decodeWith_pack (fun hpos => absurd hpos (lt_irrefl 0)) h rest
  | succ depth ih =>
    refine decodeWith_pack (fun _ => ⟨decodeObject depth, rfl, ?_⟩) h rest
    intro item hitem
    exact ih hitem

/-- Packing and then unpacking gives the object back. -/
theorem unpackOne_pack {o : Obj} (h : o.Packable embedStackSize) (rest : Bytes) :
    unpackOne (o.pack ++ rest) = some o := by
  rw [unpackOne, decode, decodeObject_pack h rest]

/-- The streaming unpacker yields the objects that were packed. -/
theorem unpackAll_packAll {items : List Obj} (h : AllPackable embedStackSize items) :
    unpackAll (packAll items) = (items, .finished) := by
  induction items with
  | nil => rfl
  | cons item items ih =>
    rw [packAll, unpackAll_of_decode (decodeObject_pack h.1 (packAll items)), ih h.2]

/-! ## Bounds by length -/

mutual

/-- The bounds of the format other than those on lengths. -/
def Obj.Shallow : Nat → Obj → Prop
  | _, .nil => True
  | _, .boolean _ => True
  | _, .posInt value => value < 2 ^ 64
  | _, .negInt value => -2 ^ 63 ≤ value ∧ value < 0
  | _, .double _ => True
  | _, .raw _ => True
  | depth, .array items => 0 < depth ∧ AllShallow (depth - 1) items
  | depth, .map entries => 0 < depth ∧ 2 ∣ entries.length ∧ AllShallow (depth - 1) entries

/-- Every object of a list is within these bounds. -/
def AllShallow : Nat → List Obj → Prop
  | _, [] => True
  | depth, item :: items => Obj.Shallow depth item ∧ AllShallow depth items

end

/-- The bounds of a list are the bounds of its members. -/
lemma allShallow_iff {depth : Nat} {items : List Obj} :
    AllShallow depth items ↔ ∀ item ∈ items, Obj.Shallow depth item := by
  induction items with
  | nil => simp [AllShallow]
  | cons item items ih => simp [AllShallow, ih]

/-- The object of a 32-bit integer is within the bounds. -/
lemma shallow_ofInt {depth : Nat} {i : Int} (hlo : -2 ^ 31 ≤ i) (hhi : i < 2 ^ 31) :
    (Obj.ofInt i).Shallow depth := by
  unfold Obj.ofInt
  split
  · simp only [Obj.Shallow]
    omega
  · simp only [Obj.Shallow]
    omega

/-- An encoding is not empty. -/
lemma length_pack_pos (o : Obj) : 0 < o.pack.length := by
  cases o with
  | posInt value =>
    unfold Obj.pack packUnsigned
    split_ifs <;> simp
  | negInt value =>
    unfold Obj.pack packNegative
    split_ifs <;> simp
  | raw bytes =>
    unfold Obj.pack packRawHeader
    split_ifs <;> simp
  | array items =>
    unfold Obj.pack packArrayHeader
    split_ifs <;> simp
  | map entries =>
    unfold Obj.pack packMapHeader
    split_ifs <;> simp
  | _ => simp [Obj.pack]

/-- Objects are not more than the bytes that encode them. -/
lemma length_le_packAll (items : List Obj) : items.length ≤ (packAll items).length := by
  induction items with
  | nil => exact Nat.zero_le _
  | cons item items ih =>
    have hpos := length_pack_pos item
    rw [packAll, List.length_append, List.length_cons]
    omega

mutual

/-- An encoding shorter than `2 ^ 32` bytes has all lengths within the bounds. -/
lemma Obj.Shallow.packable {depth : Nat} : ∀ {o : Obj}, o.Shallow depth →
    o.pack.length < 2 ^ 32 → o.Packable depth
  | .nil, _, _ => trivial
  | .boolean _, _, _ => trivial
  | .posInt _, h, _ => h
  | .negInt _, h, _ => h
  | .double _, _, _ => trivial
  | .raw bytes, _, hlength => by
    rw [Obj.pack, List.length_append] at hlength
    exact lt_of_le_of_lt (Nat.le_add_left _ _) hlength
  | .array items, ⟨hdepth, hitems⟩, hlength => by
    rw [Obj.pack, List.length_append] at hlength
    have hpacked : (packAll items).length < 2 ^ 32 := lt_of_le_of_lt (Nat.le_add_left _ _) hlength
    exact ⟨hdepth, lt_of_le_of_lt (length_le_packAll items) hpacked,
      AllShallow.packable hitems hpacked⟩
  | .map entries, ⟨hdepth, heven, hentries⟩, hlength => by
    rw [Obj.pack, List.length_append] at hlength
    have hpacked : (packAll entries).length < 2 ^ 32 :=
      lt_of_le_of_lt (Nat.le_add_left _ _) hlength
    have hcount := length_le_packAll entries
    exact ⟨hdepth, heven, by omega, AllShallow.packable hentries hpacked⟩

/-- The same for objects one after the other. -/
lemma AllShallow.packable {depth : Nat} : ∀ {items : List Obj}, AllShallow depth items →
    (packAll items).length < 2 ^ 32 → AllPackable depth items
  | [], _, _ => trivial
  | item :: items, ⟨hitem, hitems⟩, hlength => by
    rw [packAll, List.length_append] at hlength
    exact ⟨Obj.Shallow.packable hitem (by omega), AllShallow.packable hitems (by omega)⟩

end

end MessagePack
