import Liangshi.Wire.LengthPrefix
import Mathlib.Data.UInt

/-!
# The receive buffer

`LokiReceiveBuffer` of `SharedCode`: a queue of bytes with the 4-byte network-order heads of the
frames.  `Size` converts the length of the queue to a C `int`, so it is exact only for a queue
shorter than `2 ^ 31` bytes.  The host is little-endian.
-/

namespace Liangshi

open Wire

/-- Conversion of an unsigned number to `int`. -/
def toInt (n : Nat) : Int := (n : Int).bmod (2 ^ 32)

/-- Conversion of an `int` to `unsigned int`. -/
def toUnsigned (i : Int) : Nat := (i % 2 ^ 32).toNat

/-- A number in the range of `int` is converted to itself. -/
lemma toInt_eq {n : Nat} (h : n < 2 ^ 31) : toInt n = n := by
  unfold toInt
  rw [Int.bmod_def]
  omega

/-- A non-negative `int` is converted to itself. -/
lemma toUnsigned_natCast {n : Nat} (h : n < 2 ^ 31) : toUnsigned n = n := by
  unfold toUnsigned
  omega

/-- Exchange the byte order of a 32-bit number: `ntohl` and `htonl` on a little-endian host. -/
def ntohl (n : UInt32) : UInt32 :=
  let n := n.toNat
  UInt32.ofNat (n % 2 ^ 8 * 2 ^ 24 + n / 2 ^ 8 % 2 ^ 8 * 2 ^ 16 + n / 2 ^ 16 % 2 ^ 8 * 2 ^ 8 +
    n / 2 ^ 24)

/-- The number with the given bytes, least significant first. -/
def word (b0 b1 b2 b3 : UInt8) : Nat :=
  b3.toNat * 2 ^ 24 + b2.toNat * 2 ^ 16 + b1.toNat * 2 ^ 8 + b0.toNat

/-- Four bytes make a 32-bit number. -/
lemma word_lt (b0 b1 b2 b3 : UInt8) : word b0 b1 b2 b3 < 2 ^ 32 := by
  have h0 : b0.toNat < 2 ^ 8 := b0.toNat_lt
  have h1 : b1.toNat < 2 ^ 8 := b1.toNat_lt
  have h2 : b2.toNat < 2 ^ 8 := b2.toNat_lt
  have h3 : b3.toNat < 2 ^ 8 := b3.toNat_lt
  unfold word
  omega

/-- Exchanging the byte order reverses the bytes. -/
lemma toNat_ntohl_word (b0 b1 b2 b3 : UInt8) :
    (ntohl (UInt32.ofNat (word b0 b1 b2 b3))).toNat = word b3 b2 b1 b0 := by
  have h0 : b0.toNat < 2 ^ 8 := b0.toNat_lt
  have h1 : b1.toNat < 2 ^ 8 := b1.toNat_lt
  have h2 : b2.toNat < 2 ^ 8 := b2.toNat_lt
  have h3 : b3.toNat < 2 ^ 8 := b3.toNat_lt
  have hn : (UInt32.ofNat (word b0 b1 b2 b3)).toNat = word b0 b1 b2 b3 := by
    rw [UInt32.toNat_ofNat', Nat.mod_eq_of_lt (word_lt b0 b1 b2 b3)]
  have hd0 : word b0 b1 b2 b3 % 2 ^ 8 = b0.toNat := by unfold word; omega
  have hd1 : word b0 b1 b2 b3 / 2 ^ 8 % 2 ^ 8 = b1.toNat := by unfold word; omega
  have hd2 : word b0 b1 b2 b3 / 2 ^ 16 % 2 ^ 8 = b2.toNat := by unfold word; omega
  have hd3 : word b0 b1 b2 b3 / 2 ^ 24 = b3.toNat := by unfold word; omega
  rw [ntohl]
  simp only [hn, hd0, hd1, hd2, hd3]
  rw [UInt32.toNat_ofNat', show b0.toNat * 2 ^ 24 + b1.toNat * 2 ^ 16 + b2.toNat * 2 ^ 8 +
    b3.toNat = word b3 b2 b1 b0 from rfl, Nat.mod_eq_of_lt (word_lt b3 b2 b1 b0)]

/-- Four bytes in network order denote the word of the reversed bytes. -/
lemma ofBigEndian_word (b0 b1 b2 b3 : UInt8) :
    ofBigEndian [b0, b1, b2, b3] = word b3 b2 b1 b0 := by
  simp only [ofBigEndian, List.foldl_cons, List.foldl_nil, word]
  omega

/-- Every 32-bit number is the word of its header bytes. -/
lemma exists_word (n : UInt32) :
    ∃ b0 b1 b2 b3, header n.toNat = [b0, b1, b2, b3] ∧ n = UInt32.ofNat (word b3 b2 b1 b0) := by
  have hlength := length_bigEndian 4 n.toNat
  obtain ⟨b0, b1, b2, b3, hbytes⟩ := List.length_eq_four.mp hlength
  refine ⟨b0, b1, b2, b3, hbytes, ?_⟩
  rw [← ofBigEndian_word, ← hbytes, ofBigEndian_bigEndian n.toNat_lt, UInt32.ofNat_toNat]

/-- `LokiReceiveBuffer`. -/
structure LokiReceiveBuffer where
  queue : Bytes
deriving DecidableEq

namespace LokiReceiveBuffer

/-- `InsertData`. -/
def insertData (b : LokiReceiveBuffer) (data : Bytes) : LokiReceiveBuffer :=
  ⟨b.queue ++ data⟩

/-- `InsertNetworkUInt32`: the bytes of the network value, least significant first. -/
def insertNetworkUInt32 (b : LokiReceiveBuffer) (value : UInt32) : LokiReceiveBuffer :=
  let networkValue := (ntohl value).toNat
  ⟨b.queue ++ [UInt8.ofNat networkValue, UInt8.ofNat (networkValue / 2 ^ 8),
    UInt8.ofNat (networkValue / 2 ^ 16), UInt8.ofNat (networkValue / 2 ^ 24)]⟩

/-- `Get4BytesHead`: four bytes taken as a little-endian number, or zero. -/
def get4BytesHead (b : LokiReceiveBuffer) : UInt32 × LokiReceiveBuffer :=
  match b.queue with
  | lsb :: nextLsb :: nextMsb :: msb :: rest =>
    (UInt32.ofNat (word lsb nextLsb nextMsb msb), ⟨rest⟩)
  | _ => (0, b)

/-- `Size`, as a C `int`. -/
def size (b : LokiReceiveBuffer) : Int := toInt b.queue.length

/-- `GetBuffer`: the loop takes nothing when `size` is larger than `Size` or negative. -/
def getBuffer (b : LokiReceiveBuffer) (size : Int) : Bytes × LokiReceiveBuffer :=
  let count := if size ≤ b.size then size.toNat else 0
  (b.queue.take count, ⟨b.queue.drop count⟩)

/-- Below `2 ^ 31` bytes, `Size` is the length of the queue. -/
lemma size_eq {b : LokiReceiveBuffer} (h : b.queue.length < 2 ^ 31) :
    b.size = b.queue.length :=
  toInt_eq h

/-- A head in network order is the length a frame header announces. -/
lemma get4BytesHead_eq {b : LokiReceiveBuffer} (h : 4 ≤ b.queue.length) :
    (ntohl b.get4BytesHead.1).toNat = ofBigEndian (b.queue.take 4) ∧
      b.get4BytesHead.2.queue = b.queue.drop 4 := by
  obtain ⟨queue⟩ := b
  obtain ⟨b0, queue, rfl⟩ := List.exists_cons_of_length_pos (l := queue) (by simp at h; omega)
  obtain ⟨b1, queue, rfl⟩ := List.exists_cons_of_length_pos (l := queue) (by simp at h; omega)
  obtain ⟨b2, queue, rfl⟩ := List.exists_cons_of_length_pos (l := queue) (by simp at h; omega)
  obtain ⟨b3, queue, rfl⟩ := List.exists_cons_of_length_pos (l := queue) (by simp at h; omega)
  refine ⟨?_, rfl⟩
  rw [show (LokiReceiveBuffer.mk (b0 :: b1 :: b2 :: b3 :: queue)).get4BytesHead.1 =
    UInt32.ofNat (word b0 b1 b2 b3) from rfl, toNat_ntohl_word]
  exact (ofBigEndian_word b0 b1 b2 b3).symm

/-- A network integer is the header of a frame. -/
lemma insertNetworkUInt32_eq (b : LokiReceiveBuffer) (value : UInt32) :
    (b.insertNetworkUInt32 value).queue = b.queue ++ header value.toNat := by
  obtain ⟨b0, b1, b2, b3, hheader, hvalue⟩ := exists_word value
  have hnet : (ntohl value).toNat = word b0 b1 b2 b3 := by rw [hvalue, toNat_ntohl_word]
  have h0 : b0.toNat < 2 ^ 8 := b0.toNat_lt
  have h1 : b1.toNat < 2 ^ 8 := b1.toNat_lt
  have h2 : b2.toNat < 2 ^ 8 := b2.toNat_lt
  have h3 : b3.toNat < 2 ^ 8 := b3.toNat_lt
  have hbyte : ∀ (n : Nat) (b : UInt8), n % 2 ^ 8 = b.toNat → UInt8.ofNat n = b := by
    intro n b hn
    apply UInt8.toNat_inj.mp
    rw [UInt8.toNat_ofNat', hn]
  have hb0 : UInt8.ofNat (word b0 b1 b2 b3) = b0 := hbyte _ _ (by unfold word; omega)
  have hb1 : UInt8.ofNat (word b0 b1 b2 b3 / 2 ^ 8) = b1 := hbyte _ _ (by unfold word; omega)
  have hb2 : UInt8.ofNat (word b0 b1 b2 b3 / 2 ^ 16) = b2 := hbyte _ _ (by unfold word; omega)
  have hb3 : UInt8.ofNat (word b0 b1 b2 b3 / 2 ^ 24) = b3 := hbyte _ _ (by unfold word; omega)
  simp only [insertNetworkUInt32, hnet, hb0, hb1, hb2, hb3, hheader]

end LokiReceiveBuffer

end Liangshi
