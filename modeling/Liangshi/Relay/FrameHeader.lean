import Liangshi.Client.LokiSocket

/-!
# Frame headers and the byte order of the host

The server writes the length of a frame with `InsertNetworkUInt32` and reads the one that a client has
written with `Get4BytesHead` and `ntohl`; the client does both with a `QDataStream`.  `htonl` and
`ntohl` exchange the bytes on a little-endian host only, but the bytes of the number are always taken
and put together from the least significant one on.  So the two sides agree on a little-endian host,
and on a big-endian one where the length reads the same in both directions (`headerAgrees_iff`).
-/

namespace Liangshi

open Wire

/-- The byte order of a host. -/
inductive ByteOrder where
  | littleEndian
  | bigEndian
deriving DecidableEq

namespace ByteOrder

/-- `htonl` of a host. -/
def htonl : ByteOrder → UInt32 → UInt32
  | .littleEndian, n => Liangshi.ntohl n
  | .bigEndian, n => n

/-- `ntohl` of a host. -/
def ntohl : ByteOrder → UInt32 → UInt32
  | .littleEndian, n => Liangshi.ntohl n
  | .bigEndian, n => n

end ByteOrder

/-- Reading a `quint32` from a `QDataStream`. -/
def QDataStream.readUInt32 (bytes : Bytes) : UInt32 × Bytes :=
  (UInt32.ofNat (ofBigEndian (bytes.take 4)), bytes.drop 4)

/-- `InsertNetworkUInt32` on a host: the bytes of the network value, least significant first. -/
def LokiReceiveBuffer.insertNetworkUInt32On (order : ByteOrder) (b : LokiReceiveBuffer)
    (value : Int32) : LokiReceiveBuffer :=
  let networkValue := (order.htonl value.toUInt32).toNat
  ⟨b.queue ++ [UInt8.ofNat networkValue, UInt8.ofNat (networkValue / 2 ^ 8),
    UInt8.ofNat (networkValue / 2 ^ 16), UInt8.ofNat (networkValue / 2 ^ 24)]⟩

/-! ## Exchanging bytes -/

/-- A number with its bytes exchanged has its header reversed. -/
lemma header_ntohl (n : UInt32) : header (ntohl n).toNat = (header n.toNat).reverse := by
  obtain ⟨b0, b1, b2, b3, hheader, hn⟩ := exists_word n
  have hexchanged : (ntohl n).toNat = ofBigEndian [b3, b2, b1, b0] := by
    rw [hn, toNat_ntohl_word, ofBigEndian_word]
  rw [hheader, hexchanged]
  exact bigEndian_ofBigEndian [b3, b2, b1, b0]

/-- The number that a header denotes. -/
lemma ofBigEndian_header (n : UInt32) : ofBigEndian (header n.toNat) = n.toNat :=
  ofBigEndian_bigEndian n.toNat_lt

/-- A number is told by its header. -/
lemma header_inj {m n : UInt32} : header m.toNat = header n.toNat ↔ m = n := by
  refine ⟨fun h => UInt32.toNat_inj.mp ?_, fun h => h ▸ rfl⟩
  rw [← ofBigEndian_header m, h, ofBigEndian_header]

/-- Exchanging the bytes twice gives a number back. -/
lemma ntohl_ntohl (n : UInt32) : ntohl (ntohl n) = n := by
  rw [← header_inj, header_ntohl, header_ntohl, List.reverse_reverse]

/-- A number keeps its value when its bytes are exchanged exactly when its header reads the same in both
directions. -/
lemma ntohl_eq_self_iff (n : UInt32) :
    ntohl n = n ↔ (header n.toNat).reverse = header n.toNat := by
  rw [← header_ntohl, header_inj]

/-! ## Agreement -/

/-- The number that a length stands for outside a host: the one whose header is written for the length,
and the one that is read for the header of the length. -/
def ByteOrder.outside : ByteOrder → UInt32 → UInt32
  | .littleEndian, n => n
  | .bigEndian, n => Liangshi.ntohl n

/-- A length stands for itself on a little-endian host, and where its header reads the same in both
directions. -/
lemma ByteOrder.outside_eq_self_iff (order : ByteOrder) (value : UInt32) :
    order.outside value = value ↔
      order = .littleEndian ∨ (header value.toNat).reverse = header value.toNat := by
  cases order with
  | littleEndian => exact iff_of_true rfl (.inl rfl)
  | bigEndian =>
    rw [or_iff_right ByteOrder.noConfusion]
    exact ntohl_eq_self_iff value

namespace LokiReceiveBuffer

/-- What a host writes of a length. -/
lemma queue_insertNetworkUInt32On (order : ByteOrder) (b : LokiReceiveBuffer) (value : UInt32) :
    (b.insertNetworkUInt32On order value.toInt32).queue =
      b.queue ++ header (order.outside value).toNat := by
  cases order with
  | littleEndian => exact insertNetworkUInt32_eq b value
  | bigEndian =>
    have hexchanged : b.insertNetworkUInt32On .bigEndian value.toInt32 =
        b.insertNetworkUInt32 (ntohl value) := by
      unfold insertNetworkUInt32On insertNetworkUInt32
      rw [ntohl_ntohl]
      rfl
    rw [hexchanged, insertNetworkUInt32_eq]
    rfl

/-- What a host reads of the header of a length. -/
lemma get4BytesHead_header (order : ByteOrder) (value : UInt32) (data : Bytes) :
    order.ntohl (LokiReceiveBuffer.mk (header value.toNat ++ data)).get4BytesHead.1 =
        order.outside value ∧
      (LokiReceiveBuffer.mk (header value.toNat ++ data)).get4BytesHead.2.queue = data := by
  have hlength : (header value.toNat).length = 4 := length_bigEndian 4 _
  obtain ⟨hhead, hrest⟩ := get4BytesHead_eq (b := ⟨header value.toNat ++ data⟩) (by simp [hlength])
  rw [List.take_left' hlength, ofBigEndian_header, UInt32.toNat_inj] at hhead
  rw [List.drop_left' hlength] at hrest
  refine ⟨?_, hrest⟩
  cases order with
  | littleEndian => exact hhead
  | bigEndian => exact (ntohl_ntohl _).symm.trans (congrArg ntohl hhead)

end LokiReceiveBuffer

/-- The two sides agree on the header of a length. -/
structure HeaderAgrees (order : ByteOrder) (value : UInt32) : Prop where
  /-- The server writes what a `QDataStream` writes, and the data behind it. -/
  writes : ∀ (b : LokiReceiveBuffer) (data : Bytes),
    ((b.insertNetworkUInt32On order value.toInt32).insertData data).queue =
      b.queue ++ QDataStream.writeUInt32 value ++ data
  /-- The client reads what the server has written, and leaves the data behind it. -/
  clientReads : ∀ data : Bytes, QDataStream.readUInt32
    (((LokiReceiveBuffer.mk []).insertNetworkUInt32On order value.toInt32).insertData data).queue =
      (value, data)
  /-- The server reads what a client has written, and leaves the data behind it. -/
  serverReads : ∀ data : Bytes,
    order.ntohl (LokiReceiveBuffer.mk (QDataStream.writeUInt32 value ++ data)).get4BytesHead.1 =
        value ∧
      (LokiReceiveBuffer.mk (QDataStream.writeUInt32 value ++ data)).get4BytesHead.2.queue = data

/-- A `QDataStream` reads what it has written. -/
lemma QDataStream.readUInt32_writeUInt32 (value : UInt32) (data : Bytes) :
    readUInt32 (writeUInt32 value ++ data) = (value, data) := by
  have hlength : (writeUInt32 value).length = 4 := length_bigEndian 4 _
  have hvalue : ofBigEndian (writeUInt32 value) = value.toNat := ofBigEndian_header value
  unfold readUInt32
  rw [List.take_left' hlength, List.drop_left' hlength, hvalue, UInt32.ofNat_toNat]

/-- The two sides agree on the header of a length exactly on a little-endian host and where the header
reads the same in both directions. -/
theorem headerAgrees_iff (order : ByteOrder) (value : UInt32) : HeaderAgrees order value ↔
    order = .littleEndian ∨ (header value.toNat).reverse = header value.toNat := by
  rw [← order.outside_eq_self_iff]
  constructor
  · intro h
    exact (LokiReceiveBuffer.get4BytesHead_header order value []).1.symm.trans (h.serverReads []).1
  · intro h
    have hwrites : ∀ (b : LokiReceiveBuffer) (data : Bytes),
        ((b.insertNetworkUInt32On order value.toInt32).insertData data).queue =
          b.queue ++ QDataStream.writeUInt32 value ++ data := fun b data => by
      show (b.insertNetworkUInt32On order value.toInt32).queue ++ data = _
      rw [LokiReceiveBuffer.queue_insertNetworkUInt32On, h]
      rfl
    refine ⟨hwrites, fun data => ?_, fun data => ?_⟩
    · rw [hwrites]
      exact QDataStream.readUInt32_writeUInt32 value data
    · have hread := LokiReceiveBuffer.get4BytesHead_header order value data
      rwa [h] at hread

/-- On a big-endian host the length 1 is written with its least significant byte first, and the header
of the length 1 is read as 2 ^ 24. -/
theorem not_headerAgrees_one : ¬ HeaderAgrees .bigEndian 1 := by
  intro h
  exact absurd (h.serverReads []).1 (by decide)

end Liangshi
