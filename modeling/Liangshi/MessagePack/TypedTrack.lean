import Liangshi.MessagePack.Convert

/-!
# Tracks of typed bodies

Files and payloads keep records of different classes as a sequence of integers and raw objects: an
integer is the type of the raw objects that follow it, and a raw object is the body of a record.
A reader goes through the objects one by one (`TypedScan`), remembers the last integer and handles
each raw object with it; other objects are ignored.

A track that was written as entries of a type and a body is read back entry by entry, each body
with the type that is in force for it (`scanTrack_packTrack`): a negative integer is passed over, so
the body after it is handled with the type before.  Without negative types it is the fold of the
handler over the entries (`scanTrack_pack`).
-/

namespace MessagePack

open Wire

variable {σ ε : Type}

/-- A record of a track: its type and its body. -/
abbrev Entry := Int32 × Bytes

/-- The objects of an entry. -/
def Entry.objects (entry : Entry) : List Obj := [Codec.int32.toObj entry.1, .raw entry.2]

/-- The type that is in force for the body of an entry. -/
def Entry.typeFrom (type : Int32) (entry : Entry) : Int32 :=
  if 0 ≤ entry.1.toInt then entry.1 else type

/-- Write a track. -/
def packTrack (entries : List Entry) : Bytes := packAll (entries.flatMap Entry.objects)

/-- The variables of the loop that reads a track. -/
structure TypedScan (σ : Type) where
  type : Int32
  state : σ

/-- One turn of the loop: a positive integer becomes the type, and a raw object is handled. -/
def TypedScan.next (handle : σ → Entry → Except ε σ) (typeError : ε) (scan : TypedScan σ)
    (object : Obj) : Except ε (TypedScan σ) :=
  match object with
  | .posInt _ =>
    match Codec.int32.convert object with
    | some type => .ok { scan with type }
    | none => .error typeError
  | .raw bytes => (handle scan.state (scan.type, bytes)).map fun state => { scan with state }
  | _ => .ok scan

/-- The turns of the loop for an entry: its body is handled with the type in force. -/
def TypedScan.take (handle : σ → Entry → Except ε σ) (scan : TypedScan σ) (entry : Entry) :
    Except ε (TypedScan σ) :=
  (handle scan.state (entry.typeFrom scan.type, entry.2)).map fun state =>
    ⟨entry.typeFrom scan.type, state⟩

/-- Read a track, from a type of zero: the objects are handled one by one before a malformed one
throws. -/
def scanTrack (handle : σ → Entry → Except ε σ) (typeError unpackError : ε) (state : σ)
    (bytes : Bytes) : Except ε σ :=
  match (unpackAll bytes).1.foldlM (TypedScan.next handle typeError) ⟨0, state⟩ with
  | .error exception => .error exception
  | .ok scan => if (unpackAll bytes).2 = .malformed then .error unpackError else .ok scan.state

/-- The track of an entry and others. -/
lemma packTrack_cons (entry : Entry) (entries : List Entry) : packTrack (entry :: entries) =
    (Codec.int32.toObj entry.1).pack ++ ((Obj.raw entry.2).pack ++ packTrack entries) := by
  simp only [packTrack, List.flatMap_cons, Entry.objects, List.cons_append, List.nil_append, packAll]

/-- A body is no longer than the track it is in. -/
lemma length_body_le {entry : Entry} {entries : List Entry} (h : entry ∈ entries) :
    entry.2.length ≤ (packTrack entries).length := by
  induction entries with
  | nil => cases h
  | cons first entries ih =>
    rw [packTrack_cons, List.length_append, List.length_append]
    rcases List.mem_cons.mp h with rfl | hmem
    · rw [Obj.pack, List.length_append]
      omega
    · have hle := ih hmem
      omega

/-! ## Reading what was written -/

variable {handle : σ → Entry → Except ε σ} {typeError unpackError : ε}

/-- The integer of a type becomes the type unless it is negative. -/
lemma next_type (scan : TypedScan σ) (entry : Entry) :
    scan.next handle typeError (Codec.int32.toObj entry.1) =
      .ok { scan with type := entry.typeFrom scan.type } := by
  by_cases h : 0 ≤ entry.1.toInt
  · have hobj : Codec.int32.toObj entry.1 = .posInt entry.1.toInt.toNat := if_pos h
    have hconvert := Codec.int32.convert_toObj entry.1
    rw [hobj] at hconvert ⊢
    simp only [TypedScan.next, hconvert, Entry.typeFrom, if_pos h]
  · have hobj : Codec.int32.toObj entry.1 = .negInt entry.1.toInt := if_neg h
    rw [hobj, Entry.typeFrom, if_neg h]
    rfl

/-- The objects of an entry are handled as the entry. -/
lemma foldlM_objects (scan : TypedScan σ) (entry : Entry) :
    entry.objects.foldlM (TypedScan.next handle typeError) scan = scan.take handle entry := by
  rw [Entry.objects, List.foldlM_cons, next_type]
  show List.foldlM _ _ _ = _
  rw [List.foldlM_cons]
  simp only [TypedScan.next, TypedScan.take]
  cases handle scan.state (entry.typeFrom scan.type, entry.2) <;> rfl

/-- The objects of entries are handled as the entries in order. -/
lemma foldlM_flatMap_objects (entries : List Entry) (scan : TypedScan σ) :
    (entries.flatMap Entry.objects).foldlM (TypedScan.next handle typeError) scan =
      entries.foldlM (TypedScan.take handle) scan := by
  induction entries generalizing scan with
  | nil => rfl
  | cons entry entries ih =>
    rw [List.flatMap_cons, List.foldlM_append, foldlM_objects, List.foldlM_cons]
    exact bind_congr ih

/-- Without negative types the bodies are handled with their own types. -/
lemma foldlM_take {entries : List Entry} (h : ∀ entry ∈ entries, 0 ≤ entry.1.toInt)
    (scan : TypedScan σ) :
    (entries.foldlM (TypedScan.take handle) scan).map TypedScan.state =
      entries.foldlM handle scan.state := by
  induction entries generalizing scan with
  | nil => rfl
  | cons entry entries ih =>
    obtain ⟨hentry, hentries⟩ := List.forall_mem_cons.mp h
    rw [List.foldlM_cons, List.foldlM_cons, TypedScan.take, Entry.typeFrom, if_pos hentry]
    cases handle scan.state entry with
    | error exception => rfl
    | ok state => exact ih hentries ⟨entry.1, state⟩

/-- The objects of entries are within the bounds of the format other than those on lengths. -/
lemma allShallow_objects (entries : List Entry) :
    AllShallow embedStackSize (entries.flatMap Entry.objects) := by
  rw [allShallow_iff]
  intro object hobject
  obtain ⟨entry, -, hmem⟩ := List.mem_flatMap.mp hobject
  rcases List.mem_cons.mp hmem with rfl | hraw
  · exact shallow_ofInt (Int32.le_toInt _) (Int32.toInt_lt _)
  · obtain rfl := List.mem_singleton.mp hraw
    trivial

/-- A track whose length fits is read back entry by entry. -/
theorem scanTrack_packTrack {entries : List Entry}
    (hlength : (packTrack entries).length < 2 ^ 32) (state : σ) :
    scanTrack handle typeError unpackError state (packTrack entries) =
      (entries.foldlM (TypedScan.take handle) ⟨0, state⟩).map TypedScan.state := by
  have hobjects : unpackAll (packTrack entries) = (entries.flatMap Entry.objects, .finished) :=
    unpackAll_packAll ((allShallow_objects entries).packable hlength)
  unfold scanTrack
  rw [hobjects, foldlM_flatMap_objects]
  cases entries.foldlM (TypedScan.take handle) ⟨0, state⟩ <;> rfl

/-- A track without negative types is read back as the fold of the handler. -/
theorem scanTrack_pack {entries : List Entry} (htypes : ∀ entry ∈ entries, 0 ≤ entry.1.toInt)
    (hlength : (packTrack entries).length < 2 ^ 32) (state : σ) :
    scanTrack handle typeError unpackError state (packTrack entries) =
      entries.foldlM handle state := by
  rw [scanTrack_packTrack hlength, foldlM_take htypes]

end MessagePack
