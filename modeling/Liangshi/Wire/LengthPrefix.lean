import Liangshi.Wire.BigEndian
import Mathlib.Data.List.Flatten

/-!
# Length-prefixed frames

A frame is a payload behind its length as a 4-byte big-endian number.  `deframe` cuts a byte
string into the payloads of its complete frames and the bytes left over, and `feed` is the
incremental deframer, which keeps the leftover between chunks.

Cutting is independent of where the bytes were chunked: `deframe_append` cuts a concatenation by
cutting the front and then the leftover with what follows, and `feedAll_eq_deframe` says the same
of a whole run of the incremental deframer.
-/

namespace Wire

/-- The length header of a payload. -/
def header (length : Nat) : Bytes := bigEndian 4 length

/-- A payload behind its length. -/
def frame (payload : Bytes) : Bytes := header payload.length ++ payload

/-- Cut the first complete frame off a byte string. -/
def splitFrame (bytes : Bytes) : Option (Bytes × Bytes) :=
  let length := ofBigEndian (bytes.take 4)
  let body := bytes.drop 4
  if bytes.length < 4 ∨ body.length < length then none
  else some (body.take length, body.drop length)

/-- Cut up to `fuel` frames off a byte string. -/
def deframeFuel : Nat → Bytes → List Bytes × Bytes
  | 0, bytes => ([], bytes)
  | fuel + 1, bytes =>
    match splitFrame bytes with
    | none => ([], bytes)
    | some (payload, rest) =>
      let tail := deframeFuel fuel rest
      (payload :: tail.1, tail.2)

/-- The payloads of the complete frames of a byte string, and the bytes left over. -/
def deframe (bytes : Bytes) : List Bytes × Bytes :=
  deframeFuel bytes.length bytes

/-! ## One frame -/

/-- A frame is as long as its header and payload. -/
@[simp] lemma length_frame (payload : Bytes) : (frame payload).length = payload.length + 4 := by
  simp [frame, header, Nat.add_comm]

/-- A header denotes the length it was written for. -/
lemma ofBigEndian_header {length : Nat} (h : length < 2 ^ 32) :
    ofBigEndian (header length) = length :=
  ofBigEndian_bigEndian h

/-- Behind a header, a frame is cut off as soon as its payload is there. -/
lemma splitFrame_header {length : Nat} (h : length < 2 ^ 32) (body : Bytes) :
    splitFrame (header length ++ body) =
      if body.length < length then none else some (body.take length, body.drop length) := by
  have htake : (header length ++ body).take 4 = header length := by simp [header]
  have hdrop : (header length ++ body).drop 4 = body := by simp [header]
  have hfour : ¬ (header length ++ body).length < 4 := by simp [header]
  unfold splitFrame
  simp only [htake, hdrop, ofBigEndian_header h, hfour, false_or]

/-- A frame is cut off whatever follows it. -/
lemma splitFrame_frame {payload : Bytes} (h : payload.length < 2 ^ 32) (rest : Bytes) :
    splitFrame (frame payload ++ rest) = some (payload, rest) := by
  rw [frame, List.append_assoc, splitFrame_header h, if_neg (by simp), List.take_left,
    List.drop_left]

/-- What a cut means: the byte string starts with the frame of the payload. -/
lemma eq_frame_of_splitFrame {bytes payload rest : Bytes}
    (h : splitFrame bytes = some (payload, rest)) :
    bytes = frame payload ++ rest ∧ payload.length < 2 ^ 32 := by
  unfold splitFrame at h
  simp only at h
  split at h
  · cases h
  · rename_i hlong
    obtain ⟨rfl, rfl⟩ := Prod.mk.inj (Option.some.inj h)
    push Not at hlong
    obtain ⟨hfour, hbody⟩ := hlong
    have hlength : (bytes.take 4).length = 4 := by simp; omega
    have hpayload : ((bytes.drop 4).take (ofBigEndian (bytes.take 4))).length =
        ofBigEndian (bytes.take 4) := by
      rw [List.length_take]
      omega
    have hheader : header (ofBigEndian (bytes.take 4)) = bytes.take 4 := by
      have hback := bigEndian_ofBigEndian (bytes.take 4)
      rw [hlength] at hback
      exact hback
    refine ⟨?_, ?_⟩
    · rw [frame, hpayload, hheader, List.append_assoc, List.take_append_drop,
        List.take_append_drop]
    · rw [hpayload]
      have hlt := ofBigEndian_lt (bytes.take 4)
      rw [hlength] at hlt
      exact hlt

/-- A cut stays where it is when bytes are appended. -/
lemma splitFrame_append {bytes payload rest : Bytes}
    (h : splitFrame bytes = some (payload, rest)) (more : Bytes) :
    splitFrame (bytes ++ more) = some (payload, rest ++ more) := by
  obtain ⟨rfl, hlt⟩ := eq_frame_of_splitFrame h
  rw [List.append_assoc, splitFrame_frame hlt]

/-- Cutting a frame leaves fewer bytes. -/
lemma splitFrame_length_lt {bytes payload rest : Bytes}
    (h : splitFrame bytes = some (payload, rest)) : rest.length < bytes.length := by
  obtain ⟨rfl, -⟩ := eq_frame_of_splitFrame h
  simp

/-! ## All frames -/

/-- There is no frame in no bytes. -/
@[simp] lemma splitFrame_nil : splitFrame [] = none := rfl

/-- Fuel for every byte is fuel enough. -/
lemma deframeFuel_eq {fuel fuel' : Nat} {bytes : Bytes} (h : bytes.length ≤ fuel)
    (h' : bytes.length ≤ fuel') : deframeFuel fuel bytes = deframeFuel fuel' bytes := by
  induction fuel generalizing fuel' bytes with
  | zero =>
    obtain rfl := List.length_eq_zero_iff.mp (Nat.le_zero.mp h)
    cases fuel' <;> rfl
  | succ fuel ih =>
    cases fuel' with
    | zero =>
      obtain rfl := List.length_eq_zero_iff.mp (Nat.le_zero.mp h')
      rfl
    | succ fuel' =>
      cases hsplit : splitFrame bytes with
      | none => simp only [deframeFuel, hsplit]
      | some cut =>
        obtain ⟨payload, rest⟩ := cut
        have hlt := splitFrame_length_lt hsplit
        have htail : deframeFuel fuel rest = deframeFuel fuel' rest := ih (by omega) (by omega)
        simp only [deframeFuel, hsplit, htail]

/-- A byte string shorter than a header holds no frame. -/
lemma splitFrame_of_short {bytes : Bytes} (h : bytes.length < 4) : splitFrame bytes = none := by
  unfold splitFrame
  exact if_pos (Or.inl h)

/-- A byte string without a complete frame is all leftover. -/
lemma deframe_of_none {bytes : Bytes} (h : splitFrame bytes = none) :
    deframe bytes = ([], bytes) := by
  unfold deframe
  cases bytes.length with
  | zero => rfl
  | succ fuel => simp only [deframeFuel, h]

/-- The first frame is cut off before the others. -/
lemma deframe_of_some {bytes payload rest : Bytes}
    (h : splitFrame bytes = some (payload, rest)) :
    deframe bytes = (payload :: (deframe rest).1, (deframe rest).2) := by
  have hlt := splitFrame_length_lt h
  obtain ⟨fuel, hfuel⟩ := Nat.exists_eq_succ_of_ne_zero (show bytes.length ≠ 0 by omega)
  have htail : deframeFuel fuel rest = deframe rest := deframeFuel_eq (by omega) le_rfl
  simp only [deframe, hfuel, deframeFuel, h, htail]

/-- A frame in front is the first payload. -/
lemma deframe_frame_append {payload : Bytes} (h : payload.length < 2 ^ 32) (rest : Bytes) :
    deframe (frame payload ++ rest) = (payload :: (deframe rest).1, (deframe rest).2) :=
  deframe_of_some (splitFrame_frame h rest)

/-- A byte string is made of the frames cut off it and the leftover. -/
lemma flatMap_frame_deframe (bytes : Bytes) :
    (deframe bytes).1.flatMap frame ++ (deframe bytes).2 = bytes := by
  induction hn : bytes.length using Nat.strong_induction_on generalizing bytes with
  | _ n ih =>
    cases hsplit : splitFrame bytes with
    | none => rw [deframe_of_none hsplit]; rfl
    | some cut =>
      obtain ⟨payload, rest⟩ := cut
      have hlt := splitFrame_length_lt hsplit
      have hbytes := (eq_frame_of_splitFrame hsplit).1
      have htail := ih rest.length (by omega) rest rfl
      rw [deframe_of_some hsplit, List.flatMap_cons,
        List.append_assoc, htail]
      exact hbytes.symm

/-- The leftover is no longer than the bytes it was cut from. -/
lemma length_deframe_le (bytes : Bytes) : (deframe bytes).2.length ≤ bytes.length := by
  have hlength := congrArg List.length (flatMap_frame_deframe bytes)
  rw [List.length_append] at hlength
  omega

/-- The leftover holds no complete frame. -/
lemma splitFrame_deframe (bytes : Bytes) : splitFrame (deframe bytes).2 = none := by
  induction hn : bytes.length using Nat.strong_induction_on generalizing bytes with
  | _ n ih =>
    cases hsplit : splitFrame bytes with
    | none => rw [deframe_of_none hsplit]; exact hsplit
    | some cut =>
      obtain ⟨payload, rest⟩ := cut
      have hlt := splitFrame_length_lt hsplit
      rw [deframe_of_some hsplit]
      exact ih rest.length (by omega) rest rfl

/-- Cutting a concatenation: first the front, then its leftover with what follows. -/
theorem deframe_append (bytes more : Bytes) :
    deframe (bytes ++ more) =
      ((deframe bytes).1 ++ (deframe ((deframe bytes).2 ++ more)).1,
        (deframe ((deframe bytes).2 ++ more)).2) := by
  induction hn : bytes.length using Nat.strong_induction_on generalizing bytes with
  | _ n ih =>
    cases hsplit : splitFrame bytes with
    | none => rw [deframe_of_none hsplit]; rfl
    | some cut =>
      obtain ⟨payload, rest⟩ := cut
      have hlt := splitFrame_length_lt hsplit
      have htail := ih rest.length (by omega) rest rfl
      rw [deframe_of_some hsplit,
        deframe_of_some (splitFrame_append hsplit more), htail]
      rfl

/-- A stream of frames is cut back into its payloads. -/
theorem deframe_flatMap_frame {payloads : List Bytes}
    (h : ∀ payload ∈ payloads, payload.length < 2 ^ 32) :
    deframe (payloads.flatMap frame) = (payloads, []) := by
  induction payloads with
  | nil => rfl
  | cons payload payloads ih =>
    have htail := ih fun p hp => h p (List.mem_cons_of_mem payload hp)
    rw [List.flatMap_cons, deframe_frame_append (h payload List.mem_cons_self), htail]

/-! ## The incremental deframer -/

/-- Take in a chunk behind the leftover: the payloads it completes and the new leftover. -/
def feed (leftover chunk : Bytes) : List Bytes × Bytes :=
  deframe (leftover ++ chunk)

/-- Take in chunks one after the other: the payloads each completes, and the last leftover. -/
def feedAll : Bytes → List Bytes → List (List Bytes) × Bytes
  | leftover, [] => ([], leftover)
  | leftover, chunk :: chunks =>
    let first := feed leftover chunk
    let others := feedAll first.2 chunks
    (first.1 :: others.1, others.2)

/-- Taking in more chunks continues from the leftover. -/
lemma feedAll_append (leftover : Bytes) (chunks more : List Bytes) :
    feedAll leftover (chunks ++ more) =
      ((feedAll leftover chunks).1 ++ (feedAll (feedAll leftover chunks).2 more).1,
        (feedAll (feedAll leftover chunks).2 more).2) := by
  induction chunks generalizing leftover with
  | nil => rfl
  | cons chunk chunks ih => simp [feedAll, ih]

/-- Taking in chunks cuts the stream they make up, whatever the chunks. -/
theorem feedAll_eq_deframe {leftover : Bytes} (h : splitFrame leftover = none)
    (chunks : List Bytes) :
    ((feedAll leftover chunks).1.flatten, (feedAll leftover chunks).2) =
      deframe (leftover ++ chunks.flatten) := by
  induction chunks generalizing leftover with
  | nil => simp [feedAll, deframe_of_none h]
  | cons chunk chunks ih =>
    have hrest := ih (splitFrame_deframe (leftover ++ chunk))
    rw [List.flatten_cons, ← List.append_assoc, deframe_append, ← hrest]
    rfl

end Wire
