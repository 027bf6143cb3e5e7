import Liangshi.Server.User

/-!
# Framing on the server

`User::OnData` refines the reference deframer of `Liangshi.Wire.LengthPrefix`.

`User.pending` is the part of the stream a parser state stands for: the queue, behind the header
when that has been taken off it.  While the queue is shorter than `2 ^ 31` bytes, one turn of the
loop cuts one frame off the pending bytes or leaves them alone (`parseCommand_of_some`,
`parseCommand_of_none`), a call of `OnData` hands over the commands of the frames it completes
(`onData_eq`), and so does a run of calls, however the stream was chunked (`onDataAll_eq`).

The loop stops at four queued bytes, so a complete empty frame can stay queued after a call
(`Tracks`); its empty payload holds no command.
-/

namespace Liangshi

open Wire MessagePack LokiCommand

namespace User

variable {u : Uninitialised}

/-- The part of the stream a parser state stands for. -/
def pending (user : User) : Bytes :=
  if user.blockSize = 0 then user.received.queue
  else header user.blockSize.toNat ++ user.received.queue

/-- Between frames the pending bytes are the queue. -/
lemma pending_of_zero {user : User} (h : user.blockSize = 0) :
    user.pending = user.received.queue := by
  rw [pending, if_pos h]

/-- Inside a frame the pending bytes start with its header. -/
lemma pending_of_ne_zero {user : User} (h : user.blockSize ≠ 0) :
    user.pending = header user.blockSize.toNat ++ user.received.queue := by
  rw [pending, if_neg h]

/-- With no size read yet the whole queue is pending. -/
@[simp] lemma pending_mk_zero (queue : Bytes) : (User.mk ⟨queue⟩ 0).pending = queue := rfl

/-- Bytes appended to the queue are appended to the pending bytes. -/
lemma pending_insertData (user : User) (data : Bytes) :
    ({ user with received := user.received.insertData data } : User).pending =
      user.pending ++ data := by
  unfold pending LokiReceiveBuffer.insertData
  split <;> simp

/-- The queue is part of the pending bytes. -/
lemma length_queue_le_pending (user : User) :
    user.received.queue.length ≤ user.pending.length := by
  unfold pending
  split <;> simp

/-! ## One turn of the loop -/

/-- The header step: with fewer than four bytes between frames nothing happens, and otherwise the
pending bytes are the header of the current frame and the queue. -/
lemma readHead_spec {user : User} (h : user.received.queue.length < 2 ^ 31) :
    (user.readHead = user ∧ user.blockSize = 0 ∧ user.received.queue.length < 4) ∨
      (user.pending = header user.readHead.blockSize.toNat ++ user.readHead.received.queue ∧
        user.readHead.received.queue.length < 2 ^ 31) := by
  have hsize := LokiReceiveBuffer.size_eq h
  unfold readHead
  split
  · rename_i hcond
    have hfour : 4 ≤ user.received.queue.length := by omega
    obtain ⟨hhead, hqueue⟩ := LokiReceiveBuffer.get4BytesHead_eq hfour
    have hheader : header (ofBigEndian (user.received.queue.take 4)) =
        user.received.queue.take 4 := by
      have hlength : (user.received.queue.take 4).length = 4 := by simp; omega
      have hback := bigEndian_ofBigEndian (user.received.queue.take 4)
      rw [hlength] at hback
      exact hback
    refine Or.inr ⟨?_, ?_⟩
    · rw [pending_of_zero hcond.1, hhead, hheader, hqueue, List.take_append_drop]
    · rw [hqueue, List.length_drop]
      omega
  · rename_i hcond
    by_cases hzero : user.blockSize = 0
    · refine Or.inl ⟨rfl, hzero, ?_⟩
      have hsmall : ¬ 4 ≤ user.received.size := fun hfour => hcond ⟨hzero, hfour⟩
      omega
    · exact Or.inr ⟨pending_of_ne_zero hzero, h⟩

/-- The frame step while the payload is not complete. -/
lemma readFrame_of_lt {user : User} (h : user.received.queue.length < 2 ^ 31)
    (hlt : user.received.queue.length < user.blockSize.toNat) :
    user.readFrame u = .ok (user, none) := by
  have hunsigned : toUnsigned user.received.size = user.received.queue.length := by
    rw [LokiReceiveBuffer.size_eq h, toUnsigned_natCast h]
  rw [readFrame, hunsigned, if_neg (by omega)]

/-- The frame step when the payload is complete. -/
lemma readFrame_of_le {user : User} (h : user.received.queue.length < 2 ^ 31)
    (hle : user.blockSize.toNat ≤ user.received.queue.length) :
    user.readFrame u = (scanPayload u (user.received.queue.take user.blockSize.toNat)).map
      fun command => (⟨⟨user.received.queue.drop user.blockSize.toNat⟩, 0⟩, command) := by
  have hunsigned : toUnsigned user.received.size = user.received.queue.length := by
    rw [LokiReceiveBuffer.size_eq h, toUnsigned_natCast h]
  have hint : toInt user.blockSize.toNat = user.blockSize.toNat := toInt_eq (by omega)
  have hcount : (user.blockSize.toNat : Int) ≤ user.received.size := by
    rw [LokiReceiveBuffer.size_eq h]
    omega
  rw [readFrame, hunsigned, if_pos hle, hint]
  simp only [LokiReceiveBuffer.getBuffer, if_pos hcount, Int.toNat_natCast]

/-- A turn without a complete frame hands over nothing, keeps what is pending and ends the
loop. -/
lemma parseCommand_of_none {user : User} (h : user.received.queue.length < 2 ^ 31)
    (hsplit : splitFrame user.pending = none) :
    ∃ user', user.parseCommand u = .ok (user', none, false) ∧ user'.pending = user.pending := by
  rcases readHead_spec h with ⟨hsame, hzero, hshort⟩ | ⟨hpending, hlt⟩
  · refine ⟨user, ?_, rfl⟩
    have hsize := LokiReceiveBuffer.size_eq h
    have hframe : user.readFrame u = .ok (user, none) := by
      rw [readFrame_of_le h (by rw [hzero]; exact Nat.zero_le _), hzero]
      obtain ⟨⟨queue⟩, blockSize⟩ := user
      subst hzero
      rfl
    rw [parseCommand, hsame, hframe]
    simp only [Except.map, Except.ok.injEq, Prod.mk.injEq, true_and, Bool.and_eq_false_iff,
      decide_eq_false_iff_not]
    exact Or.inl (by omega)
  · have hshort : user.readHead.received.queue.length < user.readHead.blockSize.toNat := by
      rw [hpending, splitFrame_header user.readHead.blockSize.toNat_lt] at hsplit
      by_contra hle
      rw [if_neg hle] at hsplit
      cases hsplit
    have hne : user.readHead.blockSize ≠ 0 := by
      intro hzero
      rw [hzero] at hshort
      exact Nat.not_lt_zero _ hshort
    refine ⟨user.readHead, ?_, (pending_of_ne_zero hne).trans hpending.symm⟩
    rw [parseCommand, readFrame_of_lt hlt hshort]
    simp [Except.map, hne]

/-- A turn with a complete frame scans its payload and leaves the rest of the bytes queued. -/
lemma parseCommand_of_some {user : User} {payload rest : Bytes}
    (h : user.received.queue.length < 2 ^ 31)
    (hsplit : splitFrame user.pending = some (payload, rest)) :
    user.parseCommand u = (scanPayload u payload).map
      fun command => (⟨⟨rest⟩, 0⟩, command, decide (4 < rest.length)) := by
  rcases readHead_spec h with ⟨-, hzero, hshort⟩ | ⟨hpending, hlt⟩
  · rw [pending_of_zero hzero, splitFrame_of_short hshort] at hsplit
    cases hsplit
  · rw [hpending, splitFrame_header user.readHead.blockSize.toNat_lt] at hsplit
    split at hsplit
    · cases hsplit
    · rename_i hle
      obtain ⟨rfl, rfl⟩ := Prod.mk.inj (Option.some.inj hsplit)
      rw [parseCommand, readFrame_of_le hlt (by omega)]
      have hsize : (LokiReceiveBuffer.mk (user.readHead.received.queue.drop
          user.readHead.blockSize.toNat)).size =
            ((user.readHead.received.queue.drop user.readHead.blockSize.toNat).length : Int) :=
        LokiReceiveBuffer.size_eq (by rw [List.length_drop]; omega)
      cases scanPayload u (user.readHead.received.queue.take user.readHead.blockSize.toNat) with
      | error e => rfl
      | ok command =>
        simp only [Except.map, hsize, Except.ok.injEq, Prod.mk.injEq, decide_true, Bool.and_true,
          decide_eq_decide, true_and]
        omega

/-! ## One call -/

/-- What is left behind a complete frame has been in the queue. -/
lemma length_rest_le {user : User} {payload rest : Bytes}
    (hsplit : splitFrame user.pending = some (payload, rest)) :
    rest.length ≤ user.received.queue.length := by
  obtain ⟨heq, -⟩ := eq_frame_of_splitFrame hsplit
  have hpending : user.pending.length ≤ user.received.queue.length + 4 := by
    unfold pending
    split <;> simp [header]; omega
  rw [heq, List.length_append, length_frame] at hpending
  omega

/-- `ParseCommand` parses frames while the queue is shorter than `2 ^ 31` bytes. -/
def frameParser (u : Uninitialised) : FrameParser (parseCommand u) (scanPayload u) (2 ^ 31) where
  queue user := user.received.queue
  pending := pending
  between bytes := ⟨⟨bytes⟩, 0⟩
  queue_between _ := rfl
  pending_between _ := rfl
  decode_nil := scanPayload_nil u
  turn_of_none _ h hsplit := parseCommand_of_none h hsplit
  turn_of_some _ _ _ h hsplit := ⟨length_rest_le hsplit, Or.inl (parseCommand_of_some h hsplit)⟩

/-- A parser state stands for the leftover of the reference deframer.  The loop stops at four
queued bytes, so a complete empty frame may still be queued. -/
def Tracks (user : User) (leftover : Bytes) : Prop :=
  user.pending = leftover ∨ user.pending = frame [] ∧ leftover = []

/-- A new connection stands for no leftover. -/
lemma tracks_new : new.Tracks [] := Or.inl rfl

/-- A new connection has nothing pending. -/
lemma length_pending_new : new.pending.length ≤ 0 := le_rfl

/-- One call of `OnData` hands over the frames its chunk completes, and keeps what they leave
over. -/
lemma onData_parsed {user : User} {data : Bytes}
    (h : user.received.queue.length + data.length < 2 ^ 31) :
    ∃ user', user.onData u data =
        some (handOver (scanPayload u) user' (deframe (user.pending ++ data)).1) ∧
      (frameParser u).Parsed user' (user.pending ++ data) ∧
        user'.pending.length ≤ user.pending.length + data.length := by
  have hlength : (user.received.insertData data).queue.length < 2 ^ 31 := by
    simpa [LokiReceiveBuffer.insertData] using h
  rw [← List.length_append, ← pending_insertData]
  exact (frameParser u).runLoop_eq hlength (Nat.lt_succ_self _)

/-- One call of `OnData` hands over the frames its chunk completes, and leaves a state that
stands for the leftover. -/
theorem onData_eq {user : User} {data : Bytes}
    (h : user.received.queue.length + data.length < 2 ^ 31) :
    ∃ user', user.onData u data =
        some (handOver (scanPayload u) user' (deframe (user.pending ++ data)).1) ∧
      Tracks user' (deframe (user.pending ++ data)).2 ∧
        user'.pending.length ≤ user.pending.length + data.length := by
  obtain ⟨user', hcall, hparsed, hlength⟩ := onData_parsed (u := u) h
  refine ⟨user', hcall, ?_, hlength⟩
  rcases hparsed with hpending | ⟨hpending, hleftover, -⟩
  · exact Or.inl hpending
  · exact Or.inr ⟨hpending, hleftover⟩

/-! ## A run of calls -/

/-- The commands of a frame: those of its payload, if it decodes. -/
abbrev frameCommands (u : Uninitialised) : Bytes → List LokiCommand := decoded (scanPayload u)

/-- Frames that all decode hand over their commands. -/
lemma handOver_of_decodes {user : User} {payloads : List Bytes}
    (h : ∀ payload ∈ payloads, Decodes payload) :
    handOver (scanPayload u) user payloads =
      .returned user (payloads.flatMap (frameCommands u)) :=
  handOver_of_ok fun payload hmem => ⟨_, scanPayload_of_decodes (h payload hmem)⟩

/-- A frame that does not decode throws. -/
lemma handOver_of_not_decodes {user : User} {payloads : List Bytes}
    (h : ¬ ∀ payload ∈ payloads, Decodes payload) :
    ∃ exception commands,
      handOver (scanPayload u) user payloads = .threw exception commands := by
  refine handOver_of_error fun hok => h fun payload hmem => ?_
  by_contra hbad
  obtain ⟨e, hscan⟩ := scanPayload_of_not_decodes (u := u) hbad
  obtain ⟨command, hcommand⟩ := hok payload hmem
  rw [hscan] at hcommand
  cases hcommand

/-- The state and the leftover it stands for take in a chunk alike. -/
lemma Tracks.feed {user : User} {leftover : Bytes} (h : Tracks user leftover) (chunk : Bytes)
    (user' : User) :
    handOver (scanPayload u) user' (deframe (user.pending ++ chunk)).1 =
        handOver (scanPayload u) user' (feed leftover chunk).1 ∧
      (deframe (user.pending ++ chunk)).2 = (feed leftover chunk).2 := by
  rcases h with hpending | ⟨hpending, hleftover⟩
  · rw [hpending]
    exact ⟨rfl, rfl⟩
  · rw [hpending, hleftover, deframe_frame_append (by decide)]
    exact ⟨(frameParser u).handOver_nil_cons user' _, rfl⟩

/-- A state has at most the leftover, or an empty frame, pending. -/
lemma Tracks.length_le {user : User} {leftover : Bytes} (h : Tracks user leftover) :
    user.pending.length ≤ max leftover.length 4 := by
  rcases h with hpending | ⟨hpending, -⟩
  · rw [hpending]
    exact le_max_left _ _
  · rw [hpending]
    exact le_max_right _ _

/-- The queue stays shorter than `2 ^ 31` bytes: `waiting` bounds the pending bytes before a
chunk.  After it they are no longer than the leftover, or an empty frame, and no longer than what
was waiting and the chunk. -/
def Fits (waiting : Nat) (leftover : Bytes) : List Bytes → Prop
  | [] => True
  | chunk :: chunks => waiting + chunk.length < 2 ^ 31 ∧
      Fits (min (waiting + chunk.length) (max (feed leftover chunk).2.length 4))
        (feed leftover chunk).2 chunks

/-- A stream shorter than `2 ^ 31` bytes fits. -/
lemma fits_of_length {waiting : Nat} {leftover : Bytes} {chunks : List Bytes}
    (h : waiting + chunks.flatten.length < 2 ^ 31) : Fits waiting leftover chunks := by
  induction chunks generalizing waiting leftover with
  | nil => trivial
  | cons chunk chunks ih =>
    rw [List.flatten_cons, List.length_append] at h
    exact ⟨by omega, ih (by omega)⟩

/-- The next call of a run hands over the frames its chunk completes. -/
lemma onData_feed {user : User} {leftover chunk : Bytes} {chunks : List Bytes} {waiting : Nat}
    (htracks : Tracks user leftover) (hwaiting : user.pending.length ≤ waiting)
    (hfits : Fits waiting leftover (chunk :: chunks)) :
    ∃ user', user.onData u chunk = some (handOver (scanPayload u) user' (feed leftover chunk).1) ∧
      Tracks user' (feed leftover chunk).2 ∧ user'.pending.length ≤
        min (waiting + chunk.length) (max (feed leftover chunk).2.length 4) := by
  have hqueue := length_queue_le_pending user
  have hroom : user.received.queue.length + chunk.length < 2 ^ 31 := by
    have hfirst := hfits.1
    omega
  obtain ⟨user', hcall, htracks', hlength⟩ := onData_eq (u := u) hroom
  obtain ⟨hhand, hleft⟩ := htracks.feed (u := u) chunk user'
  rw [hhand] at hcall
  rw [hleft] at htracks'
  exact ⟨user', hcall, htracks', le_min (by omega) htracks'.length_le⟩

/-- A run over frames that all decode hands over, call by call, the commands of the frames the
reference deframer completes. -/
theorem onDataAll_eq {user : User} {leftover : Bytes} {chunks : List Bytes} {waiting : Nat}
    (htracks : Tracks user leftover) (hwaiting : user.pending.length ≤ waiting)
    (hfits : Fits waiting leftover chunks)
    (hdecodes : ∀ payloads ∈ (feedAll leftover chunks).1, ∀ payload ∈ payloads, Decodes payload) :
    ∃ user', user.onDataAll u chunks =
        some (.ok user', (feedAll leftover chunks).1.map (List.flatMap (frameCommands u))) ∧
      Tracks user' (feedAll leftover chunks).2 := by
  induction chunks generalizing user leftover waiting with
  | nil => exact ⟨user, rfl, htracks⟩
  | cons chunk chunks ih =>
    obtain ⟨user₁, hcall, htracks₁, hlength⟩ := onData_feed (u := u) htracks hwaiting hfits
    simp only [feedAll, List.forall_mem_cons] at hdecodes
    rw [handOver_of_decodes hdecodes.1] at hcall
    obtain ⟨user', hrun, htracks'⟩ := ih htracks₁ hlength hfits.2 hdecodes.2
    refine ⟨user', ?_, htracks'⟩
    simp only [onDataAll, hcall, hrun, Option.map_some, feedAll, List.map_cons]

/-- A run over frames one of which does not decode ends with an exception. -/
theorem onDataAll_error {user : User} {leftover : Bytes} {chunks : List Bytes} {waiting : Nat}
    (htracks : Tracks user leftover) (hwaiting : user.pending.length ≤ waiting)
    (hfits : Fits waiting leftover chunks)
    (hbad : ¬ ∀ payloads ∈ (feedAll leftover chunks).1, ∀ payload ∈ payloads, Decodes payload) :
    ∃ exception commands, user.onDataAll u chunks = some (.error exception, commands) := by
  induction chunks generalizing user leftover waiting with
  | nil => exact absurd (by simp [feedAll]) hbad
  | cons chunk chunks ih =>
    obtain ⟨user₁, hcall, htracks₁, hlength⟩ := onData_feed (u := u) htracks hwaiting hfits
    simp only [feedAll, List.forall_mem_cons, not_and] at hbad
    by_cases hfirst : ∀ payload ∈ (feed leftover chunk).1, Decodes payload
    · rw [handOver_of_decodes hfirst] at hcall
      obtain ⟨exception, commands, hrun⟩ := ih htracks₁ hlength hfits.2 (hbad hfirst)
      refine ⟨exception, (feed leftover chunk).1.flatMap (frameCommands u) :: commands, ?_⟩
      simp only [onDataAll, hcall, hrun, Option.map_some]
    · obtain ⟨exception, commands, hthrew⟩ : ∃ exception commands,
          handOver (scanPayload u) user₁ (feed leftover chunk).1 = .threw exception commands :=
        handOver_of_not_decodes hfirst
      rw [hthrew] at hcall
      refine ⟨exception, [commands], ?_⟩
      simp only [onDataAll, hcall]

/-- A run over more chunks continues from the state after the first ones. -/
lemma onDataAll_append {user user' : User} {chunks : List Bytes}
    {commands : List (List LokiCommand)}
    (h : user.onDataAll u chunks = some (.ok user', commands)) (more : List Bytes) :
    user.onDataAll u (chunks ++ more) =
      (user'.onDataAll u more).map fun result => (result.1, commands ++ result.2) := by
  induction chunks generalizing user commands with
  | nil =>
    obtain ⟨rfl, rfl⟩ := by simpa [onDataAll] using h
    simp
  | cons chunk chunks ih =>
    simp only [onDataAll, List.cons_append] at h ⊢
    cases hcall : user.onData u chunk with
    | none => simp [hcall] at h
    | some result =>
      cases result with
      | threw exception handed => simp [hcall] at h
      | returned user₁ handed =>
        simp only [hcall, Option.map_eq_some_iff, Prod.mk.injEq] at h
        obtain ⟨⟨final, others⟩, hrun, rfl, rfl⟩ := h
        simp only [ih hrun, Option.map_map, Function.comp_def, List.cons_append]

/-! ## Chunk invariance -/

/-- A stream shorter than `2 ^ 31` bytes made of frames whose payloads are scanned without a
throw. -/
structure Framed (u : Uninitialised) (stream : Bytes) (payloads : List Bytes) : Prop where
  eq_frames : stream = payloads.flatMap frame
  length_lt : stream.length < 2 ^ 31
  scans : ∀ payload ∈ payloads, ∃ command, scanPayload u payload = .ok command

/-- Only payloads that decode are scanned without a throw. -/
lemma decodes_of_scanPayload {payload : Bytes} {command : Option LokiCommand}
    (h : scanPayload u payload = .ok command) : Decodes payload := by
  by_contra hbad
  obtain ⟨e, he⟩ := scanPayload_of_not_decodes (u := u) hbad
  rw [h] at he
  cases he

/-- The reference deframer cuts a framed stream into its payloads. -/
lemma Framed.flatten_feedAll {chunks : List Bytes} {payloads : List Bytes}
    (h : Framed u chunks.flatten payloads) : (feedAll [] chunks).1.flatten = payloads := by
  have hlength : ∀ payload ∈ payloads, payload.length < 2 ^ 32 := by
    intro payload hmem
    have hsub : (frame payload).length ≤ (payloads.flatMap frame).length :=
      (List.sublist_flatten_of_mem (List.mem_map_of_mem hmem)).length_le
    have hlt := h.length_lt
    rw [h.eq_frames] at hlt
    rw [length_frame] at hsub
    omega
  have hcut := feedAll_eq_deframe splitFrame_nil chunks
  rw [List.nil_append, h.eq_frames, deframe_flatMap_frame hlength] at hcut
  exact congrArg Prod.fst hcut

/-- The frames the reference deframer completes on a framed stream all decode. -/
lemma Framed.decodes {chunks : List Bytes} {payloads : List Bytes}
    (h : Framed u chunks.flatten payloads) :
    ∀ group ∈ (feedAll [] chunks).1, ∀ payload ∈ group, Decodes payload := by
  intro group hgroup payload hmem
  have hpayload : payload ∈ (feedAll [] chunks).1.flatten := List.mem_flatten_of_mem hgroup hmem
  rw [h.flatten_feedAll] at hpayload
  obtain ⟨command, hscan⟩ := h.scans payload hpayload
  exact decodes_of_scanPayload hscan

/-- A new connection runs over a short stream of frames that decode as the reference deframer
does. -/
lemma onDataAll_new {chunks : List Bytes} (hlength : chunks.flatten.length < 2 ^ 31)
    (hdecodes : ∀ group ∈ (feedAll [] chunks).1, ∀ payload ∈ group, Decodes payload) :
    ∃ user', new.onDataAll u chunks =
      some (.ok user', (feedAll [] chunks).1.map (List.flatMap (frameCommands u))) := by
  have hfits : Fits 0 [] chunks := fits_of_length (by omega)
  obtain ⟨user', hrun, -⟩ :=
    onDataAll_eq tracks_new length_pending_new hfits hdecodes
  exact ⟨user', hrun⟩

/-- Framing is chunk-invariant.  Over a framed stream, however it is split, every call of
`OnData` hands over the commands of exactly the frames a reference deframer completes with that
chunk; a state reached after any prefix behaves like the reference on every continuation; a frame
hands over the command of its last body, or nothing; and the loop of every call ends. -/
theorem onDataAll_chunk_invariant (u : Uninitialised) :
    (∀ chunks payloads, Framed u chunks.flatten payloads →
      (feedAll [] chunks).1.flatten = payloads ∧
        ∃ user', new.onDataAll u chunks =
          some (.ok user', (feedAll [] chunks).1.map (List.flatMap (frameCommands u)))) ∧
    (∀ before user commands, new.onDataAll u before = some (.ok user, commands) →
      ∀ after payloads, Framed u (before ++ after).flatten payloads →
        ∃ user', user.onDataAll u after = some (.ok user',
          (feedAll (feedAll [] before).2 after).1.map (List.flatMap (frameCommands u)))) ∧
    (∀ payload command, scanPayload u payload = .ok command →
      frameCommands u payload = (payloadCommand u payload).toList) ∧
    ∀ (user : User) (data : Bytes), (user.onData u data).isSome := by
  refine ⟨fun chunks payloads h => ⟨h.flatten_feedAll, onDataAll_new h.length_lt h.decodes⟩,
    ?_, ?_, onData_isSome u⟩
  · intro before user commands hbefore after payloads h
    have hdecodes := h.decodes
    have hlength := h.length_lt
    rw [feedAll_append] at hdecodes
    rw [List.flatten_append, List.length_append] at hlength
    have hshort : before.flatten.length < 2 ^ 31 := by omega
    obtain ⟨user₁, hrun₁⟩ := onDataAll_new (u := u) hshort
      fun group hgroup => hdecodes group (List.mem_append_left _ hgroup)
    rw [hbefore] at hrun₁
    obtain ⟨rfl, rfl⟩ : user = user₁ ∧ commands = _ := by simpa using hrun₁
    obtain ⟨user', hrun⟩ := onDataAll_new h.length_lt h.decodes
    rw [onDataAll_append hbefore, feedAll_append, Option.map_eq_some_iff] at hrun
    obtain ⟨⟨final, others⟩, hafter, heq⟩ := hrun
    simp only [Prod.mk.injEq, List.map_append, List.append_cancel_left_eq] at heq
    exact ⟨user', by rw [hafter, heq.1, heq.2]⟩
  · intro payload command hscan
    have hdecodes := decodes_of_scanPayload hscan
    simp only [frameCommands, decoded, scanPayload_of_decodes hdecodes]

/-- The frame of a `TakeBoardCommand`, split inside its header and inside its payload. -/
theorem onDataAll_chunk_invariant_takeBoard :
    ∃ user', new.onDataAll ⟨0, false⟩ [[0, 0], [0, 6, 0xcd, 0x5b], [0x16, 0xa2, 0x91, 0xa0]] =
      some (.ok user', [[], [], [.takeBoard ⟨[]⟩]]) := by
  let chunks : List Bytes := [[0, 0], [0, 6, 0xcd, 0x5b], [0x16, 0xa2, 0x91, 0xa0]]
  let payload : Bytes := [0xcd, 0x5b, 0x16, 0xa2, 0x91, 0xa0]
  have hscan : scanPayload ⟨0, false⟩ payload = .ok (some (.takeBoard ⟨[]⟩)) := by decide
  have hframed : Framed ⟨0, false⟩ chunks.flatten [payload] :=
    ⟨by decide, by decide, by simpa using ⟨_, hscan⟩⟩
  exact ((onDataAll_chunk_invariant ⟨0, false⟩).1 chunks [payload] hframed).2

/-- The last body of a payload that makes a command. -/
def lastDecodableCommand (u : Uninitialised) (payload : Bytes) : Option LokiCommand :=
  ((bodies 0 (unpackAll payload).1).filterMap (bodyCommand u)).getLast?

/-- A frame does not always hand over its last decodable command: here a `TakeBoardCommand` is
followed by a body of the unknown type 5. -/
theorem lastDecodableCommand_dropped :
    ¬ ∀ (u : Uninitialised) (chunks payloads : List Bytes) (user' : User)
      (commands : List (List LokiCommand)), Framed u chunks.flatten payloads →
        new.onDataAll u chunks = some (.ok user', commands) →
          commands.flatten = payloads.flatMap fun p => (lastDecodableCommand u p).toList := by
  intro h
  let payload : Bytes := [0xcd, 0x5b, 0x16, 0xa2, 0x91, 0xa0, 0x05, 0xa1, 0xc0]
  have hscan : scanPayload ⟨0, false⟩ payload = .ok none := by decide
  have hframed : Framed ⟨0, false⟩ ([frame payload] : List Bytes).flatten [payload] :=
    ⟨rfl, by decide, by simpa using ⟨none, hscan⟩⟩
  have hrun : new.onDataAll ⟨0, false⟩ [frame payload] = some (.ok new, [[]]) := by decide
  have hlast : lastDecodableCommand ⟨0, false⟩ payload = some (.takeBoard ⟨[]⟩) := by decide
  have hfalse := h ⟨0, false⟩ [frame payload] [payload] new [[]] hframed hrun
  simp [hlast] at hfalse

end User

end Liangshi
