import Liangshi.Wire.LengthPrefix

/-!
# Parsing loops over length-prefixed frames

A receiver keeps the bytes it has queued and, inside a frame, the length it has read; one turn of
its loop takes off the queue what it can, hands over what the frame's payload decodes to, and says
whether to go on.  `runLoop` repeats turns with fuel.

`FrameParser` is what a receiver's turn must satisfy: against the bytes that are pending (the queue,
behind the header when that has been read), a turn without a complete frame changes nothing and
stops, and a turn with one decodes its payload and leaves the rest queued.  From it `runLoop_eq`
says that the loop hands over the complete frames in order, until one throws, and keeps the
leftover.  The loops stop at four queued bytes, so a complete empty frame may be left over; that is
the second case of `Parsed`.
-/

namespace Wire

variable {σ ε γ : Type}

/-- How a parsing loop ends: it returns, or an exception leaves it.  Either way something has been
handed over. -/
inductive LoopResult (σ ε γ : Type) where
  | returned (state : σ) (handed : List γ)
  | threw (exception : ε) (handed : List γ)
deriving DecidableEq

/-- Put what was handed over earlier in front. -/
def LoopResult.after (first : Option γ) : LoopResult σ ε γ → LoopResult σ ε γ
  | returned state handed => returned state (first.toList ++ handed)
  | threw exception handed => threw exception (first.toList ++ handed)

/-- One turn of a loop: the new state, what is handed over and whether to go on. -/
abbrev Turn (σ ε γ : Type) := σ → Except ε (σ × Option γ × Bool)

/-- At most `fuel` turns of a loop; `none` when they do not end it. -/
def runLoop (turn : Turn σ ε γ) : Nat → σ → Option (LoopResult σ ε γ)
  | 0, _ => none
  | fuel + 1, s =>
    match turn s with
    | .error exception => some (.threw exception [])
    | .ok (s', first, true) => (runLoop turn fuel s').map (.after first)
    | .ok (s', first, false) => some (.returned s' first.toList)

/-- A loop ends when a measure decreases with every turn that goes on. -/
lemma runLoop_isSome {turn : Turn σ ε γ} (inv : σ → Prop) (measure : σ → Nat)
    (hturn : ∀ s s' first, inv s → turn s = .ok (s', first, true) →
      inv s' ∧ measure s' < measure s)
    {fuel : Nat} {s : σ} (hinv : inv s) (hfuel : measure s < fuel) :
    (runLoop turn fuel s).isSome := by
  induction fuel generalizing s with
  | zero => omega
  | succ fuel ih =>
    unfold runLoop
    split
    · rfl
    · rename_i s' first hnext
      obtain ⟨hinv', hlt⟩ := hturn s s' first hinv hnext
      rw [Option.isSome_map]
      exact ih hinv' (by omega)
    · rfl

/-- What every turn keeps holds when the loop returns. -/
lemma runLoop_invariant {turn : Turn σ ε γ} {inv : σ → Prop}
    (hturn : ∀ s s' first more, inv s → turn s = .ok (s', first, more) → inv s') {fuel : Nat}
    {s s' : σ} {handed : List γ} (hs : inv s)
    (h : runLoop turn fuel s = some (.returned s' handed)) : inv s' := by
  induction fuel generalizing s handed with
  | zero => cases h
  | succ fuel ih =>
    unfold runLoop at h
    split at h
    · cases h
    · rename_i t first hnext
      obtain ⟨result, hresult, hafter⟩ := Option.map_eq_some_iff.mp h
      cases result with
      | threw exception others => cases hafter
      | returned r others =>
        cases hafter
        exact ih (hturn s t first true hs hnext) hresult
    · rename_i t first hnext
      cases h
      exact hturn s _ first false hs hnext

/-- Hand over what payloads decode to until one throws. -/
def handOver (decode : Bytes → Except ε (Option γ)) (s : σ) : List Bytes → LoopResult σ ε γ
  | [] => .returned s []
  | payload :: payloads =>
    match decode payload with
    | .error exception => .threw exception []
    | .ok first => (handOver decode s payloads).after first

/-- What a payload hands over: what it decodes to, if it decodes. -/
def decoded (decode : Bytes → Except ε (Option γ)) (payload : Bytes) : List γ :=
  match decode payload with
  | .ok first => first.toList
  | .error _ => []

/-- Payloads that all decode are handed over in order. -/
lemma handOver_of_ok {decode : Bytes → Except ε (Option γ)} {s : σ} {payloads : List Bytes}
    (h : ∀ payload ∈ payloads, ∃ first, decode payload = .ok first) :
    handOver decode s payloads = .returned s (payloads.flatMap (decoded decode)) := by
  induction payloads with
  | nil => rfl
  | cons payload payloads ih =>
    obtain ⟨first, hfirst⟩ := h payload List.mem_cons_self
    have htail := ih fun p hp => h p (List.mem_cons_of_mem payload hp)
    simp only [handOver, hfirst, htail, LoopResult.after, List.flatMap_cons, decoded]

/-- A payload that does not decode ends the loop with its exception. -/
lemma handOver_of_error {decode : Bytes → Except ε (Option γ)} {s : σ} {payloads : List Bytes}
    (h : ¬ ∀ payload ∈ payloads, ∃ first, decode payload = .ok first) :
    ∃ exception handed, handOver decode s payloads = .threw exception handed := by
  induction payloads with
  | nil => exact absurd (by simp) h
  | cons payload payloads ih =>
    cases hdecode : decode payload with
    | error exception => exact ⟨exception, [], by simp only [handOver, hdecode]⟩
    | ok first =>
      have htail : ¬ ∀ p ∈ payloads, ∃ first, decode p = .ok first := by
        intro hall
        exact h (List.forall_mem_cons.mpr ⟨⟨first, hdecode⟩, hall⟩)
      obtain ⟨exception, handed, hthrew⟩ := ih htail
      refine ⟨exception, first.toList ++ handed, ?_⟩
      simp only [handOver, hdecode, hthrew, LoopResult.after]

/-- What the turn of a receiver must satisfy while fewer than `bound` bytes are queued. -/
structure FrameParser (turn : Turn σ ε γ) (decode : Bytes → Except ε (Option γ))
    (bound : Nat) where
  queue : σ → Bytes
  pending : σ → Bytes
  between : Bytes → σ
  queue_between : ∀ bytes, queue (between bytes) = bytes
  pending_between : ∀ bytes, pending (between bytes) = bytes
  decode_nil : decode [] = .ok none
  turn_of_none : ∀ s, (queue s).length < bound → splitFrame (pending s) = none →
    ∃ s', turn s = .ok (s', none, false) ∧ pending s' = pending s
  turn_of_some : ∀ s payload rest, (queue s).length < bound →
    splitFrame (pending s) = some (payload, rest) → rest.length ≤ (queue s).length ∧
      (turn s = (decode payload).map
          (fun first => (between rest, first, decide (4 < rest.length))) ∨
        payload = [] ∧ rest = [] ∧
          ∃ s', turn s = .ok (s', none, false) ∧ pending s' = frame [])

namespace FrameParser

variable {turn : Turn σ ε γ} {decode : Bytes → Except ε (Option γ)} {bound : Nat}

/-- A state keeps what the frames of a byte string leave over.  The loop stops at four queued
bytes, so a complete empty frame may still be queued. -/
def Parsed (P : FrameParser turn decode bound) (s : σ) (bytes : Bytes) : Prop :=
  P.pending s = (deframe bytes).2 ∨
    P.pending s = frame [] ∧ (deframe bytes).2 = [] ∧ [] ∈ (deframe bytes).1

/-- Four bytes at most hold an empty frame or none. -/
lemma deframe_of_length_le_four {bytes : Bytes} (h : bytes.length ≤ 4) :
    deframe bytes = ([], bytes) ∨ bytes = frame [] ∧ deframe bytes = ([[]], []) := by
  cases hsplit : splitFrame bytes with
  | none => exact Or.inl (deframe_of_none hsplit)
  | some cut =>
    obtain ⟨payload, rest⟩ := cut
    obtain ⟨heq, -⟩ := eq_frame_of_splitFrame hsplit
    have hlength : bytes.length = payload.length + 4 + rest.length := by
      rw [heq, List.length_append, length_frame]
    obtain rfl : payload = [] := List.length_eq_zero_iff.mp (by omega)
    obtain rfl : rest = [] := List.length_eq_zero_iff.mp (by omega)
    refine Or.inr ⟨by rw [heq, List.append_nil], ?_⟩
    rw [deframe_of_some hsplit]
    rfl

/-- An empty frame in front does not change what is handed over. -/
lemma handOver_nil_cons (P : FrameParser turn decode bound) (s : σ) (payloads : List Bytes) :
    handOver decode s ([] :: payloads) = handOver decode s payloads := by
  rw [handOver, P.decode_nil]
  cases handOver decode s payloads <;> rfl

/-- What the loop does to the frames that are pending, when its next turn is given. -/
lemma runLoop_succ (P : FrameParser turn decode bound) {fuel : Nat} {s : σ}
    (h : (P.queue s).length < bound)
    (hnext : ∀ rest : Bytes, rest.length ≤ (P.queue s).length →
      rest.length < (P.pending s).length →
        ∃ s', runLoop turn fuel (P.between rest) = some (handOver decode s' (deframe rest).1) ∧
          P.Parsed s' rest ∧ (P.pending s').length ≤ rest.length) :
    ∃ s', runLoop turn (fuel + 1) s = some (handOver decode s' (deframe (P.pending s)).1) ∧
      P.Parsed s' (P.pending s) ∧ (P.pending s').length ≤ (P.pending s).length := by
  cases hsplit : splitFrame (P.pending s) with
  | none =>
    obtain ⟨s', hturn, hpending⟩ := P.turn_of_none s h hsplit
    have hcut := deframe_of_none hsplit
    refine ⟨s', ?_, Or.inl ?_, le_of_eq (by rw [hpending])⟩
    · simp only [runLoop, hturn, hcut, handOver, Option.toList_none]
    · rw [hcut, hpending]
  | some cut =>
    obtain ⟨payload, rest⟩ := cut
    have hcut := deframe_of_some hsplit
    have hlt := splitFrame_length_lt hsplit
    obtain ⟨hle, hturn | ⟨rfl, rfl, s', hturn, hpending⟩⟩ := P.turn_of_some s payload rest h hsplit
    · cases hdecode : decode payload with
      | error exception =>
        refine ⟨P.between (deframe (P.pending s)).2, ?_, Or.inl (P.pending_between _), ?_⟩
        · rw [hdecode] at hturn
          simp only [runLoop, hturn, Except.map, hcut, handOver, hdecode]
        · rw [P.pending_between]
          exact length_deframe_le _
      | ok first =>
        rw [hdecode] at hturn
        by_cases hmore : 4 < rest.length
        · obtain ⟨s', hloop, hparsed, hlength⟩ := hnext rest hle hlt
          refine ⟨s', ?_, ?_, by omega⟩
          · simp only [runLoop, hturn, Except.map, hmore, decide_true, hloop, Option.map_some, hcut,
              handOver, hdecode]
          · rcases hparsed with hpending | ⟨hpending, hrest, hempty⟩
            · exact Or.inl (by rw [hcut]; exact hpending)
            · exact Or.inr ⟨hpending, by rw [hcut]; exact hrest,
                by rw [hcut]; exact List.mem_cons_of_mem _ hempty⟩
        · have hfour : rest.length ≤ 4 := by omega
          refine ⟨P.between rest, ?_, ?_, by rw [P.pending_between]; exact hlt.le⟩
          · have hhand : handOver decode (P.between rest) (deframe rest).1 =
                .returned (P.between rest) [] := by
              rcases deframe_of_length_le_four hfour with hnone | ⟨-, hempty⟩
              · rw [hnone]
                rfl
              · rw [hempty, P.handOver_nil_cons]
                rfl
            simp only [runLoop, hturn, Except.map, hmore, decide_false, hcut, handOver, hdecode,
              hhand, LoopResult.after, List.append_nil]
          · rcases deframe_of_length_le_four hfour with hnone | ⟨hrest, hempty⟩
            · exact Or.inl (by rw [hcut, hnone, P.pending_between])
            · exact Or.inr ⟨by rw [P.pending_between, hrest], by rw [hcut, hempty],
                by rw [hcut, hempty]; simp⟩
    · refine ⟨s', ?_, Or.inr ⟨hpending, by rw [hcut]; rfl, by rw [hcut]; exact List.mem_cons_self⟩,
        ?_⟩
      · have hhand : handOver decode s' (deframe (P.pending s)).1 = .returned s' [] := by
          rw [hcut, P.handOver_nil_cons]
          rfl
        simp only [runLoop, hturn, hhand, Option.toList_none]
      · rw [hpending, length_frame]
        simp only [List.length_nil] at hlt ⊢
        have hlength := (eq_frame_of_splitFrame hsplit).1
        rw [hlength, List.append_nil, length_frame]
        simp

/-- Between frames, the loop hands over the frames that are queued. -/
lemma runLoop_between (P : FrameParser turn decode bound) {fuel : Nat} {queue : Bytes}
    (h : queue.length < bound) (hfuel : queue.length < fuel) :
    ∃ s', runLoop turn fuel (P.between queue) = some (handOver decode s' (deframe queue).1) ∧
      P.Parsed s' queue ∧ (P.pending s').length ≤ queue.length := by
  induction fuel generalizing queue with
  | zero => omega
  | succ fuel ih =>
    have hqueue : (P.queue (P.between queue)).length < bound := by
      rw [P.queue_between]
      exact h
    have hnext : ∀ rest : Bytes, rest.length ≤ (P.queue (P.between queue)).length →
        rest.length < (P.pending (P.between queue)).length →
          ∃ s', runLoop turn fuel (P.between rest) = some (handOver decode s' (deframe rest).1) ∧
            P.Parsed s' rest ∧ (P.pending s').length ≤ rest.length := by
      intro rest hle hlt
      rw [P.queue_between] at hle
      rw [P.pending_between] at hlt
      exact ih (by omega) (by omega)
    have hloop := P.runLoop_succ hqueue hnext
    rw [P.pending_between] at hloop
    exact hloop

/-- The loop hands over the complete frames of the pending bytes in order, until one throws, and
keeps the leftover. -/
theorem runLoop_eq (P : FrameParser turn decode bound) {fuel : Nat} {s : σ}
    (h : (P.queue s).length < bound) (hfuel : (P.queue s).length < fuel) :
    ∃ s', runLoop turn (fuel + 1) s = some (handOver decode s' (deframe (P.pending s)).1) ∧
      P.Parsed s' (P.pending s) ∧ (P.pending s').length ≤ (P.pending s).length :=
  P.runLoop_succ h fun _ hle _ => P.runLoop_between (by omega) (by omega)

/-- A state stands for a leftover: it is pending, or nothing is left over but an empty frame. -/
def Tracks (P : FrameParser turn decode bound) (s : σ) (leftover : Bytes) : Prop :=
  P.pending s = leftover ∨ P.pending s = frame [] ∧ leftover = []

/-- The state and the leftover it stands for take in a chunk alike. -/
lemma Tracks.append {P : FrameParser turn decode bound} {s : σ} {leftover : Bytes}
    (h : P.Tracks s leftover) (chunk : Bytes) (s' : σ) :
    handOver decode s' (deframe (P.pending s ++ chunk)).1 =
        handOver decode s' (deframe (leftover ++ chunk)).1 ∧
      (deframe (P.pending s ++ chunk)).2 = (deframe (leftover ++ chunk)).2 := by
  rcases h with hpending | ⟨hpending, rfl⟩
  · rw [hpending]
    exact ⟨rfl, rfl⟩
  · rw [hpending, deframe_frame_append (by decide), List.nil_append]
    exact ⟨P.handOver_nil_cons s' _, rfl⟩

/-- A call of the loop after a chunk has arrived hands over the frames the chunk completes, and
leaves a state that stands for what they leave over. -/
theorem Tracks.call {P : FrameParser turn decode bound} {s s₁ : σ} {leftover chunk : Bytes}
    (h : P.Tracks s leftover) (harrived : P.pending s₁ = P.pending s ++ chunk)
    (hroom : (P.queue s₁).length < bound) {fuel : Nat} (hfuel : (P.queue s₁).length < fuel) :
    ∃ s', runLoop turn (fuel + 1) s₁ =
        some (handOver decode s' (deframe (leftover ++ chunk)).1) ∧
      P.Tracks s' (deframe (leftover ++ chunk)).2 ∧
        (P.pending s').length ≤ (P.pending s₁).length := by
  obtain ⟨s', hloop, hparsed, hlength⟩ := P.runLoop_eq hroom hfuel
  obtain ⟨hhand, hleft⟩ := h.append chunk s'
  rw [harrived, hhand] at hloop
  rw [harrived] at hparsed
  refine ⟨s', hloop, ?_, hlength⟩
  rcases hparsed with hpending | ⟨hpending, hrest, -⟩
  · exact Or.inl (hpending.trans hleft)
  · exact Or.inr ⟨hpending, hleft.symm.trans hrest⟩

/-- Without empty frames, exactly the leftover stays pending. -/
lemma Parsed.pending_eq {P : FrameParser turn decode bound} {s : σ} {bytes : Bytes}
    (h : P.Parsed s bytes) (hempty : [] ∉ (deframe bytes).1) :
    P.pending s = (deframe bytes).2 := by
  rcases h with hpending | ⟨-, -, hmem⟩
  · exact hpending
  · exact absurd hmem hempty

end FrameParser

end Wire
