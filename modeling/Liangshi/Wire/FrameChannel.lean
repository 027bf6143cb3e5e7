import Liangshi.Wire.FrameLoop

/-!
# Channels of frames

A sender appends frames to a pipe and a receiver's loop takes chunks off it.  `Carries` says which
payloads are on their way, in the pipe or as an incomplete frame in the receiver: sending adds one
at the end (`Carries.send`), and a call of the loop with the next chunk hands over what the first
of them decode to and leaves the others on their way (`Carries.receive`).  Payloads on the channel
are not empty, so no complete frame stays behind in the receiver.
-/

namespace Wire

variable {σ ε γ : Type} {turn : Turn σ ε γ} {decode : Bytes → Except ε (Option γ)} {bound : Nat}

/-- A payload a channel can carry: not empty, short enough for a header, and it decodes. -/
structure Payload (decode : Bytes → Except ε (Option γ)) (payload : Bytes) : Prop where
  nonempty : payload ≠ []
  length_lt : payload.length < 2 ^ 32
  decodes : ∃ first, decode payload = .ok first

namespace FrameParser

variable {P : FrameParser turn decode bound} {s : σ} {pipe : Bytes} {payloads : List Bytes}

/-- The payloads on their way to a receiver that holds no complete frame. -/
structure Carries (P : FrameParser turn decode bound) (s : σ) (pipe : Bytes)
    (payloads : List Bytes) : Prop where
  bytes : P.pending s ++ pipe = payloads.flatMap frame
  incomplete : splitFrame (P.pending s) = none
  sound : ∀ payload ∈ payloads, Payload decode payload

/-- A frame that is sent is the last on its way. -/
lemma Carries.send (h : P.Carries s pipe payloads) {payload : Bytes}
    (hpayload : Payload decode payload) :
    P.Carries s (pipe ++ frame payload) (payloads ++ [payload]) := by
  refine ⟨?_, h.incomplete, ?_⟩
  · rw [← List.append_assoc, h.bytes, List.flatMap_append, List.flatMap_singleton]
  · simpa [or_imp, forall_and] using ⟨h.sound, hpayload⟩

/-- Nothing is on its way through an empty pipe. -/
lemma Carries.eq_nil (h : P.Carries s [] payloads) : payloads = [] := by
  have hcut := deframe_flatMap_frame fun payload hmem => (h.sound payload hmem).length_lt
  rw [← h.bytes, List.append_nil, deframe_of_none h.incomplete] at hcut
  exact (congrArg Prod.fst hcut).symm

/-- The frames a front part of a stream of frames completes, and the others. -/
lemma split_payloads {front rest : Bytes} (hbytes : front ++ rest = payloads.flatMap frame)
    (hlength : ∀ payload ∈ payloads, payload.length < 2 ^ 32) :
    ∃ waiting, payloads = (deframe front).1 ++ waiting ∧
      (deframe front).2 ++ rest = waiting.flatMap frame := by
  have hcut := deframe_flatMap_frame hlength
  rw [← hbytes, deframe_append, Prod.mk.injEq] at hcut
  obtain ⟨hpayloads, hleft⟩ := hcut
  have hwhole := flatMap_frame_deframe ((deframe front).2 ++ rest)
  rw [hleft, List.append_nil] at hwhole
  exact ⟨_, hpayloads.symm, hwhole.symm⟩

/-- A call of the loop after a chunk has arrived hands over the first payloads on their way and
leaves the others. -/
theorem Carries.receive (h : P.Carries s pipe payloads) {s₁ : σ} {chunk rest : Bytes}
    (hpipe : pipe = chunk ++ rest) (harrived : P.pending s₁ = P.pending s ++ chunk)
    (hroom : (P.queue s₁).length < bound) {fuel : Nat} (hfuel : (P.queue s₁).length < fuel) :
    ∃ s' done waiting, payloads = done ++ waiting ∧
      runLoop turn (fuel + 1) s₁ = some (.returned s' (done.flatMap (decoded decode))) ∧
        P.Carries s' rest waiting := by
  have hbytes : P.pending s₁ ++ rest = payloads.flatMap frame := by
    rw [harrived, List.append_assoc, ← hpipe, h.bytes]
  obtain ⟨waiting, hpayloads, hrest⟩ :=
    split_payloads hbytes fun payload hmem => (h.sound payload hmem).length_lt
  obtain ⟨s', hloop, hparsed, -⟩ := P.runLoop_eq hroom hfuel
  have hdone : ∀ payload ∈ (deframe (P.pending s₁)).1, Payload decode payload :=
    fun payload hmem => h.sound payload (hpayloads ▸ List.mem_append_left waiting hmem)
  have hpending := hparsed.pending_eq fun hmem => (hdone [] hmem).nonempty rfl
  rw [handOver_of_ok fun payload hmem => (hdone payload hmem).decodes] at hloop
  refine ⟨s', _, waiting, hpayloads, hloop, ?_, ?_, fun payload hmem => ?_⟩
  · rw [hpending, hrest]
  · rw [hpending]
    exact splitFrame_deframe _
  · exact h.sound payload (hpayloads ▸ List.mem_append_right _ hmem)

end FrameParser

end Wire
