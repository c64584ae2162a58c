import OptiBridge.FirmwareSteps
import OptiBridge.Captures

/-!
# OptiBridge.Answers

What the I2C callback queues for a capture: the empty packet if the capture is
anything but frames, nothing if the last frame asks for a reset, and otherwise
one response to the last frame, which the master can decode.

Three cases, in the order of the source: the capture does not parse, the
execution flag is up, or the last request is dispatched.  In the last case the
response is whatever arm of the dispatcher answered, and all that matters here
is that its payload fits (`Fits`), so that the encoder succeeds and the length
in the header is the true one.

* `answer_step`, what a dispatch sends, whatever arm it took;
* `Answers`, a response that a master may rely on: same sequence number, no
  flags, a length that fits;
* `capture_answered`, the theorem, over every capture and every state of the
  firmware.
-/

namespace OptiBridge

open Bytes

/-! ## dispatch -/

/- What is sent, without regard to what changes. -/

section dispatch

variable {σ : Type} {request : Request} (execute : Executor σ) (s : DispatchState σ)

/-- Every way a dispatch answers. -/
inductive AnswerStep (request : Request) (s : DispatchState σ) :
    PacketOutcome × DispatchState σ → Prop where
  | reset (h : request.IsReset) : AnswerStep request s (.reset, s)
  | answered {s' : DispatchState σ} {status : UInt8} {payload : List UInt8}
      (h : ¬ request.IsReset) (hfits : Fits status payload) :
      AnswerStep request s (s'.respond request status payload)

/-- Every dispatch asks for a reset or sends one response that fits. -/
theorem answer_step (request : Request) :
    AnswerStep request s (dispatchWithBpfAndExecutor request execute s) := by
  have hother : ∀ {command}, request.command = command → command ≠ cmdReset →
      ¬ request.IsReset := fun h hne hreset => hne (h.symm.trans hreset.2.1)
  have hstep := dispatch_step request execute s
  generalize dispatchWithBpfAndExecutor request execute s = out at hstep ⊢
  cases hstep with
  | reset h => exact .reset h
  | answered h hfits => exact .answered h hfits
  | accepted _ hcommand => exact .answered (hother hcommand (by decide)) (.nil _)
  | popped _ hcommand =>
      exact .answered (hother hcommand (by decide)) (.ok s.statusQueue.length_pop)
  | wrote _ hcommand => exact .answered (hother hcommand (by decide)) (.nil _)
  | ran _ hcommand => exact .answered (hother hcommand (by decide)) (.nil _)
  | started _ hcommand => exact .answered (hother hcommand (by decide)) (.nil _)

/-- A response is one frame: its status, the request's sequence, no flags. -/
theorem response_bytes (status sequence : UInt8) {payload : List UInt8} (output : Output)
    (h : payload.length ≤ maxPayload) :
    ∃ output', response status sequence payload output =
        (.response (headerLen + payload.length), output') ∧
      output'.toList.take (headerLen + payload.length) =
        (⟨status, sequence, 0, payload, h⟩ : Frame).bytes := by
  obtain ⟨output', hencode, hbytes⟩ := encodeResponse_frame ⟨status, sequence, 0, payload, h⟩ output
  refine ⟨output', ?_, hbytes⟩
  simp only at hencode
  simp only [response, hencode]

end dispatch

/-! ## what the callback queues -/

/- The frame whose request is answered is the last of the capture; the others
are parsed and dropped. -/

/-- A capture of nothing but frames, and at least one, of which `last` is the last. -/
def EndsWith (packet : List UInt8) (last : Frame) : Prop :=
  ∃ frames : List Frame, packet = (frames ++ [last]).flatMap Frame.bytes

namespace Firmware

variable {F : Type}

/-- What the callback may queue for a capture that ends with `last`: one frame
that answers it. -/
structure Answers (f : Firmware F) (last reply : Frame) : Prop where
  length : reply.bytes.length ≤ maxFrame
  decoded : parsePacket reply.bytes false = some reply.request
  flags : reply.flags = 0
  sequence : reply.sequence = last.sequence
  error : reply.command ≠ statusOk → reply.payload = []
  busy : f.captured.bpfExecutionActive = true → last.command ≠ cmdReset →
    reply.command = statusBusy

/-- A response that fits is one a master may rely on. -/
theorem answers_of_fits {f : Firmware F} {last : Frame} {status : UInt8} {payload : List UInt8}
    (hfits : Fits status payload)
    (hbusy : f.captured.bpfExecutionActive = true → last.command ≠ cmdReset →
      status = statusBusy) :
    f.Answers last ⟨status, last.sequence, 0, payload, hfits.length⟩ where
  length := by
    rw [Frame.length_bytes]
    exact Nat.add_le_add_left hfits.length headerLen
  decoded := parsePacket_eq_some.mpr ⟨[], _, (List.append_nil _).symm, rfl⟩
  flags := rfl
  sequence := rfl
  error := hfits.error
  busy := hbusy

/-- A response of the dispatcher is queued as one frame. -/
theorem queued_respond {f : Firmware F} {packet : List UInt8} {truncated : Bool}
    {request : Request} {invocation : Invocation} {s : DispatchState Runtime} {status : UInt8}
    {payload : List UInt8} (hparse : parsePacket packet truncated = some request)
    (hfree : ¬ (f.captured.bpfExecutionActive ∧ request.command ≠ cmdReset))
    (hdispatch : dispatchWithBpfAndExecutor request (startExecutor invocation) f.toDispatchState =
      s.respond request status payload)
    (h : payload.length ≤ maxPayload) :
    ∃ output, f.onI2cPacket packet truncated invocation =
      (some (⟨status, request.sequence, 0, payload, h⟩ : Frame).bytes,
        { f with toDispatchState := { s with output := output } }) := by
  obtain ⟨output, hresponse, hbytes⟩ := response_bytes status request.sequence s.output h
  refine ⟨output, ?_⟩
  simp only [onI2cPacket, hparse, if_neg hfree, hdispatch, DispatchState.respond, hresponse,
    hbytes]

/-- **One slot update per capture.** Whatever the state, a capture queues the
empty packet if it is not frames, requests a reset if its last frame does, and
otherwise queues one answer to that frame. -/
theorem capture_answered (f : Firmware F) (packet : List UInt8) (truncated : Bool)
    (invocation : Invocation) :
    let out := f.onI2cPacket packet truncated invocation
    ((truncated = true ∨ ¬ ∃ last, EndsWith packet last) → out = (some [], f)) ∧
      ∀ last, truncated = false → EndsWith packet last →
        (last.request.IsReset → out = (none, { f with resetPending := true })) ∧
        (¬ last.request.IsReset → out.2.resetPending = f.resetPending ∧
          ∃ reply, out.1 = some reply.bytes ∧ f.Answers last reply) := by
  intro out
  constructor
  · intro hbad
    have hparse : parsePacket packet truncated = none := by
      cases truncated with
      | true => rfl
      | false =>
          have hnone := hbad.resolve_left Bool.false_ne_true
          refine Option.eq_none_iff_forall_ne_some.mpr fun request hrequest => hnone ?_
          obtain ⟨frames, last, hpacket, -⟩ := parsePacket_eq_some.mp hrequest
          exact ⟨last, frames, hpacket⟩
    simp only [out, onI2cPacket, hparse]
  · rintro last rfl ⟨frames, hpacket⟩
    have hparse := parsePacket_eq_some.mpr ⟨frames, last, hpacket, rfl⟩
    by_cases hbusy : f.captured.bpfExecutionActive ∧ last.request.command ≠ cmdReset
    · -- an execution is in progress: the answer is busy, whatever is asked
      have hnot : ¬ last.request.IsReset := fun h => hbusy.2 h.2.1
      refine ⟨fun h => absurd h hnot, fun _ => ?_⟩
      obtain ⟨output, hresponse, hbytes⟩ :=
        response_bytes statusBusy last.sequence f.output (Fits.nil statusBusy).length
      have hsequence : last.request.sequence = last.sequence := rfl
      have hout : out =
          (some (⟨statusBusy, last.sequence, 0, [], (Fits.nil statusBusy).length⟩ : Frame).bytes,
            { f with output := output }) := by
        simp only [out, onI2cPacket, hparse, if_pos hbusy, statusResponse, hsequence, hresponse,
          hbytes]
      rw [hout]
      exact ⟨rfl, _, rfl, answers_of_fits (.nil _) fun _ _ => rfl⟩
    · have hstep := answer_step (startExecutor invocation) f.toDispatchState last.request
      generalize hdispatch : dispatchWithBpfAndExecutor last.request (startExecutor invocation)
        f.toDispatchState = answered at hstep
      cases hstep with
      | reset h =>
          refine ⟨fun _ => ?_, fun hnot => absurd h hnot⟩
          simp only [out, onI2cPacket, hparse, if_neg hbusy, hdispatch]
      | @answered s' status payload hnot hfits =>
          refine ⟨fun h => absurd h hnot, fun _ => ?_⟩
          obtain ⟨output, hout⟩ := queued_respond hparse hbusy hdispatch hfits.length
          refine ⟨congrArg (fun out => out.2.resetPending) hout, _, congrArg Prod.fst hout,
            answers_of_fits hfits fun hactive hcommand => ?_⟩
          exact absurd ⟨hactive, hcommand⟩ hbusy

end Firmware

end OptiBridge
