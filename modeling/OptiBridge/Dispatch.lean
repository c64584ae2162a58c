import OptiBridge.Loader

/-!
# OptiBridge.Dispatch

Action dispatch: one request against the status queue, the loader and the map
backing, answered in a fixed response buffer.

The executor of the source is an `FnMut` closure; here it is a function that
also threads whatever state the closure captures, so a caller that records
invocations and the firmware that claims its execution flag are two instances
of the same dispatcher.

The arms of the source's `match` are one definition each, and
`dispatchWithBpfAndExecutor` is the match.  Its equations (`dispatch_load` and so
on) pick the arm of a command; the step lemmas (`dispatch_step`, `loader_step`,
`map_step`) say once what a dispatch may do to the whole state, to the loader
and to the maps, so that no invariant has to look at the arms again.
-/

namespace OptiBridge

open Bytes

/-- The response buffer, which is as long as a frame. -/
abbrev Output := Vector UInt8 maxFrame

/-- What the callback does with a capture: queue so many bytes of the response
buffer, queue nothing, or note a reset. -/
inductive PacketOutcome where
  | response (length : Nat)
  | empty
  | reset
deriving DecidableEq

/-- What a Start runs: it may change the backing and whatever it captures. -/
abbrev Executor (σ : Type) :=
  BpfProgramMetadata → MapBacking → σ → Except UInt8 UInt64 × MapBacking × σ

/-- The state one request is dispatched against. -/
structure DispatchState (σ : Type) where
  statusQueue : StatusQueue
  loader : BpfLoader
  mapBacking : MapBacking
  output : Output
  captured : σ

/-! ## responses -/

/- A response is written over the front of the buffer, and its length is what
the caller queues. -/

/-- Encode a response.  An encoder error would leave a bare header; no payload of
the dispatcher is that long. -/
def response (status sequence : UInt8) (payload : List UInt8) (output : Output) :
    PacketOutcome × Output :=
  match encodeResponse status sequence 0 payload output with
  | (.ok length, output) => (.response length, output)
  | (.error _, output) => (.response headerLen, output)

/-- A response without payload. -/
def statusResponse (status sequence : UInt8) (output : Output) : PacketOutcome × Output :=
  response status sequence [] output

namespace DispatchState

variable {σ : Type}

/-- Answer in the state's own response buffer. -/
def respond (s : DispatchState σ) (request : Request) (status : UInt8)
    (payload : List UInt8) : PacketOutcome × DispatchState σ :=
  let answer := response status request.sequence payload s.output
  (answer.1, { s with output := answer.2 })

end DispatchState

/-! ## dispatch -/

/- The order of the tests is the source's: flags, then the command, then
whatever the command needs. -/

section dispatch

variable {σ : Type}

/-- `dispatch`: the commands that need no loader. -/
def dispatch (request : Request) (s : DispatchState σ) : PacketOutcome × DispatchState σ :=
  if request.flags ≠ 0 then s.respond request statusBadFlags []
  else if request.command = cmdReset then
    if request.payloadLen = 0 then (.reset, s) else s.respond request statusBadLength []
  else if request.command = cmdReadStatus then
    if request.payloadLen = 0 then
      let popped := s.statusQueue.pop
      { s with statusQueue := popped.2 }.respond request statusOk popped.1
    else s.respond request statusBadLength []
  else if request.command = cmdLoadBpf ∨ request.command = cmdStartBpf ∨
      request.command = cmdReadBpfMap ∨ request.command = cmdWriteBpfMap then
    s.respond request
      (if request.payloadLen = 0 then statusNotImplemented else statusBadLength) []
  else s.respond request statusBadCommand []

/-- A Load is answered with what acceptance says, and has no other effect than
the pending operation. -/
def dispatchLoad (request : Request) (s : DispatchState σ) : PacketOutcome × DispatchState σ :=
  match s.loader.acceptsLoad request with
  | (.ok _, loader) => { s with loader := loader }.respond request statusOk []
  | (.error status, loader) => { s with loader := loader }.respond request status []

/-- A Read names a map, an offset and a length, four bytes in all. -/
def dispatchReadMap (request : Request) (s : DispatchState σ) :
    PacketOutcome × DispatchState σ :=
  if request.payloadLen ≠ 4 then s.respond request statusBadLength []
  else
    let mapId := byteAt request.payload 0 rfl
    let byteOffset := u16FromLeBytes (byteAt request.payload 1 rfl)
      (byteAt request.payload 2 rfl)
    let byteLength := byteAt request.payload 3 rfl
    match s.loader.readMap mapId byteOffset byteLength s.mapBacking with
    | .ok bytes => s.respond request statusOk bytes
    | .error status => s.respond request status []

/-- A Write packs map and offset into two bytes, whose top three bits must be
clear; the rest is data. -/
def dispatchWriteMap (request : Request) (s : DispatchState σ) :
    PacketOutcome × DispatchState σ :=
  if request.payloadLen.toNat < mapWriteLocationSize + 1 then
    s.respond request statusBadLength []
  else
    let mapLocation := u16FromLeBytes (byteAt request.payload 0 rfl)
      (byteAt request.payload 1 rfl)
    if mapLocation &&& 0xe000 ≠ 0 then s.respond request statusBadLength []
    else
      let mapId := ((mapLocation >>> 10) &&& 0x07).toUInt8
      let byteOffset := mapLocation &&& 0x03ff
      let replacement := request.bytes.drop mapWriteLocationSize
      match s.loader.writeMap mapId byteOffset replacement s.mapBacking with
      | (.ok _, mapBacking) => { s with mapBacking := mapBacking }.respond request statusOk []
      | (.error status, mapBacking) =>
          { s with mapBacking := mapBacking }.respond request status []

/-- A Start runs the program there and then.  If it returns zero the loader is
running; any other value is a bad command, and an executor that fails says with
which status. -/
def dispatchStart (request : Request) (execute : Executor σ) (s : DispatchState σ) :
    PacketOutcome × DispatchState σ :=
  if request.payloadLen ≠ 0 then s.respond request statusBadLength []
  else
    match s.loader.executionMetadata with
    | .error status => s.respond request status []
    | .ok metadata =>
        let executed := execute metadata s.mapBacking s.captured
        -- what the program did to the maps stays, whatever it returns
        let s := { s with mapBacking := executed.2.1, captured := executed.2.2 }
        match executed.1 with
        | .ok value =>
            if value = 0 then
              match s.loader.markRunning with
              | (.ok _, loader) => { s with loader := loader }.respond request statusOk []
              | (.error _, loader) => { s with loader := loader }.respond request statusBadState []
            -- the loader stays committed, so the program may be started again
            else s.respond request statusBadCommand []
        | .error status => s.respond request status []

/-- A CRC query. -/
def dispatchQuery (request : Request) (s : DispatchState σ) : PacketOutcome × DispatchState σ :=
  if request.payloadLen ≠ 0 then s.respond request statusBadLength []
  else
    match s.loader.query with
    | .ok crc => s.respond request statusOk (toLe 4 crc.toNat)
    | .error status => s.respond request status []

/-- The arms of `dispatch_with_bpf_and_executor`, one definition a command. -/
def dispatchWithBpfAndExecutor (request : Request) (execute : Executor σ)
    (s : DispatchState σ) : PacketOutcome × DispatchState σ :=
  if request.flags ≠ 0 then s.respond request statusBadFlags []
  else if request.command = cmdLoadBpf then dispatchLoad request s
  else if request.command = cmdReadBpfMap then dispatchReadMap request s
  else if request.command = cmdWriteBpfMap then dispatchWriteMap request s
  else if request.command = cmdStartBpf then dispatchStart request execute s
  else if request.command = cmdQueryBpfCrc then dispatchQuery request s
  else dispatch request s

end dispatch

/-! ## what the master reads -/

/- The frame at the front of the buffer, taken apart again. -/

/-- A response frame, taken apart. -/
structure Reply where
  status : UInt8
  sequence : UInt8
  flags : UInt8
  payload : List UInt8
deriving DecidableEq

section reply

variable {σ : Type}

/-- The response a dispatch left in the buffer, if it left one. -/
def replyOf : PacketOutcome × DispatchState σ → Option Reply
  | (.response length, s) =>
      some ⟨byteAt s.output 1 rfl, byteAt s.output 3 rfl,
        byteAt s.output 4 rfl, (s.output.toList.take length).drop headerLen⟩
  | _ => none

/-- The frame `encodeResponse` leaves for a payload that fits. -/
theorem encodeResponse_of_le (status sequence flags : UInt8) {payload : List UInt8}
    (output : Output) (h : payload.length ≤ maxPayload) :
    ∃ output', encodeResponse status sequence flags payload output =
        (.ok (headerLen + payload.length), output') ∧
      output'[1] = status ∧ output'[3] = sequence ∧ output'[4] = flags ∧
      (output'.toList.drop headerLen).take payload.length = payload := by
  rw [encodeResponse, if_neg (Nat.not_lt.mpr h)]
  refine ⟨_, rfl, ?_, ?_, ?_, ?_⟩
  · rw [getElem_copySlice_of_not_mem _ _ _ _ fun hi => absurd hi.1 (by decide)]
    simp
  · rw [getElem_copySlice_of_not_mem _ _ _ _ fun hi => absurd hi.1 (by decide)]
    simp
  · rw [getElem_copySlice_of_not_mem _ _ _ _ fun hi => absurd hi.1 (by decide)]
    simp
  · exact slice_copySlice _ _ _ (Nat.add_le_add_left h headerLen)

/-- What a read returns fits a response. -/
theorem BpfLoader.length_readMap {self : BpfLoader} {mapId byteLength : UInt8}
    {byteOffset : UInt16} {backing : MapBacking} {bytes : List UInt8}
    (h : self.readMap mapId byteOffset byteLength backing = .ok bytes) :
    bytes.length ≤ maxPayload := by
  unfold readMap at h
  split_ifs at h with hlen
  simp only [not_or, Nat.not_lt] at hlen
  split at h
  · contradiction
  · rw [← Except.ok.inj h]
    exact (List.length_take_le _ _).trans hlen.2

/-- A status message fits a response. -/
theorem StatusQueue.length_pop (self : StatusQueue) : self.pop.1.length ≤ maxPayload :=
  (List.length_take_le _ _).trans self.newestLen_le

/-- A payload that fits is answered as given, with zero flags. -/
theorem replyOf_respond (s : DispatchState σ) (request : Request) (status : UInt8)
    {payload : List UInt8} (h : payload.length ≤ maxPayload) :
    replyOf (s.respond request status payload) =
      some ⟨status, request.sequence, 0, payload⟩ := by
  obtain ⟨output', hencode, hstatus, hsequence, hflags, hpayload⟩ :=
    encodeResponse_of_le status request.sequence 0 s.output h
  simp only [DispatchState.respond, response, hencode, replyOf, hstatus, hsequence, hflags,
    List.drop_take, Nat.add_sub_cancel_left, hpayload]

/-- A response leaves the loader as it is. -/
@[simp] theorem respond_loader (s : DispatchState σ) (request : Request) (status : UInt8)
    (payload : List UInt8) : (s.respond request status payload).2.loader = s.loader := by
  simp only [DispatchState.respond]

/-- A response leaves the queue as it is. -/
@[simp] theorem respond_statusQueue (s : DispatchState σ) (request : Request) (status : UInt8)
    (payload : List UInt8) :
    (s.respond request status payload).2.statusQueue = s.statusQueue := by
  simp only [DispatchState.respond]

/-- A response leaves the backing as it is. -/
@[simp] theorem respond_mapBacking (s : DispatchState σ) (request : Request) (status : UInt8)
    (payload : List UInt8) :
    (s.respond request status payload).2.mapBacking = s.mapBacking := by
  simp only [DispatchState.respond]

/-- A response leaves what the executor has captured as it is. -/
@[simp] theorem respond_captured (s : DispatchState σ) (request : Request) (status : UInt8)
    (payload : List UInt8) : (s.respond request status payload).2.captured = s.captured := by
  simp only [DispatchState.respond]

end reply

/-! ## which arm answers -/

/- Equations by which later proofs get at one arm without unfolding the match. -/

section arms

variable {σ : Type} {request : Request} (execute : Executor σ) (s : DispatchState σ)

/-- Flags are looked at before the command. -/
theorem dispatch_badFlags (hflags : request.flags ≠ 0) :
    dispatchWithBpfAndExecutor request execute s = s.respond request statusBadFlags [] := by
  simp [dispatchWithBpfAndExecutor, hflags]

/-- The Load arm. -/
theorem dispatch_load (hflags : request.flags = 0) (hcommand : request.command = cmdLoadBpf) :
    dispatchWithBpfAndExecutor request execute s = dispatchLoad request s := by
  simp [dispatchWithBpfAndExecutor, hflags, hcommand]

/-- The Read arm. -/
theorem dispatch_readMap (hflags : request.flags = 0)
    (hcommand : request.command = cmdReadBpfMap) :
    dispatchWithBpfAndExecutor request execute s = dispatchReadMap request s := by
  simp [dispatchWithBpfAndExecutor, hflags, hcommand, cmdReadBpfMap, cmdLoadBpf]

/-- The Write arm. -/
theorem dispatch_writeMap (hflags : request.flags = 0)
    (hcommand : request.command = cmdWriteBpfMap) :
    dispatchWithBpfAndExecutor request execute s = dispatchWriteMap request s := by
  simp [dispatchWithBpfAndExecutor, hflags, hcommand, cmdWriteBpfMap, cmdReadBpfMap, cmdLoadBpf]

/-- The Start arm. -/
theorem dispatch_start (hflags : request.flags = 0) (hcommand : request.command = cmdStartBpf) :
    dispatchWithBpfAndExecutor request execute s = dispatchStart request execute s := by
  simp [dispatchWithBpfAndExecutor, hflags, hcommand, cmdStartBpf, cmdWriteBpfMap,
    cmdReadBpfMap, cmdLoadBpf]

/-- The CRC query arm. -/
theorem dispatch_query (hflags : request.flags = 0)
    (hcommand : request.command = cmdQueryBpfCrc) :
    dispatchWithBpfAndExecutor request execute s = dispatchQuery request s := by
  simp [dispatchWithBpfAndExecutor, hflags, hcommand, cmdQueryBpfCrc, cmdStartBpf,
    cmdWriteBpfMap, cmdReadBpfMap, cmdLoadBpf]

/-- The Reset arm is reached by way of the plain dispatcher, which has the same
test on flags once more. -/
theorem dispatch_reset (hcommand : request.command = cmdReset) :
    dispatchWithBpfAndExecutor request execute s =
      if request.flags ≠ 0 then s.respond request statusBadFlags []
      else if request.payloadLen = 0 then (.reset, s)
      else s.respond request statusBadLength [] := by
  by_cases hflags : request.flags = 0
  · simp [dispatchWithBpfAndExecutor, dispatch, hflags, hcommand, cmdReset, cmdQueryBpfCrc,
      cmdStartBpf, cmdWriteBpfMap, cmdReadBpfMap, cmdLoadBpf]
  · rw [dispatch_badFlags execute s hflags, if_pos hflags]

end arms

/-! ## what a dispatch does -/

/- The step relation of a whole dispatch, with the answer it gives. -/

/-- A Reset as the protocol defines it: zero flags and no payload. -/
def Request.IsReset (request : Request) : Prop :=
  request.flags = 0 ∧ request.command = cmdReset ∧ request.payloadLen = 0

instance (request : Request) : Decidable request.IsReset :=
  inferInstanceAs (Decidable (_ ∧ _ ∧ _))

/-- A response the encoder takes: its payload fits, and an error carries none. -/
structure Fits (status : UInt8) (payload : List UInt8) : Prop where
  length : payload.length ≤ maxPayload
  error : status ≠ statusOk → payload = []

theorem Fits.nil (status : UInt8) : Fits status [] := ⟨Nat.zero_le _, fun _ => rfl⟩

/-- What is sent with `STATUS_OK` need only fit. -/
theorem Fits.ok {payload : List UInt8} (h : payload.length ≤ maxPayload) : Fits statusOk payload :=
  ⟨h, fun hne => absurd rfl hne⟩

/-- The map and the offset the location of a Write names. -/
def writeTarget (request : Request) : UInt8 × UInt16 :=
  let location := u16FromLeBytes (byteAt request.payload 0 rfl)
    (byteAt request.payload 1 rfl)
  (((location >>> 10) &&& 0x07).toUInt8, location &&& 0x03ff)

/-- A write is refused, or it is one copy into the range it names. -/
theorem BpfLoader.writeMap_cases (self : BpfLoader) (mapId : UInt8) (byteOffset : UInt16)
    (replacement : List UInt8) (backing : MapBacking) :
    (∃ status, self.writeMap mapId byteOffset replacement backing = (.error status, backing)) ∨
      ∃ start, self.mapRange mapId byteOffset replacement.length = .ok start ∧
        self.writeMap mapId byteOffset replacement backing =
          (.ok (), copySlice backing start replacement) := by
  unfold writeMap
  split_ifs with hlen
  · exact .inl ⟨_, rfl⟩
  · cases hrange : self.mapRange mapId byteOffset replacement.length with
    | error status => exact .inl ⟨_, rfl⟩
    | ok start => exact .inr ⟨start, rfl, rfl⟩

/-- The metadata Start runs is handed out in exactly one loader state. -/
theorem BpfLoader.executionMetadata_ok {self : BpfLoader} {metadata : BpfProgramMetadata} :
    self.executionMetadata = .ok metadata ↔
      self.pending = none ∧ (∃ crc, self.state = .committed crc) ∧
        self.committedMetadata = metadata := by
  unfold executionMetadata
  cases hpending : self.pending with
  | some operation => simp
  | none => cases hstate : self.state <;> simp

section steps

variable {σ : Type}

/-- The state a Start leaves once its program has run. -/
def DispatchState.executed (s : DispatchState σ) (execute : Executor σ)
    (metadata : BpfProgramMetadata) : DispatchState σ :=
  { s with
    mapBacking := (execute metadata s.mapBacking s.captured).2.1
    captured := (execute metadata s.mapBacking s.captured).2.2 }

/-- Every way a dispatch goes: with what it answers, and with all it changes
besides the response buffer. -/
inductive DispatchStep (request : Request) (execute : Executor σ) (s : DispatchState σ) :
    PacketOutcome × DispatchState σ → Prop where
  | reset (h : request.IsReset) : DispatchStep request execute s (.reset, s)
  | answered {status : UInt8} {payload : List UInt8} (h : ¬ request.IsReset)
      (hfits : Fits status payload) :
      DispatchStep request execute s (s.respond request status payload)
  | accepted {operation : LoadOperation} (hflags : request.flags = 0)
      (hcommand : request.command = cmdLoadBpf)
      (hop : s.loader.loadOperation request = .ok operation) :
      DispatchStep request execute s
        ({ s with loader := { s.loader with pending := some operation } }.respond
          request statusOk [])
  | popped (hflags : request.flags = 0) (hcommand : request.command = cmdReadStatus) :
      DispatchStep request execute s
        ({ s with statusQueue := s.statusQueue.pop.2 }.respond
          request statusOk s.statusQueue.pop.1)
  | wrote {start : Nat} (hflags : request.flags = 0) (hcommand : request.command = cmdWriteBpfMap)
      (hrange : s.loader.mapRange (writeTarget request).1 (writeTarget request).2
        (request.bytes.drop mapWriteLocationSize).length = .ok start) :
      DispatchStep request execute s
        ({ s with
            mapBacking := copySlice s.mapBacking start
              (request.bytes.drop mapWriteLocationSize) }.respond request statusOk [])
  | ran {metadata : BpfProgramMetadata} {status : UInt8} (hflags : request.flags = 0)
      (hcommand : request.command = cmdStartBpf) (hlen : request.payloadLen = 0)
      (hmetadata : s.loader.executionMetadata = .ok metadata) :
      DispatchStep request execute s ((s.executed execute metadata).respond request status [])
  | started {metadata : BpfProgramMetadata} {crc : UInt32} (hflags : request.flags = 0)
      (hcommand : request.command = cmdStartBpf) (hlen : request.payloadLen = 0)
      (hmetadata : s.loader.executionMetadata = .ok metadata)
      (hstate : s.loader.state = .committed crc) :
      DispatchStep request execute s
        ({ s.executed execute metadata with
            loader := { s.loader with state := .running crc } }.respond request statusOk [])

/-- A Start runs the program and answers by what it returns. -/
theorem start_step {request : Request} (execute : Executor σ) (s : DispatchState σ)
    (hflags : request.flags = 0) (hcommand : request.command = cmdStartBpf) :
    DispatchStep request execute s (dispatchStart request execute s) := by
  have hreset : ¬ request.IsReset := fun h => by simp [h.2.1, cmdReset, cmdStartBpf] at hcommand
  unfold dispatchStart
  split_ifs with hlen
  · exact .answered hreset (.nil _)
  · have hlen := not_not.mp hlen
    cases hmetadata : s.loader.executionMetadata with
    | error status => exact .answered hreset (.nil _)
    | ok metadata =>
        obtain ⟨-, ⟨crc, hstate⟩, -⟩ := BpfLoader.executionMetadata_ok.mp hmetadata
        cases hresult : (execute metadata s.mapBacking s.captured).1 with
        | error status =>
            simp only [hresult]
            exact .ran hflags hcommand hlen hmetadata
        | ok value =>
            by_cases hvalue : value = 0
            · simp only [hresult, hvalue, if_true, BpfLoader.markRunning, hstate]
              exact .started hflags hcommand hlen hmetadata hstate
            · simp only [hresult, hvalue, if_false]
              exact .ran hflags hcommand hlen hmetadata

/-- **Dispatch step.** -/
theorem dispatch_step (request : Request) (execute : Executor σ) (s : DispatchState σ) :
    DispatchStep request execute s (dispatchWithBpfAndExecutor request execute s) := by
  by_cases hreset : request.IsReset
  · obtain ⟨hflags, hcommand, hlen⟩ := hreset
    rw [dispatch_reset execute s hcommand, if_neg (not_not.mpr hflags), if_pos hlen]
    exact .reset ⟨hflags, hcommand, hlen⟩
  have hempty : ∀ status, DispatchStep request execute s (s.respond request status []) :=
    fun status => .answered hreset (.nil status)
  unfold dispatchWithBpfAndExecutor
  split_ifs with hflags hload hread hwrite hstart hquery
  · exact hempty _
  · unfold dispatchLoad BpfLoader.acceptsLoad
    cases hop : s.loader.loadOperation request with
    | error status => exact hempty _
    | ok operation => exact .accepted (not_not.mp hflags) hload hop
  · unfold dispatchReadMap
    split_ifs with hlen
    · exact hempty _
    · simp only
      split
      · next bytes hbytes => exact .answered hreset (.ok (s.loader.length_readMap hbytes))
      · exact hempty _
  · unfold dispatchWriteMap
    simp only
    split_ifs with hlen hlocation
    · exact hempty _
    · exact hempty _
    · cases s.loader.writeMap_cases (writeTarget request).1 (writeTarget request).2
          (request.bytes.drop mapWriteLocationSize) s.mapBacking with
      | inl h =>
          obtain ⟨status, hwritten⟩ := h
          simp only [writeTarget] at hwritten
          rw [hwritten]
          exact hempty _
      | inr h =>
          obtain ⟨start, hrange, hwritten⟩ := h
          simp only [writeTarget] at hwritten
          rw [hwritten]
          exact .wrote (not_not.mp hflags) hwrite hrange
  · exact start_step execute s (not_not.mp hflags) hstart
  · unfold dispatchQuery
    split_ifs
    · exact hempty _
    · split
      · next crc _ => exact .answered hreset (.ok (by simp [maxPayload]))
      · exact hempty _
  · have hflags := not_not.mp hflags
    unfold dispatch
    rw [if_neg (not_not.mpr hflags)]
    split_ifs with hcommand hlen hstatus hlen
    · exact absurd ⟨hflags, hcommand, hlen⟩ hreset
    · exact hempty _
    · exact .popped hflags hstatus
    all_goals exact hempty _

end steps

/-! ## what a dispatch does to the loader -/

/- The same, as far as the loader is concerned. -/

section loader

variable {σ : Type}

/-- Every way a dispatch leaves the loader, with what it answered where the
loader changed. -/
inductive LoaderStep (request : Request) (execute : Executor σ) (s : DispatchState σ) :
    PacketOutcome × DispatchState σ → Prop where
  | kept {out : PacketOutcome × DispatchState σ} (hloader : out.2.loader = s.loader) :
      LoaderStep request execute s out
  | accepted {out : PacketOutcome × DispatchState σ} {operation : LoadOperation}
      (hflags : request.flags = 0) (hcommand : request.command = cmdLoadBpf)
      (hop : s.loader.loadOperation request = .ok operation)
      (hloader : out.2.loader = { s.loader with pending := some operation }) :
      LoaderStep request execute s out
  | started {out : PacketOutcome × DispatchState σ} {crc : UInt32}
      (hflags : request.flags = 0) (hcommand : request.command = cmdStartBpf)
      (hpending : s.loader.pending = none) (hstate : s.loader.state = .committed crc)
      (hloader : out.2.loader = { s.loader with state := .running crc }) :
      LoaderStep request execute s out

/-- Whatever a request is, one of three things happens to the loader: nothing, a
Load is accepted, or a program that returned zero makes it running. -/
theorem loader_step (request : Request) (execute : Executor σ) (s : DispatchState σ) :
    LoaderStep request execute s (dispatchWithBpfAndExecutor request execute s) := by
  have hstep := dispatch_step request execute s
  generalize dispatchWithBpfAndExecutor request execute s = out at hstep ⊢
  cases hstep with
  | reset => exact .kept rfl
  | answered => exact .kept (respond_loader ..)
  | accepted hflags hcommand hop => exact .accepted hflags hcommand hop (respond_loader ..)
  | popped => exact .kept (respond_loader ..)
  | wrote => exact .kept (respond_loader ..)
  | ran => exact .kept (respond_loader ..)
  | started hflags hcommand hlen hmetadata hstate =>
      have hpending := (BpfLoader.executionMetadata_ok.mp hmetadata).1
      exact .started hflags hcommand hpending hstate (respond_loader ..)

end loader

/-! ## what a dispatch does to the maps -/

/- The same, as far as the backing and the executor's state are concerned. -/

section maps

variable {σ : Type}

/-- Every way a dispatch leaves the backing and what the executor threads. -/
inductive MapStep (request : Request) (execute : Executor σ) (s : DispatchState σ) :
    PacketOutcome × DispatchState σ → Prop where
  | kept {out : PacketOutcome × DispatchState σ} (hbacking : out.2.mapBacking = s.mapBacking)
      (hcaptured : out.2.captured = s.captured) : MapStep request execute s out
  | wrote {out : PacketOutcome × DispatchState σ} {start : Nat} (hflags : request.flags = 0)
      (hcommand : request.command = cmdWriteBpfMap)
      (hrange : s.loader.mapRange (writeTarget request).1 (writeTarget request).2
        (request.bytes.drop mapWriteLocationSize).length = .ok start)
      (hbacking : out.2.mapBacking =
        copySlice s.mapBacking start (request.bytes.drop mapWriteLocationSize))
      (hcaptured : out.2.captured = s.captured) : MapStep request execute s out
  | executed {out : PacketOutcome × DispatchState σ} {metadata : BpfProgramMetadata}
      (hflags : request.flags = 0) (hcommand : request.command = cmdStartBpf)
      (hmetadata : s.loader.executionMetadata = .ok metadata)
      (hbacking : out.2.mapBacking = (execute metadata s.mapBacking s.captured).2.1)
      (hcaptured : out.2.captured = (execute metadata s.mapBacking s.captured).2.2) :
      MapStep request execute s out

/-- Whatever a request is, one of three things happens to the maps: nothing, one
write by the host, or one execution. -/
theorem map_step (request : Request) (execute : Executor σ) (s : DispatchState σ) :
    MapStep request execute s (dispatchWithBpfAndExecutor request execute s) := by
  have hstep := dispatch_step request execute s
  generalize dispatchWithBpfAndExecutor request execute s = out at hstep ⊢
  cases hstep with
  | reset => exact .kept rfl rfl
  | answered => exact .kept (respond_mapBacking ..) (respond_captured ..)
  | accepted => exact .kept (respond_mapBacking ..) (respond_captured ..)
  | popped => exact .kept (respond_mapBacking ..) (respond_captured ..)
  | wrote hflags hcommand hrange =>
      exact .wrote hflags hcommand hrange (respond_mapBacking ..) (respond_captured ..)
  | ran hflags hcommand hlen hmetadata =>
      exact .executed hflags hcommand hmetadata (respond_mapBacking ..) (respond_captured ..)
  | started hflags hcommand hlen hmetadata =>
      exact .executed hflags hcommand hmetadata (respond_mapBacking ..) (respond_captured ..)

end maps

end OptiBridge
