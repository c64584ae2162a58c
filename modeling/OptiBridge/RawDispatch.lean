import OptiBridge.RawLoader

/-!
# OptiBridge.RawDispatch

The dispatcher once more, with its panics spelled out.  Every response it encodes
fits, whatever the request.

A handler is written as in `OptiBridge.Dispatch`, one definition for each
command; the differences are the binds, where a step of the handler may panic.
The lemma of a handler says that its outcome and the state it leaves are the
model's, with the bounds dropped, so that what is proved of the model is true of
it.
-/

namespace OptiBridge

open Bytes

namespace Raw

open Checked

/-! ## dispatch -/

/- What one request does.  The executor is a parameter, as in the model. -/

/-- The state one request is dispatched against. -/
structure DispatchState (σ : Type) where
  statusQueue : StatusQueue
  loader : BpfLoader
  mapBacking : MapBacking
  output : Output
  captured : σ

section dispatch

variable {σ : Type}

/-- Encode a response into the output buffer of the state. -/
def DispatchState.respond (s : DispatchState σ) (request : Request) (status : UInt8)
    (payload : List UInt8) : Checked (PacketOutcome × DispatchState σ) := do
  let answer ← response status request.sequence payload s.output
  pure (answer.1, { s with output := answer.2 })

/-- `dispatch`: the commands that need no loader. -/
def dispatch (request : Request) (s : DispatchState σ) :
    Checked (PacketOutcome × DispatchState σ) :=
  if request.flags ≠ 0 then s.respond request statusBadFlags []
  else if request.command = cmdReset then
    if request.payloadLen = 0 then pure (.reset, s) else s.respond request statusBadLength []
  else if request.command = cmdReadStatus then
    if request.payloadLen = 0 then do
      let popped ← s.statusQueue.pop
      DispatchState.respond { s with statusQueue := popped.2 } request statusOk popped.1
    else s.respond request statusBadLength []
  else if request.command = cmdLoadBpf ∨ request.command = cmdStartBpf ∨
      request.command = cmdReadBpfMap ∨ request.command = cmdWriteBpfMap then
    s.respond request
      (if request.payloadLen = 0 then statusNotImplemented else statusBadLength) []
  else s.respond request statusBadCommand []

/-- A Load is answered with what acceptance says. -/
def dispatchLoad (request : Request) (s : DispatchState σ) :
    Checked (PacketOutcome × DispatchState σ) := do
  match ← acceptsLoad s.loader request with
  | (.ok _, loader) => DispatchState.respond { s with loader := loader } request statusOk []
  | (.error status, loader) => DispatchState.respond { s with loader := loader } request status []

/-- A Read takes exactly four payload bytes, which are then read at fixed
places. -/
def dispatchReadMap (request : Request) (s : DispatchState σ) :
    Checked (PacketOutcome × DispatchState σ) :=
  if request.payloadLen ≠ 4 then s.respond request statusBadLength []
  else do
    let byteLength ← index request.payload 3
    let byteOffset ← u16At request.payload.toList 1
    let mapId ← index request.payload 0
    match ← readMap s.loader mapId byteOffset byteLength s.mapBacking with
    | .ok bytes => s.respond request statusOk bytes
    | .error status => s.respond request status []

/-- A Write unpacks its location from two bytes and writes the rest, whose
beginning is a slice of the request. -/
def dispatchWriteMap (request : Request) (s : DispatchState σ) :
    Checked (PacketOutcome × DispatchState σ) := do
  let least ← add 8 mapWriteLocationSize 1
  if request.payloadLen.toNat < least then s.respond request statusBadLength []
  else
    let mapLocation ← u16At request.payload.toList 0
    if mapLocation &&& 0xe000 ≠ 0 then s.respond request statusBadLength []
    else
      let mapId ← cast 8 ((mapLocation >>> 10) &&& 0x07).toNat
      let byteOffset := mapLocation &&& 0x03ff
      let replacement ←
        slice request.payload.toList mapWriteLocationSize request.payloadLen.toNat
      match ← writeMap s.loader (UInt8.ofNat mapId) byteOffset replacement s.mapBacking with
      | (.ok _, mapBacking) =>
          DispatchState.respond { s with mapBacking := mapBacking } request statusOk []
      | (.error status, mapBacking) =>
          DispatchState.respond { s with mapBacking := mapBacking } request status []

/-- A Start fetches the metadata and hands them to the executor, which is not
part of this crate: whatever it returns is taken as it comes. -/
def dispatchStart (request : Request) (execute : Executor σ) (s : DispatchState σ) :
    Checked (PacketOutcome × DispatchState σ) :=
  if request.payloadLen ≠ 0 then s.respond request statusBadLength []
  else do
    match ← executionMetadata s.loader with
    | .error status => s.respond request status []
    | .ok metadata =>
        let executed := execute metadata s.mapBacking s.captured
        let s := { s with mapBacking := executed.2.1, captured := executed.2.2 }
        match executed.1 with
        | .ok value =>
            if value = 0 then
              match s.loader.markRunning with
              | (.ok _, loader) =>
                  DispatchState.respond { s with loader := loader } request statusOk []
              | (.error _, loader) =>
                  DispatchState.respond { s with loader := loader } request statusBadState []
            else s.respond request statusBadCommand []
        | .error status => s.respond request status []

/-- A CRC query answers with four bytes or with a status. -/
def dispatchQuery (request : Request) (s : DispatchState σ) :
    Checked (PacketOutcome × DispatchState σ) :=
  if request.payloadLen ≠ 0 then s.respond request statusBadLength []
  else
    match s.loader.query with
    | .ok crc => s.respond request statusOk (toLe 4 crc.toNat)
    | .error status => s.respond request status []

/-- All commands, in the source's order of tests. -/
def dispatchWithBpfAndExecutor (request : Request) (execute : Executor σ)
    (s : DispatchState σ) : Checked (PacketOutcome × DispatchState σ) :=
  if request.flags ≠ 0 then s.respond request statusBadFlags []
  else if request.command = cmdLoadBpf then dispatchLoad request s
  else if request.command = cmdReadBpfMap then dispatchReadMap request s
  else if request.command = cmdWriteBpfMap then dispatchWriteMap request s
  else if request.command = cmdStartBpf then dispatchStart request execute s
  else if request.command = cmdQueryBpfCrc then dispatchQuery request s
  else dispatch request s

end dispatch

end Raw

/-! ## in bounds, nothing panics -/

section bounds

open Checked

variable {σ : Type} {request : Request} {execute : Executor σ} {s : DispatchState σ}

/-- Drop the bounds of a dispatch state. -/
abbrev DispatchState.raw (self : DispatchState σ) : Raw.DispatchState σ where
  statusQueue := self.statusQueue.raw
  loader := self.loader
  mapBacking := self.mapBacking
  output := self.output
  captured := self.captured

/-- An outcome and a state, with the bounds dropped. -/
def rawOutcome (out : PacketOutcome × DispatchState σ) : PacketOutcome × Raw.DispatchState σ :=
  (out.1, out.2.raw)

/-- A payload that fits is encoded, and the response is the model's. -/
theorem raw_respond (s : DispatchState σ) (request : Request) (status : UInt8)
    {payload : List UInt8} (h : payload.length ≤ maxPayload) :
    s.raw.respond request.raw status payload =
      .ok (rawOutcome (s.respond request status payload)) := by
  unfold Raw.DispatchState.respond
  rw [raw_response _ _ _ h, ok_bind]
  rfl

/-- An answer without payload. -/
theorem raw_respond_nil (s : DispatchState σ) (request : Request) (status : UInt8) :
    s.raw.respond request.raw status [] = .ok (rawOutcome (s.respond request status [])) :=
  raw_respond s request status (Nat.zero_le _)

/-- The plain dispatcher, which does without the loader, runs without a panic. -/
theorem raw_dispatch (request : Request) (s : DispatchState σ) :
    Raw.dispatch request.raw s.raw = .ok (rawOutcome (dispatch request s)) := by
  unfold Raw.dispatch dispatch
  split_ifs with hflags hreset hempty hstatus hempty
  · exact raw_respond_nil ..
  · rfl
  · exact raw_respond_nil ..
  · rw [raw_pop, ok_bind]
    exact raw_respond { s with statusQueue := s.statusQueue.pop.2 } request statusOk
      s.statusQueue.length_pop
  all_goals exact raw_respond_nil ..

/-- A Load is dispatched without a panic. -/
theorem raw_dispatchLoad (request : Request) (s : DispatchState σ) :
    Raw.dispatchLoad request.raw s.raw = .ok (rawOutcome (dispatchLoad request s)) := by
  unfold Raw.dispatchLoad dispatchLoad
  rw [raw_acceptsLoad, ok_bind]
  obtain ⟨accepted, loader⟩ := s.loader.acceptsLoad request
  cases accepted with
  | error status => exact raw_respond_nil { s with loader := loader } request status
  | ok => exact raw_respond_nil { s with loader := loader } request statusOk

/-- A Read is dispatched without a panic; what it returns fits a response, for a
longer range is refused. -/
theorem raw_dispatchReadMap (request : Request) (s : DispatchState σ) :
    Raw.dispatchReadMap request.raw s.raw = .ok (rawOutcome (dispatchReadMap request s)) := by
  unfold Raw.dispatchReadMap dispatchReadMap
  split_ifs with hlen
  · exact raw_respond_nil ..
  · rw [index_vector _ (by decide), ok_bind, u16At_vector _ (by decide), ok_bind,
      index_vector _ (by decide), ok_bind, raw_readMap, ok_bind]
    simp only
    cases hread : s.loader.readMap (byteAt request.payload 0 rfl)
        (u16FromLeBytes (byteAt request.payload 1 rfl)
          (byteAt request.payload 2 rfl))
        (byteAt request.payload 3 rfl) s.mapBacking with
    | error status => exact raw_respond_nil ..
    | ok bytes => exact raw_respond s request statusOk (s.loader.length_readMap hread)

/-- The map id of a location fits its byte. -/
theorem mapIdBits_lt (x : UInt16) : ((x >>> 10) &&& 0x07).toNat < 2 ^ 8 := by
  rw [UInt16.toNat_and]
  exact Nat.lt_of_le_of_lt Nat.and_le_right (by decide)

/-- A Write is dispatched without a panic: the slice behind the location is
taken only once the length has been checked. -/
theorem raw_dispatchWriteMap (request : Request) (s : DispatchState σ) :
    Raw.dispatchWriteMap request.raw s.raw = .ok (rawOutcome (dispatchWriteMap request s)) := by
  unfold Raw.dispatchWriteMap dispatchWriteMap
  rw [add_ok (by decide), ok_bind]
  split_ifs with hlen
  · exact raw_respond_nil ..
  · rw [u16At_vector _ (by decide), ok_bind]
    simp only [Nat.zero_add]
    generalize u16FromLeBytes (byteAt request.payload 0 rfl)
      (byteAt request.payload 1 rfl) = location
    by_cases hreserved : location &&& 0xe000 ≠ 0
    · rw [if_pos hreserved, if_pos hreserved]
      exact raw_respond_nil ..
    have hid : ((location >>> 10) &&& 0x07).toNat < 2 ^ 8 := mapIdBits_lt location
    have hpayload : request.payloadLen.toNat ≤ 16 := request.payloadLen_le
    have hlen : 3 ≤ request.payloadLen.toNat := Nat.le_of_not_lt hlen
    have hslice : slice request.payload.toList mapWriteLocationSize request.payloadLen.toNat =
        .ok (request.bytes.drop mapWriteLocationSize) :=
      slice_ok (by show 2 ≤ _; omega) (by simpa using hpayload)
    rw [if_neg hreserved, if_neg hreserved, cast_ok hid, ok_bind, hslice, ok_bind, raw_writeMap,
      ok_bind]
    have hsame : UInt8.ofNat ((location >>> 10) &&& 0x07).toNat =
        ((location >>> 10) &&& 0x07).toUInt8 := rfl
    rw [hsame]
    obtain ⟨written, mapBacking⟩ := s.loader.writeMap ((location >>> 10) &&& 0x07).toUInt8
      (location &&& 0x03ff) (request.bytes.drop mapWriteLocationSize) s.mapBacking
    cases written with
    | error status => exact raw_respond_nil { s with mapBacking := mapBacking } request status
    | ok => exact raw_respond_nil { s with mapBacking := mapBacking } request statusOk

/-- A Start copies the metadata of at most eight maps. -/
theorem raw_dispatchStart (request : Request) (execute : Executor σ)
    (hcount : s.loader.committedMapCount.toNat ≤ bpfMaxMaps) :
    Raw.dispatchStart request.raw execute s.raw =
      .ok (rawOutcome (dispatchStart request execute s)) := by
  unfold Raw.dispatchStart dispatchStart
  split_ifs with hlen
  · exact raw_respond_nil ..
  · rw [raw_executionMetadata hcount, ok_bind]
    cases s.loader.executionMetadata with
    | error status => exact raw_respond_nil ..
    | ok metadata =>
        simp only
        obtain ⟨result, mapBacking, captured⟩ := execute metadata s.mapBacking s.captured
        cases result with
        | error status =>
            exact raw_respond_nil { s with mapBacking := mapBacking, captured := captured }
              request status
        | ok value =>
            simp only
            split_ifs with hvalue
            · obtain ⟨marked, loader⟩ := s.loader.markRunning
              cases marked with
              | error status =>
                  exact raw_respond_nil
                    { s with mapBacking := mapBacking, captured := captured, loader := loader }
                    request statusBadState
              | ok =>
                  exact raw_respond_nil
                    { s with mapBacking := mapBacking, captured := captured, loader := loader }
                    request statusOk
            · exact raw_respond_nil { s with mapBacking := mapBacking, captured := captured }
                request statusBadCommand

/-- A query is dispatched without a panic. -/
theorem raw_dispatchQuery (request : Request) (s : DispatchState σ) :
    Raw.dispatchQuery request.raw s.raw = .ok (rawOutcome (dispatchQuery request s)) := by
  unfold Raw.dispatchQuery dispatchQuery
  split_ifs with hlen
  · exact raw_respond_nil ..
  · cases s.loader.query with
    | error status => exact raw_respond_nil ..
    | ok crc => exact raw_respond s request statusOk (by rw [length_toLe]; decide)

/-- **Dispatch.** No request that a parser returns makes the dispatcher panic, if
the loader has committed at most eight maps. -/
theorem raw_dispatchWithBpfAndExecutor (request : Request) (execute : Executor σ)
    (hcount : s.loader.committedMapCount.toNat ≤ bpfMaxMaps) :
    Raw.dispatchWithBpfAndExecutor request.raw execute s.raw =
      .ok (rawOutcome (dispatchWithBpfAndExecutor request execute s)) := by
  unfold Raw.dispatchWithBpfAndExecutor dispatchWithBpfAndExecutor
  split_ifs
  · exact raw_respond_nil ..
  · exact raw_dispatchLoad ..
  · exact raw_dispatchReadMap ..
  · exact raw_dispatchWriteMap ..
  · exact raw_dispatchStart request execute hcount
  · exact raw_dispatchQuery ..
  · exact raw_dispatch ..

end bounds

end OptiBridge
