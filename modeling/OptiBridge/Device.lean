import OptiBridge.Dispatch
import OptiBridge.Lib.Machine
import OptiBridge.LoaderSteps

/-!
# OptiBridge.Device

The target as its host sees it: the protocol state, the map backing and the
flash, driven by any interleaving of I2C requests and main-loop
`execute_pending` calls.  The executor records each invocation, so a run shows
which images were executed.

Two observations of a run matter to the loader: the Load operations that were
acknowledged and the ones that were executed.

The two are compared in `OptiBridge.LoadOrder`.  Both are read off the effect of
an event: an operation is acknowledged by the response its Load gets, and
executed by the loader and the flash that are left behind (`executes`).
-/

namespace OptiBridge

/-! ## the machine -/

/- Four parts of state: loader, queue, maps and response buffer, and beside them
the flash and the list of programs that were run. -/

/-- The device; `captured` lists the metadata of every invocation so far. -/
structure Device (F : Type) extends DispatchState (List BpfProgramMetadata) where
  flash : F

/-- What a Start's interpreter does: a result, and the backing it leaves. -/
abbrev HostExecutor := BpfProgramMetadata → MapBacking → Except UInt8 UInt64 × MapBacking

/-- An executor that records its invocations. -/
def recording (execute : HostExecutor) : Executor (List BpfProgramMetadata) :=
  fun metadata mapBacking invocations =>
    let executed := execute metadata mapBacking
    (executed.1, executed.2, invocations ++ [metadata])

/-- One thing that can happen to the device. -/
inductive Event where
  | request (request : Request) (execute : HostExecutor)
  | executePending

namespace Device

variable {F : Type}

/-- The device before boot. -/
def new (statusQueue : StatusQueue) (mapBacking : MapBacking) (output : Output) (flash : F) :
    Device F where
  statusQueue := statusQueue
  loader := BpfLoader.new
  mapBacking := mapBacking
  output := output
  captured := []
  flash := flash

/-- Serve one request. -/
def dispatched (d : Device F) (request : Request) (execute : HostExecutor) :
    PacketOutcome × DispatchState (List BpfProgramMetadata) :=
  dispatchWithBpfAndExecutor request (recording execute) d.toDispatchState

/-- What the master reads back. -/
def reply (d : Device F) (request : Request) (execute : HostExecutor) : Option Reply :=
  replyOf (d.dispatched request execute)

/-- The status a request is answered with. -/
def status (d : Device F) (request : Request) (execute : HostExecutor) : Option UInt8 :=
  (d.reply request execute).map Reply.status

variable [BpfFlash F]

/-- Boot: validate whatever the flash holds. -/
def validate (d : Device F) : Device F :=
  let validated := d.loader.validateCommitted d.flash
  { d with loader := validated.1, flash := validated.2 }

/-- The device a reset leaves behind. -/
def boot (statusQueue : StatusQueue) (mapBacking : MapBacking) (output : Output) (flash : F) :
    Device F :=
  (new statusQueue mapBacking output flash).validate

/-- The main loop's turn. -/
def executePending (d : Device F) : Device F :=
  let executed := d.loader.executePending d.flash
  { d with loader := executed.1, flash := executed.2 }

/-- One event. -/
def step (d : Device F) : Event → Device F
  | .request request execute => { d with toDispatchState := (d.dispatched request execute).2 }
  | .executePending => d.executePending

/-- The device after a list of events. -/
def run (d : Device F) (es : List Event) : Device F := Machine.run step d es

theorem run_concat (d : Device F) (es : List Event) (e : Event) :
    d.run (es ++ [e]) = (d.run es).step e := Machine.run_concat step d es e

theorem run_append (d : Device F) (xs ys : List Event) :
    d.run (xs ++ ys) = (d.run xs).run ys := Machine.run_append step d xs ys

/-! ## what a run does with Load operations -/

/- Acknowledged, executed, and what executing means (`BpfLoader.perform`). -/

end Device

/-- What one operation alone does to a loader whose slot it has left, and to the
flash. -/
def BpfLoader.perform {F : Type} [BpfFlash F] (self : BpfLoader) (flash : F) :
    LoadOperation → BpfLoader × F
  | .begin bytecodeLen mapCount expectedCrc => self.begin flash bytecodeLen mapCount expectedCrc
  | .data offset bytes len => self.data flash offset bytes len
  | .finalize => self.finalize flash

/-- Executing what is pending is to take it out of the slot and carry it out. -/
theorem BpfLoader.executePending_perform {F : Type} [BpfFlash F] {self : BpfLoader} (flash : F)
    {operation : LoadOperation} (hpending : self.pending = some operation) :
    self.executePending flash =
      ({ self with pending := none } : BpfLoader).perform flash operation := by
  unfold executePending
  rw [hpending]
  cases operation <;> rfl

namespace Device

variable {F : Type} [BpfFlash F]

/-- The device once an operation has left the slot and done what it does. -/
def performed (d : Device F) (operation : LoadOperation) : Device F :=
  let out := ({ d.loader with pending := none } : BpfLoader).perform d.flash operation
  { d with loader := out.1, flash := out.2 }

/-- The operation that is due: `execute_pending` is called on whatever is pending. -/
def due (d : Device F) : Event → List LoadOperation
  | .request _ _ => []
  | .executePending => d.loader.pending.toList

open scoped Classical in
/-- The operations an event executes: the pending one, if the event leaves the
device as that operation does.  This is read off the loader and the flash before
and after, not off the slot. -/
noncomputable def executes (d : Device F) : Event → List LoadOperation
  | .request _ _ => []
  | .executePending =>
      d.loader.pending.toList.filter fun operation => d.step .executePending = d.performed operation

/-- The operation an event acknowledges: the one a Load answered with
`STATUS_OK` encodes. -/
def acknowledges (d : Device F) : Event → List LoadOperation
  | .request request execute =>
      if request.command = cmdLoadBpf ∧ d.status request execute = some statusOk then
        (encodedOperation request).toList
      else []
  | .executePending => []

/-- Every operation executed along a run, in order. -/
noncomputable def executed (d : Device F) (es : List Event) : List LoadOperation :=
  Machine.trace step executes d es

/-- Every operation acknowledged along a run, in order. -/
def acknowledged (d : Device F) (es : List Event) : List LoadOperation :=
  Machine.trace step acknowledges d es

/-- A request executes no operation. -/
@[simp] theorem executes_request (d : Device F) (request : Request) (execute : HostExecutor) :
    d.executes (.request request execute) = [] := rfl

/-- The main loop does what the pending operation does. -/
theorem step_executePending (d : Device F) {operation : LoadOperation}
    (hpending : d.loader.pending = some operation) :
    d.step .executePending = d.performed operation := by
  have hexecuted := BpfLoader.executePending_perform d.flash hpending
  simp only [step, executePending, performed, hexecuted]

/-- So what it executes is what is pending. -/
@[simp] theorem executes_executePending (d : Device F) :
    d.executes .executePending = d.loader.pending.toList := by
  unfold executes
  cases hpending : d.loader.pending with
  | none => rfl
  | some operation => simp [d.step_executePending hpending]

end Device

/-! ## answers -/

/- The status of a reply, for the commands later modules ask about. -/

namespace Device

variable {F : Type} (d : Device F) {request : Request} (execute : HostExecutor)

/-- An answer without payload has the status it was given. -/
theorem status_of_respond {s : DispatchState (List BpfProgramMetadata)} {status : UInt8}
    {payload : List UInt8}
    (h : d.dispatched request execute = s.respond request status payload)
    (hpayload : payload.length ≤ maxPayload) : d.status request execute = some status := by
  rw [Device.status, reply, h, replyOf_respond s request status hpayload]
  rfl

/-- A Load is answered with what `accepts_load` decided. -/
theorem status_load (hflags : request.flags = 0) (hcommand : request.command = cmdLoadBpf) :
    d.status request execute =
      some (match d.loader.loadOperation request with
        | .ok _ => statusOk
        | .error status => status) := by
  have hdispatch : d.dispatched request execute = dispatchLoad request d.toDispatchState :=
    dispatch_load _ _ hflags hcommand
  unfold dispatchLoad BpfLoader.acceptsLoad at hdispatch
  cases hop : d.loader.loadOperation request with
  | ok operation =>
      rw [hop] at hdispatch
      exact d.status_of_respond execute hdispatch (by decide)
  | error status =>
      rw [hop] at hdispatch
      exact d.status_of_respond execute hdispatch (by decide)

/-- A request with flags set is answered `STATUS_BAD_FLAGS`. -/
theorem status_badFlags (hflags : request.flags ≠ 0) :
    d.status request execute = some statusBadFlags :=
  d.status_of_respond execute (dispatch_badFlags _ _ hflags) (by decide)

/-- A CRC query is answered with the CRC, or the loader's reason not to. -/
theorem reply_query (hflags : request.flags = 0) (hcommand : request.command = cmdQueryBpfCrc)
    (hlen : request.payloadLen = 0) :
    d.reply request execute =
      some (match d.loader.query with
        | .ok crc => ⟨statusOk, request.sequence, 0, Bytes.toLe 4 crc.toNat⟩
        | .error status => ⟨status, request.sequence, 0, []⟩) := by
  have hdispatch : d.dispatched request execute = dispatchQuery request d.toDispatchState :=
    dispatch_query _ _ hflags hcommand
  rw [reply, hdispatch, dispatchQuery, if_neg (not_not.mpr hlen)]
  cases hquery : d.loader.query with
  | ok crc => exact replyOf_respond _ _ _ (by simp [maxPayload])
  | error status => exact replyOf_respond _ _ _ (by decide)

end Device

end OptiBridge
