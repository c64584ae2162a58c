import OptiBridge.Dispatch
import OptiBridge.Lib.Machine
import OptiBridge.Timer

/-!
# OptiBridge.Firmware

The target firmware as a machine: the main loop, one statement at a time, and
the I2C callback, which may run whole between any two of them.  Only what the
main loop does inside a critical section is one step.

The interpreter is not part of the repository.  What an invocation does is
whatever its environment says it does: any helper calls with any arguments, any
bytes stored to the maps, any time spent and any result.

The history is a ghost: the machine writes it and reads nothing from it but the
names it gives to calls.

An invocation is told from its intermediate states: `duringLoadedBpf` is the
runtime in which the interpreter runs, and `executeLoadedBpf` what it is
afterwards; `duringStart` and `startExecutor` are the same for the Start of a
callback, which sets the flag around it.
-/

namespace OptiBridge

/-! ## histories -/

/- What happened to the timer and to the image, newest first; a call is named by
when it was made and for which image. -/

/-- A schedule call that was accepted: `number` tells it from every other, and
`image` counts the commits before it. -/
structure ScheduleCall where
  number : Nat
  image : Nat
  time : Nat
  delayMs : UInt64
  cookie : UInt64
deriving DecidableEq

/-- When the call is due. -/
def ScheduleCall.deadline (call : ScheduleCall) : Nat := call.time + call.delayMs.toNat

/-- An invocation for a timer: the call it comes from, the image it runs, when
it begins and the context it is given. -/
structure Delivery where
  call : ScheduleCall
  image : Nat
  time : Nat
  context : Vector UInt8 timerContextLen
deriving DecidableEq

/-- One entry of a history. -/
inductive Entry where
  | scheduled (call : ScheduleCall)
  | cancelled
  | committed
  | delivered (delivery : Delivery)
  | reset
deriving DecidableEq

/-- Newest first. -/
abbrev History := List Entry

/-- The schedule and cancel calls accepted since the last reset. -/
def accepted : History → Nat
  | [] => 0
  | .scheduled _ :: earlier | .cancelled :: earlier => accepted earlier + 1
  | .committed :: earlier | .delivered _ :: earlier => accepted earlier
  | .reset :: _ => 0

/-- The images committed so far. -/
def commits : History → Nat
  | [] => 0
  | .committed :: earlier => commits earlier + 1
  | .scheduled _ :: earlier | .cancelled :: earlier | .delivered _ :: earlier
  | .reset :: earlier => commits earlier

/-- The timer invocations so far. -/
def deliveries : History → List Delivery
  | [] => []
  | .delivered delivery :: earlier => delivery :: deliveries earlier
  | .scheduled _ :: earlier | .cancelled :: earlier | .committed :: earlier
  | .reset :: earlier => deliveries earlier

/-! ## invocations -/

/- Whatever a program does, it does by activities; the result is what its exit
returned. -/

/-- What the callback and the main loop share besides the protocol state. -/
structure Runtime where
  timer : TimerState ScheduleCall
  bpfExecutionActive : Bool
  activeMapHelpers : Option BpfProgramMetadata
  now : Nat
  history : History
deriving DecidableEq

/-- One thing a BPF invocation does. -/
inductive Activity where
  | schedule (delayMs cookie : UInt64)
  | cancel
  | store (mapBacking : MapBacking)
  | wait (ticks : Nat)

/-- A whole invocation; the result is the interpreter's. -/
structure Invocation where
  activities : List Activity
  result : Except Unit UInt64

namespace Runtime

/-- Activities on the timer and the clock. -/
def perform (runtime : Runtime) : Activity → Runtime
  | .schedule delayMs cookie =>
      let call : ScheduleCall :=
        ⟨runtime.history.length, commits runtime.history, runtime.now, delayMs, cookie⟩
      let scheduled := runtime.timer.bpfScheduleTimer runtime.now call delayMs cookie
      { runtime with
        timer := scheduled.2
        -- a call that is refused is no entry
        history := if scheduled.1 = 0 then .scheduled call :: runtime.history
          else runtime.history }
  | .cancel =>
      { runtime with
        timer := runtime.timer.bpfCancelTimer.2
        history := .cancelled :: runtime.history }
  | .store _ => runtime
  | .wait ticks => { runtime with now := runtime.now + ticks }

/-- `try_claim_bpf_execution`: whether the flag was down, and up it goes. -/
def tryClaimBpfExecution (runtime : Runtime) : Bool × Runtime :=
  if runtime.bpfExecutionActive then (false, runtime)
  else (true, { runtime with bpfExecutionActive := true })

/-- `release_bpf_execution`. -/
def releaseBpfExecution (runtime : Runtime) : Runtime :=
  { runtime with bpfExecutionActive := false }

/-- Whoever holds the flag keeps it. -/
theorem tryClaimBpfExecution_active {runtime : Runtime} (h : runtime.bpfExecutionActive = true) :
    runtime.tryClaimBpfExecution = (false, runtime) := if_pos h

/-- A flag that is down is claimed. -/
theorem tryClaimBpfExecution_idle {runtime : Runtime} (h : runtime.bpfExecutionActive = false) :
    runtime.tryClaimBpfExecution = (true, { runtime with bpfExecutionActive := true }) :=
  if_neg (by simp [h])

end Runtime

/-- Activities on the maps. -/
def Activity.stored (mapBacking : MapBacking) : Activity → MapBacking
  | .store stored => stored
  | .schedule .. | .cancel | .wait _ => mapBacking

/-- The middle of `execute_loaded_bpf`: the map helpers are set, and the
interpreter has done these activities. -/
def duringLoadedBpf (metadata : BpfProgramMetadata) (activities : List Activity)
    (mapBacking : MapBacking) (runtime : Runtime) : MapBacking × Runtime :=
  (activities.foldl Activity.stored mapBacking,
    activities.foldl Runtime.perform { runtime with activeMapHelpers := some metadata })

/-- `execute_loaded_bpf`: an interpreter error is `STATUS_BAD_COMMAND`. -/
def executeLoadedBpf (metadata : BpfProgramMetadata) (invocation : Invocation)
    (mapBacking : MapBacking) (runtime : Runtime) :
    Except UInt8 UInt64 × MapBacking × Runtime :=
  let during := duringLoadedBpf metadata invocation.activities mapBacking runtime
  -- the helpers are cleared whatever the interpreter returned
  let result := match invocation.result with
    | .ok value => .ok value
    | .error _ => .error statusBadCommand
  (result, during.1, { during.2 with activeMapHelpers := none })

/-- The middle of a Start: the execution is claimed, and its program has done
these activities. -/
def duringStart (metadata : BpfProgramMetadata) (activities : List Activity)
    (mapBacking : MapBacking) (runtime : Runtime) : MapBacking × Runtime :=
  duringLoadedBpf metadata activities mapBacking runtime.tryClaimBpfExecution.2

/-- The executor `on_i2c_packet` hands to the dispatcher: claim, execute, release. -/
def startExecutor (invocation : Invocation) : Executor Runtime :=
  fun metadata mapBacking runtime =>
    match runtime.tryClaimBpfExecution with
    | (false, runtime) => (.error statusBusy, mapBacking, runtime)
    | (true, runtime) =>
        let executed := executeLoadedBpf metadata invocation mapBacking runtime
        (executed.1, executed.2.1, executed.2.2.releaseBpfExecution)

/-! ## the machine -/

/- The main loop's position is part of the state, so that a capture may come
between any two of its statements. -/

/-- The statement the main loop runs next, with what it holds. -/
inductive Statement where
  | checkReset
  | checkPending
  | waitForI2cBusIdle
  | executePending
  | pollTimer
  | takeReadyTimer
  | claim (event : TimerEvent ScheduleCall)
  | checkGeneration (event : TimerEvent ScheduleCall)
  | fetchMetadata (event : TimerEvent ScheduleCall)
  | invoke (event : TimerEvent ScheduleCall) (metadata : BpfProgramMetadata)
  | invoked
  | release
  | sleep
deriving DecidableEq

/-- The firmware; `captured` is what its executor threads. -/
structure Firmware (F : Type) extends DispatchState Runtime where
  flash : F
  resetPending : Bool
  next : Statement

/-- One thing that can happen to the firmware: the main loop runs a statement, a
timer invocation in progress does something, a capture arrives, time passes. -/
inductive FirmwareEvent where
  | main (busIdle : Bool)
  | activity (activity : Activity)
  | packet (bytes : List UInt8) (truncated : Bool) (invocation : Invocation)
  | tick (ticks : Nat)

namespace Firmware

variable {F : Type}

/-- Whether executing what was pending has committed an image: it was a
Finalize, and the loader is committed now. -/
def loadOperationCommits (before after : BpfLoader) : Bool :=
  -- a committed loader stays so while nothing is pending, so its state alone does not tell
  match before.pending, after.state with
  | some .finalize, .committed _ => true
  | _, _ => false

/-- The I2C callback, and the packet it queues for the master, if any. -/
def onI2cPacket (f : Firmware F) (packet : List UInt8) (truncated : Bool)
    (invocation : Invocation) : Option (List UInt8) × Firmware F :=
  match parsePacket packet truncated with
  | none => (some [], f)
  | some request =>
      -- a program is running: all but a Reset is refused
      if f.captured.bpfExecutionActive ∧ request.command ≠ cmdReset then
        let busy := statusResponse statusBusy request.sequence f.output
        let length := match busy.1 with
          | .response length => length
          | .empty | .reset => 0
        (some (busy.2.toList.take length), { f with output := busy.2 })
      else
        match dispatchWithBpfAndExecutor request (startExecutor invocation) f.toDispatchState with
        | (.response length, s) =>
            (some (s.output.toList.take length), { f with toDispatchState := s })
        | (.empty, s) => (some [], { f with toDispatchState := s })
        -- nothing is queued; the main loop finds the mark
        | (.reset, s) => (none, { f with toDispatchState := s, resetPending := true })

variable [BpfFlash F]

/-- Start-up: the statics are as declared, the backing is zeroed and whatever
the flash holds is validated. -/
def boot (flash : F) (now : Nat) (history : History) : Firmware F :=
  let validated := BpfLoader.new.validateCommitted flash
  { statusQueue := .ready
    loader := validated.1
    mapBacking := Vector.replicate _ 0
    output := Vector.replicate _ 0
    captured := ⟨.new, false, none, now, history⟩
    flash := validated.2
    resetPending := false
    next := .checkReset }

/-- The main loop's `execute_pending`. -/
def executePending (f : Firmware F) : Firmware F :=
  let executed := f.loader.executePending f.flash
  let history := if loadOperationCommits f.loader executed.1 then .committed :: f.captured.history
    else f.captured.history
  { f with
    loader := executed.1
    flash := executed.2
    captured := { f.captured with history := history } }

/-- One statement of the main loop; `execute_timer_event` is inlined. -/
def mainStep (f : Firmware F) (busIdle : Bool) : Firmware F :=
  match f.next with
  | .checkReset =>
      if f.resetPending then boot f.flash f.captured.now (.reset :: f.captured.history)
      else { f with next := .checkPending }
  -- a Load accepted after this look is executed without a look at the bus
  | .checkPending =>
      { f with next := if f.loader.hasPending then .waitForI2cBusIdle else .executePending }
  | .waitForI2cBusIdle => { f with next := if busIdle then .executePending else .checkReset }
  | .executePending => { f.executePending with next := .pollTimer }
  | .pollTimer =>
      { f with
        captured := { f.captured with timer := f.captured.timer.pollTimer f.captured.now }
        next := .takeReadyTimer }
  -- from here on the main loop alone holds the event
  | .takeReadyTimer =>
      let taken := f.captured.timer.takeReadyTimer
      { f with
        captured := { f.captured with timer := taken.2 }
        next := match taken.1 with
          | some event => .claim event
          | none => .sleep }
  | .claim event =>
      match f.captured.tryClaimBpfExecution with
      | (false, captured) =>
          { f with
            captured := { captured with timer := captured.timer.restoreReadyTimer event }
            next := .sleep }
      | (true, captured) => { f with captured := captured, next := .checkGeneration event }
  -- an event that is too old is dropped, not put back
  | .checkGeneration event =>
      { f with
        next := if f.captured.timer.generation = event.generation then .fetchMetadata event
          else .release }
  | .fetchMetadata event =>
      { f with
        next := match f.loader.eventExecutionMetadata with
          | .ok metadata => .invoke event metadata
          | .error _ => .release }
  -- the activities come one by one, as events of their own
  | .invoke event metadata =>
      let delivery : Delivery :=
        ⟨event.source, commits f.captured.history, f.captured.now, timerContext event.cookie⟩
      { f with
        captured := { f.captured with
          activeMapHelpers := some metadata
          history := .delivered delivery :: f.captured.history }
        next := .invoked }
  | .invoked =>
      { f with
        captured := { f.captured with activeMapHelpers := none }
        next := .release }
  | .release => { f with captured := f.captured.releaseBpfExecution, next := .sleep }
  | .sleep => { f with next := .checkReset }

/-- One activity of the timer invocation in progress. -/
def activityStep (f : Firmware F) (activity : Activity) : Firmware F :=
  if f.next = .invoked then
    { f with
      captured := f.captured.perform activity
      mapBacking := activity.stored f.mapBacking }
  else f

/-- One event. -/
def step (f : Firmware F) : FirmwareEvent → Firmware F
  | .main busIdle => f.mainStep busIdle
  | .activity activity => f.activityStep activity
  | .packet bytes truncated invocation => (f.onI2cPacket bytes truncated invocation).2
  | .tick ticks => { f with captured := { f.captured with now := f.captured.now + ticks } }

/-- The firmware after a list of events. -/
def run (f : Firmware F) (es : List FirmwareEvent) : Firmware F := Machine.run step f es

end Firmware

end OptiBridge
