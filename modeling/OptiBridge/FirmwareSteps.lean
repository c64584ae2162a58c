import OptiBridge.Firmware
import OptiBridge.Flash

/-!
# OptiBridge.FirmwareSteps

What each step of the firmware can do, said once: histories grow by one entry,
activities commute with the execution flag, a capture keeps the main loop
where it is and touches the runtime only by a whole invocation, and a statement
of the main loop moves on, or does one of ten things.

`PacketStep` and `MainStep` are the two inversions.  Between them they name
everything that a later invariant has to be shown to survive; a proof about runs
is a case split over their constructors, and none unfolds `onI2cPacket` or
`mainStep`.
-/

namespace OptiBridge

/-! ## histories -/

/- A history lists the newest entry first.  `Since` finds a call in it and counts
those accepted after it, up to the last reset. -/

theorem accepted_append {recent : History} (h : .reset ∉ recent) (earlier : History) :
    accepted (recent ++ earlier) = accepted recent + accepted earlier := by
  induction recent with
  | nil => simp [accepted]
  | cons entry recent ih =>
      simp only [List.mem_cons, not_or] at h
      have hrest := ih h.2
      cases entry with
      | scheduled call => simp only [List.cons_append, accepted, hrest]; omega
      | cancelled => simp only [List.cons_append, accepted, hrest]; omega
      | committed => simpa only [List.cons_append, accepted] using hrest
      | delivered delivery => simpa only [List.cons_append, accepted] using hrest
      | reset => exact absurd rfl h.1

theorem accepted_cons {entry : Entry} (h : entry ≠ .reset) (earlier : History) :
    accepted (entry :: earlier) = accepted [entry] + accepted earlier := by
  have hreset : Entry.reset ∉ [entry] := by simpa using h.symm
  exact accepted_append hreset earlier

/-- `call` was accepted and `later` more calls after it, with no reset since. -/
def Since (history : History) (call : ScheduleCall) (later : Nat) : Prop :=
  ∃ recent earlier, history = recent ++ .scheduled call :: earlier ∧ .reset ∉ recent ∧
    accepted recent = later

/-- A call that has just been accepted. -/
theorem Since.here (call : ScheduleCall) (earlier : History) :
    Since (.scheduled call :: earlier) call 0 :=
  ⟨[], earlier, rfl, by simp, rfl⟩

theorem Since.cons {history : History} {call : ScheduleCall} {later : Nat} {entry : Entry}
    (h : Since history call later) (hentry : entry ≠ .reset) :
    Since (entry :: history) call (accepted [entry] + later) := by
  obtain ⟨recent, earlier, rfl, hreset, rfl⟩ := h
  refine ⟨entry :: recent, earlier, rfl, ?_, accepted_cons hentry recent⟩
  simp [hentry.symm, hreset]

/-! ## activities -/

/- An invocation does its activities to a runtime with the flag up; since none
of them reads the flag or the helpers, they may as well be done with the flag as
it was. -/

namespace Runtime

/-- Activities neither read nor write the flag and the helper pointer. -/
theorem perform_with (runtime : Runtime) (active : Bool) (helpers : Option BpfProgramMetadata)
    (activity : Activity) :
    { runtime with bpfExecutionActive := active, activeMapHelpers := helpers }.perform activity =
      { runtime.perform activity with
        bpfExecutionActive := active, activeMapHelpers := helpers } := by
  cases activity <;> rfl

/-- So for all activities of an invocation. -/
theorem foldl_perform_with (runtime : Runtime) (active : Bool)
    (helpers : Option BpfProgramMetadata) (activities : List Activity) :
    activities.foldl perform
        { runtime with bpfExecutionActive := active, activeMapHelpers := helpers } =
      { activities.foldl perform runtime with
        bpfExecutionActive := active, activeMapHelpers := helpers } := by
  induction activities generalizing runtime with
  | nil => rfl
  | cons activity activities ih =>
      rw [List.foldl_cons, perform_with, ih]
      rfl

end Runtime

/-- In the middle of a Start the flag is up and the map helpers are its own. -/
theorem duringStart_eq {runtime : Runtime} (h : runtime.bpfExecutionActive = false)
    (metadata : BpfProgramMetadata) (activities : List Activity) (mapBacking : MapBacking) :
    duringStart metadata activities mapBacking runtime =
      (activities.foldl Activity.stored mapBacking,
        { activities.foldl Runtime.perform runtime with
          bpfExecutionActive := true, activeMapHelpers := some metadata }) := by
  rw [duringStart, Runtime.tryClaimBpfExecution_idle h]
  exact congrArg (Prod.mk _) (runtime.foldl_perform_with true (some metadata) activities)

/-- A Start that may run ends from where its last activity has left it. -/
theorem startExecutor_ends {runtime : Runtime} (h : runtime.bpfExecutionActive = false)
    (invocation : Invocation) (metadata : BpfProgramMetadata) (mapBacking : MapBacking) :
    let during := duringStart metadata invocation.activities mapBacking runtime
    (startExecutor invocation metadata mapBacking runtime).2 =
      (during.1, { during.2 with bpfExecutionActive := false, activeMapHelpers := none }) := by
  simp only [startExecutor, Runtime.tryClaimBpfExecution_idle h, executeLoadedBpf, duringStart]
  rfl

/-- A Start that may run: the invocation as a whole, between flag and flag. -/
theorem startExecutor_idle {runtime : Runtime} (h : runtime.bpfExecutionActive = false)
    (invocation : Invocation) (metadata : BpfProgramMetadata) (mapBacking : MapBacking) :
    (startExecutor invocation metadata mapBacking runtime).2 =
      (invocation.activities.foldl Activity.stored mapBacking,
        { invocation.activities.foldl Runtime.perform runtime with
          bpfExecutionActive := false, activeMapHelpers := none }) := by
  have hends := startExecutor_ends h invocation metadata mapBacking
  simpa only [duringStart_eq h] using hends

/-! ## captures -/

/- A capture leaves maps and runtime alone, or writes to a map, or is a Start
that runs a whole invocation. -/

namespace Firmware

variable {F : Type}

/-- Every way a capture leaves the firmware. -/
inductive PacketStep (f : Firmware F) (packet : List UInt8) (truncated : Bool)
    (invocation : Invocation) : Firmware F → Prop where
  | kept {f' : Firmware F} (hnext : f'.next = f.next) (hcaptured : f'.captured = f.captured)
      (hbacking : f'.mapBacking = f.mapBacking) : PacketStep f packet truncated invocation f'
  | wrote {f' : Firmware F} {request : Request} {start : Nat}
      (hparse : parsePacket packet truncated = some request)
      (hactive : f.captured.bpfExecutionActive = false)
      (hcommand : request.flags = 0 ∧ request.command = cmdWriteBpfMap)
      (hrange : f.loader.mapRange (writeTarget request).1 (writeTarget request).2
        (request.bytes.drop mapWriteLocationSize).length = .ok start)
      (hbacking : f'.mapBacking =
        Bytes.copySlice f.mapBacking start (request.bytes.drop mapWriteLocationSize))
      (hnext : f'.next = f.next) (hcaptured : f'.captured = f.captured) :
      PacketStep f packet truncated invocation f'
  | executed {f' : Firmware F} {request : Request} {metadata : BpfProgramMetadata}
      (hparse : parsePacket packet truncated = some request)
      (hactive : f.captured.bpfExecutionActive = false)
      (hcommand : request.flags = 0 ∧ request.command = cmdStartBpf)
      (hmetadata : f.loader.executionMetadata = .ok metadata) (hnext : f'.next = f.next)
      (hcaptured : f'.captured =
        { invocation.activities.foldl Runtime.perform f.captured with
          bpfExecutionActive := false, activeMapHelpers := none })
      (hbacking : f'.mapBacking = invocation.activities.foldl Activity.stored f.mapBacking) :
      PacketStep f packet truncated invocation f'

/-- A dispatched request changes the firmware as it changes the protocol state. -/
theorem onI2cPacket_dispatched {f : Firmware F} {packet : List UInt8} {truncated : Bool}
    {request : Request} (hparse : parsePacket packet truncated = some request)
    (hfree : ¬ (f.captured.bpfExecutionActive ∧ request.command ≠ cmdReset))
    (invocation : Invocation) :
    (f.onI2cPacket packet truncated invocation).2.next = f.next ∧
      (f.onI2cPacket packet truncated invocation).2.toDispatchState =
        (dispatchWithBpfAndExecutor request (startExecutor invocation) f.toDispatchState).2 := by
  simp only [onI2cPacket, hparse, if_neg hfree]
  generalize dispatchWithBpfAndExecutor request (startExecutor invocation) f.toDispatchState = out
  obtain ⟨outcome, s⟩ := out
  cases outcome <;> exact ⟨rfl, rfl⟩

/-- Every capture is one of these. -/
theorem packet_step (f : Firmware F) (packet : List UInt8) (truncated : Bool)
    (invocation : Invocation) :
    PacketStep f packet truncated invocation (f.onI2cPacket packet truncated invocation).2 := by
  cases hparse : parsePacket packet truncated with
  | none =>
      simp only [onI2cPacket, hparse]
      exact .kept rfl rfl rfl
  | some request =>
      by_cases hbusy : f.captured.bpfExecutionActive ∧ request.command ≠ cmdReset
      · simp only [onI2cPacket, hparse, if_pos hbusy]
        exact .kept rfl rfl rfl
      · obtain ⟨hnext, hstate⟩ := onI2cPacket_dispatched hparse hbusy invocation
        have hactive : request.command ≠ cmdReset → f.captured.bpfExecutionActive = false :=
          fun h => Bool.eq_false_iff.mpr fun hactive => hbusy ⟨hactive, h⟩
        have hcap := congrArg DispatchState.captured hstate
        have hmaps := congrArg DispatchState.mapBacking hstate
        have hstep := map_step request (startExecutor invocation) f.toDispatchState
        cases hstep with
        | kept hbacking hcaptured =>
            exact .kept hnext (hcap.trans hcaptured) (hmaps.trans hbacking)
        | wrote hflags hcommand hrange hbacking hcaptured =>
            have hidle := hactive (by rw [hcommand]; decide)
            exact .wrote hparse hidle ⟨hflags, hcommand⟩ hrange (hmaps.trans hbacking) hnext
              (hcap.trans hcaptured)
        | executed hflags hcommand hmetadata hbacking hcaptured =>
            have hidle := hactive (by rw [hcommand]; decide)
            rw [startExecutor_idle hidle] at hbacking hcaptured
            exact .executed hparse hidle ⟨hflags, hcommand⟩ hmetadata hnext
              (hcap.trans hcaptured) (hmaps.trans hbacking)

/-- A capture does not move the main loop. -/
theorem next_packet (f : Firmware F) (bytes : List UInt8) (truncated : Bool)
    (invocation : Invocation) : (f.onI2cPacket bytes truncated invocation).2.next = f.next := by
  have hstep := packet_step f bytes truncated invocation
  cases hstep with
  | kept hnext | wrote _ _ _ _ _ hnext | executed _ _ _ _ hnext => exact hnext

/-- A Start of a committed image runs its invocation; unless the result is zero,
the loader stays as it is. -/
theorem start_packet {f : Firmware F} {packet : List UInt8} {request : Request}
    {metadata : BpfProgramMetadata} {invocation : Invocation}
    (hparse : parsePacket packet false = some request)
    (hcommand : request.flags = 0 ∧ request.command = cmdStartBpf ∧ request.payloadLen = 0)
    (hidle : f.captured.bpfExecutionActive = false)
    (hmetadata : f.loader.executionMetadata = .ok metadata) {value : UInt64}
    (hresult : invocation.result = .ok value) (hvalue : value ≠ 0) :
    (f.onI2cPacket packet false invocation).2.next = f.next ∧
      (f.onI2cPacket packet false invocation).2.loader = f.loader ∧
      (f.onI2cPacket packet false invocation).2.captured =
        { invocation.activities.foldl Runtime.perform f.captured with
          bpfExecutionActive := false, activeMapHelpers := none } := by
  obtain ⟨hflags, hstart, hlen⟩ := hcommand
  have hfree : ¬ (f.captured.bpfExecutionActive ∧ request.command ≠ cmdReset) := by simp [hidle]
  obtain ⟨hnext, hstate⟩ := onI2cPacket_dispatched hparse hfree invocation
  have hexecuted := startExecutor_idle hidle invocation metadata f.mapBacking
  have hvalueOk : (startExecutor invocation metadata f.mapBacking f.captured).1 = .ok value := by
    simp only [startExecutor, Runtime.tryClaimBpfExecution_idle hidle, executeLoadedBpf, hresult]
  rw [dispatch_start _ _ hflags hstart, dispatchStart, if_neg (not_not.mpr hlen), hmetadata]
    at hstate
  simp only at hstate
  rw [hvalueOk, hexecuted] at hstate
  simp only [if_neg hvalue] at hstate
  refine ⟨hnext, (congrArg DispatchState.loader hstate).trans (respond_loader ..), ?_⟩
  exact (congrArg DispatchState.captured hstate).trans (respond_captured ..)

/-! ## the main loop -/

/- `Moves` lists the statements that only decide where to go on, with their
conditions; `MainStep` adds those that do something. -/

/-- The statements that decide nothing but which statement is next. -/
inductive Moves (f : Firmware F) (busIdle : Bool) : Statement → Statement → Prop where
  | noReset (hreset : f.resetPending = false) : Moves f busIdle .checkReset .checkPending
  | pending (hpending : f.loader.pending.isSome) :
      Moves f busIdle .checkPending .waitForI2cBusIdle
  | nonePending (hpending : f.loader.pending = none) :
      Moves f busIdle .checkPending .executePending
  | idle (hidle : busIdle = true) : Moves f busIdle .waitForI2cBusIdle .executePending
  | busy (hidle : busIdle = false) : Moves f busIdle .waitForI2cBusIdle .checkReset
  | current {event : TimerEvent ScheduleCall}
      (hcurrent : f.captured.timer.generation = event.generation) :
      Moves f busIdle (.checkGeneration event) (.fetchMetadata event)
  | stale {event : TimerEvent ScheduleCall}
      (hstale : f.captured.timer.generation ≠ event.generation) :
      Moves f busIdle (.checkGeneration event) .release
  | fetched {event : TimerEvent ScheduleCall} {metadata : BpfProgramMetadata}
      (hmetadata : f.loader.eventExecutionMetadata = .ok metadata) :
      Moves f busIdle (.fetchMetadata event) (.invoke event metadata)
  | unfetched {event : TimerEvent ScheduleCall} {status : UInt8}
      (hmetadata : f.loader.eventExecutionMetadata = .error status) :
      Moves f busIdle (.fetchMetadata event) .release
  | slept : Moves f busIdle .sleep .checkReset

variable [BpfFlash F]

/-- Every way a statement of the main loop ends. -/
inductive MainStep (f : Firmware F) (busIdle : Bool) : Firmware F → Prop where
  | moved {statement : Statement} (hmoves : Moves f busIdle f.next statement) :
      MainStep f busIdle { f with next := statement }
  | reset (hnext : f.next = .checkReset) (hreset : f.resetPending = true) :
      MainStep f busIdle (boot f.flash f.captured.now (.reset :: f.captured.history))
  | executed (hnext : f.next = .executePending) :
      MainStep f busIdle { f.executePending with next := .pollTimer }
  | polled (hnext : f.next = .pollTimer) :
      MainStep f busIdle
        { f with
          captured := { f.captured with timer := f.captured.timer.pollTimer f.captured.now }
          next := .takeReadyTimer }
  | notReady (hnext : f.next = .takeReadyTimer)
      (htaken : f.captured.timer.takeReadyTimer.1 = none) :
      MainStep f busIdle
        { f with
          captured := { f.captured with timer := f.captured.timer.takeReadyTimer.2 }
          next := .sleep }
  | took {event : TimerEvent ScheduleCall} (hnext : f.next = .takeReadyTimer)
      (htaken : f.captured.timer.takeReadyTimer.1 = some event) :
      MainStep f busIdle
        { f with
          captured := { f.captured with timer := f.captured.timer.takeReadyTimer.2 }
          next := .claim event }
  | restored {event : TimerEvent ScheduleCall} (hnext : f.next = .claim event)
      (hactive : f.captured.bpfExecutionActive = true) :
      MainStep f busIdle
        { f with
          captured := { f.captured with timer := f.captured.timer.restoreReadyTimer event }
          next := .sleep }
  | claimed {event : TimerEvent ScheduleCall} (hnext : f.next = .claim event)
      (hactive : f.captured.bpfExecutionActive = false) :
      MainStep f busIdle
        { f with
          captured := { f.captured with bpfExecutionActive := true }
          next := .checkGeneration event }
  | invoked {event : TimerEvent ScheduleCall} {metadata : BpfProgramMetadata}
      (hnext : f.next = .invoke event metadata) :
      MainStep f busIdle
        { f with
          captured := { f.captured with
            activeMapHelpers := some metadata
            history := .delivered ⟨event.source, commits f.captured.history, f.captured.now,
              timerContext event.cookie⟩ :: f.captured.history }
          next := .invoked }
  | returned (hnext : f.next = .invoked) :
      MainStep f busIdle
        { f with
          captured := { f.captured with activeMapHelpers := none }
          next := .release }
  | released (hnext : f.next = .release) :
      MainStep f busIdle
        { f with
          captured := { f.captured with bpfExecutionActive := false }
          next := .sleep }

/-- Every statement of the main loop is one of these. -/
theorem main_step (f : Firmware F) (busIdle : Bool) : MainStep f busIdle (f.mainStep busIdle) := by
  unfold mainStep
  cases hnext : f.next with
  | checkReset =>
      simp only
      split_ifs with hreset
      · exact .reset hnext hreset
      · exact .moved (hnext ▸ .noReset (by simpa using hreset))
  | checkPending =>
      simp only
      cases hpending : f.loader.pending with
      | none =>
          simp only [BpfLoader.hasPending, hpending, Option.isSome_none, Bool.false_eq_true,
            if_false]
          exact .moved (hnext ▸ .nonePending hpending)
      | some operation =>
          simp only [BpfLoader.hasPending, hpending, Option.isSome_some, if_true]
          exact .moved (hnext ▸ .pending (by simp [hpending]))
  | waitForI2cBusIdle =>
      cases busIdle with
      | true => exact .moved (hnext ▸ .idle rfl)
      | false => exact .moved (hnext ▸ .busy rfl)
  | executePending => exact .executed hnext
  | pollTimer => exact .polled hnext
  | takeReadyTimer =>
      simp only
      cases htaken : f.captured.timer.takeReadyTimer.1 with
      | none => exact .notReady hnext htaken
      | some event => exact .took hnext htaken
  | claim event =>
      cases hactive : f.captured.bpfExecutionActive with
      | true =>
          simp only [Runtime.tryClaimBpfExecution_active hactive]
          exact .restored hnext hactive
      | false =>
          simp only [Runtime.tryClaimBpfExecution_idle hactive]
          exact .claimed hnext hactive
  | checkGeneration event =>
      simp only
      split_ifs with hcurrent
      · exact .moved (hnext ▸ .current hcurrent)
      · exact .moved (hnext ▸ .stale hcurrent)
  | fetchMetadata event =>
      simp only
      cases hmetadata : f.loader.eventExecutionMetadata with
      | ok metadata => exact .moved (hnext ▸ .fetched hmetadata)
      | error status => exact .moved (hnext ▸ .unfetched hmetadata)
  | invoke event metadata => exact .invoked hnext
  | invoked => exact .returned hnext
  | release => exact .released hnext
  | sleep => exact .moved (hnext ▸ .slept)

end Firmware

/-! ## the loader of a firmware -/

/- What acceptance, execution and a Start keep is kept by every run of a
firmware, resets included. -/

section kept

variable {F : Type} [BpfFlash F] {P : BpfLoader → Prop}

/-- What every step of a loader preserves, every step of the firmware does. -/
theorem Kept.firmware_step (h : Kept F P) {f : Firmware F} (hf : P f.loader)
    (e : FirmwareEvent) : P (f.step e).loader := by
  cases e with
  | main busIdle =>
      show P (f.mainStep busIdle).loader
      have hstep := f.main_step busIdle
      generalize f.mainStep busIdle = f' at hstep ⊢
      cases hstep with
      | reset => exact h.validate f.flash
      | executed => exact h.execute f.loader f.flash hf
      | _ => exact hf
  | activity activity =>
      simp only [Firmware.step, Firmware.activityStep]
      split_ifs <;> exact hf
  | packet bytes truncated invocation =>
      show P (f.onI2cPacket bytes truncated invocation).2.loader
      cases hparse : parsePacket bytes truncated with
      | none =>
          simp only [Firmware.onI2cPacket, hparse]
          exact hf
      | some request =>
          by_cases hbusy : f.captured.bpfExecutionActive ∧ request.command ≠ cmdReset
          · simp only [Firmware.onI2cPacket, hparse, if_pos hbusy]
            exact hf
          · obtain ⟨-, hstate⟩ := Firmware.onI2cPacket_dispatched hparse hbusy invocation
            rw [hstate]
            exact h.dispatch request (startExecutor invocation) hf
  | tick ticks => exact hf

/-- So it is kept by every run from a boot. -/
theorem Kept.firmware_run (h : Kept F P) (flash : F) (now : Nat) (history : History)
    (es : List FirmwareEvent) : P ((Firmware.boot flash now history).run es).loader :=
  Machine.invariant_run (P := fun _ => True) (I := fun f : Firmware F => P f.loader)
    (fun _ e _ hf => h.firmware_step hf e) (h.validate flash) fun _ _ => trivial

end kept

/-! ## a firmware to run -/

/- For examples: an erased chip, and a chip with a committed program that
schedules, cancels, stores and updates according to what it is asked. -/

namespace Firmware

open Nor

/-- A flash that never fails and holds nothing. -/
def erasedFlash : Chip := .fresh (fun _ => 0xff) fun _ => .done

/-- A program that works for the host.  Its array has three values of four
bytes: the request the host writes, and that request again when the program has
begun to serve it and when it has done so.  Request zero schedules a timer of
ten milliseconds with cookie seven; request `n` cancels `n` times.  It always
returns one, so a Start leaves the image committed. -/
def timerProgram : List UInt8 :=
  [0x18, 0x11, 0, 0, 0, 0, 0, 0, 0, 0, 0, 0, 0, 0, 0, 0, -- r1 = the array
    0x62, 0x0a, 0xfc, 0xff, 0, 0, 0, 0, -- [r10 - 4] = 0
    0xbf, 0xa2, 0, 0, 0, 0, 0, 0,
    0x07, 0x02, 0, 0, 0xfc, 0xff, 0xff, 0xff, -- r2 = r10 - 4
    0x85, 0, 0, 0, 10, 0, 0, 0, -- call the lookup
    0x15, 0x00, 22, 0, 0, 0, 0, 0, -- if r0 = 0, return one
    0xbf, 0x07, 0, 0, 0, 0, 0, 0,
    0x61, 0x76, 0, 0, 0, 0, 0, 0, -- r6 = the request
    0x15, 0x06, 16, 0, 0, 0, 0, 0, -- if r6 = 0, schedule
    0x63, 0x67, 4, 0, 0, 0, 0, 0, -- it has begun
    0xbf, 0x68, 0, 0, 0, 0, 0, 0,
    0x85, 0, 0, 0, 13, 0, 0, 0, -- cancel, r6 times
    0x07, 0x08, 0, 0, 0xff, 0xff, 0xff, 0xff,
    0x55, 0x08, 0xfd, 0xff, 0, 0, 0, 0,
    0x63, 0x6a, 0xf8, 0xff, 0, 0, 0, 0, -- [r10 - 8] = r6
    0x62, 0x0a, 0xfc, 0xff, 2, 0, 0, 0, -- [r10 - 4] = 2
    0x18, 0x11, 0, 0, 0, 0, 0, 0, 0, 0, 0, 0, 0, 0, 0, 0,
    0xbf, 0xa2, 0, 0, 0, 0, 0, 0,
    0x07, 0x02, 0, 0, 0xfc, 0xff, 0xff, 0xff,
    0xbf, 0xa3, 0, 0, 0, 0, 0, 0,
    0x07, 0x03, 0, 0, 0xf8, 0xff, 0xff, 0xff,
    0xb7, 0x04, 0, 0, 0, 0, 0, 0,
    0x85, 0, 0, 0, 11, 0, 0, 0, -- call the update: it is done
    0x05, 0, 3, 0, 0, 0, 0, 0,
    0xb7, 0x01, 0, 0, 10, 0, 0, 0, -- schedule
    0xb7, 0x02, 0, 0, 7, 0, 0, 0,
    0x85, 0, 0, 0, 12, 0, 0, 0,
    0xb7, 0x00, 0, 0, 1, 0, 0, 0, -- return one
    0x95, 0, 0, 0, 0, 0, 0, 0]

/-- What `timerProgram` does for request zero. -/
def scheduling : List Activity := [.schedule 10 7]

/-- What `timerProgram` does for another request, over a backing that holds it. -/
def cancelling (mapBacking : MapBacking) (cancels : Nat) : List Activity :=
  let begun := Bytes.copySlice mapBacking 4 (Bytes.toLe 4 cancels)
  .store begun ::
    (List.replicate cancels .cancel ++ [.store (Bytes.copySlice begun 8 (Bytes.toLe 4 cancels))])

/-- The CRC of `timerProgram` and its array. -/
def timerProgramCrc : UInt32 := 0xdadcdea6

/-- A flash that never fails and holds `timerProgram`, committed. -/
def committedFlash : Chip :=
  .fresh (fun x =>
    if x < headerAddress then 0xff
    else ([0x4f, 0x42, 0x50, 0x46, 1, 1, 248, 0, 0xa6, 0xde, 0xdc, 0xda, 0, 0, 0xff, 0xff] ++
      timerProgram ++ [1, 0, 0, 0, 4, 0, 0, 0, 4, 0, 0, 0, 3, 0, 0, 0]).getD
        (x - headerAddress) 0xff) fun _ => .done

set_option maxRecDepth 4000 in
/-- The boot finds it. -/
theorem boot_committedFlash : (boot committedFlash 0 []).loader.pending = none ∧
    (boot committedFlash 0 []).loader.state = .committed timerProgramCrc := by
  decide +kernel

/-- After a boot from that chip a Start may run its program. -/
theorem start_committedFlash : (boot committedFlash 0 []).loader.executionMetadata =
    .ok (boot committedFlash 0 []).loader.committedMetadata :=
  BpfLoader.executionMetadata_ok.mpr
    ⟨boot_committedFlash.1, ⟨_, boot_committedFlash.2⟩, rfl⟩

/-- The main loop runs so many statements, the bus being idle. -/
def mainLoop (statements : Nat) : List FirmwareEvent := List.replicate statements (.main true)

/-- A Start whose invocation returns one, so the image stays committed. -/
def startReturningOne (activities : List Activity) : FirmwareEvent :=
  .packet [magic, cmdStartBpf, 0, 0, 0] false ⟨activities, .ok 1⟩

/-- The host writes `timerProgram` a request. -/
def requestPacket (cancels : Nat) : FirmwareEvent :=
  .packet ([magic, cmdWriteBpfMap, 6, 0, 0, 0, 0] ++ Bytes.toLe 4 cancels) false ⟨[], .ok 0⟩

/-- The backing with a request in it, and nothing else. -/
def requested (cancels : Nat) : MapBacking :=
  Bytes.copySlice (Vector.replicate _ 0) 0 (Bytes.toLe 4 cancels)

/-- A Load packet, and the main loop until it has executed it. -/
def loadRun (payload : List UInt8) : List FirmwareEvent :=
  .packet ([magic, cmdLoadBpf, UInt8.ofNat payload.length, 0, 0] ++ payload) false ⟨[], .ok 0⟩ ::
    mainLoop 7

end Firmware

end OptiBridge
