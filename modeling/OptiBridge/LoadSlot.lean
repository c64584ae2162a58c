import OptiBridge.LoadOrder
import OptiBridge.Lib.Slot
import OptiBridge.Refinement

/-!
# OptiBridge.LoadSlot

The pending operation of the firmware is a slot: the callback puts into it the
operation of every Load it answers with `STATUS_OK`, the main loop takes it out
to execute it, and only a reset clears it.

The general slot is in `OptiBridge.Lib.Slot`.  What has to be said here is which
events of the firmware are events of the slot, and that is said by their effect:

* an event puts an operation if it answers the Load that spells it with
  `STATUS_OK` (`acknowledges`);
* it takes one if it leaves loader and flash as that operation leaves them
  (`executes`); emptying the slot in any other way is no execution;
* it clears the slot if it is the reset.

`slot_run` then says that the slot serves these events in every run, and
`loads_served` what follows for the two lists of operations.
-/

namespace OptiBridge

namespace Firmware

variable {F : Type} {f : Firmware F}

/-- The status of the response a capture queues, if it queues one. -/
def queuedStatus (f : Firmware F) (packet : List UInt8) (truncated : Bool)
    (invocation : Invocation) : Option UInt8 :=
  (f.onI2cPacket packet truncated invocation).1.bind fun bytes => bytes[1]?

/-- The operation of a Load that the capture has answered with `STATUS_OK`. -/
def acknowledges (f : Firmware F) (packet : List UInt8) (truncated : Bool)
    (invocation : Invocation) : List LoadOperation :=
  match parsePacket packet truncated with
  | none => []
  | some request =>
      if request.command = cmdLoadBpf ∧
          f.queuedStatus packet truncated invocation = some statusOk then
        (encodedOperation request).toList
      else []

section observations

variable [BpfFlash F]

open scoped Classical in
/-- The operations an event executes: the one in the slot, if the event leaves
loader and flash as that operation does.  Whatever else an event does to the slot
is not an execution. -/
noncomputable def executes (f : Firmware F) (e : FirmwareEvent) : List LoadOperation :=
  f.loader.pending.toList.filter fun operation =>
    ((f.step e).loader, (f.step e).flash) =
      ({ f.loader with pending := none } : BpfLoader).perform f.flash operation

/-- What an event does to the slot. -/
noncomputable def slotEvents (f : Firmware F) : FirmwareEvent → List (Slot.Event LoadOperation)
  | .main busIdle =>
      if f.next = .checkReset ∧ f.resetPending = true then [.clear]
      else (f.executes (.main busIdle)).map .take
  | .packet bytes truncated invocation =>
      (f.acknowledges bytes truncated invocation).map .put
  | .activity _ | .tick _ => []

/-- An operation that leaves the slot leaves it empty. -/
theorem perform_pending (l : BpfLoader) (flash : F) (operation : LoadOperation) :
    (({ l with pending := none } : BpfLoader).perform flash operation).1.pending = none := by
  have h : (({ l with pending := some operation } : BpfLoader).executePending flash).1.pending =
      none := BpfLoader.executePending_pending
  cases operation <;> exact h

/-- Where the slot stays as it is, nothing is executed. -/
theorem executes_of_pending_eq {e : FirmwareEvent}
    (h : (f.step e).loader.pending = f.loader.pending) : f.executes e = [] := by
  unfold executes
  cases hpending : f.loader.pending with
  | none => rfl
  | some operation =>
      -- an execution would have emptied the slot
      have hnot : ((f.step e).loader, (f.step e).flash) ≠
          ({ f.loader with pending := none } : BpfLoader).perform f.flash operation := by
        intro heq
        have hafter := congrArg (fun out => out.1.pending) heq
        simp only [h, hpending, perform_pending] at hafter
        contradiction
      simp [hnot]

/-- `execute_pending` of the main loop executes what is in the slot. -/
theorem executes_executePending (hnext : f.next = .executePending) (busIdle : Bool) :
    f.executes (.main busIdle) = f.loader.pending.toList := by
  unfold executes
  cases hpending : f.loader.pending with
  | none => rfl
  | some operation =>
      have hstep : ((f.step (.main busIdle)).loader, (f.step (.main busIdle)).flash) =
          f.loader.executePending f.flash := by
        simp only [step, mainStep, hnext, executePending]
      have hperformed := BpfLoader.executePending_perform f.flash hpending
      simp [hstep, hperformed]

end observations

section capture

variable {packet : List UInt8} {truncated : Bool} {request : Request}
  (hparse : parsePacket packet truncated = some request) (invocation : Invocation)

include hparse

/-- A refused capture is answered busy. -/
theorem queuedStatus_refused (hbusy : f.Refuses request) :
    f.queuedStatus packet truncated invocation = some statusBusy := by
  obtain ⟨output, hqueued⟩ := queued_refused hparse hbusy invocation
  simp [queuedStatus, hqueued, Frame.bytes]

/-- A dispatched one is answered with the status of its response. -/
theorem queuedStatus_respond (hfree : ¬ f.Refuses request) {s : DispatchState Runtime}
    {status : UInt8} {payload : List UInt8}
    (hdispatch : dispatchWithBpfAndExecutor request (startExecutor invocation) f.toDispatchState =
      s.respond request status payload) (h : payload.length ≤ maxPayload) :
    f.queuedStatus packet truncated invocation = some status := by
  rw [queuedStatus, queued_dispatched hparse hfree, hdispatch, sent_respond s request status h]
  rfl

/-- A Load that is not answered with `STATUS_OK` is not acknowledged. -/
theorem acknowledges_eq_nil {status : UInt8}
    (hstatus : f.queuedStatus packet truncated invocation = some status) (hne : status ≠ statusOk) :
    f.acknowledges packet truncated invocation = [] := by
  simp only [acknowledges, hparse, hstatus]
  exact if_neg fun h => hne (Option.some.inj h.2)

/-- A capture that is no well-flagged Load leaves the slot alone. -/
theorem pending_packet_other (hload : ¬ (request.flags = 0 ∧ request.command = cmdLoadBpf)) :
    (f.onI2cPacket packet truncated invocation).2.loader.pending = f.loader.pending := by
  by_cases hbusy : f.Refuses request
  · obtain ⟨output, hqueued⟩ := queued_refused hparse hbusy invocation
    rw [hqueued]
  · obtain ⟨-, hstate⟩ := onI2cPacket_dispatched hparse hbusy invocation
    rw [hstate]
    cases loader_step request (startExecutor invocation) f.toDispatchState with
    | kept hloader => exact congrArg BpfLoader.pending hloader
    | accepted hflags hcommand => exact absurd ⟨hflags, hcommand⟩ hload
    | started _ _ _ _ hloader => rw [hloader]

/-- A Load that is dispatched puts its operation, if it is accepted. -/
theorem slot_load (hflags : request.flags = 0) (hcommand : request.command = cmdLoadBpf)
    (hfree : ¬ f.Refuses request) :
    Slot.serve f.loader.pending ((f.acknowledges packet truncated invocation).map .put) =
      some (f.onI2cPacket packet truncated invocation).2.loader.pending := by
  obtain ⟨-, hstate⟩ := onI2cPacket_dispatched hparse hfree invocation
  have hdispatch := dispatch_load (startExecutor invocation) f.toDispatchState hflags hcommand
  unfold dispatchLoad BpfLoader.acceptsLoad at hdispatch
  cases hop : f.loader.loadOperation request with
  | error status =>
      have hne := BpfLoader.loadOperation_error_ne_ok hop
      simp only [hop] at hdispatch
      have hstatus := queuedStatus_respond hparse invocation hfree hdispatch (Nat.zero_le _)
      rw [acknowledges_eq_nil hparse invocation hstatus hne, hstate, hdispatch, respond_loader]
      rfl
  | ok operation =>
      obtain ⟨hpending, -, -, hencoded⟩ := BpfLoader.loadOperation_ok hop
      simp only [hop] at hdispatch
      have hstatus := queuedStatus_respond hparse invocation hfree hdispatch (Nat.zero_le _)
      have hput : f.acknowledges packet truncated invocation = [operation] := by
        simp only [acknowledges, hparse, hstatus, hcommand, hencoded]
        rfl
      rw [hput, hpending, hstate, hdispatch, respond_loader]
      rfl

end capture

/-- **Capture step.** -/
theorem slot_packet (f : Firmware F) (packet : List UInt8) (truncated : Bool)
    (invocation : Invocation) :
    Slot.serve f.loader.pending ((f.acknowledges packet truncated invocation).map .put) =
      some (f.onI2cPacket packet truncated invocation).2.loader.pending := by
  cases hparse : parsePacket packet truncated with
  | none => simp [acknowledges, onI2cPacket, hparse, Slot.serve]
  | some request =>
      by_cases hbusy : f.Refuses request
      · obtain ⟨output, hqueued⟩ := queued_refused hparse hbusy invocation
        have hstatus := queuedStatus_refused hparse invocation hbusy
        rw [acknowledges_eq_nil hparse invocation hstatus (by decide), hqueued]
        rfl
      · by_cases hload : request.flags = 0 ∧ request.command = cmdLoadBpf
        · exact slot_load hparse invocation hload.1 hload.2 hbusy
        · have hnone : f.acknowledges packet truncated invocation = [] := by
            by_cases hcommand : request.command = cmdLoadBpf
            · have hflags : request.flags ≠ 0 := fun h0 => hload ⟨h0, hcommand⟩
              have hstatus := queuedStatus_respond hparse invocation hbusy
                (dispatch_badFlags _ _ hflags) (Nat.zero_le _)
              exact acknowledges_eq_nil hparse invocation hstatus (by decide)
            · simp only [acknowledges, hparse]
              exact if_neg fun h => hcommand h.1
          rw [hnone, pending_packet_other hparse invocation hload]
          rfl

variable [BpfFlash F]

/-- The main loop puts nothing into the slot. -/
theorem puts_main (f : Firmware F) (busIdle : Bool) :
    Slot.puts (f.slotEvents (.main busIdle)) = [] := by
  simp only [slotEvents]
  split_ifs
  · rfl
  · exact Slot.puts_map_take _

/-- The main loop by itself acknowledges nothing. -/
theorem puts_mainLoop (f : Firmware F) (statements : Nat) :
    Slot.puts (Machine.trace step slotEvents f (mainLoop statements)) = [] := by
  induction statements generalizing f with
  | zero => rfl
  | succ statements ih =>
      rw [mainLoop, List.replicate_succ, Machine.trace_cons, Slot.puts_append]
      rw [f.puts_main true]
      exact ih _

/-- **Slot step.** -/
theorem slot_step (f : Firmware F) (e : FirmwareEvent) :
    Slot.serve f.loader.pending (f.slotEvents e) = some (f.step e).loader.pending := by
  cases e with
  | packet bytes truncated invocation => exact f.slot_packet bytes truncated invocation
  | tick ticks => rfl
  | activity activity =>
      simp only [slotEvents, step, activityStep]
      split_ifs <;> rfl
  | main busIdle =>
      have hstep := f.main_step busIdle
      generalize hafter : f.mainStep busIdle = f' at hstep
      have hnothing : f'.loader.pending = f.loader.pending → f.executes (.main busIdle) = [] :=
        fun hkept => executes_of_pending_eq
          ((congrArg (fun g => g.loader.pending) hafter).trans hkept)
      simp only [slotEvents, step, hafter]
      cases hstep with
      | reset hnext hreset =>
          have hboot : (boot f.flash f.captured.now (.reset :: f.captured.history)).loader.pending =
              none := BpfLoader.validateCommitted_pending
          rw [if_pos ⟨hnext, hreset⟩, hboot]
          cases f.loader.pending <;> rfl
      | executed hnext =>
          have hemptied : (f.loader.executePending f.flash).1.pending = none :=
            BpfLoader.executePending_pending
          rw [if_neg (by simp [hnext]), executes_executePending hnext]
          show _ = some (f.loader.executePending f.flash).1.pending
          rw [hemptied]
          cases f.loader.pending <;> simp [Slot.serve]
      | moved hmoves =>
          have hnext : f.next = .checkReset → f.resetPending = false := by
            generalize f.next = statement at hmoves
            cases hmoves <;> simp_all
          rw [if_neg fun h => by simp [hnext h.1] at h, hnothing rfl]
          rfl
      | polled hnext | notReady hnext | took hnext | restored hnext | claimed hnext
      | invoked hnext | returned hnext | released hnext =>
          rw [if_neg (by simp [hnext]), hnothing rfl]
          rfl

/-- **Slot run.** -/
theorem slot_run (f : Firmware F) (es : List FirmwareEvent) :
    Slot.serve f.loader.pending (Machine.trace step slotEvents f es) =
      some (f.run es).loader.pending := by
  induction es generalizing f with
  | nil => rfl
  | cons e es ih =>
      rw [Machine.trace_cons, Slot.serve_append, slot_step, Option.bind_some]
      exact ih (f.step e)

/-- What is taken has been carried out. -/
theorem performed_of_take {f : Firmware F} {e : FirmwareEvent} {operation : LoadOperation}
    (h : .take operation ∈ f.slotEvents e) :
    f.loader.pending = some operation ∧ ((f.step e).loader, (f.step e).flash) =
      ({ f.loader with pending := none } : BpfLoader).perform f.flash operation := by
  have hexecutes : operation ∈ f.executes e := by
    cases e with
    | main busIdle =>
        simp only [slotEvents] at h
        split_ifs at h
        · simp at h
        · simpa using h
    | packet => simp [slotEvents] at h
    | activity | tick => simp [slotEvents] at h
  simpa [executes] using hexecutes

/-- The flash changes only where an operation is taken or the target boots. -/
theorem flash_of_nothing {f : Firmware F} {e : FirmwareEvent} (h : f.slotEvents e = []) :
    (f.step e).flash = f.flash := by
  cases e with
  | packet bytes truncated invocation => exact f.flash_packet bytes truncated invocation
  | tick ticks => rfl
  | activity activity =>
      simp only [step, activityStep]
      split_ifs <;> rfl
  | main busIdle =>
      have hstep := f.main_step busIdle
      simp only [slotEvents] at h
      split_ifs at h with hreset
      rw [List.map_eq_nil_iff] at h
      show (f.mainStep busIdle).flash = f.flash
      generalize f.mainStep busIdle = f' at hstep
      cases hstep with
      | reset hnext hpending => exact absurd ⟨hnext, hpending⟩ hreset
      | executed hnext =>
          rw [executes_executePending hnext, Option.toList_eq_nil_iff] at h
          show (f.loader.executePending f.flash).2 = f.flash
          rw [BpfLoader.executePending_rests h]
      | _ => rfl

/-- **Loads are served once, in order, and lost only to a reset.** Along every
run of the firmware from power-on, resets included: acknowledged operations and
executed ones take turns in the pending slot; the executed ones, then the one
still pending, are among the acknowledged in their order; and at most one was
lost to each reset.  An operation counts as executed only where it was in the slot
and the main loop has left loader and flash as its begin, data or finalize leaves
them; a step that executes none, and is no reboot, leaves the flash as it is. -/
theorem loads_served (flash : F) (now : Nat) (history : History) (es : List FirmwareEvent) :
    let start := boot flash now history
    let ledger := Machine.trace step slotEvents start es
    let pending := (start.run es).loader.pending
    Slot.serve none ledger = some pending ∧
      List.Sublist (Slot.takes ledger ++ pending.toList) (Slot.puts ledger) ∧
      (Slot.puts ledger).length ≤
        (Slot.takes ledger).length + Slot.clears ledger + pending.toList.length ∧
      ∀ e, let f := start.run es
        (∀ operation, .take operation ∈ f.slotEvents e → f.loader.pending = some operation ∧
          ((f.step e).loader, (f.step e).flash) =
            ({ f.loader with pending := none } : BpfLoader).perform f.flash operation) ∧
        (f.slotEvents e = [] → (f.step e).flash = f.flash) := by
  intro start ledger pending
  have hboot : start.loader.pending = none := BpfLoader.validateCommitted_pending
  have hserve : Slot.serve none ledger = some pending := hboot ▸ start.slot_run es
  have hlength := Slot.length_puts_le hserve
  have hsublist := Slot.takes_sublist hserve
  rw [Option.toList_none, List.nil_append] at hsublist
  rw [Option.toList_none, List.length_nil, Nat.zero_add] at hlength
  exact ⟨hserve, hsublist, hlength, fun e => ⟨fun _ => performed_of_take, flash_of_nothing⟩⟩

end Firmware

end OptiBridge
