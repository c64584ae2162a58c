import OptiBridge.Loading
import OptiBridge.LoadOrder
import OptiBridge.Polling

/-!
# OptiBridge.Submissions

One step of a host's transfer, end to end.  A submission that returns has been
accepted and executed on the loader and the flash it was accepted over, whatever
the target did in between, and the response tells what came of it.

`submit_load_step` is a Load and the polling of its completion.  In between the
target executes the operation at a time of its own; what the script can rely on
is a condition that holds before and after that moment:

* `Rests`, nothing is pending, and loader and flash are these;
* `Working`, the operation waits, or it has been executed in one of the ways
  of `BpfLoader.Executed`.

Both are steady in the sense of `OptiBridge.Polling`, and
`submitLoadStep_submitted` draws the conclusion from a script that returned.
-/

namespace OptiBridge

open Bytes Nor Script

/-! ## the loader and the flash of a target left to itself -/

/- Nothing but `execute_pending` touches either, as long as no reset has been
asked for. -/

namespace Firmware

section storage

variable {F : Type} [BpfFlash F]

/-- Without a reset the target touches its loader and flash only to execute what
is pending. -/
theorem storage_background {f : Firmware F} (hreset : f.resetPending = false) (b : Background) :
    (f.step b.event).resetPending = false ∧
      (((f.step b.event).loader, (f.step b.event).flash) = (f.loader, f.flash) ∨
        ((f.step b.event).loader, (f.step b.event).flash) = f.loader.executePending f.flash) := by
  cases b with
  | main busIdle =>
      show (f.mainStep busIdle).resetPending = false ∧ _
      have hstep := f.main_step busIdle
      show _ ∧ (((f.mainStep busIdle).loader, (f.mainStep busIdle).flash) = _ ∨
        ((f.mainStep busIdle).loader, (f.mainStep busIdle).flash) = _)
      generalize f.mainStep busIdle = f' at hstep ⊢
      cases hstep with
      | reset _ hpending =>
          rw [hreset] at hpending
          contradiction
      | executed => exact ⟨hreset, .inr rfl⟩
      | _ => exact ⟨hreset, .inl rfl⟩
  | activity activity =>
      simp only [Background.event, step, activityStep]
      split_ifs <;> exact ⟨hreset, .inl rfl⟩
  | tick ticks => exact ⟨hreset, .inl rfl⟩

end storage

/-- The target has nothing to do to its loader and flash. -/
structure Rests (l : BpfLoader) (flash : Chip) (f : Firmware Chip) : Prop where
  reset : f.resetPending = false
  pending : l.pending = none
  loader : f.loader = l
  flash : f.flash = flash

/-- An operation that was accepted by `l` over `flash` waits or has been executed. -/
structure Working (l : BpfLoader) (flash : Chip) (operation : LoadOperation)
    (f : Firmware Chip) : Prop where
  reset : f.resetPending = false
  sane : f.loader.Sane
  progress : (f.loader = { l with pending := some operation } ∧ f.flash = flash) ∨
    ∃ ops, BpfLoader.Executed l flash.contents operation f.loader ops ∧
      f.loader.pending = none ∧ flash.Issued f.flash ops

/-- A target that rests goes on resting. -/
theorem steady_rests (l : BpfLoader) (flash : Chip) : Steady (Rests l flash) where
  reset f h := h.reset
  output f output h := ⟨h.reset, h.pending, h.loader, h.flash⟩
  background f b h := by
    obtain ⟨hreset, hstorage⟩ := storage_background h.reset b
    rw [BpfLoader.executePending_rests (h.loader ▸ h.pending), or_self, Prod.mk.injEq] at hstorage
    exact ⟨hreset, h.pending, hstorage.1.trans h.loader, hstorage.2.trans h.flash⟩

/-- A target that works goes on working, or has done so. -/
theorem steady_working {l : BpfLoader} (hpending : l.pending = none) (flash : Chip)
    (operation : LoadOperation) : Steady (Working l flash operation) where
  reset f h := h.reset
  output f output h := ⟨h.reset, h.sane, h.progress⟩
  background f b h := by
    obtain ⟨hreset, hstorage⟩ := storage_background h.reset b
    have hsane : (f.step b.event).loader.Sane := (kept_sane Chip).firmware_step h.sane b.event
    refine ⟨hreset, hsane, ?_⟩
    cases hstorage with
    | inl hsame =>
        rw [Prod.mk.injEq] at hsame
        rw [hsame.1, hsame.2]
        exact h.progress
    | inr hexecuted =>
        cases h.progress with
        | inl hwaits =>
            obtain ⟨hloader, hflash⟩ := hwaits
            have hop : f.loader.pending = some operation := by rw [hloader]
            obtain ⟨ops, hissued, hran⟩ := BpfLoader.executePending_chip f.flash h.sane hop
            have hself : ({ f.loader with pending := none } : BpfLoader) = l := by
              rw [hloader, ← hpending]
            have hdone : (f.loader.executePending f.flash).1.pending = none :=
              BpfLoader.executePending_pending
            rw [hself, ← hexecuted, hflash] at hran
            rw [← hexecuted] at hissued hdone
            exact .inr ⟨ops, hran, hdone, hflash ▸ hissued⟩
        | inr hran =>
            obtain ⟨ops, hran, hnone, hissued⟩ := hran
            rw [BpfLoader.executePending_rests hnone, Prod.mk.injEq] at hexecuted
            rw [hexecuted.1, hexecuted.2]
            exact .inr ⟨ops, hran, hnone, hissued⟩

/-! ## what a Load is answered with -/

/- A Load is accepted or refused by the loader at the moment of its capture. -/

section answer

variable {F : Type} {f : Firmware F} (request : Frame)

/-- With the execution flag down nothing is refused as busy. -/
theorem not_refuses_of_idle (h : f.captured.bpfExecutionActive = false) (request : Request) :
    ¬ f.Refuses request := fun hbusy => by simp [hbusy.1] at h

/-- An accepted Load. -/
theorem packet_load_accepted (hflags : request.flags = 0) (hcommand : request.command = cmdLoadBpf)
    (hidle : f.captured.bpfExecutionActive = false) {operation : LoadOperation}
    (hop : f.loader.loadOperation request.request = .ok operation) (invocation : Invocation) :
    ∃ output, f.onI2cPacket request.bytes false invocation =
      (some (statusFrame statusOk request.sequence).bytes,
        { f with
          loader := { f.loader with pending := some operation }
          output := output }) := by
  have hdispatch := dispatch_load (startExecutor invocation) f.toDispatchState
    (show request.request.flags = 0 from hflags)
    (show request.request.command = cmdLoadBpf from hcommand)
  simp only [dispatchLoad, BpfLoader.acceptsLoad, hop] at hdispatch
  exact queued_respond (parsePacket_frame request) (not_refuses_of_idle hidle _) hdispatch
    (Nat.zero_le _)

/-- Any other Load. -/
theorem packet_load_refused (hflags : request.flags = 0) (hcommand : request.command = cmdLoadBpf)
    (hnot : f.captured.bpfExecutionActive = false →
      ∀ operation, f.loader.loadOperation request.request ≠ .ok operation)
    (invocation : Invocation) :
    ∃ status output, status ≠ statusOk ∧ f.onI2cPacket request.bytes false invocation =
      (some (statusFrame status request.sequence).bytes, { f with output := output }) := by
  have hparse := parsePacket_frame request
  by_cases hbusy : f.Refuses request.request
  · obtain ⟨output, hqueued⟩ := queued_refused hparse hbusy invocation
    exact ⟨statusBusy, output, by decide, hqueued⟩
  · have hload : request.request.command = cmdLoadBpf := hcommand
    have hidle : f.captured.bpfExecutionActive = false := Bool.eq_false_iff.mpr fun hactive =>
      hbusy ⟨hactive, by rw [hload]; decide⟩
    have hdispatch := dispatch_load (startExecutor invocation) f.toDispatchState
      (show request.request.flags = 0 from hflags) hload
    cases hop : f.loader.loadOperation request.request with
    | ok operation => exact absurd hop (hnot hidle operation)
    | error status =>
        simp only [dispatchLoad, BpfLoader.acceptsLoad, hop] at hdispatch
        obtain ⟨output, hqueued⟩ := queued_respond hparse hbusy hdispatch (Nat.zero_le _)
        exact ⟨status, output, BpfLoader.loadOperation_error_ne_ok hop, hqueued⟩

end answer

end Firmware

/-! ## submissions -/

/- What is known once a submission has returned: the loader it was accepted by,
the operation, and what executing it came to. -/

namespace Host

/-- An operation has been submitted to a loader and executed, and this is the
response to a query since. -/
structure Submitted (payload : List UInt8) (l : BpfLoader) (flash : Chip) (l' : BpfLoader)
    (flash' : Chip) (response : List UInt8) : Prop where
  pending : l.pending = none
  running : l.state.isRunning = false
  executed : ∃ request operation ops, request.bytes = payload ∧
    encodedOperation request = some operation ∧ l.Accepts operation ∧
    BpfLoader.Executed l flash.contents operation l' ops ∧ flash.Issued flash' ops
  answer : ∃ sequence, (l'.queryReply sequence).bytes <+: response

variable {P S : Type} [I2cSlave S] [LawfulI2cSlave S] [I2cMaster (Bus Chip S)]
  [LawfulI2cBus Chip S] [SerialPort P (Bus Chip S)] [LawfulSerialPort P (Bus Chip S)]
  {port : P} {bus : Bus Chip S}

/-- A Load that the host takes for accepted has been. -/
theorem returns_load (hidle : Idle port bus) {payload : List UInt8} (h : payload.length ≤ 10)
    {sequence next : Nat} {response : List UInt8} {port' : P}
    (hreturns : Returns (targetRequest sequence cmdLoadBpf payload 5) port (response, next) port')
    (haccepted : response.drop 1 = acceptance next) :
    ∃ (after : Bus Chip S) (operation : LoadOperation) (output : Output), Idle port' after ∧
      bus.reach.firmware.loader.loadOperation
        (requestFrame cmdLoadBpf sequence payload h).request = .ok operation ∧
      after.firmware = ({ bus.reach.firmware with
        loader := { bus.reach.firmware.loader with pending := some operation }
        output := output } : Firmware Chip).run (bus.passing 1) := by
  have hnotReset : cmdLoadBpf ≠ cmdReset := by decide
  obtain ⟨reply, hreply, hanswers⟩ := bus.reach.firmware.exists_reply
    (requestFrame cmdLoadBpf sequence payload h) hnotReset (bus.turns 0).invocation
  obtain ⟨idle, after, hafter, hfollows, hrequest⟩ :=
    returns_targetRequest hidle h sequence (show 5 ≤ maxPayload by decide) hreply hanswers
  obtain ⟨-, hreplied, -, rfl, -, rfl⟩ := (hrequest _ _ _).mp hreturns
  have hok := command_of_accepted haccepted
  have hafterward := (hfollows hreplied).firmware
  simp only [Bus.asked] at hafterward hreply
  by_cases hop : bus.reach.firmware.captured.bpfExecutionActive = false ∧
      ∃ operation, bus.reach.firmware.loader.loadOperation
        (requestFrame cmdLoadBpf sequence payload h).request = .ok operation
  · obtain ⟨hactive, operation, hop⟩ := hop
    obtain ⟨output, hqueued⟩ :=
      Firmware.packet_load_accepted _ rfl rfl hactive hop (bus.turns 0).invocation
    rw [hqueued] at hafterward
    exact ⟨after, operation, output, hafter, hop, hafterward⟩
  · obtain ⟨status, output, hne, hqueued⟩ := Firmware.packet_load_refused
      (requestFrame cmdLoadBpf sequence payload h) rfl rfl
      (fun hactive operation hok => hop ⟨hactive, operation, hok⟩) (bus.turns 0).invocation
    rw [hqueued] at hreply
    have hframe := Frame.bytes_inj.mp (Option.some.inj hreply)
    rw [← hframe] at hok
    exact absurd hok hne

/-- When the polling ends, the operation has been executed and the target rests. -/
theorem waitReady_executed (hidle : Idle port bus) {l : BpfLoader} (hpending : l.pending = none)
    {flash : Chip} {operation : LoadOperation}
    (hworking : bus.firmware.Working l flash operation) {sequence next : Nat}
    {response : List UInt8} {port' : P}
    (h : Returns (waitReady sequence) port (response, next) port') :
    ∃ (after : Bus Chip S) (l' : BpfLoader) (flash' : Chip) (ops : List (Op × Outcome)),
      Idle port' after ∧ after.firmware.Rests l' flash' ∧ l'.Sane ∧
      BpfLoader.Executed l flash.contents operation l' ops ∧ flash.Issued flash' ops ∧
      ∃ sequence, (l'.queryReply sequence).bytes <+: response := by
  obtain ⟨f, after, hafter, hdone, hpolled⟩ :=
    waitReadyFrom_polled (Firmware.steady_working hpending flash operation) hidle hworking h
  obtain ⟨sequence', hbegins, hfree⟩ := hpolled.answer
  obtain ⟨output, bs, hsince⟩ := hpolled.since
  -- the answer was not that it is busy, so nothing was pending
  have hnone : f.loader.pending = none := by
    by_contra hsome
    have hquery : f.loader.query = .error statusBusy := by
      rw [BpfLoader.query, if_pos (Option.isSome_iff_ne_none.mpr hsome)]
    rw [BpfLoader.queryReply_error hquery] at hfree
    exact hfree rfl
  have hrests : after.firmware.Rests f.loader f.flash := by
    rw [hsince]
    apply (Firmware.steady_rests _ _).run
    exact ⟨hdone.reset, hnone, rfl, rfl⟩
  cases hdone.progress with
  | inl hwaits =>
      rw [hwaits.1] at hnone
      contradiction
  | inr hran =>
      obtain ⟨ops, hran, -, hissued⟩ := hran
      exact ⟨after, _, _, ops, hafter, hrests, hdone.sane, hran, hissued, sequence', hbegins⟩

/-- **Submission.** A step that returns has been accepted and executed, and the
target rests. -/
theorem submitLoadStep_submitted (hidle : Idle port bus)
    (hreset : bus.reach.firmware.resetPending = false) (hsane : bus.reach.firmware.loader.Sane)
    {payload : List UInt8} (hpayload : payload.length ≤ 10) {sequence next : Nat}
    {expected : UInt8} {response : List UInt8} {port' : P}
    (h : Returns (submitLoadStep sequence payload expected) port (response, next) port') :
    ∃ (after : Bus Chip S) (l' : BpfLoader) (flash' : Chip), Idle port' after ∧
      after.firmware.Rests l' flash' ∧ l'.Sane ∧ response[1]? = some expected ∧
      Submitted payload bus.reach.firmware.loader bus.reach.firmware.flash l' flash' response := by
  simp only [submitLoadStep, returns_bind, Prod.exists] at h
  obtain ⟨accepted, sequence₁, port₁, hload, h⟩ := h
  simp only [throw_bind, returns_raise, not_not] at h
  obtain ⟨haccepted, h⟩ := h
  simp only [returns_bind, Prod.exists] at h
  obtain ⟨completed, sequence₂, port₂, hwait, h⟩ := h
  simp only [returns_raise, returns_pure, not_or, not_lt, not_not, Prod.mk.injEq] at h
  obtain ⟨⟨-, hexpected⟩, ⟨rfl, rfl⟩, rfl⟩ := h
  obtain ⟨loaded, operation, output, hloaded, hop, hfirmware⟩ :=
    returns_load hidle hpayload hload haccepted
  generalize bus.reach.firmware = f at *
  obtain ⟨hpending, hrunning, haccepts, hencoded⟩ := BpfLoader.loadOperation_ok hop
  have hworking : Firmware.Working f.loader f.flash operation loaded.firmware := by
    rw [hfirmware]
    apply (Firmware.steady_working hpending f.flash operation).run
    exact ⟨hreset, hsane.accept hop, .inl ⟨rfl, rfl⟩⟩
  obtain ⟨after, l', flash', ops, hafter, hrests, hsane', hran, hissued, hanswer⟩ :=
    waitReady_executed hloaded hpending hworking hwait
  have hbytes := bytes_request (requestFrame cmdLoadBpf sequence payload hpayload)
  exact ⟨after, l', flash', hafter, hrests, hsane', hexpected, hpending, hrunning,
    ⟨_, operation, ops, hbytes, hencoded, haccepts, hran, hissued⟩, hanswer⟩

end Host

end OptiBridge
