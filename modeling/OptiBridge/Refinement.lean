import OptiBridge.Answers
import OptiBridge.Device
import OptiBridge.Lib.Simulation

/-!
# OptiBridge.Refinement

The firmware is the protocol device with a main loop around it.  From one boot
to the next, whatever captures, timers, invocations and main-loop statements
come in between, it holds the state of a device that has served the captures
the firmware did not refuse as busy, executed the pending operations where the
main loop did, and had its maps stored to where a timer invocation stored; and
it answers every capture as that device does, or busy.

The device is that of `OptiBridge.Device`, about which the claims on the loader
and the maps are proved, so everything shown there holds of the firmware between
two boots.  The executor a Start is given is the firmware's own, seen from
outside: a result and what it does to the maps.
-/

namespace OptiBridge

/-! ## dispatchers that agree -/

/- Two dispatchers with different executors and executor states, whose loaders,
queues and maps are the same, answer alike. -/

section alike

variable {σ τ : Type}

/-- The protocol state of two dispatchers, whatever their executors capture and
whatever their response buffers hold. -/
structure DispatchState.Agrees (s : DispatchState σ) (s' : DispatchState τ) : Prop where
  statusQueue : s.statusQueue = s'.statusQueue
  loader : s.loader = s'.loader
  mapBacking : s.mapBacking = s'.mapBacking

/-- The packet an outcome sends, if it sends one. -/
def sent : PacketOutcome × DispatchState σ → Option (List UInt8)
  | (.response length, s) => some (s.output.toList.take length)
  | (.empty, _) => some []
  | (.reset, _) => none

/-- Two dispatches that send the same and leave the same protocol state. -/
structure SentAlike (out : PacketOutcome × DispatchState σ)
    (out' : PacketOutcome × DispatchState τ) : Prop where
  sent : sent out = sent out'
  state : out.2.Agrees out'.2

/-- The bytes sent do not depend on what the response buffer held before. -/
theorem sent_respond (s : DispatchState σ) (request : Request) (status : UInt8)
    {payload : List UInt8} (h : payload.length ≤ maxPayload) :
    sent (s.respond request status payload) =
      some (⟨status, request.sequence, 0, payload, h⟩ : Frame).bytes := by
  obtain ⟨output, hresponse, hbytes⟩ := response_bytes status request.sequence s.output h
  simp only [DispatchState.respond, hresponse, sent, hbytes]

/-- The same response is sent alike. -/
theorem SentAlike.respond {s : DispatchState σ} {s' : DispatchState τ} (h : s.Agrees s')
    (request : Request) (status : UInt8) {payload : List UInt8}
    (hlen : payload.length ≤ maxPayload) :
    SentAlike (s.respond request status payload) (s'.respond request status payload) where
  sent := by rw [sent_respond _ _ _ hlen, sent_respond _ _ _ hlen]
  state := ⟨h.statusQueue, h.loader, h.mapBacking⟩

/-- An answer without payload. -/
theorem SentAlike.status {s : DispatchState σ} {s' : DispatchState τ} (h : s.Agrees s')
    (request : Request) (status : UInt8) :
    SentAlike (s.respond request status []) (s'.respond request status []) :=
  .respond h request status (Nat.zero_le _)

/-- Executors that return the same and leave the same maps. -/
def SameExecution (execute : Executor σ) (s : DispatchState σ) (execute' : Executor τ)
    (s' : DispatchState τ) : Prop :=
  ∀ metadata, (execute metadata s.mapBacking s.captured).1 =
      (execute' metadata s'.mapBacking s'.captured).1 ∧
    (execute metadata s.mapBacking s.captured).2.1 =
      (execute' metadata s'.mapBacking s'.captured).2.1

variable {s : DispatchState σ} {s' : DispatchState τ} {request : Request}

/-- A Start is answered alike, if both executors do the same. -/
theorem dispatchStart_alike (h : s.Agrees s') {execute : Executor σ} {execute' : Executor τ}
    (hexecute : SameExecution execute s execute' s') :
    SentAlike (dispatchStart request execute s) (dispatchStart request execute' s') := by
  obtain ⟨hqueue, hloader, hmaps⟩ := h
  unfold dispatchStart
  rw [← hloader]
  split_ifs with hlen
  · apply SentAlike.status
    exact ⟨hqueue, hloader, hmaps⟩
  · cases s.loader.executionMetadata with
    | error status =>
        apply SentAlike.status
        exact ⟨hqueue, hloader, hmaps⟩
    | ok metadata =>
        obtain ⟨hresult, hstored⟩ := hexecute metadata
        simp only [← hresult]
        cases (execute metadata s.mapBacking s.captured).1 with
        | error status =>
            apply SentAlike.status
            exact ⟨hqueue, rfl, hstored⟩
        | ok value =>
            simp only
            split_ifs with hvalue
            · obtain ⟨marked, loader⟩ := s.loader.markRunning
              cases marked with
              | ok =>
                  apply SentAlike.status
                  exact ⟨hqueue, rfl, hstored⟩
              | error =>
                  apply SentAlike.status
                  exact ⟨hqueue, rfl, hstored⟩
            · apply SentAlike.status
              exact ⟨hqueue, rfl, hstored⟩

/-- So are map accesses. -/
theorem dispatchMaps_alike (h : s.Agrees s') :
    SentAlike (dispatchReadMap request s) (dispatchReadMap request s') ∧
      SentAlike (dispatchWriteMap request s) (dispatchWriteMap request s') := by
  obtain ⟨hqueue, hloader, hmaps⟩ := h
  constructor
  · unfold dispatchReadMap
    rw [← hloader, ← hmaps]
    split_ifs with hlen
    · apply SentAlike.status
      exact ⟨hqueue, hloader, hmaps⟩
    · simp only
      split
      · next bytes hbytes =>
          exact .respond ⟨hqueue, hloader, hmaps⟩ _ _ (BpfLoader.length_readMap hbytes)
      · apply SentAlike.status
        exact ⟨hqueue, hloader, hmaps⟩
  · unfold dispatchWriteMap
    rw [← hloader, ← hmaps]
    split_ifs with hlen
    · apply SentAlike.status
      exact ⟨hqueue, hloader, hmaps⟩
    · simp only
      split_ifs with hlocation
      · apply SentAlike.status
        exact ⟨hqueue, hloader, hmaps⟩
      · split
        · apply SentAlike.status
          exact ⟨hqueue, rfl, rfl⟩
        · apply SentAlike.status
          exact ⟨hqueue, rfl, rfl⟩

/-- So are the requests that need no loader. -/
theorem dispatch_alike (h : s.Agrees s') :
    SentAlike (dispatch request s) (dispatch request s') := by
  obtain ⟨hqueue, hloader, hmaps⟩ := h
  unfold dispatch
  rw [← hqueue]
  have hstatus : ∀ status, SentAlike (s.respond request status []) (s'.respond request status []) :=
    fun status => .status ⟨hqueue, hloader, hmaps⟩ request status
  split_ifs
  · exact hstatus _
  · exact ⟨rfl, hqueue, hloader, hmaps⟩
  · exact hstatus _
  · apply SentAlike.respond
    · exact ⟨rfl, hloader, hmaps⟩
    · exact s.statusQueue.length_pop
  all_goals exact hstatus _

/-- **Dispatch.** Dispatchers that agree answer alike and go on agreeing, if
their executors agree wherever one is called. -/
theorem dispatcher_alike (h : s.Agrees s') {execute : Executor σ} {execute' : Executor τ}
    (hexecute : request.command = cmdStartBpf → SameExecution execute s execute' s') :
    SentAlike (dispatchWithBpfAndExecutor request execute s)
      (dispatchWithBpfAndExecutor request execute' s') := by
  unfold dispatchWithBpfAndExecutor
  split_ifs with hflags hload hread hwrite hstart hquery
  · exact .status h _ _
  · obtain ⟨hqueue, hloader, hmaps⟩ := h
    unfold dispatchLoad
    rw [← hloader]
    split
    · apply SentAlike.status
      exact ⟨hqueue, rfl, hmaps⟩
    · apply SentAlike.status
      exact ⟨hqueue, rfl, hmaps⟩
  · exact (dispatchMaps_alike h).1
  · exact (dispatchMaps_alike h).2
  · exact dispatchStart_alike h (hexecute hstart)
  · unfold dispatchQuery
    rw [← h.loader]
    split_ifs
    · exact .status h _ _
    · split
      · exact .respond h _ _ (by simp [maxPayload])
      · exact .status h _ _
  · exact dispatch_alike h

end alike

/-! ## what a capture comes to -/

/- A refused capture is no event of the device; any other is the request it
holds. -/

/-- A device undergoes an event of the protocol, or a program stores to its maps
outside any request. -/
inductive HostedEvent where
  | protocol (event : Event)
  | stored (mapBacking : MapBacking)

namespace Device

variable {F : Type} [BpfFlash F]

/-- An event of the device, or a store into the maps that no event of it
accounts for. -/
def hostedStep (d : Device F) : HostedEvent → Device F
  | .protocol event => d.step event
  | .stored mapBacking => { d with mapBacking := mapBacking }

/-- The device after a list of events, its programs' stores included. -/
def hostedRun (d : Device F) (es : List HostedEvent) : Device F := Machine.run hostedStep d es

/-- The device at power-on, before anything is asked of it. -/
def fresh (flash : F) : Device F :=
  boot .ready (Vector.replicate _ 0) (Vector.replicate _ 0) flash

end Device

/-- A Start's invocation as the device's executor sees it. -/
def hostExecutor (invocation : Invocation) : HostExecutor := fun _ mapBacking =>
  ((match invocation.result with
    | .ok value => .ok value
    | .error _ => .error statusBadCommand), invocation.activities.foldl Activity.stored mapBacking)

namespace Firmware

variable {F : Type}

/-- The callback refuses a request as busy. -/
def Refuses (f : Firmware F) (request : Request) : Prop :=
  f.captured.bpfExecutionActive ∧ request.command ≠ cmdReset

instance (f : Firmware F) (request : Request) : Decidable (f.Refuses request) :=
  inferInstanceAs (Decidable (_ ∧ _))

/-- What the device undergoes when the firmware does. -/
def undergoes (f : Firmware F) : FirmwareEvent → List HostedEvent
  | .main _ => if f.next = .executePending then [.protocol .executePending] else []
  | .activity activity =>
      match activity with
      | .store mapBacking => if f.next = .invoked then [.stored mapBacking] else []
      | .schedule .. | .cancel | .wait _ => []
  | .packet bytes truncated invocation =>
      match parsePacket bytes truncated with
      | none => []
      | some request =>
          if f.Refuses request then []
          else [.protocol (.request request (hostExecutor invocation))]
  | .tick _ => []

/-- What the device has the callback queue for a capture. -/
def owed (f : Firmware F) (d : Device F) (packet : List UInt8) (truncated : Bool)
    (invocation : Invocation) : Option (List UInt8) :=
  match parsePacket packet truncated with
  | none => some []
  | some request =>
      if f.Refuses request then
        some (⟨statusBusy, request.sequence, 0, [], Nat.zero_le _⟩ : Frame).bytes
      else sent (d.dispatched request (hostExecutor invocation))

/-- The firmware holds the device's state. -/
structure Hosts (f : Firmware F) (d : Device F) : Prop where
  state : f.toDispatchState.Agrees d.toDispatchState
  flash : f.flash = d.flash

/-- A capture that is dispatched queues what the dispatch sends. -/
theorem queued_dispatched {f : Firmware F} {packet : List UInt8} {truncated : Bool}
    {request : Request} (hparse : parsePacket packet truncated = some request)
    (hfree : ¬ f.Refuses request) (invocation : Invocation) :
    (f.onI2cPacket packet truncated invocation).1 =
      sent (dispatchWithBpfAndExecutor request (startExecutor invocation) f.toDispatchState) := by
  unfold Refuses at hfree
  simp only [onI2cPacket, hparse, if_neg hfree]
  generalize dispatchWithBpfAndExecutor request (startExecutor invocation) f.toDispatchState = out
  obtain ⟨outcome, s⟩ := out
  cases outcome <;> rfl

/-- A capture that is refused is answered busy and changes no protocol state. -/
theorem queued_refused {f : Firmware F} {packet : List UInt8} {truncated : Bool}
    {request : Request} (hparse : parsePacket packet truncated = some request)
    (hbusy : f.Refuses request) (invocation : Invocation) :
    ∃ output, f.onI2cPacket packet truncated invocation =
      (some (⟨statusBusy, request.sequence, 0, [], Nat.zero_le _⟩ : Frame).bytes,
        { f with output := output }) := by
  obtain ⟨output, hresponse, hbytes⟩ :=
    response_bytes statusBusy request.sequence f.output (Fits.nil statusBusy).length
  unfold Refuses at hbusy
  refine ⟨output, ?_⟩
  simp only [onI2cPacket, hparse, if_pos hbusy, statusResponse, hresponse, hbytes]

/-- A Start's executor does to the maps what the device's does, whenever the
callback gets to call it. -/
theorem sameExecution {f : Firmware F} {d : Device F} (h : f.Hosts d) {request : Request}
    (hfree : ¬ f.Refuses request) (invocation : Invocation)
    (hstart : request.command = cmdStartBpf) :
    SameExecution (startExecutor invocation) f.toDispatchState
      (recording (hostExecutor invocation)) d.toDispatchState := by
  intro metadata
  have hidle : f.captured.bpfExecutionActive = false :=
    Bool.eq_false_iff.mpr fun hactive => hfree ⟨hactive, by rw [hstart]; decide⟩
  constructor
  · simp only [startExecutor, Runtime.tryClaimBpfExecution_idle hidle]
    rfl
  · rw [startExecutor_idle hidle, h.state.mapBacking]
    rfl

/-- **Answers.** A firmware that hosts a device answers for it. -/
theorem Hosts.answers {f : Firmware F} {d : Device F} (h : f.Hosts d) (packet : List UInt8)
    (truncated : Bool) (invocation : Invocation) :
    (f.onI2cPacket packet truncated invocation).1 = f.owed d packet truncated invocation := by
  unfold owed
  cases hparse : parsePacket packet truncated with
  | none => simp only [onI2cPacket, hparse]
  | some request =>
      simp only
      split_ifs with hbusy
      · obtain ⟨output, hqueued⟩ := queued_refused hparse hbusy invocation
        rw [hqueued]
      · rw [queued_dispatched hparse hbusy]
        exact (dispatcher_alike h.state (sameExecution h hbusy invocation)).sent

/-! ## one event -/

/- Every event of the firmware is some events of the device, or a reboot. -/

/-- A capture does not touch the flash. -/
theorem flash_packet (f : Firmware F) (packet : List UInt8) (truncated : Bool)
    (invocation : Invocation) : (f.onI2cPacket packet truncated invocation).2.flash = f.flash := by
  unfold onI2cPacket
  cases parsePacket packet truncated with
  | none => rfl
  | some request =>
      simp only
      split_ifs
      · rfl
      · generalize dispatchWithBpfAndExecutor request (startExecutor invocation)
          f.toDispatchState = out
        obtain ⟨outcome, s⟩ := out
        cases outcome <;> rfl

variable [BpfFlash F]

/-- The main loop resets the device. -/
def Reboots (f : Firmware F) : FirmwareEvent → Prop
  | .main _ => f.next = .checkReset ∧ f.resetPending = true
  | .activity _ | .packet .. | .tick _ => False

/-- **Capture step.** -/
theorem Hosts.packet {f : Firmware F} {d : Device F} (h : f.Hosts d) (packet : List UInt8)
    (truncated : Bool) (invocation : Invocation) :
    (f.onI2cPacket packet truncated invocation).2.Hosts
      (d.hostedRun (f.undergoes (.packet packet truncated invocation))) := by
  have hflash := (f.flash_packet packet truncated invocation).trans h.flash
  cases hparse : parsePacket packet truncated with
  | none =>
      simp only [undergoes, hparse, onI2cPacket]
      exact h
  | some request =>
      by_cases hbusy : f.Refuses request
      · obtain ⟨output, hqueued⟩ := queued_refused hparse hbusy invocation
        simp only [undergoes, hparse, if_pos hbusy, hqueued]
        exact ⟨⟨h.state.statusQueue, h.state.loader, h.state.mapBacking⟩, h.flash⟩
      · obtain ⟨-, hstate⟩ := onI2cPacket_dispatched hparse hbusy invocation
        simp only [undergoes, hparse, if_neg hbusy]
        refine ⟨?_, hflash⟩
        rw [hstate]
        exact (dispatcher_alike h.state (sameExecution h hbusy invocation)).state

/-- **Main step.** Every statement but a reboot. -/
theorem Hosts.main {f : Firmware F} {d : Device F} (h : f.Hosts d) {busIdle : Bool}
    (hreboots : ¬ f.Reboots (.main busIdle)) :
    (f.mainStep busIdle).Hosts (d.hostedRun (f.undergoes (.main busIdle))) := by
  obtain ⟨⟨hqueue, hloader, hmaps⟩, hflash⟩ := h
  have hstep := f.main_step busIdle
  simp only [undergoes]
  generalize f.mainStep busIdle = f' at hstep ⊢
  cases hstep with
  | reset hnext hreset => exact absurd ⟨hnext, hreset⟩ hreboots
  | executed hnext =>
      rw [if_pos hnext]
      have hexecuted : f.loader.executePending f.flash = d.loader.executePending d.flash := by
        rw [hloader, hflash]
      exact ⟨⟨hqueue, congrArg Prod.fst hexecuted, hmaps⟩, congrArg Prod.snd hexecuted⟩
  | moved hmoves =>
      have hnext : f.next ≠ .executePending := by
        generalize f.next = statement at hmoves
        cases hmoves <;> simp
      rw [if_neg hnext]
      exact ⟨⟨hqueue, hloader, hmaps⟩, hflash⟩
  | polled hnext | notReady hnext | took hnext | restored hnext | claimed hnext | invoked hnext
  | returned hnext | released hnext =>
      rw [if_neg (by rw [hnext]; simp)]
      exact ⟨⟨hqueue, hloader, hmaps⟩, hflash⟩

/-- **Hosting step.** -/
theorem hosts_step {f : Firmware F} {d : Device F} {e : FirmwareEvent} (hreboots : ¬ f.Reboots e)
    (h : f.Hosts d) : (f.step e).Hosts (d.hostedRun (f.undergoes e)) := by
  cases e with
  | main busIdle => exact h.main hreboots
  | packet bytes truncated invocation => exact h.packet bytes truncated invocation
  | tick ticks => exact ⟨⟨h.state.statusQueue, h.state.loader, h.state.mapBacking⟩, h.flash⟩
  | activity activity =>
      obtain ⟨⟨hqueue, hloader, hmaps⟩, hflash⟩ := h
      simp only [step, activityStep]
      cases activity with
      | store mapBacking =>
          simp only [undergoes]
          split_ifs
          · exact ⟨⟨hqueue, hloader, rfl⟩, hflash⟩
          · exact ⟨⟨hqueue, hloader, hmaps⟩, hflash⟩
      | schedule | cancel | wait =>
          simp only [undergoes]
          split_ifs <;> exact ⟨⟨hqueue, hloader, hmaps⟩, hflash⟩

/-! ## whole runs -/

/- From the last boot on, however many there have been. -/

omit [BpfFlash F] in
/-- **Hosting run.** Between reboots the firmware hosts the device throughout. -/
theorem hosts_run [BpfFlash F] {f : Firmware F} {d : Device F} (h : f.Hosts d)
    {es : List FirmwareEvent} (hes : Machine.Along step (fun f e => ¬ f.Reboots e) f es) :
    (f.run es).Hosts (d.hostedRun (Machine.trace step undergoes f es)) :=
  Machine.simulation_along (fun _ _ _ => hosts_step) h hes

/-- A boot hosts a device at power-on. -/
theorem hosts_boot (flash : F) (now : Nat) (history : History) :
    (boot flash now history).Hosts (.fresh flash) := ⟨⟨rfl, rfl, rfl⟩, rfl⟩

/-- A reboot is a boot over the flash as it is. -/
theorem step_reboots {f : Firmware F} {e : FirmwareEvent} (h : f.Reboots e) :
    f.step e = boot f.flash f.captured.now (.reset :: f.captured.history) := by
  cases e with
  | main busIdle =>
      obtain ⟨hnext, hreset⟩ := h
      simp only [step, mainStep, hnext, hreset, if_true]
  | activity | packet | tick => exact absurd h id

/-- The last boot of a run, over `flash`: the start of the run, or the reboot
that ends `before`.  There is none in `since`. -/
structure LastBoot (start : Firmware F) (before since : List FirmwareEvent) (flash : F) :
    Prop where
  origin : (before = [] ∧ ∃ now history, start = boot flash now history) ∨
    ∃ earlier e, before = earlier ++ [e] ∧ (start.run earlier).Reboots e ∧
      (start.run earlier).flash = flash
  since : Machine.Along step (fun f e => ¬ f.Reboots e) (start.run before) since

/-- The state after the last boot is a boot state. -/
theorem LastBoot.booted {start : Firmware F} {before since : List FirmwareEvent} {flash : F}
    (h : LastBoot start before since flash) :
    ∃ now history, start.run before = boot flash now history := by
  cases h.origin with
  | inl hstart =>
      obtain ⟨rfl, now, history, rfl⟩ := hstart
      exact ⟨now, history, rfl⟩
  | inr hreboot =>
      obtain ⟨earlier, e, rfl, hreboots, rfl⟩ := hreboot
      exact ⟨_, _, (Machine.run_concat ..).trans (step_reboots hreboots)⟩

/-- Every run has one. -/
theorem exists_lastBoot (flash : F) (now : Nat) (history : History) (es : List FirmwareEvent) :
    ∃ before since flash', es = before ++ since ∧
      LastBoot (boot flash now history) before since flash' := by
  cases Machine.never_or_last step Reboots (boot flash now history) es with
  | inl hnever => exact ⟨[], es, flash, rfl, .inl ⟨rfl, now, history, rfl⟩, hnever⟩
  | inr hlast =>
      obtain ⟨before, e, since, rfl, hreboots, hsince⟩ := hlast
      exact ⟨before ++ [e], since, _, by simp, .inr ⟨before, e, rfl, hreboots, rfl⟩, hsince⟩

/-- **The firmware refines the protocol device.** At every moment of every run
from power-on, over any flash and with any captures, timers, invocations and
main-loop statements: since its last boot the firmware has gone through the
states of a device freshly booted over the flash it found, and it answers the
next capture, whatever it is, as that device does or as busy. -/
theorem firmware_refines (flash : F) (now : Nat) (history : History) (es : List FirmwareEvent) :
    ∃ before since flash', es = before ++ since ∧
      LastBoot (boot flash now history) before since flash' ∧
      let d := (Device.fresh flash').hostedRun
        (Machine.trace step undergoes ((boot flash now history).run before) since)
      let f := (boot flash now history).run es
      f.Hosts d ∧ ∀ packet truncated invocation,
        (f.onI2cPacket packet truncated invocation).1 = f.owed d packet truncated invocation := by
  obtain ⟨before, since, flash', rfl, hlast⟩ := exists_lastBoot flash now history es
  refine ⟨before, since, flash', rfl, hlast, ?_⟩
  obtain ⟨now', history', hbooted⟩ := hlast.booted
  have hhosts := hosts_run (hbooted ▸ hosts_boot flash' now' history') hlast.since
  have hrun : (boot flash now history).run (before ++ since) =
      ((boot flash now history).run before).run since := Machine.run_append ..
  rw [hrun]
  exact ⟨hhosts, hhosts.answers⟩

end Firmware

end OptiBridge
