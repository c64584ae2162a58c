import OptiBridge.Execution
import OptiBridge.LoadSlot
import OptiBridge.Lib.Progress
import OptiBridge.PowerCut

/-!
# OptiBridge.Reboots

A reset request is never lost: the main loop comes back to it within a bounded
number of statements, whatever comes in between, and the reboot finds the
program the loader had, unless a Load was acknowledged on the way.

The first half is about position: how many statements are left until the check,
which captures cannot change.  The second is about flash: the firmware mirrors a
device whose flash is known from `OptiBridge.PowerCut`, so what a boot adopts is
what the loader had, as long as nothing is erased in between; and nothing is,
unless a Load is accepted.

* `reboot_happens`, within how many statements;
* `settled_run`, the program on the way;
* `boot_program`, what the boot finds;
* `reset_served` and `reset_served_committed`, the three together, over any
  flash and over one that does not fail.
-/

namespace OptiBridge

open Nor

/-! ## the way back to the reset check -/

/- Every statement of the main loop gets nearer to the check, and nothing else
moves it. -/

/-- How many statements the main loop is away from looking at the reset request. -/
def toReset : Statement → Nat
  | .checkReset => 0
  | .sleep => 1
  | .release => 2
  | .invoked => 3
  | .invoke _ _ => 4
  | .fetchMetadata _ => 5
  | .checkGeneration _ => 6
  | .claim _ => 7
  | .takeReadyTimer => 8
  | .pollTimer => 9
  | .executePending => 10
  | .waitForI2cBusIdle => 11
  | .checkPending => 12

/-- Never more than twelve statements. -/
theorem toReset_le (statement : Statement) : toReset statement ≤ 12 := by
  cases statement <;> simp [toReset]

/-- The main loop runs a statement. -/
def FirmwareEvent.isMain : FirmwareEvent → Bool
  | .main _ => true
  | .activity _ | .packet .. | .tick _ => false

/-- The statements of the main loop, counted. -/
theorem Firmware.mains_eq_countP (es : List FirmwareEvent) :
    Firmware.mains es = es.countP FirmwareEvent.isMain := by
  refine List.countP_congr fun e _ => ?_
  cases e <;> rfl

namespace Firmware

variable {F : Type}

/-- How many statements away from it the firmware is. -/
def untilReset (f : Firmware F) : Nat := toReset f.next

/-- A capture takes no reset request back. -/
theorem resetPending_packet {f : Firmware F} (h : f.resetPending = true) (packet : List UInt8)
    (truncated : Bool) (invocation : Invocation) :
    (f.onI2cPacket packet truncated invocation).2.resetPending = true := by
  unfold onI2cPacket
  cases parsePacket packet truncated with
  | none => exact h
  | some request =>
      simp only
      split_ifs
      · exact h
      · generalize dispatchWithBpfAndExecutor request (startExecutor invocation)
          f.toDispatchState = out
        obtain ⟨outcome, s⟩ := out
        cases outcome with
        | reset => rfl
        | response | empty => exact h

/-- A valid Reset asks for a reset, whatever the firmware is doing. -/
theorem resetPending_reset {packet : List UInt8} {last : Frame} (f : Firmware F)
    (hpacket : EndsWith packet last) (hreset : last.request.IsReset) (invocation : Invocation) :
    (f.onI2cPacket packet false invocation).2 = { f with resetPending := true } := by
  obtain ⟨frames, hframes⟩ := hpacket
  have hparse := parsePacket_eq_some.mpr ⟨frames, last, hframes, rfl⟩
  obtain ⟨hflags, hcommand, hlen⟩ := hreset
  have hfree : ¬ (f.captured.bpfExecutionActive ∧ last.request.command ≠ cmdReset) :=
    fun h => h.2 hcommand
  simp only [onI2cPacket, hparse, if_neg hfree, dispatch_reset _ _ hcommand, hflags, hlen,
    ne_eq, not_true_eq_false, if_false, if_true]

variable [BpfFlash F]

/-- A statement other than the check brings the main loop nearer to it. -/
theorem toReset_main {f : Firmware F} (h : f.next ≠ .checkReset) (busIdle : Bool) :
    toReset (f.mainStep busIdle).next < toReset f.next := by
  have hstep := f.main_step busIdle
  generalize f.mainStep busIdle = f' at hstep ⊢
  cases hstep with
  | moved hmoves =>
      generalize f.next = statement at hmoves h
      cases hmoves with
      | noReset => exact absurd rfl h
      | _ => simp [toReset]
  | reset hnext => exact absurd hnext h
  | executed hnext | polled hnext | notReady hnext | took hnext | restored hnext | claimed hnext
  | invoked hnext | returned hnext | released hnext => simp [hnext, toReset]

/-- Only a reboot answers a reset request. -/
theorem resetPending_step {f : Firmware F} {e : FirmwareEvent} (h : f.resetPending = true)
    (hreboots : ¬ f.Reboots e) : (f.step e).resetPending = true := by
  cases e with
  | packet bytes truncated invocation => exact resetPending_packet h bytes truncated invocation
  | tick ticks => exact h
  | activity activity =>
      simp only [step, activityStep]
      split_ifs <;> exact h
  | main busIdle =>
      show (f.mainStep busIdle).resetPending = true
      have hstep := f.main_step busIdle
      generalize f.mainStep busIdle = f' at hstep ⊢
      cases hstep with
      | reset hnext hreset => exact absurd ⟨hnext, hreset⟩ hreboots
      | _ => exact h

/-- A statement that is not the reboot brings it nearer. -/
theorem toReset_push (f : Firmware F) (e : FirmwareEvent) (h : f.resetPending = true)
    (hreboots : ¬ f.Reboots e) (hmain : e.isMain) : (f.step e).untilReset < f.untilReset := by
  cases e with
  | main busIdle => exact toReset_main (fun hnext => hreboots ⟨hnext, h⟩) busIdle
  | activity | packet | tick => contradiction

/-- Nothing else moves the main loop away from it. -/
theorem toReset_other (f : Firmware F) (e : FirmwareEvent) (hmain : ¬ e.isMain) :
    (f.step e).untilReset ≤ f.untilReset := by
  have hstay : (f.step e).next = f.next := next_step fun busIdle heq => by
    subst heq
    exact hmain rfl
  rw [untilReset, hstay, untilReset]

/-- A reset request is answered by a reboot after at most twelve other
statements, wherever the main loop is and whatever comes in between. -/
theorem reboot_happens {f : Firmware F} (h : f.resetPending = true) {es : List FirmwareEvent}
    (hes : 12 < mains es) :
    ∃ before e after, es = before ++ e :: after ∧ (f.run before).Reboots e ∧
      Machine.Along step (fun f e => ¬ f.Reboots e) f before ∧ mains before ≤ 12 := by
  have hlt : f.untilReset < es.countP FirmwareEvent.isMain := by
    rw [← mains_eq_countP]
    exact Nat.lt_of_le_of_lt (toReset_le _) hes
  obtain ⟨before, e, after, hsplit, hreboots, hbefore, hcount⟩ :=
    Machine.happens (I := fun f : Firmware F => f.resetPending = true) (P := Reboots)
      (fun _ _ => resetPending_step) toReset_push (fun f e _ _ => toReset_other f e) h hlt
  rw [← mains_eq_countP] at hcount
  exact ⟨before, e, after, hsplit, hreboots, hbefore, hcount.trans (toReset_le _)⟩

/-! ## the program on the way -/

/- While no Load is acknowledged the loader keeps its program and the flash
stays as it is. -/

/-- The loader runs or may run `program`, and nothing is to be executed. -/
structure Settled (f : Firmware F) (program : Program) : Prop where
  program : f.loader.program = some program
  pending : f.loader.pending = none

/-- Nothing is put into the pending slot, and there is no reboot. -/
def Undisturbed (f : Firmware F) (e : FirmwareEvent) : Prop :=
  ¬ f.Reboots e ∧ Slot.puts (f.slotEvents e) = []

omit [BpfFlash F] in
/-- A capture that acknowledges no Load leaves the program where it is. -/
theorem Settled.packet {f : Firmware F} {program : Program} (h : f.Settled program)
    {packet : List UInt8} {truncated : Bool} {invocation : Invocation}
    (hput : f.acknowledges packet truncated invocation = []) :
    (f.onI2cPacket packet truncated invocation).2.Settled program := by
  obtain ⟨hprogram, hpending⟩ := h
  have hslot := f.slot_packet packet truncated invocation
  rw [hput, hpending] at hslot
  have hafter : (f.onI2cPacket packet truncated invocation).2.loader.pending = none :=
    (Option.some.inj hslot).symm
  refine ⟨?_, hafter⟩
  cases hparse : parsePacket packet truncated with
  | none => simp only [onI2cPacket, hparse, hprogram]
  | some request =>
      by_cases hbusy : f.Refuses request
      · obtain ⟨output, hqueued⟩ := queued_refused hparse hbusy invocation
        rw [hqueued]
        exact hprogram
      · obtain ⟨-, hstate⟩ := onI2cPacket_dispatched hparse hbusy invocation
        rw [hstate] at hafter ⊢
        cases loader_step request (startExecutor invocation) f.toDispatchState with
        | kept hloader => rw [hloader, hprogram]
        | accepted _ _ _ hloader =>
            rw [hloader] at hafter
            contradiction
        | started _ _ _ hstate hloader =>
            rw [hloader]
            simp only [BpfLoader.program, hstate] at hprogram ⊢
            exact hprogram

/-- So does a statement of the main loop, and it leaves flash alone. -/
theorem Settled.main {f : Firmware F} {program : Program} (h : f.Settled program) {busIdle : Bool}
    (hreboots : ¬ f.Reboots (.main busIdle)) :
    (f.mainStep busIdle).Settled program ∧ (f.mainStep busIdle).flash = f.flash := by
  obtain ⟨hprogram, hpending⟩ := h
  have hstep := f.main_step busIdle
  generalize f.mainStep busIdle = f' at hstep ⊢
  cases hstep with
  | reset hnext hreset => exact absurd ⟨hnext, hreset⟩ hreboots
  | executed =>
      have hidle := BpfLoader.executePending_rests hpending f.flash
      constructor
      · constructor
        · show (f.loader.executePending f.flash).1.program = some program
          rw [hidle, hprogram]
        · show (f.loader.executePending f.flash).1.pending = none
          rw [hidle, hpending]
      · show (f.loader.executePending f.flash).2 = f.flash
        rw [hidle]
  | _ => exact ⟨⟨hprogram, hpending⟩, rfl⟩

/-- **Settled step.** Unless a Load is acknowledged the firmware keeps its
program, and the flash. -/
theorem settled_step {f : Firmware F} {program : Program} {e : FirmwareEvent}
    (he : f.Undisturbed e) (h : f.Settled program) :
    (f.step e).Settled program ∧ (f.step e).flash = f.flash := by
  obtain ⟨hreboots, hput⟩ := he
  cases e with
  | main busIdle => exact h.main hreboots
  | packet bytes truncated invocation =>
      have hnone : f.acknowledges bytes truncated invocation = [] := by
        cases hput' : f.acknowledges bytes truncated invocation with
        | nil => rfl
        | cons operation operations =>
            simp only [slotEvents, hput'] at hput
            contradiction
      exact ⟨h.packet hnone, f.flash_packet bytes truncated invocation⟩
  | tick ticks => exact ⟨⟨h.program, h.pending⟩, rfl⟩
  | activity activity =>
      simp only [step, activityStep]
      split_ifs <;> exact ⟨⟨h.program, h.pending⟩, rfl⟩

/-- **Settled run.** -/
theorem settled_run {f : Firmware F} {program : Program} (h : f.Settled program)
    {es : List FirmwareEvent} (hes : Machine.Along step Undisturbed f es) :
    (f.run es).Settled program ∧ (f.run es).flash = f.flash :=
  Machine.invariant_along (I := fun f' : Firmware F => f'.Settled program ∧ f'.flash = f.flash)
    (fun _ _ he hf => by
      obtain ⟨hsettled, hflash⟩ := settled_step he hf.1
      exact ⟨hsettled, hflash.trans hf.2⟩) ⟨h, rfl⟩ hes

/-- A run without a reboot in which no Load is acknowledged leaves it alone. -/
theorem undisturbed_along {f : Firmware F} {es : List FirmwareEvent}
    (hes : Machine.Along step (fun f e => ¬ f.Reboots e) f es)
    (hputs : Slot.puts (Machine.trace step slotEvents f es) = []) :
    Machine.Along step Undisturbed f es := by
  induction es generalizing f with
  | nil => trivial
  | cons e es ih =>
      rw [Machine.trace_cons, Slot.puts_append, List.append_eq_nil_iff] at hputs
      exact ⟨⟨hes.1, hputs.1⟩, ih hes.2 hputs.2⟩

end Firmware

/-! ## the flash of a firmware -/

/- The device a firmware hosts, and what its flash holds. -/

namespace Firmware

/-- The device a firmware hosts. -/
def device {F : Type} (f : Firmware F) : Device F where
  statusQueue := f.statusQueue
  loader := f.loader
  mapBacking := f.mapBacking
  output := f.output
  captured := []
  flash := f.flash

/-- A sane loader that mirrors its flash. -/
structure Mirrored (loader : BpfLoader) (flash : Chip) : Prop where
  sane : loader.Sane
  mirrors : ∃ t, Mirrors loader flash.contents t

/-- A boot mirrors what it has read. -/
theorem mirrored_boot (flash : Chip) (now : Nat) (history : History) :
    Mirrored (boot flash now history).loader (boot flash now history).flash := by
  have hpower : Device.PowerOn (Device.fresh flash) := .boot _ _ _ flash
  exact ⟨hpower.sane, none, hpower.mirrors⟩

/-- Whatever a hosted device undergoes, it mirrors its flash. -/
theorem mirrored_hosted {d : Device Chip} (h : Mirrored d.loader d.flash)
    (es : List HostedEvent) : Mirrored (d.hostedRun es).loader (d.hostedRun es).flash :=
  Machine.invariant_run (P := fun _ => True)
    (I := fun d : Device Chip => Mirrored d.loader d.flash)
    (fun d e _ hd => by
      obtain ⟨hsane, t, hmirrors⟩ := hd
      cases e with
      | protocol event =>
          exact ⟨Device.sane_step hsane event, _, Device.mirrors_step hsane hmirrors event⟩
      | stored => exact ⟨hsane, t, hmirrors⟩) h fun _ _ => trivial

/-- **Mirrored step.** -/
theorem mirrored_step {f : Firmware Chip} (h : Mirrored f.loader f.flash) (e : FirmwareEvent) :
    Mirrored (f.step e).loader (f.step e).flash := by
  by_cases hreboots : f.Reboots e
  · rw [step_reboots hreboots]
    exact mirrored_boot _ _ _
  · have hhosts : f.Hosts f.device := ⟨⟨rfl, rfl, rfl⟩, rfl⟩
    have hafter := hosts_step hreboots hhosts
    have hdevice : Mirrored f.device.loader f.device.flash := h
    rw [hafter.state.loader, hafter.flash]
    exact mirrored_hosted hdevice _

/-- **Mirrored run.** The loader of a firmware mirrors its flash over every run,
reboots included. -/
theorem mirrored_run (flash : Chip) (now : Nat) (history : History) (es : List FirmwareEvent) :
    Mirrored ((boot flash now history).run es).loader ((boot flash now history).run es).flash :=
  Machine.invariant_run (P := fun _ => True)
    (I := fun f : Firmware Chip => Mirrored f.loader f.flash)
    (fun _ e _ hf => mirrored_step hf e) (mirrored_boot flash now history) fun _ _ => trivial

/-- A program of a loader that mirrors its flash is the one flash holds. -/
theorem Mirrored.holds {loader : BpfLoader} {flash : Chip} (h : Mirrored loader flash)
    {program : Program} (hprogram : loader.program = some program) :
    Holds flash.contents (some program) := by
  obtain ⟨-, t, hmirrors⟩ := h
  unfold BpfLoader.program at hprogram
  cases hstate : loader.state with
  | committed crc =>
      rw [hstate] at hprogram
      cases hprogram
      exact ⟨loader, hmirrors.program crc (.inl hstate), rfl⟩
  | running crc =>
      rw [hstate] at hprogram
      cases hprogram
      exact ⟨loader, hmirrors.program crc (.inr hstate), rfl⟩
  | empty | receiving | failed =>
      rw [hstate] at hprogram
      contradiction

/-- A committed loader has the program its CRC and metadata tell. -/
theorem program_of_committed {loader : BpfLoader} {program : Program}
    (hstate : loader.state = .committed program.crc)
    (hmetadata : loader.committedMetadata = program.metadata) : loader.program = some program := by
  simp only [BpfLoader.program, hstate, hmetadata]

/-- A boot that reads everything adopts the program flash holds. -/
theorem boot_program {flash : Chip} (hreliable : flash.Reliable) {program : Program}
    (hholds : Holds flash.contents (some program)) (now : Nat) (history : History) :
    (boot flash now history).loader.state = .committed program.crc ∧
      (boot flash now history).Settled program ∧
      (boot flash now history).flash.contents = flash.contents := by
  obtain ⟨l, hl, hmetadata⟩ := hholds
  obtain ⟨reads, hissued, hreads, hvalidated⟩ := BpfLoader.new.validateCommitted_chip flash
  obtain ⟨-, hdone⟩ := hreliable.issued hissued
  have hfound := hvalidated.found hdone
  have hcontents := hissued.contents.trans
    (replay_readsWithin _ (fun p hp => (hreads p hp).within) hdone)
  have hpending : (boot flash now history).loader.pending = none :=
    BpfLoader.validateCommitted_pending
  have hloader : (boot flash now history).loader = (BpfLoader.new.validateCommitted flash).1 := rfl
  rw [hloader] at hpending
  generalize (BpfLoader.new.validateCommitted flash).1 = loader at hfound hloader hpending
  cases hfound with
  | nothing hnone => exact absurd hl.image (hnone _ _ _)
  | @program bytecodeLen mapCount crc himage =>
      have hadopted : Adopted { BpfLoader.new.clearMapLayouts with
          state := .committed crc
          bytecodeLen := bytecodeLen
          mapCount := mapCount
          mapLayouts := layoutVector (descriptorsAt flash.contents bytecodeLen mapCount)
          committedMapCount := mapCount } flash.contents crc := ⟨himage, rfl, rfl⟩
      obtain ⟨hcrc, hsame⟩ := hadopted.unique hl
      rw [hloader]
      subst hcrc
      have hprogram := program_of_committed rfl (hsame.trans hmetadata)
      exact ⟨rfl, ⟨hloader ▸ hprogram, hloader ▸ hpending⟩, hcontents⟩

/-! ## a flash that does not fail -/

/- On a chip whose operations all succeed the boot reads what is there. -/

/-- A boot over a reliable chip leaves it reliable. -/
theorem reliable_boot {flash : Chip} (h : flash.Reliable) (now : Nat) (history : History) :
    (boot flash now history).flash.Reliable := by
  obtain ⟨reads, hissued, -, -⟩ := BpfLoader.new.validateCommitted_chip flash
  exact (h.issued hissued).1

/-- Executing an operation leaves a flash that does not fail. -/
theorem reliable_executePending {l : BpfLoader} (hsane : l.Sane) {flash : Chip}
    (h : flash.Reliable) : (l.executePending flash).2.Reliable := by
  cases hpending : l.pending with
  | none =>
      rw [BpfLoader.executePending_rests hpending]
      exact h
  | some operation =>
      obtain ⟨ops, hissued, -⟩ := BpfLoader.executePending_chip flash hsane hpending
      exact (h.issued hissued).1

/-- So does every event. -/
theorem reliable_step {f : Firmware Chip} (hsane : f.loader.Sane) (h : f.flash.Reliable)
    (e : FirmwareEvent) : (f.step e).flash.Reliable := by
  cases e with
  | main busIdle =>
      have hstep := f.main_step busIdle
      simp only [step]
      generalize f.mainStep busIdle = f' at hstep ⊢
      cases hstep with
      | reset => exact reliable_boot h _ _
      | executed => exact reliable_executePending hsane h
      | _ => exact h
  | packet bytes truncated invocation =>
      have hsame := f.flash_packet bytes truncated invocation
      exact hsame.symm ▸ h
  | tick ticks => exact h
  | activity activity =>
      simp only [step, activityStep]
      split_ifs <;> exact h

/-- A flash that does not fail never does, whatever runs over it. -/
theorem reliable_run {flash : Chip} (h : flash.Reliable) (now : Nat) (history : History)
    (es : List FirmwareEvent) : ((boot flash now history).run es).flash.Reliable :=
  (Machine.invariant_run (P := fun _ => True)
    (I := fun f : Firmware Chip => f.loader.Sane ∧ f.flash.Reliable)
    (fun _ e _ hf => ⟨(kept_sane Chip).firmware_step hf.1 e, reliable_step hf.1 hf.2 e⟩)
    ⟨(kept_sane Chip).validate flash, reliable_boot h now history⟩ fun _ _ => trivial).2

/-- **A reset is served, and finds the program.** Wherever a run has led the
firmware, a capture that ends with a Reset is answered by a boot over the flash
as it is, after at most twelve other statements of the main loop, whatever else
is captured, scheduled, invoked or executed meanwhile.  If the loader had a
program and nothing to execute, no Load has been acknowledged meanwhile and the
flash can be read, the boot commits to that program. -/
theorem reset_served (flash : Chip) (now : Nat) (history : History) (es : List FirmwareEvent)
    {packet : List UInt8} {last : Frame} (hpacket : EndsWith packet last)
    (hreset : last.request.IsReset) (invocation : Invocation) {later : List FirmwareEvent}
    (hlater : 12 < mains later) :
    let f := (boot flash now history).run es
    let asked := f.step (.packet packet false invocation)
    ∃ before e after, later = before ++ e :: after ∧ mains before ≤ 12 ∧
      Machine.Along step (fun f e => ¬ f.Reboots e) asked before ∧
      let found := asked.run before
      let booted := asked.run (before ++ [e])
      booted = boot found.flash found.captured.now (.reset :: found.captured.history) ∧
        ∀ program, f.Settled program → f.flash.Reliable →
          Slot.puts (Machine.trace step slotEvents asked before) = [] →
          booted.loader.state = .committed program.crc ∧ booted.Settled program ∧
            booted.flash.contents = f.flash.contents := by
  intro f asked
  have hasked : asked = { f with resetPending := true } :=
    f.resetPending_reset hpacket hreset invocation
  have hpending : asked.resetPending = true := by rw [hasked]
  obtain ⟨before, e, after, hsplit, hreboots, hbefore, hcount⟩ := reboot_happens hpending hlater
  refine ⟨before, e, after, hsplit, hcount, hbefore, ?_⟩
  intro found booted
  have hboot : booted = boot found.flash found.captured.now (.reset :: found.captured.history) :=
    (Machine.run_concat ..).trans (step_reboots hreboots)
  refine ⟨hboot, fun program hprogram hreliable hputs => ?_⟩
  have hsettled : asked.Settled program := hasked ▸ ⟨hprogram.program, hprogram.pending⟩
  have hsame : asked.flash = f.flash := by rw [hasked]
  obtain ⟨-, hkept⟩ := settled_run hsettled (undisturbed_along hbefore hputs)
  have hflash : found.flash = f.flash := hkept.trans hsame
  have hholds : Holds f.flash.contents (some program) :=
    (mirrored_run flash now history es).holds hprogram.program
  rw [hboot, hflash]
  exact boot_program hreliable hholds _ _

set_option maxRecDepth 4000 in
/-- A Reset that comes while the main loop holds a timer event: the committed
image survives it. -/
theorem reset_served_committed :
    let f := (boot committedFlash 0 []).run (startReturningOne scheduling :: .tick 10 :: mainLoop 5)
    let asked := f.step (.packet [magic, cmdReset, 0, 0, 0] false ⟨[], .ok 0⟩)
    f.next = .claim ⟨1, 7, ⟨0, 0, 0, 10, 7⟩⟩ ∧
      ∃ before e after, mainLoop 13 = before ++ e :: after ∧ mains before ≤ 12 ∧
        (asked.run (before ++ [e])).next = .checkReset ∧
        (asked.run (before ++ [e])).loader.state = .committed timerProgramCrc ∧
        (asked.run (before ++ [e])).flash.contents = f.flash.contents := by
  intro f asked
  obtain ⟨hnext, hidle, hstate⟩ : f.next = .claim ⟨1, 7, ⟨0, 0, 0, 10, 7⟩⟩ ∧
      f.loader.pending = none ∧ f.loader.state = .committed timerProgramCrc := by
    decide +kernel
  have hprogram : f.Settled ⟨timerProgramCrc, f.loader.committedMetadata⟩ :=
    ⟨program_of_committed hstate rfl, hidle⟩
  have hpacket : EndsWith [magic, cmdReset, 0, 0, 0] ⟨cmdReset, 0, 0, [], by decide⟩ :=
    ⟨[], by decide⟩
  have hlater : 12 < mains (mainLoop 13) := by decide
  obtain ⟨before, e, after, hsplit, hcount, -, hboot, hkept⟩ :=
    reset_served committedFlash 0 [] (startReturningOne scheduling :: .tick 10 :: mainLoop 5)
      hpacket (by decide) ⟨[], .ok 0⟩ hlater
  have hbefore : before = mainLoop before.length :=
    (List.append_eq_replicate_iff.mp hsplit.symm).2.1
  have hputs : Slot.puts (Machine.trace step slotEvents asked before) = [] := by
    rw [hbefore]
    exact puts_mainLoop asked before.length
  have hreliable : f.flash.Reliable := reliable_run (fun _ _ => rfl) 0 [] _
  obtain ⟨hcommitted, -, hcontents⟩ := hkept _ hprogram hreliable hputs
  exact ⟨hnext, before, e, after, hsplit, hcount, congrArg Firmware.next hboot, hcommitted,
    hcontents⟩

end Firmware

end OptiBridge
