import OptiBridge.Metadata
import OptiBridge.Reboots

/-!
# OptiBridge.TimerProgress

A timer that is due is served.  While the loader has a program and no Load comes
in between, the main loop invokes the program for it within a bounded number of
statements, unless another call or a reset has taken its place by then.

The measure is `untilDelivery`, the number of main-loop statements until the
program is invoked: up to sixteen.  Each statement lowers it, except those that
settle the call in another way; and those are what the theorem lists as
alternatives.

* `Awaits`, a call that is due and whose event is still on its way;
* `waits_step`, an event settles the call, interrupts the wait, or gets
  nearer;
* `timer_served`, so after enough statements of the main loop one of the first
  two has happened.
-/

namespace OptiBridge

/-- The entries after which a call is no longer waited for: it has been
delivered, replaced, cancelled or forgotten. -/
def Entry.settles (call : ScheduleCall) : Entry → Bool
  | .delivered delivery => delivery.call = call
  | .scheduled _ | .cancelled | .reset => true
  | .committed => false

/-- Some entry that a history has gained settles the call. -/
def Gains (call : ScheduleCall) (before after : History) : Prop :=
  ∃ recent, after = recent ++ before ∧ ∃ entry ∈ recent, entry.settles call

/-- An entry that settles the call has just been added. -/
theorem Gains.here {call : ScheduleCall} {entry : Entry} (h : entry.settles call)
    (history : History) : Gains call history (entry :: history) :=
  ⟨[entry], rfl, entry, List.mem_singleton_self _, h⟩

/-- What was gained stays gained. -/
theorem Gains.suffix {call : ScheduleCall} {before after later : History}
    (h : Gains call before after) (hsuffix : after <:+ later) : Gains call before later := by
  obtain ⟨recent, rfl, entry, hentry, hsettles⟩ := h
  obtain ⟨newer, rfl⟩ := hsuffix
  refine ⟨newer ++ recent, (List.append_assoc ..).symm, entry, ?_, hsettles⟩
  exact List.mem_append_right _ hentry

/-! ## activities -/

/- An activity either settles the call, by taking its place in the timer, or
leaves all that matters alone (`Calm`). -/

namespace Runtime

/-- Activities that settle nothing leave the timer as it is. -/
structure Calm (runtime runtime' : Runtime) : Prop where
  timer : runtime'.timer = runtime.timer
  history : runtime'.history = runtime.history
  now : runtime.now ≤ runtime'.now

/-- An activity only adds to the history. -/
theorem history_perform (runtime : Runtime) (activity : Activity) :
    runtime.history <:+ (runtime.perform activity).history := by
  cases activity with
  | schedule delayMs cookie =>
      simp only [perform]
      split_ifs
      · exact List.suffix_cons _ _
      · exact List.suffix_refl _
  | cancel => exact List.suffix_cons _ _
  | store | wait => exact List.suffix_refl _

/-- So do all of an invocation. -/
theorem history_foldl_perform (runtime : Runtime) (activities : List Activity) :
    runtime.history <:+ (activities.foldl perform runtime).history := by
  induction activities generalizing runtime with
  | nil => exact List.suffix_refl _
  | cons activity activities ih => exact (runtime.history_perform activity).trans (ih _)

/-- A helper call is accepted and settles every other call, or changes nothing. -/
theorem perform_calm (runtime : Runtime) (activity : Activity) (call : ScheduleCall) :
    Gains call runtime.history (runtime.perform activity).history ∨
      Calm runtime (runtime.perform activity) := by
  cases activity with
  | schedule delayMs cookie =>
      simp only [perform, TimerState.bpfScheduleTimer]
      by_cases hdelay : 0xffffffff < delayMs
      · right
        simp only [if_pos hdelay]
        exact ⟨rfl, rfl, Nat.le_refl _⟩
      · left
        simp only [if_neg hdelay]
        exact .here rfl _
  | cancel => exact .inl (.here rfl _)
  | store => exact .inr ⟨rfl, rfl, Nat.le_refl _⟩
  | wait ticks => exact .inr ⟨rfl, rfl, Nat.le_add_right ..⟩

/-- All activities of an invocation settle the call or are calm. -/
theorem foldl_perform_calm (runtime : Runtime) (activities : List Activity)
    (call : ScheduleCall) :
    Gains call runtime.history (activities.foldl perform runtime).history ∨
      Calm runtime (activities.foldl perform runtime) := by
  induction activities generalizing runtime with
  | nil => exact .inr ⟨rfl, rfl, Nat.le_refl _⟩
  | cons activity activities ih =>
      rw [List.foldl_cons]
      cases runtime.perform_calm activity call with
      | inl hgains => exact .inl (hgains.suffix (history_foldl_perform _ _))
      | inr hcalm =>
          cases ih (runtime.perform activity) with
          | inl hgains => exact .inl (hcalm.history ▸ hgains)
          | inr hrest =>
              exact .inr ⟨hrest.timer.trans hcalm.timer, hrest.history.trans hcalm.history,
                hcalm.now.trans hrest.now⟩

end Runtime

/-! ## the way to the invocation -/

/- Where the event is says how far the main loop has to go: first to the poll,
then to the check, then to the invocation. -/

/-- How many statements the main loop is away from polling the timer, if nothing
is to be executed. -/
def toPoll : Statement → Nat
  | .pollTimer => 0
  | .executePending => 1
  | .checkPending => 2
  | .checkReset => 3
  | .waitForI2cBusIdle => 4
  | .sleep => 4
  | .release => 5
  | .invoked => 6
  | .invoke _ _ => 7
  | .fetchMetadata _ => 8
  | .checkGeneration _ => 9
  | .claim _ => 10
  | .takeReadyTimer => 11

/-- How many statements it is away from the invocation, once it has polled. -/
def toInvoke : Statement → Nat
  | .takeReadyTimer => 4
  | .claim _ => 3
  | .checkGeneration _ => 2
  | .fetchMetadata _ => 1
  | .invoke _ _ | .pollTimer | .executePending | .checkPending | .checkReset
  | .waitForI2cBusIdle | .sleep | .release | .invoked => 0

namespace Firmware

variable {F : Type} {f : Firmware F} {call : ScheduleCall}

/-- How many statements a waiting call is away from its invocation. -/
def untilDelivery (f : Firmware F) : Nat :=
  match f.captured.timer.pending with
  | some _ => toPoll f.next + 5
  | none => toInvoke f.next

/-- It is never more than sixteen statements away. -/
theorem untilDelivery_le (f : Firmware F) : f.untilDelivery ≤ 16 := by
  unfold untilDelivery
  cases f.captured.timer.pending with
  | some request => cases f.next <;> simp [toPoll]
  | none => cases f.next <;> simp [toInvoke]

/-- A due call on its way to its invocation: it is pending, it is ready and
about to be taken, or the main loop holds its event and nothing newer exists. -/
inductive Awaits (f : Firmware F) (call : ScheduleCall) : Prop where
  | pending {request : TimerRequest ScheduleCall}
      (hpending : f.captured.timer.pending = some request) (hsource : request.source = call)
      (hdue : request.deadline ≤ f.captured.now)
  | ready {event : TimerEvent ScheduleCall} (hnone : f.captured.timer.pending = none)
      (hnext : f.next = .takeReadyTimer) (hready : f.captured.timer.ready = some event)
      (hsource : event.source = call)
  | held {event : TimerEvent ScheduleCall} (hnone : f.captured.timer.pending = none)
      (hheld : f.next.held = some event)
      (hcurrent : f.captured.timer.generation = event.generation) (hsource : event.source = call)

/-- Whatever leaves the timer and the main loop alone leaves the call waiting. -/
theorem Awaits.calm {f' : Firmware F} (h : f.Awaits call) (hnext : f'.next = f.next)
    (hcalm : Runtime.Calm f.captured f'.captured) :
    f'.Awaits call ∧ f'.untilDelivery = f.untilDelivery := by
  obtain ⟨htimer, -, hnow⟩ := hcalm
  constructor
  · cases h with
    | pending hpending hsource hdue =>
        exact .pending (by rw [htimer, hpending]) hsource (hdue.trans hnow)
    | ready hnone hhere hready hsource =>
        exact .ready (by rw [htimer, hnone]) (hnext.trans hhere) (by rw [htimer, hready]) hsource
    | held hnone hheld hcurrent hsource =>
        exact .held (by rw [htimer, hnone]) (by rw [hnext, hheld]) (by rw [htimer, hcurrent])
          hsource
  · simp only [untilDelivery, htimer, hnext]

/-- A settled loader has metadata for an event. -/
theorem Settled.metadata {program : Program} (h : f.Settled program) :
    ∃ metadata, f.loader.eventExecutionMetadata = .ok metadata := by
  obtain ⟨hprogram, hpending⟩ := h
  refine ⟨_, BpfLoader.eventExecutionMetadata_ok.mpr ⟨hpending, ?_, rfl⟩⟩
  unfold BpfLoader.program at hprogram
  cases hstate : f.loader.state <;> rw [hstate] at hprogram <;> first | rfl | contradiction

/-- A statement that only moves on brings the poll nearer. -/
theorem toPoll_moves {busIdle : Bool} {statement statement' : Statement}
    (h : Moves f busIdle statement statement') (hpending : f.loader.pending = none) :
    toPoll statement' < toPoll statement := by
  cases h with
  | pending hsome => simp [hpending] at hsome
  | _ => simp [toPoll]

/-- A statement that only moves on goes on with the event it holds, if that is
current and the loader has a program. -/
theorem held_moves {program : Program} {busIdle : Bool} {statement statement' : Statement}
    (h : Moves f busIdle statement statement') (hsettled : f.Settled program)
    {event : TimerEvent ScheduleCall} (hheld : statement.held = some event)
    (hcurrent : f.captured.timer.generation = event.generation) :
    statement'.held = some event ∧ toInvoke statement' < toInvoke statement := by
  cases h with
  | current => exact ⟨hheld, by simp [toInvoke]⟩
  | fetched => exact ⟨hheld, by simp [toInvoke]⟩
  | stale hstale =>
      cases hheld
      exact absurd hcurrent hstale
  | unfetched hmetadata =>
      obtain ⟨metadata, hok⟩ := hsettled.metadata
      rw [hok] at hmetadata
      contradiction
  | _ => contradiction

/-- What is kept until the call is settled. -/
structure Waits (program : Program) (call : ScheduleCall) (f : Firmware F) : Prop where
  scheduled : f.Scheduled
  settled : f.Settled program
  awaits : f.Awaits call

variable [BpfFlash F]

/-- An event settles a call. -/
def SettlesCall (call : ScheduleCall) (f : Firmware F) (e : FirmwareEvent) : Prop :=
  Gains call f.captured.history (f.step e).captured.history

/-- **Main step.** A statement that does not settle the call brings it nearer. -/
theorem Waits.main {program : Program} (h : Waits program call f) {busIdle : Bool}
    (hsettles : ¬ SettlesCall call f (.main busIdle)) :
    (f.mainStep busIdle).Awaits call ∧ (f.mainStep busIdle).untilDelivery < f.untilDelivery := by
  obtain ⟨hscheduled, hsettled, hawaits⟩ := h
  have hloader := hsettled.pending
  have hstep := f.main_step busIdle
  unfold SettlesCall at hsettles
  simp only [step] at hsettles
  generalize f.mainStep busIdle = f' at hstep hsettles ⊢
  -- a request waits for the poll, a ready event to be taken, a held one to be invoked
  cases hawaits with
  | @pending request hpending hsource hdue =>
      cases hstep with
      | moved hmoves =>
          refine ⟨.pending hpending hsource hdue, ?_⟩
          simp only [untilDelivery, hpending]
          exact Nat.add_lt_add_right (toPoll_moves hmoves hloader) 5
      -- a reset settles every call
      | reset => exact absurd (.here rfl _) hsettles
      | polled hnext =>
          have hpolled : f.captured.timer.pollTimer f.captured.now =
              { f.captured.timer with
                  pending := none
                  ready := some ⟨request.generation, request.cookie, request.source⟩ } := by
            simp only [TimerState.pollTimer, hpending, if_pos hdue]
          rw [hpolled]
          refine ⟨.ready rfl rfl rfl hsource, ?_⟩
          simp only [untilDelivery, hpending, hnext, toPoll, toInvoke]
          omega
      | took hnext htaken =>
          -- nothing is ready while a request is pending
          cases hscheduled.timed.exclusive with
          | inl hnone => rw [hpending] at hnone; contradiction
          | inr hnone => rw [TimerState.takeReadyTimer, hnone] at htaken; contradiction
      | restored hnext hactive =>
          rw [hscheduled.active, hnext] at hactive
          contradiction
      | executed hnext | notReady hnext | claimed hnext | invoked hnext | returned hnext
      | released hnext =>
          refine ⟨.pending hpending hsource hdue, ?_⟩
          show (match f.captured.timer.pending with | some _ => _ | none => _) < _
          simp [untilDelivery, hpending, hnext, toPoll]
  | @ready event hnone hhere hready hsource =>
      cases hstep with
      | moved hmoves =>
          rw [hhere] at hmoves
          contradiction
      | took hnext htaken =>
          have heq : event = _ := Option.some.inj (hready.symm.trans htaken)
          subst heq
          refine ⟨.held hnone rfl ?_ hsource, ?_⟩
          · rw [(hscheduled.timed.ready event hready).1.current]
            exact hscheduled.timed.generation
          · simp [untilDelivery, TimerState.takeReadyTimer, hnone, hnext, toInvoke]
      | notReady hnext htaken =>
          rw [TimerState.takeReadyTimer, hready] at htaken
          contradiction
      | reset hnext | executed hnext | polled hnext | restored hnext | claimed hnext
      | invoked hnext | returned hnext | released hnext =>
          rw [hhere] at hnext
          contradiction
  | @held event hnone hheld hcurrent hsource =>
      cases hstep with
      | moved hmoves =>
          obtain ⟨hheld', hnearer⟩ := held_moves hmoves hsettled hheld hcurrent
          refine ⟨.held hnone hheld' hcurrent hsource, ?_⟩
          simp only [untilDelivery, hnone]
          exact hnearer
      | restored hnext hactive =>
          rw [hscheduled.active, hnext] at hactive
          contradiction
      | claimed hnext =>
          rw [hnext] at hheld
          refine ⟨.held hnone hheld hcurrent hsource, ?_⟩
          simp [untilDelivery, hnone, hnext, toInvoke]
      | invoked hnext =>
          rw [hnext] at hheld
          cases hheld
          refine absurd (.here ?_ _) hsettles
          simp [Entry.settles, hsource]
      | reset hnext | executed hnext | polled hnext | notReady hnext | took hnext
      | returned hnext | released hnext =>
          rw [hnext] at hheld
          contradiction

/-- **Other step.** Anything else that does not settle it leaves it as near. -/
theorem Waits.other {program : Program} (h : Waits program call f) {e : FirmwareEvent}
    (hmain : ¬ e.isMain) (hsettles : ¬ SettlesCall call f e) :
    (f.step e).Awaits call ∧ (f.step e).untilDelivery = f.untilDelivery := by
  cases e with
  | main => exact absurd rfl hmain
  | tick ticks => exact h.awaits.calm rfl ⟨rfl, rfl, Nat.le_add_right ..⟩
  | activity activity =>
      simp only [SettlesCall, step, activityStep] at hsettles ⊢
      split_ifs at hsettles ⊢ with hnext
      · have hcalm := (f.captured.perform_calm activity call).resolve_left hsettles
        exact h.awaits.calm rfl hcalm
      · exact ⟨h.awaits, rfl⟩
  | packet bytes truncated invocation =>
      have hstep := packet_step f bytes truncated invocation
      simp only [SettlesCall, step] at hsettles ⊢
      generalize (f.onI2cPacket bytes truncated invocation).2 = f' at hstep hsettles ⊢
      cases hstep with
      | kept hnext hcaptured | wrote _ _ _ _ _ hnext hcaptured =>
          refine h.awaits.calm hnext ?_
          rw [hcaptured]
          exact ⟨rfl, rfl, Nat.le_refl _⟩
      | executed _ _ _ _ hnext hcaptured =>
          rw [hcaptured] at hsettles
          have hcalm := (f.captured.foldl_perform_calm invocation.activities call).resolve_left
            hsettles
          refine h.awaits.calm hnext ?_
          rw [hcaptured]
          exact ⟨hcalm.timer, hcalm.history, hcalm.now⟩

/-- An event that acknowledges a Load or settles the call. -/
def Interrupts (call : ScheduleCall) (f : Firmware F) (e : FirmwareEvent) : Prop :=
  Slot.puts (f.slotEvents e) ≠ [] ∨ SettlesCall call f e

/-- A reboot settles every call. -/
theorem Reboots.settlesCall {e : FirmwareEvent} (h : f.Reboots e) : SettlesCall call f e := by
  rw [SettlesCall, step_reboots h]
  exact .here rfl _

/-- **Waiting step.** -/
theorem waits_step {program : Program} (f : Firmware F) (e : FirmwareEvent)
    (h : Waits program call f) (hfree : ¬ Interrupts call f e) :
    Waits program call (f.step e) := by
  obtain ⟨hput, hsettles⟩ := not_or.mp hfree
  have hreboots : ¬ f.Reboots e := fun hreboots => hsettles hreboots.settlesCall
  obtain ⟨hsettled, -⟩ := settled_step ⟨hreboots, not_not.mp hput⟩ h.settled
  refine ⟨scheduled_step h.scheduled e, hsettled, ?_⟩
  cases e with
  | main busIdle => exact (h.main hsettles).1
  | activity | packet | tick => exact (h.other (by simp [FirmwareEvent.isMain]) hsettles).1

/-- **Timers are served.** Wherever a run from power-on has led the firmware: if
a call's deadline has passed and the loader has a program and nothing to
execute, then in every continuation in which no Load is acknowledged the call is
settled after at most sixteen other statements of the main loop: the program is
invoked for it, or a later call or a reset has taken its place. -/
theorem timer_served (flash : F) (now : Nat) (es : List FirmwareEvent)
    {request : TimerRequest ScheduleCall} {program : Program} {later : List FirmwareEvent}
    (hpending : ((boot flash now []).run es).captured.timer.pending = some request)
    (hdue : request.source.deadline ≤ ((boot flash now []).run es).captured.now)
    (hprogram : ((boot flash now []).run es).Settled program)
    (hloads : Slot.puts (Machine.trace step slotEvents ((boot flash now []).run es) later) = [])
    (hlater : 16 < mains later) :
    let f := (boot flash now []).run es
    ∃ before e after, later = before ++ e :: after ∧ mains before ≤ 16 ∧
      SettlesCall request.source (f.run before) e ∧
      Machine.Along step (fun f e => ¬ SettlesCall request.source f e) f before := by
  intro f
  have hscheduled := scheduled_run (scheduled_boot flash now) es
  have hdeadline := (hscheduled.timed.pending request hpending).2
  have hwaits : Waits program request.source f :=
    ⟨hscheduled, hprogram, .pending hpending rfl (hdeadline ▸ hdue)⟩
  have hlt : f.untilDelivery < later.countP FirmwareEvent.isMain := by
    rw [← mains_eq_countP]
    exact Nat.lt_of_le_of_lt f.untilDelivery_le hlater
  obtain ⟨before, e, after, rfl, hhere, hbefore, hcount⟩ :=
    Machine.happens (I := Waits program request.source) (P := Interrupts request.source)
      waits_step
      (fun f e h hfree hmain => by
        obtain ⟨-, hsettles⟩ := not_or.mp hfree
        cases e with
        | main busIdle => exact (h.main hsettles).2
        | activity | packet | tick => contradiction)
      (fun f e h hfree hmain => by
        obtain ⟨-, hsettles⟩ := not_or.mp hfree
        exact Nat.le_of_eq (h.other hmain hsettles).2)
      hwaits hlt
  rw [← mains_eq_countP] at hcount
  rw [Machine.trace_append, Machine.trace_cons, Slot.puts_append, Slot.puts_append,
    List.append_eq_nil_iff, List.append_eq_nil_iff] at hloads
  obtain ⟨-, hnone, -⟩ := hloads
  refine ⟨before, e, after, rfl, hcount.trans f.untilDelivery_le, ?_, ?_⟩
  · exact hhere.resolve_left fun hput => hput hnone
  · exact hbefore.imp fun f e hfree hsettles => hfree (.inr hsettles)

/-- `timerProgram` has set its timer, and the time is up. -/
def scheduledDue : Firmware Nor.Chip :=
  (boot committedFlash 0 []).run [startReturningOne scheduling, .tick 10]

set_option maxRecDepth 4000 in
/-- A call that is due, on a chip with a program: seventeen statements of the
main loop are enough. -/
theorem timer_served_now :
    ∃ before e after, mainLoop 17 = before ++ e :: after ∧ mains before ≤ 16 ∧
      SettlesCall ⟨0, 0, 0, 10, 7⟩ (scheduledDue.run before) e := by
  obtain ⟨hpending, hstate, hidle⟩ :
      scheduledDue.captured.timer.pending = some ⟨1, 10, 7, ⟨0, 0, 0, 10, 7⟩⟩ ∧
        scheduledDue.loader.state = .committed timerProgramCrc ∧
        scheduledDue.loader.pending = none := by decide +kernel
  have hprogram : scheduledDue.loader.program =
      some ⟨timerProgramCrc, scheduledDue.loader.committedMetadata⟩ :=
    program_of_committed hstate rfl
  have hdue : 10 ≤ scheduledDue.captured.now := by decide +kernel
  have hlater : 16 < mains (mainLoop 17) := by decide
  obtain ⟨before, e, after, hsplit, hcount, hsettles, -⟩ :=
    timer_served committedFlash 0 [startReturningOne scheduling, .tick 10] hpending hdue
      ⟨hprogram, hidle⟩ (puts_mainLoop _ 17) hlater
  exact ⟨before, e, after, hsplit, hcount, hsettles⟩

end Firmware

end OptiBridge
