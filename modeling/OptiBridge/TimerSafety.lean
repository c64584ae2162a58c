import OptiBridge.FirmwareSteps

/-!
# OptiBridge.TimerSafety

An event lives in three places: pending, ready, or held by the main loop
between taking it and invoking it.  The invariant follows it through all three
with the number of calls accepted since its own; the generation tells that
number up to its period, and nothing else does.

The invariant is kept by every step of the firmware and therefore holds in every
run.  What it says of a delivered event is the theorem: the call has been
accepted, its deadline has passed, it has not been delivered before, and the
calls accepted since are none, or were accepted while the main loop already held
the event, in a multiple of the period.

* `Timed.called`, an accepted call empties the timer, so what it held is gone;
* `Scheduled.main`, a statement of the main loop;
* `timer_safety`, the theorem;
* `timer_wraps`, a run that shows the exception is one.
-/

namespace OptiBridge

open Bytes Nor

/-! ## events on their way -/

/- An event belongs to one accepted call; `Sourced` says to which, and how many
calls have been accepted since. -/

/-- What a request or event says about the call it comes from, `later` accepted
calls after that call. -/
structure Sourced (history : History) (generation : UInt32) (cookie : UInt64)
    (call : ScheduleCall) (later : Nat) : Prop where
  since : Since history call later
  generation : ∃ calls, 0 < calls ∧ accepted history = calls + later ∧
    generation = generationAfter calls
  cookie : cookie = call.cookie
  number : call.number < history.length
  undelivered : ∀ delivery ∈ deliveries history, delivery.call.number < call.number

section sourced

variable {history : History} {generation : UInt32} {cookie : UInt64} {call : ScheduleCall}
  {later : Nat}

/-- Another entry leaves an event on its way, one call further off if the entry
is a call. -/
theorem Sourced.cons (h : Sourced history generation cookie call later) {entry : Entry}
    (hreset : entry ≠ .reset)
    (hundelivered : ∀ delivery ∈ deliveries (entry :: history),
      delivery.call.number < call.number) :
    Sourced (entry :: history) generation cookie call (accepted [entry] + later) where
  since := h.since.cons hreset
  generation := by
    obtain ⟨calls, hpos, hcalls, hgeneration⟩ := h.generation
    refine ⟨calls, hpos, ?_, hgeneration⟩
    rw [accepted_cons hreset, hcalls]
    omega
  cookie := h.cookie
  number := Nat.lt_succ_of_lt h.number
  undelivered := hundelivered

/-- A call that has just been accepted. -/
theorem sourced_here {number : Nat} (hnumber : call.number = history.length)
    (hdelivered : ∀ delivery ∈ deliveries history, delivery.call.number < history.length)
    (hcalls : number = accepted history) :
    Sourced (.scheduled call :: history) (generationAfter (number + 1)) call.cookie call 0 where
  since := .here call history
  generation := ⟨number + 1, Nat.succ_pos _, by rw [hcalls]; rfl, rfl⟩
  cookie := rfl
  number := by rw [hnumber]; exact Nat.lt_succ_self _
  undelivered := fun delivery hdelivery => by
    rw [hnumber]
    exact hdelivered delivery hdelivery

/-- Where the generation still matches, a multiple of the period was accepted
since. -/
theorem Sourced.period (h : Sourced history generation cookie call later)
    (hcurrent : generation = generationAfter (accepted history)) : generationPeriod ∣ later := by
  obtain ⟨calls, hpos, hcalls, hgeneration⟩ := h.generation
  rw [hgeneration, hcalls] at hcurrent
  exact (generationAfter_eq_iff hpos).mp hcurrent.symm

/-- The newest call's request or event carries the current generation. -/
theorem Sourced.current (h : Sourced history generation cookie call 0) :
    generation = generationAfter (accepted history) := by
  obtain ⟨calls, _, hcalls, hgeneration⟩ := h.generation
  rw [hgeneration, hcalls]
  rfl

end sourced

/-! ## deliveries -/

/- What is claimed of one delivery, in the history as it was then. -/

/-- What a timer invocation owes the call it comes from. -/
structure DeliverySound (earlier : History) (delivery : Delivery) : Prop where
  due : delivery.call.deadline ≤ delivery.time
  context : delivery.context.toList =
    toLe 4 1 ++ toLe 4 1 ++ toLe 8 delivery.call.cookie.toNat ++ List.replicate 16 0
  since : ∃ later, Since earlier delivery.call later ∧ generationPeriod ∣ later

/-- Every invocation of a history, each with what came before it. -/
def DeliveriesSound (history : History) : Prop :=
  ∀ delivery earlier, .delivered delivery :: earlier <:+ history → DeliverySound earlier delivery

/-- A history with one more entry is sound if the entry is, should it be a
delivery. -/
theorem DeliveriesSound.cons {history : History} (h : DeliveriesSound history) {entry : Entry}
    (hentry : ∀ delivery, entry = .delivered delivery → DeliverySound history delivery) :
    DeliveriesSound (entry :: history) := by
  intro delivery earlier hsuffix
  cases List.suffix_cons_iff.mp hsuffix with
  | inl heq =>
      rw [List.cons.injEq] at heq
      obtain ⟨hhere, rfl⟩ := heq
      exact hentry delivery hhere.symm
  | inr hlater => exact h delivery earlier hlater

/-! ## the timer invariant -/

/- `Timed` is about the timer, `Held` about an event that has been taken out of
it.  What the timer holds is always current, for every accepted call empties it. -/

/-- The timer agrees with the history of its calls. -/
structure Timed (runtime : Runtime) : Prop where
  generation : runtime.timer.generation = generationAfter (accepted runtime.history)
  exclusive : runtime.timer.pending = none ∨ runtime.timer.ready = none
  pending : ∀ request, runtime.timer.pending = some request →
    Sourced runtime.history request.generation request.cookie request.source 0 ∧
      request.deadline = request.source.deadline
  ready : ∀ event, runtime.timer.ready = some event →
    Sourced runtime.history event.generation event.cookie event.source 0 ∧
      event.source.deadline ≤ runtime.now
  numbers : ∀ delivery ∈ deliveries runtime.history,
    delivery.call.number < runtime.history.length
  once : (deliveries runtime.history).Pairwise fun d e => e.call.number < d.call.number
  sound : DeliveriesSound runtime.history

/-- An event the main loop has taken: whatever the timer holds now is newer. -/
structure Held (runtime : Runtime) (event : TimerEvent ScheduleCall) : Prop where
  sourced : ∃ later, Sourced runtime.history event.generation event.cookie event.source later
  due : event.source.deadline ≤ runtime.now
  pending : ∀ request, runtime.timer.pending = some request →
    event.source.number < request.source.number
  ready : ∀ newer, runtime.timer.ready = some newer →
    event.source.number < newer.source.number

section runtime

variable {runtime runtime' : Runtime}

/-- The invariants read the timer, the history and a lower bound on the clock. -/
theorem Timed.congr (h : Timed runtime) (htimer : runtime'.timer = runtime.timer)
    (hhistory : runtime'.history = runtime.history) (hnow : runtime.now ≤ runtime'.now) :
    Timed runtime' := by
  obtain ⟨hgeneration, hexclusive, hpending, hready, hnumbers, honce, hsound⟩ := h
  rw [← hhistory, ← htimer] at hgeneration hpending
  rw [← hhistory, ← htimer] at hready
  rw [← htimer] at hexclusive
  rw [← hhistory] at hnumbers honce hsound
  exact ⟨hgeneration, hexclusive, hpending,
    fun event he => ⟨(hready event he).1, Nat.le_trans (hready event he).2 hnow⟩,
    hnumbers, honce, hsound⟩

/-- A held event stays held while the timer and the history stay. -/
theorem Held.congr {event : TimerEvent ScheduleCall} (h : Held runtime event)
    (htimer : runtime'.timer = runtime.timer) (hhistory : runtime'.history = runtime.history)
    (hnow : runtime.now ≤ runtime'.now) : Held runtime' event where
  sourced := by rw [hhistory]; exact h.sourced
  due := Nat.le_trans h.due hnow
  pending := by rw [htimer]; exact h.pending
  ready := by rw [htimer]; exact h.ready

/-- A call clears what the timer held. -/
theorem Timed.called (h : Timed runtime) {entry : Entry} (hcall : accepted [entry] = 1)
    (hreset : entry ≠ .reset) (hdeliveries : deliveries (entry :: runtime.history) =
      deliveries runtime.history)
    (hgeneration : runtime'.timer.generation = generationAfter (accepted runtime.history + 1))
    (hhistory : runtime'.history = entry :: runtime.history)
    (hready : runtime'.timer.ready = none)
    (hpending : ∀ request, runtime'.timer.pending = some request →
      Sourced runtime'.history request.generation request.cookie request.source 0 ∧
        request.deadline = request.source.deadline) : Timed runtime' where
  generation := by rw [hgeneration, hhistory, accepted_cons hreset, hcall, Nat.add_comm]
  exclusive := .inr hready
  pending := hpending
  ready := by simp [hready]
  numbers := by
    rw [hhistory, hdeliveries]
    exact fun delivery hd => Nat.lt_succ_of_lt (h.numbers delivery hd)
  once := by rw [hhistory, hdeliveries]; exact h.once
  sound := by
    rw [hhistory]
    refine h.sound.cons fun delivery hentry => ?_
    rw [hentry] at hcall
    contradiction

/-- **Activity step.** -/
theorem Timed.perform (h : Timed runtime) (activity : Activity) :
    Timed (runtime.perform activity) := by
  have hnext := TimerState.nextTimerGeneration_eq h.generation
  cases activity with
  | schedule delayMs cookie =>
      by_cases hdelay : 0xffffffff < delayMs
      · have hne : ¬ helperError = 0 := by decide
        simp only [Runtime.perform, TimerState.bpfScheduleTimer, if_pos hdelay, if_neg hne]
        exact h
      · simp only [Runtime.perform, TimerState.bpfScheduleTimer, if_neg hdelay, if_true, hnext]
        refine h.called rfl (by simp) rfl rfl rfl rfl fun request hrequest => ?_
        cases hrequest
        exact ⟨sourced_here rfl h.numbers rfl, rfl⟩
  | cancel =>
      simp only [Runtime.perform, TimerState.bpfCancelTimer, hnext]
      exact h.called rfl (by simp) rfl rfl rfl rfl fun request hrequest => by simp at hrequest
  | store mapBacking => exact h
  | wait ticks => exact h.congr rfl rfl (Nat.le_add_right ..)

/-- A held event stays held: what replaces the timer's is newer still. -/
theorem Held.perform {event : TimerEvent ScheduleCall} (h : Held runtime event)
    (activity : Activity) : Held (runtime.perform activity) event := by
  obtain ⟨later, hsourced⟩ := h.sourced
  cases activity with
  | schedule delayMs cookie =>
      by_cases hdelay : 0xffffffff < delayMs
      · have hne : ¬ helperError = 0 := by decide
        simp only [Runtime.perform, TimerState.bpfScheduleTimer, if_pos hdelay, if_neg hne]
        exact h
      · simp only [Runtime.perform, TimerState.bpfScheduleTimer, if_neg hdelay, if_true]
        refine ⟨⟨_, hsourced.cons (by simp) hsourced.undelivered⟩, h.due,
          fun request hrequest => ?_, fun newer hnewer => by simp at hnewer⟩
        cases hrequest
        exact hsourced.number
  | cancel =>
      simp only [Runtime.perform, TimerState.bpfCancelTimer]
      exact ⟨⟨_, hsourced.cons (by simp) hsourced.undelivered⟩, h.due,
        fun request hrequest => by simp at hrequest, fun newer hnewer => by simp at hnewer⟩
  | store mapBacking => exact h
  | wait ticks => exact h.congr rfl rfl (Nat.le_add_right ..)

/-- Activities one after another keep the timer invariant. -/
theorem Timed.foldl_perform (h : Timed runtime) (activities : List Activity) :
    Timed (activities.foldl Runtime.perform runtime) := by
  induction activities generalizing runtime with
  | nil => exact h
  | cons activity activities ih => exact ih (h.perform activity)

/-- They keep a held event held. -/
theorem Held.foldl_perform {event : TimerEvent ScheduleCall} (h : Held runtime event)
    (activities : List Activity) : Held (activities.foldl Runtime.perform runtime) event := by
  induction activities generalizing runtime with
  | nil => exact h
  | cons activity activities ih => exact ih (h.perform activity)

/-! ## what the main loop does to the timer -/

/- One lemma for each of the timer's functions, as the main loop calls them. -/

/-- A commit is no call. -/
theorem Timed.committed (h : Timed runtime) (hhistory : runtime'.history =
      .committed :: runtime.history) (htimer : runtime'.timer = runtime.timer)
    (hnow : runtime'.now = runtime.now) : Timed runtime' where
  generation := by rw [htimer, hhistory, h.generation]; rfl
  exclusive := by rw [htimer]; exact h.exclusive
  pending := by
    rw [htimer, hhistory]
    exact fun request hr => ⟨(h.pending request hr).1.cons (by simp)
      (h.pending request hr).1.undelivered, (h.pending request hr).2⟩
  ready := by
    rw [htimer, hhistory, hnow]
    exact fun event he => ⟨(h.ready event he).1.cons (by simp) (h.ready event he).1.undelivered,
      (h.ready event he).2⟩
  numbers := by
    rw [hhistory]
    exact fun delivery hd => Nat.lt_succ_of_lt (h.numbers delivery hd)
  once := by rw [hhistory]; exact h.once
  sound := by
    rw [hhistory]
    exact h.sound.cons fun delivery hentry => by cases hentry

/-- A poll makes a due request ready. -/
theorem Timed.pollTimer (h : Timed runtime) :
    Timed { runtime with timer := runtime.timer.pollTimer runtime.now } := by
  unfold TimerState.pollTimer
  cases hpending : runtime.timer.pending with
  | none => exact h
  | some request =>
      obtain ⟨hsourced, hdeadline⟩ := h.pending request hpending
      simp only
      split_ifs with hdue
      · refine ⟨h.generation, .inl rfl, (fun _ hnone => nomatch hnone), fun event hevent => ?_,
          h.numbers, h.once, h.sound⟩
        cases hevent
        exact ⟨hsourced, hdeadline ▸ hdue⟩
      · exact h

/-- Taking the ready event empties the timer. -/
theorem Timed.takeReadyTimer (h : Timed runtime) :
    Timed { runtime with timer := runtime.timer.takeReadyTimer.2 } :=
  ⟨h.generation, .inr rfl, h.pending, (fun _ hnone => nomatch hnone), h.numbers, h.once, h.sound⟩

/-- What is taken out is held. -/
theorem Timed.taken (h : Timed runtime) {event : TimerEvent ScheduleCall}
    (hevent : runtime.timer.takeReadyTimer.1 = some event) :
    Held { runtime with timer := runtime.timer.takeReadyTimer.2 } event := by
  have hready : runtime.timer.ready = some event := hevent
  obtain ⟨hsourced, hdue⟩ := h.ready event hready
  have hpending : runtime.timer.pending = none := by
    cases h.exclusive with
    | inl hnone => exact hnone
    | inr hnone => rw [hready] at hnone; contradiction
  refine ⟨⟨0, hsourced⟩, hdue, fun request hrequest => ?_, fun _ hnone => by cases hnone⟩
  have hsome : runtime.timer.pending = some request := hrequest
  rw [hpending] at hsome
  contradiction

/-- **Delivery step.** Invoking a held event whose generation is current. -/
theorem Timed.deliver (h : Timed runtime) {event : TimerEvent ScheduleCall}
    (hheld : Held runtime event) (hcurrent : runtime.timer.generation = event.generation)
    (hhistory : runtime'.history = .delivered ⟨event.source, commits runtime.history, runtime.now,
      timerContext event.cookie⟩ :: runtime.history)
    (htimer : runtime'.timer = runtime.timer) (hnow : runtime'.now = runtime.now) :
    Timed runtime' := by
  obtain ⟨later, hsourced⟩ := hheld.sourced
  -- what the timer still holds is newer than the source, so it stays undelivered
  have hundelivered : ∀ call : ScheduleCall, event.source.number < call.number →
      (∀ delivery ∈ deliveries runtime.history, delivery.call.number < call.number) →
      ∀ delivery ∈ deliveries runtime'.history, delivery.call.number < call.number := by
    rw [hhistory]
    intro call hnew hold delivery hdelivery
    cases List.mem_cons.mp hdelivery with
    | inl heq => rw [heq]; exact hnew
    | inr hmem => exact hold delivery hmem
  constructor
  · rw [htimer, hhistory, h.generation]
    rfl
  · rw [htimer]
    exact h.exclusive
  · intro request hrequest
    rw [htimer] at hrequest
    obtain ⟨hpending, hdeadline⟩ := h.pending request hrequest
    have hnew := hundelivered _ (hheld.pending request hrequest) hpending.undelivered
    rw [hhistory] at hnew ⊢
    exact ⟨hpending.cons (by simp) hnew, hdeadline⟩
  · intro newer hnewer
    rw [htimer] at hnewer
    obtain ⟨hready, hdue⟩ := h.ready newer hnewer
    have hnew := hundelivered _ (hheld.ready newer hnewer) hready.undelivered
    rw [hhistory] at hnew ⊢
    rw [hnow]
    exact ⟨hready.cons (by simp) hnew, hdue⟩
  · rw [hhistory]
    intro delivery hdelivery
    cases List.mem_cons.mp hdelivery with
    | inl heq => rw [heq]; exact Nat.lt_succ_of_lt hsourced.number
    | inr hmem => exact Nat.lt_succ_of_lt (h.numbers delivery hmem)
  · rw [hhistory]
    exact List.pairwise_cons.mpr ⟨hsourced.undelivered, h.once⟩
  · rw [hhistory]
    refine h.sound.cons fun delivery hentry => ?_
    cases hentry
    refine ⟨hheld.due, ?_, later, hsourced.since, hsourced.period ?_⟩
    · simp only
      rw [toList_timerContext, hsourced.cookie]
    · rw [← hcurrent, h.generation]

/-- A reset forgets the timer and keeps the history. -/
theorem Timed.reset (h : Timed runtime) (active : Bool) (helpers : Option BpfProgramMetadata) :
    Timed ⟨.new, active, helpers, runtime.now, .reset :: runtime.history⟩ where
  generation := rfl
  exclusive := .inl rfl
  pending := fun _ hnone => by cases hnone
  ready := fun _ hnone => by cases hnone
  numbers := fun delivery hd => Nat.lt_succ_of_lt (h.numbers delivery hd)
  once := h.once
  sound := h.sound.cons fun delivery hentry => by cases hentry

/-- A new timer holds nothing. -/
theorem timed_new (active : Bool) (helpers : Option BpfProgramMetadata) (now : Nat) :
    Timed ⟨.new, active, helpers, now, []⟩ where
  generation := rfl
  exclusive := .inl rfl
  pending := fun _ hnone => by cases hnone
  ready := fun _ hnone => by cases hnone
  numbers := fun delivery hd => by cases hd
  once := .nil
  sound := fun delivery earlier hsuffix => by simp at hsuffix

end runtime

/-! ## the machine invariant -/

/- Where the main loop is says what it holds and what it has checked. -/

/-- Whether the main loop holds the execution flag. -/
def Statement.active : Statement → Bool
  | .checkGeneration _ | .fetchMetadata _ | .invoke _ _ | .invoked | .release => true
  | _ => false

/-- The event the main loop holds. -/
def Statement.held : Statement → Option (TimerEvent ScheduleCall)
  | .claim event | .checkGeneration event | .fetchMetadata event | .invoke event _ => some event
  | _ => none

/-- The event whose generation the main loop has checked. -/
def Statement.checked : Statement → Option (TimerEvent ScheduleCall)
  | .fetchMetadata event | .invoke event _ => some event
  | _ => none

namespace Firmware

variable {F : Type}

/-- The timer invariant, with what the main loop holds and has checked. -/
structure Scheduled (f : Firmware F) : Prop where
  timed : Timed f.captured
  active : f.captured.bpfExecutionActive = f.next.active
  held : ∀ event, f.next.held = some event → Held f.captured event
  checked : ∀ event, f.next.checked = some event →
    f.captured.timer.generation = event.generation

section moves

variable {f : Firmware F} {busIdle : Bool} {statement statement' : Statement}

/-- A statement that only moves on neither claims nor releases the flag. -/
theorem Moves.active (h : Moves f busIdle statement statement') :
    statement'.active = statement.active := by
  cases h <;> rfl

/-- It takes no event. -/
theorem Moves.held (h : Moves f busIdle statement statement') {event : TimerEvent ScheduleCall}
    (hevent : statement'.held = some event) : statement.held = some event := by
  cases h <;> first | contradiction | exact hevent

/-- The event it goes on with has been checked, or is now. -/
theorem Moves.checked (h : Moves f busIdle statement statement')
    {event : TimerEvent ScheduleCall} (hevent : statement'.checked = some event) :
    statement.checked = some event ∨ f.captured.timer.generation = event.generation := by
  cases h with
  | current hcurrent =>
      injection hevent with hevent
      exact .inr (hevent ▸ hcurrent)
  | fetched => exact .inl hevent
  | _ => contradiction

/-- The metadata it goes on with is the loader's. -/
theorem Moves.metadata (h : Moves f busIdle statement statement')
    {event : TimerEvent ScheduleCall} {metadata : BpfProgramMetadata}
    (heq : statement' = .invoke event metadata) :
    f.loader.eventExecutionMetadata = .ok metadata := by
  cases h with
  | fetched hmetadata =>
      injection heq with _ heq
      exact heq ▸ hmetadata
  | _ => contradiction

/-- It is outside an invocation, and stays so. -/
theorem Moves.ne_invoked (h : Moves f busIdle statement statement') :
    statement ≠ .invoked ∧ statement' ≠ .invoked := by
  cases h <;> exact ⟨by simp, by simp⟩

end moves

/-- A checked event is held with the flag. -/
theorem Scheduled.checked_active {f : Firmware F} {event : TimerEvent ScheduleCall}
    (h : f.next.checked = some event) : f.next.active = true := by
  cases hnext : f.next <;> simp [hnext, Statement.checked, Statement.active] at h ⊢

/-- A main loop that holds no event has nothing to answer for but its flag. -/
theorem Scheduled.free {f : Firmware F} (htimed : Timed f.captured)
    (hactive : f.captured.bpfExecutionActive = f.next.active) (hheld : f.next.held = none) :
    f.Scheduled := by
  refine ⟨htimed, hactive, fun event hevent => ?_, fun event hevent => ?_⟩
  · rw [hheld] at hevent
    contradiction
  · cases hnext : f.next <;> simp [hnext, Statement.checked, Statement.held] at hheld hevent

/-- Callbacks and time preserve the invariant. -/
theorem Scheduled.packet {f : Firmware F} (h : f.Scheduled) (bytes : List UInt8)
    (truncated : Bool) (invocation : Invocation) :
    (f.onI2cPacket bytes truncated invocation).2.Scheduled := by
  have hstep := packet_step f bytes truncated invocation
  generalize (f.onI2cPacket bytes truncated invocation).2 = f' at hstep ⊢
  cases hstep with
  | kept hnext hcaptured | wrote _ _ _ _ _ hnext hcaptured =>
      constructor
      · rw [hcaptured]; exact h.timed
      · rw [hcaptured, hnext]; exact h.active
      · rw [hcaptured, hnext]; exact h.held
      · rw [hcaptured, hnext]; exact h.checked
  | executed _ hactive _ _ hnext hcaptured =>
      have hidle : f.next.active = false := by rw [← h.active]; exact hactive
      constructor
      · rw [hcaptured]
        exact (h.timed.foldl_perform _).congr rfl rfl (Nat.le_refl _)
      · rw [hcaptured, hnext, hidle]
      · rw [hcaptured, hnext]
        exact fun event hevent =>
          ((h.held event hevent).foldl_perform _).congr rfl rfl (Nat.le_refl _)
      · intro event hevent
        rw [hnext] at hevent
        rw [Scheduled.checked_active hevent] at hidle
        contradiction

variable [BpfFlash F]

/-- **Main step.** -/
theorem Scheduled.main {f : Firmware F} (h : f.Scheduled) (busIdle : Bool) :
    (f.mainStep busIdle).Scheduled := by
  have hstep := f.main_step busIdle
  obtain ⟨htimed, hactive, hheld, hchecked⟩ := h
  generalize f.mainStep busIdle = f' at hstep ⊢
  cases hstep with
  | moved hmoves =>
      exact ⟨htimed, hactive.trans hmoves.active.symm,
        fun event hevent => hheld event (hmoves.held hevent),
        fun event hevent => (hmoves.checked hevent).elim (hchecked event) id⟩
  | reset => exact .free (htimed.reset false none) rfl rfl
  | executed hnext =>
      rw [hnext] at hactive
      refine .free ?_ hactive rfl
      simp only [executePending]
      split_ifs
      · exact htimed.committed rfl rfl rfl
      · exact htimed
  | polled hnext =>
      rw [hnext] at hactive
      exact .free htimed.pollTimer hactive rfl
  | notReady hnext =>
      rw [hnext] at hactive
      exact .free htimed.takeReadyTimer hactive rfl
  | took hnext htaken =>
      rw [hnext] at hactive
      refine ⟨htimed.takeReadyTimer, hactive, fun held hsome => ?_, fun _ hnone => nomatch hnone⟩
      cases hsome
      exact htimed.taken htaken
  | restored hnext hbusy =>
      -- a Start releases the flag before the main loop goes on, so the claim succeeds
      rw [hnext, hbusy] at hactive
      contradiction
  | claimed hnext =>
      rw [hnext] at hheld
      refine ⟨htimed.congr rfl rfl (Nat.le_refl _), rfl, fun held hsome => ?_,
        fun _ hnone => nomatch hnone⟩
      exact (hheld held hsome).congr rfl rfl (Nat.le_refl _)
  -- the statement before has compared the generations
  | @invoked event metadata hnext =>
      rw [hnext] at hactive hheld hchecked
      exact .free (htimed.deliver (hheld event rfl) (hchecked event rfl) rfl rfl rfl) hactive rfl
  | returned hnext =>
      rw [hnext] at hactive
      exact .free (htimed.congr rfl rfl (Nat.le_refl _)) hactive rfl
  | released => exact .free (htimed.congr rfl rfl (Nat.le_refl _)) rfl rfl

/-- Every event keeps it. -/
theorem scheduled_step {f : Firmware F} (h : f.Scheduled) (e : FirmwareEvent) :
    (f.step e).Scheduled := by
  cases e with
  | main busIdle => exact h.main busIdle
  | activity activity =>
      simp only [step, activityStep]
      split_ifs with hnext
      · have hactive : f.captured.bpfExecutionActive = f.next.active := h.active
        refine .free (h.timed.perform activity) ?_ (by simp only [hnext]; rfl)
        rw [← hactive]
        cases activity <;> rfl
      · exact h
  | packet bytes truncated invocation => exact h.packet bytes truncated invocation
  | tick ticks =>
      have hnow : f.captured.now ≤ f.captured.now + ticks := Nat.le_add_right ..
      exact ⟨h.timed.congr rfl rfl hnow, h.active,
        fun event hevent => (h.held event hevent).congr rfl rfl hnow, h.checked⟩

/-- A boot establishes it. -/
theorem scheduled_boot (flash : F) (now : Nat) : (boot flash now []).Scheduled :=
  .free (timed_new _ _ _) rfl rfl

/-- So it holds after every run. -/
theorem scheduled_run {f : Firmware F} (h : f.Scheduled) (es : List FirmwareEvent) :
    (f.run es).Scheduled :=
  Machine.invariant_run (I := Scheduled) (P := fun _ => True)
    (fun _ e _ hf => scheduled_step hf e) h fun _ _ => trivial

/-! ## the timer theorem -/

/- Read off the invariant, for a run from any boot. -/

/-- What the timer owes every reachable state, and every run its history.  What
the timer holds comes from the last call accepted: a call can go unnoticed only
while the main loop holds an event it has taken. -/
structure TimerSafe (f : Firmware F) : Prop where
  exclusive : ¬ (f.captured.timer.pending.isSome ∧ f.captured.timer.ready.isSome)
  pending : ∀ request, f.captured.timer.pending = some request →
    request.generation = f.captured.timer.generation ∧
      Since f.captured.history request.source 0
  ready : ∀ event, f.captured.timer.ready = some event →
    event.generation = f.captured.timer.generation ∧ Since f.captured.history event.source 0
  once : ((deliveries f.captured.history).map Delivery.call).Nodup
  sound : DeliveriesSound f.captured.history

/-- **Timer safety.** In every run from power-on the timer holds one request or
one event, of the current generation and from a call with none accepted since;
every accepted schedule call is delivered at most once, never early and with its
own cookie, and only if the number of calls accepted in between is a multiple of
the generation's period. -/
theorem timer_safety (flash : F) (now : Nat) (es : List FirmwareEvent) :
    ((boot flash now []).run es).TimerSafe := by
  obtain ⟨htimed, -, -, -⟩ := scheduled_run (scheduled_boot flash now) es
  constructor
  · rintro ⟨hpending, hready⟩
    cases htimed.exclusive with
    | inl hnone => simp [hnone] at hpending
    | inr hnone => simp [hnone] at hready
  · intro request hrequest
    obtain ⟨hsourced, -⟩ := htimed.pending request hrequest
    exact ⟨hsourced.current.trans htimed.generation.symm, hsourced.since⟩
  · intro event hevent
    obtain ⟨hsourced, -⟩ := htimed.ready event hevent
    exact ⟨hsourced.current.trans htimed.generation.symm, hsourced.since⟩
  · rw [List.Nodup, List.pairwise_map]
    exact htimed.once.imp fun hlt heq => absurd (heq ▸ hlt) (Nat.lt_irrefl _)
  · exact htimed.sound

/-! ## where the generation wraps -/

/- A run in which exactly a period of calls is accepted while the main loop
holds an event: the check passes, although every one of them was a cancellation. -/

/-- **Delivery.** An event the main loop holds is invoked, if it is current and
an image may run. -/
theorem held_invoked {f : Firmware F} {event : TimerEvent ScheduleCall}
    {metadata : BpfProgramMetadata} (hnext : f.next = .claim event)
    (hidle : f.captured.bpfExecutionActive = false)
    (hcurrent : f.captured.timer.generation = event.generation)
    (hmetadata : f.loader.eventExecutionMetadata = .ok metadata) :
    (f.run (mainLoop 4)).captured.history = .delivered ⟨event.source, commits f.captured.history,
      f.captured.now, timerContext event.cookie⟩ :: f.captured.history := by
  simp [mainLoop, List.replicate_succ, run, Machine.run, step, mainStep, hnext,
    Runtime.tryClaimBpfExecution_idle hidle, hcurrent, hmetadata]

/-- What so many cancellations leave behind. -/
theorem cancelled_perform {runtime : Runtime} {calls : Nat}
    (h : runtime.timer.generation = generationAfter calls) (n : Nat) :
    ((List.replicate n Activity.cancel).foldl Runtime.perform runtime).timer.generation =
        generationAfter (calls + n) ∧
      ((List.replicate n Activity.cancel).foldl Runtime.perform runtime).history =
        List.replicate n .cancelled ++ runtime.history := by
  induction n generalizing runtime calls with
  | zero => exact ⟨h, rfl⟩
  | succ n ih =>
      have hnext := TimerState.nextTimerGeneration_eq h
      have hcancelled :
          (runtime.perform .cancel).timer.generation = generationAfter (calls + 1) := by
        simp only [Runtime.perform, TimerState.bpfCancelTimer, hnext]
      obtain ⟨hgeneration, hhistory⟩ := ih hcancelled
      rw [List.replicate_succ, List.foldl_cons]
      refine ⟨by rw [hgeneration]; congr 1; omega, ?_⟩
      rw [hhistory, List.replicate_succ', List.append_assoc]
      rfl

/-- A Start of `timerProgram` that cancels counts its calls and changes nothing
else the main loop looks at. -/
theorem start_cancelling {f : Firmware F} {calls : Nat} {crc : UInt32}
    (hidle : f.captured.bpfExecutionActive = false) (hpending : f.loader.pending = none)
    (hstate : f.loader.state = .committed crc)
    (hgeneration : f.captured.timer.generation = generationAfter calls)
    (mapBacking : MapBacking) (cancels : Nat) :
    let f' := f.step (startReturningOne (cancelling mapBacking cancels))
    f'.next = f.next ∧ f'.loader = f.loader ∧ f'.captured.bpfExecutionActive = false ∧
      f'.captured.timer.generation = generationAfter (calls + cancels) ∧
      f'.captured.history = List.replicate cancels .cancelled ++ f.captured.history := by
  have hmetadata : f.loader.executionMetadata = .ok f.loader.committedMetadata :=
    BpfLoader.executionMetadata_ok.mpr ⟨hpending, ⟨_, hstate⟩, rfl⟩
  have hparse : parsePacket [magic, cmdStartBpf, 0, 0, 0] false =
      some (.ofPayload cmdStartBpf 0 []) := by decide +kernel
  have hresult : (⟨cancelling mapBacking cancels, .ok 1⟩ : Invocation).result = .ok 1 := rfl
  obtain ⟨hnext, hloader, hcaptured⟩ := start_packet (f := f) hparse (by decide) hidle
    hmetadata hresult (by decide)
  -- the stores touch the backing and not the runtime
  have hstores : (cancelling mapBacking cancels).foldl Runtime.perform f.captured =
      (List.replicate cancels Activity.cancel).foldl Runtime.perform f.captured := by
    rw [cancelling, List.foldl_cons, List.foldl_append]
    rfl
  obtain ⟨hcancelled, hcancels⟩ := cancelled_perform hgeneration cancels
  simp only [hstores] at hcaptured
  intro f'
  have hcaptured' : f'.captured = _ := hcaptured
  refine ⟨hnext, hloader, ?_, ?_, ?_⟩
  · rw [hcaptured']
  · rw [hcaptured', ← hcancelled]
  · rw [hcaptured', ← hcancels]

/-- Starts of `timerProgram`, over a backing that asks each to cancel so often. -/
def cancellingStarts (cancels : Nat) : Nat → MapBacking → List FirmwareEvent
  | 0, _ => []
  | starts + 1, mapBacking =>
      startReturningOne (cancelling mapBacking cancels) ::
        cancellingStarts cancels starts
          ((cancelling mapBacking cancels).foldl Activity.stored mapBacking)

/-- Start after Start, each of which cancels so many times: the history gains
the cancellations and the generation moves on by their number. -/
theorem run_cancellingStarts {f : Firmware F} {calls : Nat} {crc : UInt32}
    (hidle : f.captured.bpfExecutionActive = false) (hpending : f.loader.pending = none)
    (hstate : f.loader.state = .committed crc)
    (hgeneration : f.captured.timer.generation = generationAfter calls) (cancels starts : Nat)
    (mapBacking : MapBacking) :
    let f' := f.run (cancellingStarts cancels starts mapBacking)
    f'.next = f.next ∧ f'.loader = f.loader ∧ f'.captured.bpfExecutionActive = false ∧
      f'.captured.timer.generation = generationAfter (calls + starts * cancels) ∧
      f'.captured.history = List.replicate (starts * cancels) .cancelled ++ f.captured.history := by
  induction starts generalizing f calls mapBacking with
  | zero => simpa [cancellingStarts, run, Machine.run] using ⟨hidle, hgeneration⟩
  | succ starts ih =>
      obtain ⟨hnext, hloader, hidle', hgeneration', hhistory⟩ :=
        start_cancelling hidle hpending hstate hgeneration mapBacking cancels
      obtain ⟨hnext', hloader', hidle'', hgeneration'', hhistory'⟩ :=
        ih hidle' (hloader ▸ hpending) (hloader ▸ hstate) hgeneration'
          ((cancelling mapBacking cancels).foldl Activity.stored mapBacking)
      rw [hhistory, ← List.append_assoc, ← List.replicate_add, ← Nat.succ_mul] at hhistory'
      rw [Nat.add_assoc, Nat.add_comm cancels, ← Nat.succ_mul] at hgeneration''
      exact ⟨hnext'.trans hnext, hloader'.trans hloader, hidle'', hgeneration'', hhistory'⟩

/-- `timerProgram` schedules a timer, and the main loop takes it.  The host then
asks for a period of cancellations, and Starts the program before the main loop
goes on. -/
def wrappingRun (starts : Nat) : List FirmwareEvent :=
  startReturningOne scheduling :: .tick 10 :: mainLoop 5 ++ [requestPacket generationPeriod] ++
    cancellingStarts generationPeriod starts (requested generationPeriod) ++ mainLoop 4

set_option maxRecDepth 4000 in
/-- For every number of Starts there is a run that delivers an event after as
many periods of cancellations. -/
theorem wrappingRun_history (starts : Nat) :
    ∃ delivery, delivery.call = ⟨0, 0, 0, 10, 7⟩ ∧
      ((boot committedFlash 0 []).run (wrappingRun starts)).captured.history =
        .delivered delivery :: (List.replicate (starts * generationPeriod) .cancelled ++
          [.scheduled ⟨0, 0, 0, 10, 7⟩]) := by
  have htaken : ∀ f, f = (boot committedFlash 0 []).run
        (startReturningOne scheduling :: .tick 10 :: mainLoop 5 ++
          [requestPacket generationPeriod]) →
      (f.next = .claim ⟨1, 7, ⟨0, 0, 0, 10, 7⟩⟩ ∧
        f.captured.history = [.scheduled ⟨0, 0, 0, 10, 7⟩] ∧
        f.captured.timer.generation = generationAfter 1 ∧
        f.captured.bpfExecutionActive = false) ∧
      f.loader.pending = none ∧ f.loader.state = .committed timerProgramCrc := by
    rintro f rfl
    decide +kernel
  rw [run, wrappingRun, Machine.run_append, Machine.run_append]
  generalize hf : Machine.run step (boot committedFlash 0 [])
    (startReturningOne scheduling :: .tick 10 :: mainLoop 5 ++
      [requestPacket generationPeriod]) = f
  obtain ⟨⟨hnext, hhistory, hgeneration, hidle⟩, hpending, hstate⟩ := htaken f hf.symm
  obtain ⟨hnext', hloader', hidle', hgeneration', hhistory'⟩ :=
    run_cancellingStarts hidle hpending hstate hgeneration generationPeriod starts
      (requested generationPeriod)
  rw [hnext] at hnext'
  rw [hhistory] at hhistory'
  generalize hf' : f.run
    (cancellingStarts generationPeriod starts (requested generationPeriod)) = f'
    at hnext' hloader' hidle' hgeneration' hhistory'
  have hcurrent : f'.captured.timer.generation = 1 :=
    hgeneration'.trans ((generationAfter_eq_iff Nat.one_pos).mpr (Nat.dvd_mul_left _ _))
  have hevent : f'.loader.eventExecutionMetadata = .ok f.loader.committedMetadata := by
    rw [hloader', BpfLoader.eventExecutionMetadata, hpending, hstate]
    rfl
  have hdelivered := held_invoked hnext' hidle' hcurrent hevent
  rw [hhistory'] at hdelivered
  rw [run] at hf'
  exact ⟨_, rfl, hf' ▸ hdelivered⟩

/-- The 2^32 - 1 calls of a period go unnoticed. -/
theorem timer_wraps :
    ¬ ∀ (flash : Chip) (now : Nat) (es : List FirmwareEvent) (delivery : Delivery)
      (earlier : History),
      .delivered delivery :: earlier <:+ ((boot flash now []).run es).captured.history →
        Since earlier delivery.call 0 := by
  intro h
  obtain ⟨delivery, hcall, hrun⟩ := wrappingRun_history 1
  obtain ⟨recent, earlier, hhistory, -, hcalls⟩ := h committedFlash 0 (wrappingRun 1) delivery _
    (by rw [hrun])
  have hsplit : ∃ n, generationPeriod = n + 1 := ⟨2 ^ 32 - 2, by decide⟩
  obtain ⟨n, hn⟩ := hsplit
  rw [Nat.one_mul, hn, List.replicate_succ] at hhistory
  cases recent with
  | nil => simp at hhistory
  | cons entry recent =>
      rw [List.cons_append, List.cons_append, List.cons.injEq] at hhistory
      rw [← hhistory.1] at hcalls
      contradiction

end Firmware

end OptiBridge
