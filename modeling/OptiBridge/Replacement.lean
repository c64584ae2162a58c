import OptiBridge.TimerSafety

/-!
# OptiBridge.Replacement

A timer and the image that scheduled it.  Nothing cancels a timer when an image
is committed, so an event that outlives its image is delivered to the next one.
As long as every commit finds the timer empty, each event goes to the image
whose invocation asked for it.

The converse is what a run shows: `timer_crosses_replacement` commits a second
image while the first one's timer is set, and the event goes to the second.
Whether that can happen depends on the state before the commit only, so the
condition of `timer_image` is on that state.

* `Owned`, every call on its way belongs to the committed image;
* `owned_step`, kept by every event, if no commit finds a call on its way;
* `timer_image`, so no delivery crosses images in a run of that kind.
-/

namespace OptiBridge

open Nor

/-! ## outstanding calls -/

/- The calls whose event has not been delivered yet: in the timer, or in the
hands of the main loop. -/

namespace TimerState

variable {τ : Type}

/-- The calls a timer still holds something of. -/
def sources (state : TimerState τ) : List τ :=
  (state.pending.map TimerRequest.source).toList ++ (state.ready.map TimerEvent.source).toList

/-- A schedule call is outstanding from now on, in the place of whatever was. -/
theorem sources_schedule {state : TimerState τ} {now : Nat} {source : τ} {delayMs cookie : UInt64} :
    ∀ call ∈ (state.bpfScheduleTimer now source delayMs cookie).2.sources,
      call = source ∨ call ∈ state.sources := by
  unfold bpfScheduleTimer
  split_ifs
  · exact fun call hcall => .inr hcall
  · simp [sources]

/-- A deadline that passes makes no new call. -/
theorem sources_poll {state : TimerState τ} {now : Nat} :
    ∀ call ∈ (state.pollTimer now).sources, call ∈ state.sources := by
  unfold pollTimer sources
  cases hpending : state.pending with
  | none => simp [hpending]
  | some request =>
      simp only
      split_ifs <;> simp [hpending]

/-- What is taken out was there. -/
theorem sources_take {state : TimerState τ} :
    ∀ call, call ∈ state.takeReadyTimer.2.sources ∨
      call ∈ (state.takeReadyTimer.1.map TimerEvent.source).toList → call ∈ state.sources := by
  unfold takeReadyTimer sources
  cases state.pending <;> cases state.ready <;> simp

/-- What is put back is the event's own call. -/
theorem sources_restore {state : TimerState τ} {event : TimerEvent τ} :
    ∀ call ∈ (state.restoreReadyTimer event).sources,
      call = event.source ∨ call ∈ state.sources := by
  unfold restoreReadyTimer sources
  split_ifs
  · simp only [Option.map_some, Option.toList_some, List.mem_append, List.mem_singleton]
    tauto
  · tauto

end TimerState

/-- The call the main loop holds the event of. -/
def Statement.source (next : Statement) : List ScheduleCall :=
  (next.held.map TimerEvent.source).toList

/-- The runtime's calls are the current image's, and so were the delivered ones. -/
structure Runtime.Owned (runtime : Runtime) : Prop where
  sources : ∀ call ∈ runtime.timer.sources, call.image = commits runtime.history
  delivered : ∀ delivery ∈ deliveries runtime.history, delivery.call.image = delivery.image

/-- An activity belongs to the image that runs, and commits nothing. -/
theorem Runtime.Owned.perform {runtime : Runtime} (h : runtime.Owned) (activity : Activity) :
    (runtime.perform activity).Owned ∧
      commits (runtime.perform activity).history = commits runtime.history := by
  cases activity with
  | schedule delayMs cookie =>
      simp only [Runtime.perform]
      split_ifs
      · refine ⟨⟨fun call hcall => ?_, h.delivered⟩, rfl⟩
        cases TimerState.sources_schedule call hcall with
        | inl hnew => rw [hnew]; rfl
        | inr hold => exact h.sources call hold
      · refine ⟨⟨fun call hcall => ?_, h.delivered⟩, rfl⟩
        cases TimerState.sources_schedule call hcall with
        | inl hnew => rw [hnew]
        | inr hold => exact h.sources call hold
  | cancel => exact ⟨⟨fun call hcall => by simp [Runtime.perform, TimerState.bpfCancelTimer,
      TimerState.sources] at hcall, h.delivered⟩, rfl⟩
  | store => exact ⟨h, rfl⟩
  | wait => exact ⟨⟨h.sources, h.delivered⟩, rfl⟩

/-- So do all activities of an invocation. -/
theorem Runtime.Owned.foldl_perform {runtime : Runtime} (h : runtime.Owned)
    (activities : List Activity) :
    (activities.foldl Runtime.perform runtime).Owned ∧
      commits (activities.foldl Runtime.perform runtime).history = commits runtime.history := by
  induction activities generalizing runtime with
  | nil => exact ⟨h, rfl⟩
  | cons activity activities ih =>
      obtain ⟨howned, hcommits⟩ := h.perform activity
      obtain ⟨hrest, hcommits'⟩ := ih howned
      exact ⟨hrest, hcommits'.trans hcommits⟩

/-! ## the invariant -/

/- Every such call was made by an invocation of the image that is committed now. -/

namespace Firmware

variable {F : Type}

/-- Every call whose event is still on its way is the current image's. -/
structure Owned (f : Firmware F) : Prop where
  runtime : f.captured.Owned
  held : ∀ call ∈ f.next.source, call.image = commits f.captured.history

/-- A statement that only moves on takes no call. -/
theorem Moves.source {f : Firmware F} {busIdle : Bool} {statement statement' : Statement}
    (h : Moves f busIdle statement statement') {call : ScheduleCall}
    (hcall : call ∈ statement'.source) : call ∈ statement.source := by
  simp only [Statement.source, Option.mem_toList, Option.map_eq_some_iff] at hcall ⊢
  obtain ⟨event, hevent, rfl⟩ := hcall
  exact ⟨event, h.held hevent, rfl⟩

/-- While the main loop holds no event, the runtime's calls are all there are. -/
theorem Owned.free {f : Firmware F} (hruntime : f.captured.Owned) (hheld : f.next.held = none) :
    f.Owned :=
  ⟨hruntime, by simp [Statement.source, hheld]⟩

variable [BpfFlash F]

/-- Where the main loop commits an image, the timer is empty. -/
def Unreplaced (f : Firmware F) : FirmwareEvent → Prop
  | .main _ => f.next = .executePending →
      loadOperationCommits f.loader (f.loader.executePending f.flash).1 = true →
        f.captured.timer.sources = []
  | .activity _ | .packet .. | .tick _ => True

/-- A statement of the main loop keeps the invariant, if it commits nothing or
finds the timer empty when it does. -/
theorem Owned.main {f : Firmware F} (h : f.Owned) {busIdle : Bool}
    (hcalm : f.Unreplaced (.main busIdle)) : (f.mainStep busIdle).Owned := by
  have hstep := f.main_step busIdle
  obtain ⟨hruntime, hheld⟩ := h
  have hevent : ∀ event, f.next.held = some event →
      event.source.image = commits f.captured.history := fun event hevent =>
    hheld event.source (by simp [hevent, Statement.source])
  generalize f.mainStep busIdle = f' at hstep ⊢
  cases hstep with
  | moved hmoves => exact ⟨hruntime, fun call hcall => hheld call (hmoves.source hcall)⟩
  | reset =>
      exact .free ⟨by simp [boot, TimerState.new, TimerState.sources], hruntime.delivered⟩ rfl
  | executed hnext =>
      refine .free ?_ rfl
      simp only [executePending]
      -- the only statement that may begin a new image
      split_ifs with hcommits
      · refine ⟨fun call hcall => ?_, hruntime.delivered⟩
        rw [hcalm hnext hcommits] at hcall
        contradiction
      · exact hruntime
  | polled =>
      exact .free ⟨fun call hcall => hruntime.sources call (TimerState.sources_poll call hcall),
        hruntime.delivered⟩ rfl
  | notReady =>
      exact .free ⟨fun call hcall =>
        hruntime.sources call (TimerState.sources_take call (.inl hcall)), hruntime.delivered⟩ rfl
  | took _ htaken =>
      refine ⟨⟨fun call hcall => hruntime.sources call (TimerState.sources_take call (.inl hcall)),
        hruntime.delivered⟩, fun call hcall => ?_⟩
      refine hruntime.sources call (TimerState.sources_take call (.inr ?_))
      simpa [htaken, Statement.source, Statement.held] using hcall
  | @restored event hnext =>
      refine .free ⟨fun call hcall => ?_, hruntime.delivered⟩ rfl
      cases TimerState.sources_restore call hcall with
      | inl heq => exact heq ▸ hevent event (by rw [hnext]; rfl)
      | inr hold => exact hruntime.sources call hold
  | claimed hnext =>
      rw [hnext] at hheld
      exact ⟨⟨hruntime.sources, hruntime.delivered⟩, hheld⟩
  | @invoked event metadata hnext =>
      refine .free ⟨hruntime.sources, fun delivery hdelivery => ?_⟩ rfl
      cases List.mem_cons.mp hdelivery with
      | inl heq => exact heq ▸ hevent event (by rw [hnext]; rfl)
      | inr hold => exact hruntime.delivered delivery hold
  | returned | released => exact .free ⟨hruntime.sources, hruntime.delivered⟩ rfl

/-- Every event does, under the same condition. -/
theorem owned_step {f : Firmware F} {e : FirmwareEvent} (hcalm : f.Unreplaced e) (h : f.Owned) :
    (f.step e).Owned := by
  cases e with
  | main busIdle => exact h.main hcalm
  | activity activity =>
      simp only [step, activityStep]
      split_ifs with hnext
      · exact .free (h.runtime.perform activity).1 (by simp only [hnext]; rfl)
      · exact h
  | packet bytes truncated invocation =>
      have hstep := packet_step f bytes truncated invocation
      simp only [step]
      generalize (f.onI2cPacket bytes truncated invocation).2 = f' at hstep ⊢
      cases hstep with
      | kept hnext hcaptured | wrote _ _ _ _ _ hnext hcaptured =>
          exact ⟨hcaptured ▸ h.runtime, by rw [hnext, hcaptured]; exact h.held⟩
      | executed _ _ _ _ hnext hcaptured =>
          obtain ⟨howned, hcommits⟩ := h.runtime.foldl_perform invocation.activities
          constructor
          · rw [hcaptured]
            exact ⟨howned.sources, howned.delivered⟩
          · rw [hnext, hcaptured]
            simp only [hcommits]
            exact h.held
  | tick ticks => exact ⟨⟨h.runtime.sources, h.runtime.delivered⟩, h.held⟩

/-- A boot clears the timer. -/
theorem owned_boot (flash : F) (now : Nat) : (boot flash now []).Owned :=
  .free ⟨by simp [boot, TimerState.new, TimerState.sources], by simp [boot, deliveries]⟩ rfl

/-- **Images and timers.** While every commit finds the timer empty, a timer
event is delivered to the image whose invocation scheduled it. -/
theorem timer_image (flash : F) (now : Nat) {es : List FirmwareEvent}
    (h : Machine.Along step Unreplaced (boot flash now []) es) :
    ∀ delivery ∈ deliveries ((boot flash now []).run es).captured.history,
      delivery.call.image = delivery.image := by
  have howned : ((boot flash now []).run es).Owned :=
    Machine.invariant_along (I := Owned) (fun _ _ hcalm hf => owned_step hcalm hf)
      (owned_boot flash now) h
  exact howned.runtime.delivered

instance (f : Firmware F) (e : FirmwareEvent) : Decidable (f.Unreplaced e) := by
  cases e <;> unfold Unreplaced <;> infer_instance

/-! ## an image replaced -/

/- Two runs with the same two images: one cancels before the second is loaded,
the other does not. -/

/-- `mov r0, 0; exit`, loaded in two fragments. -/
def secondImage : List UInt8 := [0xb7, 0, 0, 0, 0, 0, 0, 0] ++ Device.exitProgram

/-- The second image is loaded and committed. -/
def loadSecondImage : List FirmwareEvent :=
  loadRun (0 :: Bytes.toLe 2 16 ++ [0] ++ Bytes.toLe 4 (crc32IsoHdlc secondImage).toNat) ++
    loadRun (1 :: Bytes.toLe 2 0 ++ secondImage.take 12) ++
    loadRun (1 :: Bytes.toLe 2 12 ++ secondImage.drop 12) ++ loadRun [2]

/-- `timerProgram` schedules a timer and is invoked by it, and then again; the
second time the host has asked it to cancel.  Then it is replaced. -/
def cancellingRun : List FirmwareEvent :=
  startReturningOne scheduling :: .tick 10 :: mainLoop 9 ++ scheduling.map .activity ++
    mainLoop 3 ++ requestPacket 1 :: .tick 10 :: mainLoop 9 ++
    (cancelling (requested 1) 1).map .activity ++ mainLoop 3 ++ loadSecondImage

set_option maxRecDepth 4000 in
/-- Two timers delivered, and an image committed when the last one is done. -/
theorem timer_image_kept :
    (deliveries ((boot committedFlash 0 []).run cancellingRun).captured.history).length = 2 ∧
      commits ((boot committedFlash 0 []).run cancellingRun).captured.history = 1 ∧
      ∀ delivery ∈ deliveries ((boot committedFlash 0 []).run cancellingRun).captured.history,
        delivery.call.image = delivery.image := by
  have hcounts :
      (deliveries ((boot committedFlash 0 []).run cancellingRun).captured.history).length = 2 ∧
        commits ((boot committedFlash 0 []).run cancellingRun).captured.history = 1 := by
    decide +kernel
  have hunreplaced : Machine.Along step Unreplaced (boot committedFlash 0 []) cancellingRun := by
    decide +kernel
  exact ⟨hcounts.1, hcounts.2, timer_image committedFlash 0 hunreplaced⟩

/-- `timerProgram` schedules a timer; it is replaced; the timer expires. -/
def replacingRun : List FirmwareEvent :=
  startReturningOne scheduling :: (loadSecondImage ++ .tick 10 :: mainLoop 9)

set_option maxRecDepth 4000 in
/-- The old image's timer is delivered to the new one. -/
theorem timer_crosses_replacement :
    ¬ ∀ (flash : Chip) (now : Nat) (es : List FirmwareEvent),
      ∀ delivery ∈ deliveries ((boot flash now []).run es).captured.history,
        delivery.call.image = delivery.image := by
  intro h
  have hrun : deliveries ((boot committedFlash 0 []).run replacingRun).captured.history =
      [⟨⟨0, 0, 0, 10, 7⟩, 1, 10, timerContext 7⟩] := by decide +kernel
  have hkept := h committedFlash 0 replacingRun _ (by rw [hrun]; exact List.mem_singleton_self _)
  contradiction

end Firmware

end OptiBridge
