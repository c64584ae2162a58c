import OptiBridge.FirmwareSteps
import OptiBridge.LoaderInvariant

/-!
# OptiBridge.BusIdle

The main loop looks whether a Load operation is pending, waits for the bus if
there is one, and executes whatever is pending by then.  An operation accepted
before the look is executed on a bus that was seen idle after its acceptance; one
accepted between a look that finds nothing and the execution is not.

The log that is kept has three kinds of entry: an operation was accepted, the
bus was seen idle, an operation was executed.  Whether the source's wait does
what it is there for is a property of that log.  The one way around it is a
capture between `has_pending` and `execute_pending` (`AcceptsLate`), and the
theorem says that there is no other.

* `waiting_step`, kept by every event that is no late acceptance;
* `flash_work_waits`, so in a run without one, all flash work has waited;
* `flash_work_unwaited`, a run with one.
-/

namespace OptiBridge

/-! ## what is observed -/

/- `WaitedForIdle` asks that before each execution there is an idle entry after
the acceptance of what is executed. -/

/-- What matters to the bus: an operation is accepted, the bus is seen idle, an
operation is executed. -/
inductive BusEntry where
  | accepted (operation : LoadOperation)
  | idle
  | executed (operation : LoadOperation)
deriving DecidableEq

/-- `operation` was the last to be accepted. -/
def Accepted (log : List BusEntry) (operation : LoadOperation) : Prop :=
  ∃ before after, log = before ++ .accepted operation :: after ∧ ∀ other, .accepted other ∉ after

/-- And the bus was seen idle since. -/
def SeenIdle (log : List BusEntry) (operation : LoadOperation) : Prop :=
  ∃ before after, log = before ++ .accepted operation :: after ∧
    (∀ other, .accepted other ∉ after) ∧ .idle ∈ after

/-- Every execution waited for an idle bus. -/
def WaitedForIdle (log : List BusEntry) : Prop :=
  ∀ before operation after, log = before ++ .executed operation :: after →
    SeenIdle before operation

theorem waitedForIdle_nil : WaitedForIdle [] := by
  rintro before operation after h
  exact absurd h (by simp)

/-- One more entry is one more thing to check. -/
theorem WaitedForIdle.concat {log : List BusEntry} {entry : BusEntry} (h : WaitedForIdle log)
    (hentry : ∀ operation, entry = .executed operation → SeenIdle log operation) :
    WaitedForIdle (log ++ [entry]) := by
  intro before operation after heq
  cases after using List.reverseRecOn with
  | nil =>
      obtain ⟨rfl, hlast⟩ := List.append_inj' heq rfl
      exact hentry operation (List.cons.inj hlast).1
  | append_singleton after last =>
      rw [← List.cons_append, ← List.append_assoc] at heq
      obtain ⟨hlog, -⟩ := List.append_inj' heq rfl
      exact h before operation after hlog

/-- An operation that has just been accepted. -/
theorem Accepted.here (log : List BusEntry) (operation : LoadOperation) :
    Accepted (log ++ [.accepted operation]) operation := ⟨log, [], rfl, by simp⟩

/-- The bus has been seen idle since it was. -/
theorem Accepted.idle {log : List BusEntry} {operation : LoadOperation}
    (h : Accepted log operation) : SeenIdle (log ++ [.idle]) operation := by
  obtain ⟨before, after, rfl, hlast⟩ := h
  exact ⟨before, after ++ [.idle], by simp, by simpa using hlast, by simp⟩

/-- What the bus was seen idle after was accepted. -/
theorem SeenIdle.accepted {log : List BusEntry} {operation : LoadOperation}
    (h : SeenIdle log operation) : Accepted log operation := by
  obtain ⟨before, after, hlog, hlast, -⟩ := h
  exact ⟨before, after, hlog, hlast⟩

namespace Firmware

variable {F : Type}

/-- The operation a capture gets accepted. -/
def accepts (f : Firmware F) : FirmwareEvent → Option LoadOperation
  | .packet bytes truncated _ =>
      match parsePacket bytes truncated with
      | none => none
      | some request =>
          if f.captured.bpfExecutionActive = false ∧ request.flags = 0 ∧
              request.command = cmdLoadBpf then
            (f.loader.loadOperation request).toOption
          else none
  | .main _ | .activity _ | .tick _ => none

/-- A Load is accepted after the main loop has looked and before it executes. -/
def AcceptsLate (f : Firmware F) (e : FirmwareEvent) : Prop :=
  f.next = .executePending ∧ (f.accepts e).isSome

instance (f : Firmware F) (e : FirmwareEvent) : Decidable (f.AcceptsLate e) :=
  inferInstanceAs (Decidable (_ ∧ _))

/-- What an event contributes to the bus log. -/
def busEntries (f : Firmware F) (e : FirmwareEvent) : List BusEntry :=
  match e with
  | .main busIdle =>
      match f.next with
      | .waitForI2cBusIdle => if busIdle then [.idle] else []
      | .executePending => (f.loader.pending.map .executed).toList
      | _ => []
  | e => ((f.accepts e).map .accepted).toList

/-- A capture fills the pending slot with what it gets accepted. -/
theorem packet_pending (f : Firmware F) (bytes : List UInt8) (truncated : Bool)
    (invocation : Invocation) :
    (f.onI2cPacket bytes truncated invocation).2.loader.pending =
        (f.accepts (.packet bytes truncated invocation)).or f.loader.pending ∧
      ((f.accepts (.packet bytes truncated invocation)).isSome → f.loader.pending = none) := by
  cases hparse : parsePacket bytes truncated with
  | none =>
      simp only [onI2cPacket, accepts, hparse]
      exact ⟨rfl, fun h => by contradiction⟩
  | some request =>
      have haccepts : f.accepts (.packet bytes truncated invocation) =
          if f.captured.bpfExecutionActive = false ∧ request.flags = 0 ∧
              request.command = cmdLoadBpf then
            (f.loader.loadOperation request).toOption
          else none := by
        simp only [accepts, hparse]
      rw [haccepts]
      by_cases hbusy : f.captured.bpfExecutionActive ∧ request.command ≠ cmdReset
      · rw [if_neg fun h => by rw [h.1] at hbusy; exact Bool.false_ne_true hbusy.1]
        simp only [onI2cPacket, hparse, if_pos hbusy]
        exact ⟨rfl, fun h => by contradiction⟩
      · obtain ⟨-, hstate⟩ := onI2cPacket_dispatched hparse hbusy invocation
        rw [show (f.onI2cPacket bytes truncated invocation).2.loader =
          (dispatchWithBpfAndExecutor request (startExecutor invocation)
            f.toDispatchState).2.loader from congrArg DispatchState.loader hstate]
        by_cases hload : request.flags = 0 ∧ request.command = cmdLoadBpf
        · have hidle : f.captured.bpfExecutionActive = false :=
            Bool.eq_false_iff.mpr fun h => hbusy ⟨h, by rw [hload.2]; decide⟩
          rw [if_pos ⟨hidle, hload⟩, dispatch_load _ _ hload.1 hload.2, dispatchLoad]
          unfold BpfLoader.acceptsLoad
          cases hop : f.loader.loadOperation request with
          | error status => exact ⟨by rw [respond_loader]; rfl, fun h => by contradiction⟩
          | ok operation =>
              exact ⟨by rw [respond_loader]; rfl, fun _ => (BpfLoader.loadOperation_ok hop).1⟩
        · rw [if_neg fun h => hload h.2]
          refine ⟨?_, fun h => by contradiction⟩
          cases loader_step request (startExecutor invocation) f.toDispatchState with
          | kept hkept => rw [hkept]; rfl
          | accepted hflags hcommand => exact absurd ⟨hflags, hcommand⟩ hload
          | started _ _ _ _ hstarted => rw [hstarted]; rfl

/-! ## the invariant -/

/- It is about the pending operation: that it was accepted after everything else
that was, and what the bus has shown since. -/

/-- What the log says of the pending operation: it was accepted last, and if the
main loop is about to execute it the bus was seen idle since. -/
structure Waiting (f : Firmware F) (log : List BusEntry) : Prop where
  waited : WaitedForIdle log
  accepted : ∀ operation, f.loader.pending = some operation → Accepted log operation
  idle : f.next = .executePending → ∀ operation, f.loader.pending = some operation →
    SeenIdle log operation

/-- A capture keeps it, unless it comes late. -/
theorem Waiting.packet {f : Firmware F} {log : List BusEntry} (h : f.Waiting log)
    {bytes : List UInt8} {truncated : Bool} {invocation : Invocation}
    (hlate : ¬ f.AcceptsLate (.packet bytes truncated invocation)) :
    (f.onI2cPacket bytes truncated invocation).2.Waiting
      (log ++ f.busEntries (.packet bytes truncated invocation)) := by
  obtain ⟨hpending, -⟩ := f.packet_pending bytes truncated invocation
  have hnext := f.next_packet bytes truncated invocation
  unfold busEntries AcceptsLate at *
  cases haccepts : f.accepts (.packet bytes truncated invocation) with
  | none =>
      rw [haccepts, Option.none_or] at hpending
      simp only [haccepts, Option.map_none, Option.toList_none, List.append_nil]
      exact ⟨h.waited, by rw [hpending]; exact h.accepted, by rw [hpending, hnext]; exact h.idle⟩
  | some operation =>
      rw [haccepts, Option.some_or] at hpending
      simp only [haccepts, Option.map_some, Option.toList_some]
      refine ⟨h.waited.concat (by simp), ?_, ?_⟩
      · rw [hpending]
        rintro _ ⟨rfl⟩
        exact .here log operation
      · rw [hnext]
        intro hexecute
        exact absurd ⟨hexecute, by rw [haccepts]; rfl⟩ hlate

/-- A statement that puts nothing on the bus log and does not lead to the execution. -/
theorem Waiting.elsewhere {f f' : Firmware F} {log : List BusEntry} {busIdle : Bool}
    (h : f.Waiting log) (hloader : f'.loader = f.loader) (hnext : f'.next ≠ .executePending)
    (hentries : f.busEntries (.main busIdle) = []) :
    f'.Waiting (log ++ f.busEntries (.main busIdle)) := by
  rw [hentries, List.append_nil]
  exact ⟨h.waited, by rw [hloader]; exact h.accepted, fun heq => absurd heq hnext⟩

/-- The execution is reached with nothing pending, or past an idle bus. -/
theorem Waiting.moved {f : Firmware F} {log : List BusEntry} (h : f.Waiting log) {busIdle : Bool}
    {statement : Statement} (hmoves : Moves f busIdle f.next statement) :
    ({ f with next := statement } : Firmware F).Waiting
      (log ++ f.busEntries (.main busIdle)) := by
  generalize hnext : f.next = current at hmoves
  cases hmoves with
  | nonePending hpending =>
      simp only [busEntries, hnext, List.append_nil]
      exact ⟨h.waited, h.accepted, fun _ _ hop => by rw [hpending] at hop; contradiction⟩
  | idle hidle =>
      simp only [busEntries, hnext, hidle, if_true]
      exact ⟨h.waited.concat (by simp), fun _ hop => (h.accepted _ hop).idle.accepted,
        fun _ _ hop => (h.accepted _ hop).idle⟩
  | busy hidle => exact h.elsewhere rfl (by simp) (by simp [busEntries, hnext, hidle])
  | _ => exact h.elsewhere rfl (by simp) (by simp [busEntries, hnext])

variable [BpfFlash F]

/-- A statement of the main loop keeps it. -/
theorem Waiting.main {f : Firmware F} {log : List BusEntry} (h : f.Waiting log) (busIdle : Bool) :
    (f.mainStep busIdle).Waiting (log ++ f.busEntries (.main busIdle)) := by
  have hstep := f.main_step busIdle
  generalize f.mainStep busIdle = f' at hstep ⊢
  cases hstep with
  | moved hmoves => exact h.moved hmoves
  | reset hnext =>
      simp only [busEntries, hnext, List.append_nil]
      have hpending : (boot f.flash f.captured.now
          (.reset :: f.captured.history)).loader.pending = none :=
        BpfLoader.validateCommitted_pending
      exact ⟨h.waited, fun _ hop => by rw [hpending] at hop; contradiction,
        fun _ _ hop => by rw [hpending] at hop; contradiction⟩
  | executed hnext =>
      have hafter : ({ f.executePending with next := .pollTimer } : Firmware F).loader.pending =
          none := BpfLoader.executePending_pending
      simp only [busEntries, hnext]
      refine ⟨?_, fun _ hop => by rw [hafter] at hop; contradiction, fun heq => by contradiction⟩
      cases hpending : f.loader.pending with
      | none =>
          simpa [hpending] using h.waited
      | some operation =>
          simp only [Option.map_some, Option.toList_some]
          refine h.waited.concat ?_
          rintro _ ⟨rfl⟩
          exact h.idle hnext operation hpending
  | polled hnext | notReady hnext | took hnext | restored hnext | claimed hnext | invoked hnext
  | returned hnext | released hnext =>
      exact h.elsewhere rfl (by simp) (by simp [busEntries, hnext])

/-- **Waiting step.** -/
theorem waiting_step (f : Firmware F) (log : List BusEntry) (e : FirmwareEvent)
    (hlate : ¬ f.AcceptsLate e) (h : f.Waiting log) :
    (f.step e).Waiting (log ++ f.busEntries e) := by
  cases e with
  | main busIdle => exact h.main busIdle
  | packet bytes truncated invocation => exact h.packet hlate
  | activity activity =>
      have hentries : f.busEntries (.activity activity) = [] := rfl
      rw [hentries, List.append_nil]
      simp only [step, activityStep]
      split_ifs
      · exact ⟨h.waited, h.accepted, h.idle⟩
      · exact h
  | tick ticks =>
      have hentries : f.busEntries (.tick ticks) = [] := rfl
      rw [hentries, List.append_nil]
      exact ⟨h.waited, h.accepted, h.idle⟩

/-- What a run does to the bus. -/
def busLog (f : Firmware F) (es : List FirmwareEvent) : List BusEntry :=
  Machine.trace step busEntries f es

/-- **Flash work waits for an idle bus.** In every run from boot in which no Load
is accepted between the main loop's look and its `execute_pending`, every
operation it executes was followed by an idle bus after its acceptance. -/
theorem flash_work_waits (flash : F) (now : Nat) (history : History) (es : List FirmwareEvent)
    (h : Machine.Along step (fun f e => ¬ f.AcceptsLate e) (boot flash now history) es) :
    WaitedForIdle ((boot flash now history).busLog es) := by
  have hpending : (boot flash now history).loader.pending = none :=
    BpfLoader.validateCommitted_pending
  have hstart : (boot flash now history).Waiting [] :=
    ⟨waitedForIdle_nil, fun _ hop => by rw [hpending] at hop; contradiction,
      fun _ _ hop => by rw [hpending] at hop; contradiction⟩
  have hrun := Machine.invariant_trace_along (I := Waiting) waiting_step hstart h
  rw [List.nil_append] at hrun
  exact hrun.waited

/-- A Begin of an image of eight bytes. -/
def beginPayload : List UInt8 := [0, 8, 0, 0, 0, 0, 0, 0]

/-- A Begin, accepted before the look: accepted, idle, executed. -/
theorem flash_work_waits_begin :
    (boot erasedFlash 0 []).busLog (loadRun beginPayload) =
        [.accepted (.begin 8 0 0), .idle, .executed (.begin 8 0 0)] ∧
      WaitedForIdle ((boot erasedFlash 0 []).busLog (loadRun beginPayload)) :=
  ⟨by decide +kernel, flash_work_waits erasedFlash 0 [] (loadRun beginPayload) (by decide +kernel)⟩

/-- The main loop looks, the Begin is accepted, the main loop executes it. -/
def lateRun : List FirmwareEvent := mainLoop 2 ++ loadRun beginPayload

/-- The erase runs on a bus that was never seen idle. -/
theorem flash_work_unwaited :
    ¬ ∀ (flash : Nor.Chip) (now : Nat) (history : History) (es : List FirmwareEvent),
      WaitedForIdle ((boot flash now history).busLog es) := by
  intro h
  have hlog : (boot erasedFlash 0 []).busLog lateRun =
      [.accepted (.begin 8 0 0)] ++ .executed (.begin 8 0 0) :: [] := by decide +kernel
  obtain ⟨before, after, hsplit, -, hidle⟩ := h erasedFlash 0 [] lateRun _ _ _ hlog
  cases before with
  | nil =>
      obtain rfl := (List.cons.inj hsplit).2
      contradiction
  | cons entry before => simp at hsplit

end Firmware

end OptiBridge
