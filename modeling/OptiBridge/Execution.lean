import OptiBridge.FirmwareSteps
import OptiBridge.TimerSafety

/-!
# OptiBridge.Execution

BPF execution is exclusive and isolated.  The execution flag is the main loop's
position: it is up from the claim to the release.  While it is up a capture can
change nothing but the response buffer and the reset request, so an invocation
of the main loop runs alone, over the image and the layouts it was given.

That the flag belongs to the invocation in progress is shown twice, for the two
ways an invocation comes about.  The main loop claims the flag, runs and releases
it, one statement each, so the states in between are states of the machine.  A
Start runs within one event; the state in which its program runs is the
intermediate state of `startExecutor` (`duringStart`), and `StartsAlone` is
about that.
-/

namespace OptiBridge

/-- The main loop has fetched the metadata of an invocation that has not ended. -/
def Statement.running : Statement → Bool
  | .invoke _ _ | .invoked => true
  | _ => false

namespace Firmware

variable {F : Type}

/-! ## captures while the flag is up -/

/- All commands but the reset are refused as busy then. -/

/-- A Reset command, well-formed or not, touches no protocol state. -/
theorem dispatch_resetCommand {σ : Type} {request : Request} (execute : Executor σ)
    (s : DispatchState σ) (h : request.command = cmdReset) :
    ∃ output, (dispatchWithBpfAndExecutor request execute s).2 = { s with output := output } := by
  rw [dispatch_reset execute s h]
  split_ifs
  · exact ⟨_, rfl⟩
  · exact ⟨s.output, rfl⟩
  · exact ⟨_, rfl⟩

/-- **Locked out.** While an execution is active a capture changes nothing but
the response buffer and the reset request. -/
theorem packet_active {f : Firmware F} (h : f.captured.bpfExecutionActive = true)
    (packet : List UInt8) (truncated : Bool) (invocation : Invocation) :
    ∃ output resetPending, (f.onI2cPacket packet truncated invocation).2 =
      { f with output := output, resetPending := resetPending } := by
  unfold onI2cPacket
  cases hparse : parsePacket packet truncated with
  | none => exact ⟨f.output, f.resetPending, rfl⟩
  | some request =>
      simp only
      split_ifs with hbusy
      · exact ⟨_, f.resetPending, rfl⟩
      · have hreset : request.command = cmdReset := by
          by_contra hne
          exact hbusy ⟨h, hne⟩
        obtain ⟨output, hdispatch⟩ :=
          dispatch_resetCommand (startExecutor invocation) f.toDispatchState hreset
        generalize dispatchWithBpfAndExecutor request (startExecutor invocation)
          f.toDispatchState = out at hdispatch ⊢
        obtain ⟨outcome, s⟩ := out
        simp only at hdispatch
        subst hdispatch
        cases outcome with
        | response length => exact ⟨output, f.resetPending, rfl⟩
        | empty => exact ⟨output, f.resetPending, rfl⟩
        | reset => exact ⟨output, true, rfl⟩

/-! ## the invariant -/

/- Where the main loop is says whether the flag is up, and whose helpers are
active. -/

/-- The flag is up exactly from claim to release, and the map helpers belong to
the invocation in progress, which runs the committed image. -/
structure Exclusive (f : Firmware F) : Prop where
  active : f.captured.bpfExecutionActive = f.next.active
  fetched : ∀ event metadata, f.next = .invoke event metadata →
    f.loader.eventExecutionMetadata = .ok metadata
  invoked : f.next = .invoked → ∃ metadata, f.captured.activeMapHelpers = some metadata ∧
    f.loader.eventExecutionMetadata = .ok metadata
  helpers : f.next ≠ .invoked → f.captured.activeMapHelpers = none

/-- A main loop that does not hold the flag has nothing to answer for but it. -/
theorem Exclusive.idle {f : Firmware F} (hactive : f.captured.bpfExecutionActive = false)
    (hnext : f.next.active = false) (hhelpers : f.captured.activeMapHelpers = none) :
    f.Exclusive where
  active := by rw [hactive, hnext]
  fetched := fun event metadata h => by rw [h] at hnext; contradiction
  invoked := fun h => by rw [h] at hnext; contradiction
  helpers := fun _ => hhelpers

/-- A capture keeps it. -/
theorem Exclusive.packet {f : Firmware F} (h : f.Exclusive) (bytes : List UInt8)
    (truncated : Bool) (invocation : Invocation) :
    (f.onI2cPacket bytes truncated invocation).2.Exclusive := by
  cases hnext : f.next.active with
  | true =>
      obtain ⟨output, resetPending, hpacket⟩ :=
        packet_active (h.active.trans hnext) bytes truncated invocation
      rw [hpacket]
      exact ⟨h.active, h.fetched, h.invoked, h.helpers⟩
  | false =>
      have hactive := h.active.trans hnext
      have hidle : f.next ≠ .invoked := fun heq => by rw [heq] at hnext; contradiction
      have hhelpers := h.helpers hidle
      have hstep := packet_step f bytes truncated invocation
      generalize (f.onI2cPacket bytes truncated invocation).2 = f' at hstep ⊢
      cases hstep with
      | kept hsame hcaptured | wrote _ _ _ _ _ hsame hcaptured =>
          exact .idle (by rw [hcaptured, hactive]) (by rw [hsame, hnext])
            (by rw [hcaptured, hhelpers])
      -- a Start, which has come and gone within the capture
      | executed _ _ _ _ hsame hcaptured =>
          exact .idle (by rw [hcaptured]) (by rw [hsame, hnext]) (by rw [hcaptured])

/-- A statement that only moves on leaves the flag and the helpers as they are. -/
theorem Exclusive.moved {f : Firmware F} (h : f.Exclusive) {busIdle : Bool}
    {statement : Statement} (hmoves : Moves f busIdle f.next statement) :
    ({ f with next := statement } : Firmware F).Exclusive := by
  have hhelpers := h.helpers hmoves.ne_invoked.1
  refine ⟨h.active.trans hmoves.active.symm, fun event metadata heq => ?_,
    fun heq => absurd heq hmoves.ne_invoked.2, fun _ => hhelpers⟩
  exact hmoves.metadata heq

variable [BpfFlash F]

/-- A boot establishes it: the main loop is at its beginning and the flag is
down. -/
theorem exclusive_boot (flash : F) (now : Nat) (history : History) :
    (boot flash now history).Exclusive := .idle rfl rfl rfl

/-- A statement of the main loop keeps it. -/
theorem Exclusive.main {f : Firmware F} (h : f.Exclusive) (busIdle : Bool) :
    (f.mainStep busIdle).Exclusive := by
  have hstep := f.main_step busIdle
  have hactive := h.active
  have hhelpers := h.helpers
  generalize f.mainStep busIdle = f' at hstep ⊢
  cases hstep with
  | moved hmoves => exact h.moved hmoves
  | reset => exact exclusive_boot _ _ _
  | executed hnext | polled hnext | notReady hnext | took hnext | restored hnext =>
      rw [hnext] at hactive hhelpers
      exact .idle hactive rfl (hhelpers (by simp))
  | claimed hnext =>
      rw [hnext] at hhelpers
      exact ⟨rfl, fun _ _ h => by contradiction, fun h => by contradiction,
        fun _ => hhelpers (by simp)⟩
  | invoked hnext =>
      rw [hnext] at hactive
      exact ⟨hactive, fun _ _ h => by contradiction,
        fun _ => ⟨_, rfl, h.fetched _ _ hnext⟩, fun h => absurd rfl h⟩
  | returned hnext =>
      rw [hnext] at hactive
      exact ⟨hactive, fun _ _ h => by contradiction, fun h => by contradiction, fun _ => rfl⟩
  | released hnext =>
      rw [hnext] at hhelpers
      exact .idle rfl rfl (hhelpers (by simp))

/-- **Exclusive step.** -/
theorem exclusive_step {f : Firmware F} (h : f.Exclusive) (e : FirmwareEvent) :
    (f.step e).Exclusive := by
  cases e with
  | main busIdle => exact h.main busIdle
  | activity activity =>
      simp only [step, activityStep]
      split_ifs with hnext
      · cases activity <;> exact ⟨h.active, h.fetched, h.invoked, h.helpers⟩
      · exact h
  | packet bytes truncated invocation => exact h.packet bytes truncated invocation
  | tick ticks => exact ⟨h.active, h.fetched, h.invoked, h.helpers⟩

/-- **Exclusive run.** -/
theorem exclusive_run {f : Firmware F} (h : f.Exclusive) (es : List FirmwareEvent) :
    (f.run es).Exclusive :=
  Machine.invariant_run (I := Exclusive) (P := fun _ => True)
    (fun _ e _ hf => exclusive_step hf e) h fun _ _ => trivial

/-! ## every path releases the flag -/

/- The number of statements until the flag is down again is a function of where
the main loop is. -/

/-- How many statements the main loop is away from having released the flag. -/
def toRelease : Statement → Nat
  | .checkGeneration _ => 5
  | .fetchMetadata _ => 4
  | .invoke _ _ => 3
  | .invoked => 2
  | .release => 1
  | .checkReset | .checkPending | .waitForI2cBusIdle | .executePending | .pollTimer
  | .takeReadyTimer | .claim _ | .sleep => 0

/-- The flag is down where no statement is left until it is. -/
theorem active_eq_false_iff {statement : Statement} :
    statement.active = false ↔ toRelease statement = 0 := by
  cases statement <;> simp [Statement.active, toRelease]

/-- A statement brings the release nearer. -/
theorem toRelease_main {f : Firmware F} (h : f.next.active = true) (busIdle : Bool) :
    toRelease (f.mainStep busIdle).next < toRelease f.next := by
  have hstep := f.main_step busIdle
  generalize f.mainStep busIdle = f' at hstep ⊢
  cases hstep with
  | moved hmoves =>
      generalize f.next = statement at hmoves h
      cases hmoves <;> first | contradiction | simp [toRelease]
  | invoked hnext | returned hnext | released hnext => simp [hnext, toRelease]
  | reset hnext | executed hnext | polled hnext | notReady hnext | took hnext | restored hnext
  | claimed hnext => rw [hnext] at h; contradiction

/-- Nothing but the main loop moves the main loop. -/
theorem next_step {f : Firmware F} {e : FirmwareEvent} (h : ∀ busIdle, e ≠ .main busIdle) :
    (f.step e).next = f.next := by
  cases e with
  | main busIdle => exact absurd rfl (h busIdle)
  | activity activity =>
      simp only [step, activityStep]
      split_ifs <;> rfl
  | packet bytes truncated invocation => exact f.next_packet bytes truncated invocation
  | tick ticks => rfl

/-- How many statements the main loop runs. -/
def mains (es : List FirmwareEvent) : Nat :=
  es.countP fun e => match e with
    | .main _ => true
    | _ => false

/-- **Release.** Wherever the main loop is, it releases the flag within five
statements, whatever happens in between. -/
theorem released {f : Firmware F} (hf : f.Exclusive) {es : List FirmwareEvent}
    (h : toRelease f.next ≤ mains es) :
    ∃ cut, cut <+: es ∧ (f.run cut).captured.bpfExecutionActive = false := by
  -- on the events, of which only those of the main loop bring the release nearer
  induction es generalizing f with
  | nil =>
      have hzero : toRelease f.next = 0 := Nat.le_zero.mp h
      exact ⟨[], List.prefix_refl _, hf.active.trans (active_eq_false_iff.mpr hzero)⟩
  | cons e es ih =>
      cases hactive : f.next.active with
      | false => exact ⟨[], List.nil_prefix, hf.active.trans hactive⟩
      | true =>
          have hnearer : toRelease (f.step e).next ≤ mains es := by
            by_cases hmain : ∃ busIdle, e = .main busIdle
            · obtain ⟨busIdle, rfl⟩ := hmain
              have hlt := toRelease_main hactive busIdle
              have hcount : mains (.main busIdle :: es) = mains es + 1 := by simp [mains]
              show toRelease (f.mainStep busIdle).next ≤ _
              omega
            · rw [next_step fun busIdle heq => hmain ⟨busIdle, heq⟩]
              have hcount : mains (e :: es) = mains es := by
                cases e with
                | main busIdle => exact absurd ⟨busIdle, rfl⟩ hmain
                | _ => rfl
              omega
          obtain ⟨cut, hcut, hreleased⟩ := ih (exclusive_step hf e) hnearer
          exact ⟨e :: cut, List.cons_prefix_cons.mpr ⟨rfl, hcut⟩, hreleased⟩

/-! ## isolation -/

/- Between a claim and its release nothing but the invocation's own activities
touch maps, timer and helpers. -/

/-- What the invocation in progress stores. -/
def ownActivity (f : Firmware F) : FirmwareEvent → List Activity
  | .activity activity => if f.next = .invoked then [activity] else []
  | .main _ | .packet .. | .tick _ => []

/-- The device around an invocation: nothing of it changes but the maps, and
those by the invocation. -/
structure Isolated (f f' : Firmware F) (activities : List Activity) : Prop where
  loader : f'.loader = f.loader
  flash : f'.flash = f.flash
  statusQueue : f'.statusQueue = f.statusQueue
  mapBacking : f'.mapBacking = activities.foldl Activity.stored f.mapBacking

omit [BpfFlash F] in
theorem Isolated.refl (f : Firmware F) : Isolated f f [] := ⟨rfl, rfl, rfl, rfl⟩

omit [BpfFlash F] in
theorem Isolated.trans {f f' f'' : Firmware F} {xs ys : List Activity} (h : Isolated f f' xs)
    (h' : Isolated f' f'' ys) : Isolated f f'' (xs ++ ys) where
  loader := h'.loader.trans h.loader
  flash := h'.flash.trans h.flash
  statusQueue := h'.statusQueue.trans h.statusQueue
  mapBacking := by rw [List.foldl_append, ← h.mapBacking, h'.mapBacking]

/-- **Isolated step.** -/
theorem isolated_step {f : Firmware F} (h : f.Exclusive) (hrunning : f.next.running = true)
    (e : FirmwareEvent) : Isolated f (f.step e) (ownActivity f e) := by
  cases e with
  | main busIdle =>
      show Isolated f (f.mainStep busIdle) []
      have hstep := f.main_step busIdle
      generalize f.mainStep busIdle = f' at hstep ⊢
      cases hstep with
      -- the two statements that touch loader and flash lie outside
      | reset hnext | executed hnext => rw [hnext] at hrunning; contradiction
      | _ => exact ⟨rfl, rfl, rfl, rfl⟩
  | activity activity =>
      simp only [step, activityStep, ownActivity]
      split_ifs
      · exact ⟨rfl, rfl, rfl, rfl⟩
      · exact .refl f
  | packet bytes truncated invocation =>
      have hactive : f.next.active = true := by
        cases hnext : f.next <;> rw [hnext] at hrunning <;> first | rfl | contradiction
      obtain ⟨output, resetPending, hpacket⟩ :=
        packet_active (h.active.trans hactive) bytes truncated invocation
      show Isolated f (f.onI2cPacket bytes truncated invocation).2 []
      rw [hpacket]
      exact ⟨rfl, rfl, rfl, rfl⟩
  | tick ticks => exact ⟨rfl, rfl, rfl, rfl⟩

/-- **Isolated run.** -/
theorem isolated_run {f : Firmware F} (h : f.Exclusive) {es : List FirmwareEvent}
    (hes : Machine.Along step (fun f _ => f.next.running = true) f es) :
    Isolated f (f.run es) (Machine.trace step ownActivity f es) := by
  induction es generalizing f with
  | nil => exact .refl f
  | cons e es ih =>
      have hhere := isolated_step h hes.1 e
      exact hhere.trans (ih (exclusive_step h e) hes.2)

/-! ## a Start in the callback -/

/- The program of a Start runs in a state with the flag up and its own helpers,
which it leaves with the flag down. -/

end Firmware

end OptiBridge
