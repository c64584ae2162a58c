import OptiBridge.Layouts
import OptiBridge.RawDispatch
import OptiBridge.RawFlash

/-!
# OptiBridge.NoPanic

The device never panics: booted over any flash, fed captures of any bytes and
main-loop calls in any order, the raw machine takes the steps of the model and
none of its checks fails.

The argument is a simulation of the simplest kind: the raw machine and the model
are in step, state by state, as long as the model's state is in bounds
(`InBounds`); that is an invariant of the model, so a raw run never gets to a
check that fails.
-/

namespace OptiBridge

namespace Raw

open Checked

/-! ## the machine -/

/-- The protocol state and the flash, with no bounds. -/
structure Device (F : Type) extends DispatchState (List BpfProgramMetadata) where
  flash : F

/-- A capture, and what the main loop asks of the loader: to execute what is
pending, and for the metadata a timer event would run. -/
inductive Event where
  | capture (packet : List UInt8) (truncated : Bool) (execute : HostExecutor)
  | executePending
  | fetchMetadata

namespace Device

variable {F : Type} [BpfFlash F]

/-- A boot over a flash, from the statics as they are declared. -/
def boot (statusQueue : StatusQueue) (mapBacking : MapBacking) (output : Output) (flash : F) :
    Checked (Device F) := do
  let validated ← validateCommitted BpfLoader.new flash
  pure ⟨⟨statusQueue, validated.1, mapBacking, output, []⟩, validated.2⟩

/-- One event.  A capture that holds no request does nothing, and fetching
metadata leaves the state as it is. -/
def step (d : Device F) : Event → Checked (Device F)
  | .capture packet truncated execute => do
      match ← parsePacket packet truncated with
      | none => pure d
      | some request =>
          let out ← dispatchWithBpfAndExecutor request (recording execute) d.toDispatchState
          pure { d with toDispatchState := out.2 }
  | .executePending => do
      let executed ← executePending d.loader d.flash
      pure { d with loader := executed.1, flash := executed.2 }
  | .fetchMetadata => do
      let _ ← eventExecutionMetadata d.loader
      pure d

/-- A run, which ends at the first panic. -/
def run (d : Device F) (es : List Event) : Checked (Device F) := es.foldlM step d

end Device

/-- What an event is for the model: a capture serves the request it holds, and
metadata are only read. -/
def Event.served : Event → List OptiBridge.Event
  | .capture packet truncated execute =>
      (OptiBridge.parsePacket packet truncated).toList.map fun request => .request request execute
  | .executePending => [.executePending]
  | .fetchMetadata => []

end Raw

/-! ## no step panics -/

open Checked

namespace Device

variable {F : Type} [BpfFlash F]

/-- Drop the bounds of a device. -/
abbrev raw (self : Device F) : Raw.Device F where
  toDispatchState := self.toDispatchState.raw
  flash := self.flash

/-- A boot gives what the model's boot gives. -/
theorem raw_boot (statusQueue : StatusQueue) (mapBacking : MapBacking) (output : Output)
    (flash : F) :
    Raw.Device.boot statusQueue.raw mapBacking output flash =
      .ok (boot statusQueue mapBacking output flash).raw := by
  unfold Raw.Device.boot
  rw [raw_validateCommitted, ok_bind]
  rfl

/-- What the raw machine relies on. -/
def InBounds (d : Device F) : Prop := d.loader.Sane ∧ ∃ ds, LaidBy d.loader ds

omit [BpfFlash F] in
/-- A loader whose layouts are laid out by descriptors has at most eight. -/
theorem InBounds.committedMapCount {d : Device F} (h : d.InBounds) :
    d.loader.committedMapCount.toNat ≤ bpfMaxMaps := by
  obtain ⟨-, ds, hlaid⟩ := h
  exact hlaid.length ▸ hlaid.count

/-- The model stays in bounds: this is the invariant of the loader, from
`OptiBridge.LoaderInvariant` and `OptiBridge.Layouts`. -/
theorem InBounds.run {d : Device F} (h : d.InBounds) (es : List Event) : (d.run es).InBounds :=
  Machine.invariant_run (P := fun _ => True) (I := InBounds)
    (fun _ e _ hd => (kept_laid F).device_step hd e) h fun _ _ => trivial

/-- **Step.** From a state in bounds an event does to the raw machine what it
does to the model, a capture through the request it holds. -/
theorem raw_step {d : Device F} (h : d.InBounds) (e : Raw.Event) :
    d.raw.step e = .ok (d.run e.served).raw := by
  unfold Raw.Device.step
  cases e with
  | capture packet truncated execute =>
      simp only [Raw.Event.served]
      rw [raw_parsePacket, ok_bind]
      cases parsePacket packet truncated with
      | none => rfl
      | some request =>
          have hdispatch := raw_dispatchWithBpfAndExecutor (s := d.toDispatchState) request
            (recording execute) h.committedMapCount
          simp only [Option.map_some]
          rw [hdispatch, ok_bind]
          rfl
  | executePending =>
      simp only
      rw [raw_executePending h.1, ok_bind]
      rfl
  | fetchMetadata =>
      simp only
      rw [raw_eventExecutionMetadata h.committedMapCount, ok_bind]
      rfl

/-- **Run.** So does any list of events. -/
theorem raw_run {d : Device F} (h : d.InBounds) (es : List Raw.Event) :
    d.raw.run es = .ok (d.run (es.flatMap Raw.Event.served)).raw := by
  have hrun : es.foldlM Raw.Device.step d.raw =
      .ok (es.foldl (fun d e => d.run (Raw.Event.served e)) d).raw :=
    foldlM_ok (fun d e => d.run (Raw.Event.served e)) raw InBounds
      (fun _ _ h => h.run _) (fun _ e h => raw_step h e) h es
  rw [Raw.Device.run, hrun, run, Machine.run, List.foldl_flatMap]
  rfl

/-- **No panic.** Booted over any flash, whatever it holds and however its
operations go, and driven by any captures and main-loop calls, with any executor,
the device does what the model does: no index, slice or copy is out of bounds, no
arithmetic overflows, no cast loses value, `response` never meets an encoder error
and `map_layouts` never more than eight maps. -/
theorem no_panic (statusQueue : StatusQueue) (mapBacking : MapBacking) (output : Output)
    (flash : F) (es : List Raw.Event) :
    (do
      let d ← Raw.Device.boot statusQueue.raw mapBacking output flash
      d.run es) =
      .ok ((boot statusQueue mapBacking output flash).run (es.flatMap Raw.Event.served)).raw := by
  have hboot : (boot statusQueue mapBacking output flash).InBounds := (kept_laid F).validate flash
  rw [raw_boot, ok_bind]
  exact raw_run hboot es

end Device

end OptiBridge
