import OptiBridge.Maps

/-!
# OptiBridge.Effects

What a dispatch may change, read off its answer.  A request that is not answered
`STATUS_OK` changes nothing but the response buffer, except where a Start ran
its program; a request that is changes what its command is for.

The three parts of the state are described one by one:

* `LoaderEffect`, a Load that was accepted leaves its operation pending, and a
  Start whose program returned zero leaves the loader running;
* `QueueEffect`, a status message that was read is gone;
* `BackingEffect`, a Write changes a range of one map, and a program may
  change whatever the executor lets it.

`Effects` puts them together and adds what a refusal and a reset leave alone.
-/

namespace OptiBridge

open Bytes

/-! ## effects -/

/- Each effect carries the command and the status that go with it. -/

section effects

variable {σ : Type} {request : Request} {execute : Executor σ} {s : DispatchState σ}

/-- The loader after a dispatch. -/
inductive LoaderEffect (request : Request) (execute : Executor σ) (s : DispatchState σ) :
    BpfLoader → Prop where
  | kept : LoaderEffect request execute s s.loader
  | load {operation : LoadOperation} (hcommand : request.command = cmdLoadBpf)
      (hstatus : statusOf execute s request = some statusOk) (hpending : s.loader.pending = none) :
      LoaderEffect request execute s { s.loader with pending := some operation }
  | start {crc : UInt32} (hcommand : request.command = cmdStartBpf)
      (hstatus : statusOf execute s request = some statusOk)
      (hstate : s.loader.state = .committed crc) :
      LoaderEffect request execute s { s.loader with state := .running crc }

/-- The status queue after a dispatch. -/
inductive QueueEffect (request : Request) (execute : Executor σ) (s : DispatchState σ) :
    StatusQueue → Prop where
  | kept : QueueEffect request execute s s.statusQueue
  | readStatus (hcommand : request.command = cmdReadStatus)
      (hstatus : statusOf execute s request = some statusOk) :
      QueueEffect request execute s s.statusQueue.pop.2

/-- Two backings that differ at most in a range of a committed map. -/
def OnlyInMap (l : BpfLoader) (mapId offset len : Nat) (backing backing' : MapBacking) : Prop :=
  ∃ layout, l.mapLayouts[mapId]? = some layout ∧ mapId < l.committedMapCount.toNat ∧
    offset + len ≤ layout.len.toNat ∧ layout.offset.toNat + layout.len.toNat ≤ bpfMaxMapBytes ∧
    ∀ i (hi : i < bpfMaxMapBytes),
      ¬ (layout.offset.toNat + offset ≤ i ∧ i < layout.offset.toNat + offset + len) →
      backing'.get ⟨i, hi⟩ = backing.get ⟨i, hi⟩

/-- A Start that got as far as its program. -/
def ReachesExecutor (request : Request) (s : DispatchState σ) (metadata : BpfProgramMetadata) :
    Prop :=
  request.flags = 0 ∧ request.command = cmdStartBpf ∧ request.payloadLen = 0 ∧
    s.loader.executionMetadata = .ok metadata

/-- The backing after a dispatch. -/
inductive BackingEffect (request : Request) (execute : Executor σ) (s : DispatchState σ) :
    MapBacking → Prop where
  | kept : BackingEffect request execute s s.mapBacking
  | write {mapBacking : MapBacking} (hcommand : request.command = cmdWriteBpfMap)
      (hstatus : statusOf execute s request = some statusOk)
      (hrange : OnlyInMap s.loader (writeTarget request).1.toNat (writeTarget request).2.toNat
        (request.bytes.drop mapWriteLocationSize).length s.mapBacking mapBacking) :
      BackingEffect request execute s mapBacking
  | executor {metadata : BpfProgramMetadata} (hreached : ReachesExecutor request s metadata) :
      BackingEffect request execute s (execute metadata s.mapBacking s.captured).2.1

/-- All that a dispatch may do to the state besides its response. -/
structure Effects (request : Request) (execute : Executor σ) (s s' : DispatchState σ) : Prop where
  loader : LoaderEffect request execute s s'.loader
  statusQueue : QueueEffect request execute s s'.statusQueue
  mapBacking : BackingEffect request execute s s'.mapBacking
  /-- Any other answer: only the program of a Start may have written the maps. -/
  refused : statusOf execute s request ≠ some statusOk →
    s'.loader = s.loader ∧ s'.statusQueue = s.statusQueue ∧
      (s'.mapBacking = s.mapBacking ∨ ∃ metadata, ReachesExecutor request s metadata ∧
        s'.mapBacking = (execute metadata s.mapBacking s.captured).2.1)
  reset : request.command = cmdReset →
    s'.loader = s.loader ∧ s'.statusQueue = s.statusQueue ∧ s'.mapBacking = s.mapBacking

end effects

/-! ## the range of a Write -/

/- The copy into the backing touches the range that was accepted, and nothing
else. -/

section write

variable {l : BpfLoader} {ds : List Descriptor} {request : Request} {start : Nat}

/-- A copy into an accepted range stays inside it. -/
theorem onlyInMap_copySlice (hlaid : LaidBy l ds) (backing : MapBacking)
    (hrange : l.mapRange (writeTarget request).1 (writeTarget request).2
      (request.bytes.drop mapWriteLocationSize).length = .ok start) :
    OnlyInMap l (writeTarget request).1.toNat (writeTarget request).2.toNat
      (request.bytes.drop mapWriteLocationSize).length backing
      (copySlice backing start (request.bytes.drop mapWriteLocationSize)) := by
  have hlen : (request.bytes.drop mapWriteLocationSize).length < 2 ^ 16 := by
    have hle : request.payloadLen.toNat ≤ 16 := request.payloadLen_le
    rw [List.length_drop, Request.length_bytes]
    omega
  obtain ⟨layout, hlayout, hid, hfit, rfl, -⟩ := BpfLoader.mapRange_ok hlen hrange
  refine ⟨layout, hlayout, hid, hfit, ?_, fun i hi hout => ?_⟩
  · have hmap : (writeTarget request).1.toNat < ds.length := by rw [hlaid.length]; exact hid
    obtain ⟨hlaidOut, hoffset, hsize⟩ := hlaid.layout hmap
    rw [hlayout, Option.some.injEq] at hlaidOut
    rw [hlaidOut, hoffset, hsize]
    exact hlaid.size_le hmap
  · exact getElem_copySlice_of_not_mem _ _ _ hi hout

end write

/-! ## dispatch -/

/- Every arm of the dispatcher, for any executor. -/

section dispatch

variable {σ : Type} {request : Request} {execute : Executor σ} {s : DispatchState σ}

/-- A state that differs in nothing but its response buffer. -/
theorem Effects.of_eq {s' : DispatchState σ} (hloader : s'.loader = s.loader)
    (hqueue : s'.statusQueue = s.statusQueue) (hbacking : s'.mapBacking = s.mapBacking) :
    Effects request execute s s' where
  loader := hloader ▸ .kept
  statusQueue := hqueue ▸ .kept
  mapBacking := hbacking ▸ .kept
  refused := fun _ => ⟨hloader, hqueue, .inl hbacking⟩
  reset := fun _ => ⟨hloader, hqueue, hbacking⟩

/-- The response buffer does not matter. -/
theorem Effects.respond {s' : DispatchState σ} (h : Effects request execute s s')
    (status : UInt8) (payload : List UInt8) :
    Effects request execute s (s'.respond request status payload).2 := by
  obtain ⟨hloader, hqueue, hbacking, hrefused, hreset⟩ := h
  constructor
  · rwa [respond_loader]
  · rwa [respond_statusQueue]
  · rwa [respond_mapBacking]
  · rwa [respond_loader, respond_statusQueue, respond_mapBacking]
  · rwa [respond_loader, respond_statusQueue, respond_mapBacking]

/-- **Effects of a dispatch**, on committed maps that are laid out in the backing. -/
theorem effects_of_laid {ds : List Descriptor} (hlaid : LaidBy s.loader ds) :
    Effects request execute s (dispatchWithBpfAndExecutor request execute s).2 := by
  have hstatus : ∀ {s' : DispatchState σ} {status payload},
      dispatchWithBpfAndExecutor request execute s = s'.respond request status payload →
      payload.length ≤ maxPayload → statusOf execute s request = some status :=
    fun h hpayload => statusOf_respond h hpayload
  have hstep := dispatch_step request execute s
  generalize dispatchWithBpfAndExecutor request execute s = out at hstep hstatus ⊢
  have hother : ∀ {command}, request.command = command → command ≠ cmdReset →
      request.command ≠ cmdReset := fun h hne heq => hne (h.symm.trans heq)
  cases hstep with
  | reset => exact .of_eq rfl rfl rfl
  | answered => exact (Effects.of_eq rfl rfl rfl).respond ..
  -- the other ways change something, each of them for one command only
  | accepted _ hcommand hop =>
      have hok := hstatus rfl (Nat.zero_le _)
      refine Effects.respond ?_ ..
      exact
        { loader := .load hcommand hok (BpfLoader.loadOperation_ok hop).1
          statusQueue := .kept
          mapBacking := .kept
          refused := fun hnot => absurd hok hnot
          reset := fun h => absurd h (hother hcommand (by decide)) }
  | popped _ hcommand =>
      have hok := hstatus rfl s.statusQueue.length_pop
      refine Effects.respond ?_ ..
      exact
        { loader := .kept
          statusQueue := .readStatus hcommand hok
          mapBacking := .kept
          refused := fun hnot => absurd hok hnot
          reset := fun h => absurd h (hother hcommand (by decide)) }
  | wrote _ hcommand hrange =>
      have hok := hstatus rfl (Nat.zero_le _)
      refine Effects.respond ?_ ..
      exact
        { loader := .kept
          statusQueue := .kept
          mapBacking := .write hcommand hok (onlyInMap_copySlice hlaid _ hrange)
          refused := fun hnot => absurd hok hnot
          reset := fun h => absurd h (hother hcommand (by decide)) }
  | @ran metadata _ hflags hcommand hlen hmetadata =>
      have hreached : ReachesExecutor request s metadata := ⟨hflags, hcommand, hlen, hmetadata⟩
      refine Effects.respond ?_ ..
      exact
        { loader := .kept
          statusQueue := .kept
          mapBacking := .executor hreached
          refused := fun _ => ⟨rfl, rfl, .inr ⟨metadata, hreached, rfl⟩⟩
          reset := fun h => absurd h (hother hcommand (by decide)) }
  | @started metadata _ hflags hcommand hlen hmetadata hstate =>
      have hok := hstatus rfl (Nat.zero_le _)
      have hreached : ReachesExecutor request s metadata := ⟨hflags, hcommand, hlen, hmetadata⟩
      refine Effects.respond ?_ ..
      exact
        { loader := .start hcommand hok hstate
          statusQueue := .kept
          mapBacking := .executor hreached
          refused := fun hnot => absurd hok hnot
          reset := fun h => absurd h (hother hcommand (by decide)) }

/-- **Effects.** For the loader of any run from boot, over any flash, and any
queue, backing and executor: a dispatch changes only what a command that is
answered `STATUS_OK` may change. -/
theorem dispatch_effects {F : Type} [BpfFlash F] (statusQueue : StatusQueue)
    (mapBacking : MapBacking) (output : Output) (flash : F) (es : List Event)
    (request : Request) (execute : Executor σ) (s : DispatchState σ)
    (hloader : s.loader = ((Device.boot statusQueue mapBacking output flash).run es).loader) :
    Effects request execute s (dispatchWithBpfAndExecutor request execute s).2 := by
  have hkept := (kept_laid F).device_run statusQueue mapBacking output flash es
  rw [← hloader] at hkept
  obtain ⟨-, ds, hlaid⟩ := hkept
  exact effects_of_laid hlaid

end dispatch

open Device in
/-- A Write to the array map of a committed image. -/
theorem dispatch_effects_array :
    let s := (erased.run (transfer 1 arrayImage)).toDispatchState
    s.loader.state = .committed (crc32IsoHdlc arrayImage) ∧
      Effects (writeRequest 0 4 [7]) (recording (returning 1)) s
        (dispatchWithBpfAndExecutor (writeRequest 0 4 [7]) (recording (returning 1)) s).2 := by
  intro s
  have hloader : s.loader = ((boot .ready (Vector.replicate _ 0) (Vector.replicate _ 0)
      (Nor.Chip.fresh (fun _ => 0xff) fun _ => .done)).run (transfer 1 arrayImage)).loader := by
    simp only [s, erased]
  exact ⟨by decide +kernel, dispatch_effects _ _ _ _ _ _ _ _ hloader⟩

end OptiBridge
