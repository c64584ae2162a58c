import OptiBridge.FirmwareSteps
import OptiBridge.HelperAccess
import OptiBridge.Metadata

/-!
# OptiBridge.Invocations

`execute_loaded_bpf` over pointers: the program, the map regions and the helper
table it hands to the interpreter, and the RAM all of them work on.  The
interpreter may access what its region checks admit, in any order and as often
as it likes; what comes of it is an invocation of the firmware model whose
stores each stay within one map of the image.

Whether an access is admitted is a matter of the RAM at the moment it is made,
which earlier accesses have changed; so the process is a machine of its own
(`Process`), and its accesses are a run.  The stores a program makes into its
stack are not modelled: they touch no map, and the interpreter keeps the stack.

* `run_activities`, accesses as activities;
* `activities_confined`, each of them within one map;
* `executeLoadedBpf_refines`, the call of the source refines the model's
  invocation;
* `invocation_refines`, for any admitted accesses, in any reachable state.
-/

namespace OptiBridge

open Bytes

/-! ## what the interpreter is given -/

/- The call of `execute_loaded_bpf`, argument by argument. -/

/-- A map as the interpreter knows it. -/
structure MapRegion where
  relocatedPtr : UInt64
  keySize : UInt32
  valueSize : UInt32
  dataStart : UInt64
  dataEnd : UInt64
deriving DecidableEq

/-- The helper functions the firmware registers. -/
inductive Helper where
  | bpfMapLookupElem
  | bpfMapUpdateElem
  | bpfScheduleTimer
  | bpfCancelTimer
deriving DecidableEq

/-- What a helper gives back: a pointer to a map value or null, or a number. -/
inductive HelperReturn where
  | mapValueOrNull (mapArg : Nat)
  | scalar
deriving DecidableEq

/-- A registered helper: its number, its function and what it returns. -/
structure HelperDescriptor where
  id : UInt32
  func : Helper
  ret : HelperReturn
deriving DecidableEq

/-- Where the program's flash begins; the address of the image is reckoned from
there. -/
abbrev bpfExecutionFlashBase : Nat := 0
/-- The number of the lookup helper. -/
abbrev mapLookupHelperId : UInt32 := 10
/-- The number of the update helper. -/
abbrev mapUpdateHelperId : UInt32 := 11

/-- The helper table of every execution. -/
def helpers : List HelperDescriptor :=
  [⟨mapLookupHelperId, .bpfMapLookupElem, .mapValueOrNull 1⟩,
    ⟨mapUpdateHelperId, .bpfMapUpdateElem, .scalar⟩,
    ⟨12, .bpfScheduleTimer, .scalar⟩,
    ⟨13, .bpfCancelTimer, .scalar⟩]

/-- The arguments of `execute_program`. -/
structure ProgramCall where
  program : List UInt8
  context : List UInt8
  helpers : List HelperDescriptor
  maps : List MapRegion
  readOnlyContext : Bool

/-- `maps[..map_count]`, each where its descriptor puts it in the backing. -/
def mapRegions (metadata : BpfProgramMetadata) (mapBacking : BackingAddress) : List MapRegion :=
  ((List.finRange bpfMaxMaps).take metadata.mapCount.toNat).map fun index =>
    let descriptor := getElem metadata.maps index index.isLt
    let start := pointerAdd mapBacking.address descriptor.backingOffset.toNat
    { relocatedPtr := start
      keySize := descriptor.keySize
      valueSize := descriptor.valueSize
      dataStart := start
      dataEnd := start + UInt64.ofNat descriptor.backingLen.toNat }

/-- The bytecode where flash is mapped for execution, and the rest. -/
def programCall (metadata : BpfProgramMetadata) (mapBacking : BackingAddress)
    (flash : Nor.Contents) (context : List UInt8) (readOnlyContext : Bool) : ProgramCall where
  program := Nor.bytesAt flash (bpfExecutionFlashBase + bpfFlashOffset.toNat + bpfHeaderSize)
    metadata.bytecodeLen.toNat
  context := context
  helpers := helpers
  maps := mapRegions metadata mapBacking
  readOnlyContext := readOnlyContext

/-! ## what it does -/

/- The interpreter itself is not part of the source.  All that is assumed of it
is that it accesses what it was told it may, which is what its own checks are
for. -/

/-- One access of the interpreter, with any operands. -/
inductive Access where
  | store (pointer : UInt64) (bytes : List UInt8)
  | call (id : UInt32) (r1 r2 r3 r4 r5 : UInt64)
  | wait (ticks : Nat)

/-- What an execution works on. -/
structure Process where
  ram : Ram
  runtime : Runtime

namespace Process

/-- The helper state, while an execution has set it. -/
def activeMapHelpers (p : Process) (mapBacking : BackingAddress) : Option ActiveMapHelpers :=
  p.runtime.activeMapHelpers.map fun metadata => ⟨mapBacking, metadata⟩

/-- A helper, called with five words: what it returns and what it leaves. -/
def callHelper (p : Process) (mapBacking : BackingAddress) (func : Helper)
    (r1 r2 r3 r4 r5 : UInt64) : UInt64 × Process :=
  match func with
  | .bpfMapLookupElem =>
      (bpfMapLookupElem (p.activeMapHelpers mapBacking) p.ram r1 r2 r3 r4 r5, p)
  | .bpfMapUpdateElem =>
      let updated := bpfMapUpdateElem (p.activeMapHelpers mapBacking) p.ram r1 r2 r3 r4 r5
      (updated.1, { p with ram := updated.2 })
  | .bpfScheduleTimer =>
      (if 0xffffffff < r1 then helperError else 0,
        { p with runtime := p.runtime.perform (.schedule r1 r2) })
  | .bpfCancelTimer => (0, { p with runtime := p.runtime.perform .cancel })

/-- What one access does: a call of a helper, or a store. -/
def access (call : ProgramCall) (mapBacking : BackingAddress) (p : Process) : Access → Process
  | .store pointer bytes => { p with ram := copySlice p.ram (ramIndex pointer) bytes }
  | .call id r1 r2 r3 r4 r5 =>
      match call.helpers.find? fun helper => helper.id = id with
      | none => p
      | some helper => (p.callHelper mapBacking helper.func r1 r2 r3 r4 r5).2
  | .wait ticks => { p with runtime := p.runtime.perform (.wait ticks) }

/-- `execute_loaded_bpf`, with the accesses and the result of the interpreter. -/
def executeLoadedBpf (metadata : BpfProgramMetadata) (mapBacking : BackingAddress)
    (flash : Nor.Contents) (context : List UInt8) (readOnlyContext : Bool)
    (accesses : List Access) (result : Except Unit UInt64) (p : Process) :
    Except UInt8 UInt64 × Process :=
  let call := programCall metadata mapBacking flash context readOnlyContext
  let p := { p with runtime := { p.runtime with activeMapHelpers := some metadata } }
  let p := Machine.run (access call mapBacking) p accesses
  let p := { p with runtime := { p.runtime with activeMapHelpers := none } }
  match result with
  | .ok value => (.ok value, p)
  | .error _ => (.error statusBadCommand, p)

end Process

/-- What the interpreter's checks admit: a store within one of the regions it
was given, or within memory of its own, which the linker keeps apart from the
backing; and calls of registered helpers. -/
inductive Access.Admitted (call : ProgramCall) (mapBacking : BackingAddress) : Access → Prop where
  | region {pointer : UInt64} {bytes : List UInt8} {region : MapRegion}
      (hregion : region ∈ call.maps) (hlo : region.dataStart.toNat ≤ pointer.toNat)
      (hhi : pointer.toNat + bytes.length ≤ region.dataEnd.toNat) :
      Admitted call mapBacking (.store pointer bytes)
  | own {pointer : UInt64} {bytes : List UInt8} (hram : InRam pointer bytes.length)
      (happart : pointer.toNat + bytes.length ≤ mapBacking.address.toNat ∨
        mapBacking.address.toNat + bpfMaxMapBytes ≤ pointer.toNat) :
      Admitted call mapBacking (.store pointer bytes)
  | call {id : UInt32} {r1 r2 r3 r4 r5 : UInt64}
      (hregistered : ∃ helper ∈ call.helpers, helper.id = id) :
      Admitted call mapBacking (.call id r1 r2 r3 r4 r5)
  | wait {ticks : Nat} : Admitted call mapBacking (.wait ticks)

/-! ## the activities of an execution -/

/- The same accesses as the firmware model counts them.  `run_activities` is the
simulation: both leave the same maps and the same timer. -/

namespace Process

/-- What a helper call comes to. -/
def helperActivity (p : Process) (mapBacking : BackingAddress) (func : Helper)
    (r1 r2 r3 r4 r5 : UInt64) : Activity :=
  match func with
  | .bpfMapLookupElem => .wait 0
  | .bpfMapUpdateElem =>
      .store (mapBacking.slice
        (bpfMapUpdateElem (p.activeMapHelpers mapBacking) p.ram r1 r2 r3 r4 r5).2)
  | .bpfScheduleTimer => .schedule r1 r2
  | .bpfCancelTimer => .cancel

/-- What an access comes to, with the pointers forgotten. -/
def activity (call : ProgramCall) (mapBacking : BackingAddress) (p : Process) : Access → Activity
  | .store pointer bytes =>
      .store (mapBacking.slice (copySlice p.ram (ramIndex pointer) bytes))
  | .call id r1 r2 r3 r4 r5 =>
      match call.helpers.find? fun helper => helper.id = id with
      | none => .wait 0
      | some helper => p.helperActivity mapBacking helper.func r1 r2 r3 r4 r5
  | .wait ticks => .wait ticks

variable (call : ProgramCall) (mapBacking : BackingAddress)

/-- A helper call is its activity: it does the same to the maps and to the
timer. -/
theorem helper_activity (p : Process) (func : Helper) (r1 r2 r3 r4 r5 : UInt64) :
    mapBacking.slice (p.callHelper mapBacking func r1 r2 r3 r4 r5).2.ram =
        (p.helperActivity mapBacking func r1 r2 r3 r4 r5).stored (mapBacking.slice p.ram) ∧
      (p.callHelper mapBacking func r1 r2 r3 r4 r5).2.runtime =
        p.runtime.perform (p.helperActivity mapBacking func r1 r2 r3 r4 r5) := by
  cases func <;>
    simp only [callHelper, helperActivity, Activity.stored, Runtime.perform, Nat.add_zero, and_self]

/-- So is every access. -/
theorem access_activity (p : Process) (a : Access) :
    mapBacking.slice (p.access call mapBacking a).ram =
        (p.activity call mapBacking a).stored (mapBacking.slice p.ram) ∧
      (p.access call mapBacking a).runtime = p.runtime.perform (p.activity call mapBacking a) := by
  cases a with
  | store =>
      constructor
      · rw [activity, access, Activity.stored]
      · rw [activity, access, Runtime.perform]
  | wait =>
      constructor
      · rw [activity, access, Activity.stored]
      · rw [activity, access]
  | call id r1 r2 r3 r4 r5 =>
      simp only [access, activity]
      cases call.helpers.find? fun helper => helper.id = id with
      | none => simp only [Activity.stored, Runtime.perform, Nat.add_zero, and_self]
      | some helper => exact p.helper_activity mapBacking helper.func r1 r2 r3 r4 r5

/-- The activities of a list of accesses. -/
def activities (p : Process) (accesses : List Access) : List Activity :=
  Machine.trace (access call mapBacking) (fun p a => [p.activity call mapBacking a]) p accesses

/-- **Simulation.** And so is every run of accesses. -/
theorem run_activities (p : Process) (accesses : List Access) :
    mapBacking.slice (Machine.run (access call mapBacking) p accesses).ram =
        (p.activities call mapBacking accesses).foldl Activity.stored (mapBacking.slice p.ram) ∧
      (Machine.run (access call mapBacking) p accesses).runtime =
        (p.activities call mapBacking accesses).foldl Runtime.perform p.runtime := by
  induction accesses generalizing p with
  | nil => exact ⟨rfl, rfl⟩
  | cons a accesses ih =>
      obtain ⟨hslice, hruntime⟩ := p.access_activity call mapBacking a
      obtain ⟨hslices, hruntimes⟩ := ih (p.access call mapBacking a)
      simp only [activities, Machine.run_cons, Machine.trace_cons, List.singleton_append,
        List.foldl_cons] at hslices hruntimes ⊢
      rw [hslices, hruntimes, hslice, hruntime]
      exact ⟨rfl, rfl⟩

end Process

/-! ## confinement -/

/- A store that a region check admits, and an update that a helper carries out,
lie within one map. -/

/-- The backing is left as it is, or copied into within one map. -/
def BpfLoader.StoresWithin (l : BpfLoader) (before after : MapBacking) : Prop :=
  after = before ∨ ∃ mapId offset bytes, l.InMap mapId offset bytes.length ∧
    after = copySlice before (Regions.start l.mapLengths mapId + offset) bytes

/-- Every store of an invocation stays within one map. -/
def BpfLoader.Confines (l : BpfLoader) (mapBacking : MapBacking) (activities : List Activity) :
    Prop :=
  Machine.Along Activity.stored (fun before a => l.StoresWithin before (a.stored before))
    mapBacking activities

namespace BackingAddress

variable (mapBacking : BackingAddress)

/-- A pointer into the backing is an offset. -/
theorem eq_pointerAdd {pointer : UInt64} {offset : Nat} (h : offset ≤ bpfMaxMapBytes)
    (hpointer : pointer.toNat = mapBacking.address.toNat + offset) :
    pointer = pointerAdd mapBacking.address offset :=
  UInt64.toNat_inj.mp (hpointer.trans (mapBacking.toNat_pointerAdd h).symm)

/-- What is stored apart from the backing leaves it alone. -/
theorem slice_copySlice_apart (ram : Ram) {pointer : UInt64} {bytes : List UInt8}
    (hram : InRam pointer bytes.length)
    (happart : pointer.toNat + bytes.length ≤ mapBacking.address.toNat ∨
      mapBacking.address.toNat + bpfMaxMapBytes ≤ pointer.toNat) :
    mapBacking.slice (copySlice ram (ramIndex pointer) bytes) = mapBacking.slice ram := by
  have hge := mapBacking.start_le
  have hstart := hram.1
  apply Vector.ext
  intro i hi
  have hindex := mapBacking.index_le
  have houtside : ¬ (ramIndex pointer ≤ ramIndex mapBacking.address + i ∧
      ramIndex mapBacking.address + i < ramIndex pointer + bytes.length) := by
    unfold ramIndex
    omega
  simp only [slice, Vector.getElem_ofFn]
  exact getElem_copySlice_of_not_mem _ _ _ (by omega) houtside

end BackingAddress

section confined

variable {l : BpfLoader} {ds : List Descriptor} {mapBacking : BackingAddress}

/-- The region of a map that begins `first` bytes into the backing. -/
structure IsRegion (mapBacking : BackingAddress) (first : Nat) (d : Descriptor)
    (region : MapRegion) : Prop where
  relocated : region.relocatedPtr = region.dataStart
  keySize : region.keySize = d.keySize
  valueSize : region.valueSize = d.valueSize
  start : region.dataStart.toNat = mapBacking.address.toNat + first
  stop : region.dataEnd.toNat = mapBacking.address.toNat + first + d.size

/-- The regions the interpreter is given are the declared maps, in order. -/
theorem getElem?_mapRegions (hlaid : LaidBy l ds) {i : Nat} {region : MapRegion}
    (h : (mapRegions l.committedMetadata mapBacking)[i]? = some region) :
    ∃ d, ds[i]? = some d ∧ Regions.start l.mapLengths i + d.size ≤ bpfMaxMapBytes ∧
      IsRegion mapBacking (Regions.start l.mapLengths i) d region := by
  have hhelpers : HelpersOf ⟨mapBacking, l.committedMetadata⟩ l ds := ⟨rfl, hlaid⟩
  rw [mapRegions, List.getElem?_map, Option.map_eq_some_iff] at h
  obtain ⟨index, hindex, rfl⟩ := h
  have hval : index.val = i := by
    obtain ⟨hi, rfl⟩ := List.getElem?_eq_some_iff.mp hindex
    rw [List.getElem_take, List.getElem_finRange]
    rfl
  subst hval
  obtain ⟨d, hd⟩ := hhelpers.mem_searched.mp (List.mem_of_getElem? hindex)
  have hmap := hhelpers.mapOf hd
  have hstart := hhelpers.toNat_mapAddress hd
  have hle := mapBacking.le_end
  have hfits := hmap.fits
  have hend : bpfRamEnd.toNat = 0x20002800 := toNat_bpfRamEnd
  have hlen : (UInt64.ofNat d.size).toNat = d.size :=
    UInt64.toNat_ofNat_of_lt' (by show _ < 2 ^ 64; omega)
  have hsize : (l.committedMetadata.maps[index]).backingLen.toNat = d.size := hmap.len
  have haddress : (pointerAdd mapBacking.address
      (l.committedMetadata.maps[index]).backingOffset.toNat).toNat =
      mapBacking.address.toNat + Regions.start l.mapLengths index.val := hstart
  refine ⟨d, hd, hfits, rfl, ?_, hmap.valueSize, hstart, ?_⟩
  · exact hmap.keySize.trans hmap.valid.2.1.symm
  · show (pointerAdd mapBacking.address (l.committedMetadata.maps[index]).backingOffset.toNat +
      UInt64.ofNat (l.committedMetadata.maps[index]).backingLen.toNat).toNat = _
    rw [UInt64.toNat_add, hsize, hlen, haddress]
    exact Nat.mod_eq_of_lt (by omega)

/-- An entry of a declared map lies in it. -/
theorem inMap_of_declared (hlaid : LaidBy l ds) {i : Nat} {d : Descriptor}
    (hd : ds[i]? = some d) {offset len : Nat} (h : offset + len ≤ d.size) :
    l.InMap i offset len := by
  refine ⟨d.size, ?_, h⟩
  rw [hlaid.mapLengths_eq, List.getElem?_map, hd]
  rfl

namespace Process

/-- A store the interpreter admits stays within one map. -/
theorem store_within (hlaid : LaidBy l ds) (p : Process) {flash : Nor.Contents}
    {context : List UInt8} {readOnlyContext : Bool} {pointer : UInt64} {bytes : List UInt8}
    (h : Access.Admitted (programCall l.committedMetadata mapBacking flash context readOnlyContext)
      mapBacking (.store pointer bytes)) :
    l.StoresWithin (mapBacking.slice p.ram)
      (mapBacking.slice (copySlice p.ram (ramIndex pointer) bytes)) := by
  cases h with
  | own hram happart => exact .inl (mapBacking.slice_copySlice_apart p.ram hram happart)
  | region hregion hlo hhi =>
      obtain ⟨i, hi⟩ := List.mem_iff_getElem?.mp hregion
      obtain ⟨d, hd, hfits, -, -, -, hstart, hend⟩ := getElem?_mapRegions hlaid hi
      obtain ⟨offset, hoffset⟩ := Nat.exists_eq_add_of_le hlo
      have hpointer : pointer =
          pointerAdd mapBacking.address (Regions.start l.mapLengths i + offset) :=
        mapBacking.eq_pointerAdd (by omega) (by omega)
      refine .inr ⟨i, offset, bytes, inMap_of_declared hlaid hd (by omega), ?_⟩
      rw [hpointer]
      exact mapBacking.slice_copySlice p.ram bytes (by omega)

/-- An update writes one entry, or nothing. -/
theorem update_within (hlaid : LaidBy l ds) (p : Process) (map key value flags unused : UInt64)
    (hactive : p.runtime.activeMapHelpers = some l.committedMetadata) :
    l.StoresWithin (mapBacking.slice p.ram) (mapBacking.slice
      (bpfMapUpdateElem (p.activeMapHelpers mapBacking) p.ram map key value flags unused).2) := by
  have hhelpers : HelpersOf ⟨mapBacking, l.committedMetadata⟩ l ds := ⟨rfl, hlaid⟩
  have hstate : p.activeMapHelpers mapBacking = some ⟨mapBacking, l.committedMetadata⟩ := by
    rw [activeMapHelpers, hactive]
    rfl
  rw [hstate]
  by_cases hok : (bpfMapUpdateElem (some ⟨mapBacking, l.committedMetadata⟩) p.ram map key value
      flags unused).1 = 0
  · obtain ⟨i, d, hselects, hvalue, hflags⟩ := (hhelpers.update_ok unused).mp hok
    have hlength := length_bytesAt p.ram hvalue
    have hentry := (Descriptor.entry_le_size_iff (hhelpers.mapOf hselects.declared).valid).mpr
      hselects.entry
    refine .inr ⟨i.val, _, _, inMap_of_declared hlaid hselects.declared ?_,
      hselects.slice_update hhelpers hvalue hflags unused⟩
    rw [hlength]
    exact hentry
  · left
    rw [hhelpers.update_error unused hok]

/-- **Confined access.** -/
theorem access_within (hlaid : LaidBy l ds) (p : Process) {flash : Nor.Contents}
    {context : List UInt8} {readOnlyContext : Bool} {a : Access}
    (hactive : p.runtime.activeMapHelpers = some l.committedMetadata)
    (h : a.Admitted (programCall l.committedMetadata mapBacking flash context readOnlyContext)
      mapBacking) :
    l.StoresWithin (mapBacking.slice p.ram)
      ((p.activity (programCall l.committedMetadata mapBacking flash context readOnlyContext)
        mapBacking a).stored (mapBacking.slice p.ram)) := by
  cases a with
  | store pointer bytes => exact store_within hlaid p h
  | wait => exact .inl rfl
  | call id r1 r2 r3 r4 r5 =>
      simp only [activity]
      cases List.find? _ _ with
      | none => exact .inl rfl
      | some helper =>
          simp only [helperActivity]
          cases helper.func with
          | bpfMapUpdateElem => exact update_within hlaid p r1 r2 r3 r4 r5 hactive
          | bpfMapLookupElem | bpfScheduleTimer | bpfCancelTimer => exact .inl rfl

/-- No access changes whose invocation this is. -/
theorem activeMapHelpers_access (call : ProgramCall) (p : Process) (a : Access) :
    (p.access call mapBacking a).runtime.activeMapHelpers = p.runtime.activeMapHelpers := by
  obtain ⟨-, hruntime⟩ := p.access_activity call mapBacking a
  rw [hruntime]
  cases p.activity call mapBacking a <;> rfl

/-- **Confined run.** -/
theorem activities_confined (hlaid : LaidBy l ds) (p : Process) {flash : Nor.Contents}
    {context : List UInt8} {readOnlyContext : Bool} {accesses : List Access}
    (hactive : p.runtime.activeMapHelpers = some l.committedMetadata)
    (h : ∀ a ∈ accesses, a.Admitted
      (programCall l.committedMetadata mapBacking flash context readOnlyContext) mapBacking) :
    l.Confines (mapBacking.slice p.ram) (p.activities
      (programCall l.committedMetadata mapBacking flash context readOnlyContext) mapBacking
      accesses) := by
  induction accesses generalizing p with
  | nil => trivial
  | cons a accesses ih =>
      rw [List.forall_mem_cons] at h
      have hhere := access_within hlaid p hactive h.1
      generalize programCall l.committedMetadata mapBacking flash context readOnlyContext = call
        at *
      have hrest := ih (p.access call mapBacking a)
        ((activeMapHelpers_access call p a).trans hactive) h.2
      rw [(p.access_activity call mapBacking a).1] at hrest
      exact ⟨hhere, hrest⟩

/-- An execution whose accesses are admitted is an invocation whose stores are
confined. -/
theorem executeLoadedBpf_refines (hlaid : LaidBy l ds) (p : Process) {flash : Nor.Contents}
    {context : List UInt8} {readOnlyContext : Bool} {accesses : List Access}
    (h : ∀ a ∈ accesses, a.Admitted
      (programCall l.committedMetadata mapBacking flash context readOnlyContext) mapBacking)
    (result : Except Unit UInt64) :
    let executed := p.executeLoadedBpf l.committedMetadata mapBacking flash context
      readOnlyContext accesses result
    ∃ activities,
      OptiBridge.executeLoadedBpf l.committedMetadata ⟨activities, result⟩
          (mapBacking.slice p.ram) p.runtime =
          (executed.1, mapBacking.slice executed.2.ram, executed.2.runtime) ∧
        l.Confines (mapBacking.slice p.ram) activities := by
  have hconfined := activities_confined hlaid
    { p with runtime := { p.runtime with activeMapHelpers := some l.committedMetadata } } rfl h
  refine ⟨_, ?_, hconfined⟩
  obtain ⟨hslice, hruntime⟩ := run_activities
    (programCall l.committedMetadata mapBacking flash context readOnlyContext) mapBacking
    { p with runtime := { p.runtime with activeMapHelpers := some l.committedMetadata } } accesses
  simp only [OptiBridge.executeLoadedBpf, duringLoadedBpf, executeLoadedBpf]
  cases result <;> simp only [hslice, hruntime]

end Process

end confined

/-- **Invocations refine.** At any moment of any run, for the metadata a Start or
a timer event would run: whatever accesses the interpreter's checks admit and
whatever it returns, `execute_loaded_bpf` over RAM is an invocation of the
firmware model, with the same result, runtime and backing, and each of its
stores copies into one map of the image at most. -/
theorem Firmware.invocation_refines {F : Type} [BpfFlash F] (flash : F) (now : Nat)
    (history : History) (es : List FirmwareEvent) {metadata : BpfProgramMetadata}
    (hmetadata : ((boot flash now history).run es).loader.executionMetadata = .ok metadata ∨
      ((boot flash now history).run es).loader.eventExecutionMetadata = .ok metadata)
    (mapBacking : BackingAddress) (contents : Nor.Contents) (context : List UInt8)
    (readOnlyContext : Bool) {accesses : List Access}
    (hadmitted : ∀ a ∈ accesses,
      a.Admitted (programCall metadata mapBacking contents context readOnlyContext) mapBacking)
    (result : Except Unit UInt64) (p : Process) :
    let executed :=
      p.executeLoadedBpf metadata mapBacking contents context readOnlyContext accesses result
    ∃ activities,
      executeLoadedBpf metadata ⟨activities, result⟩ (mapBacking.slice p.ram) p.runtime =
          (executed.1, mapBacking.slice executed.2.ram, executed.2.runtime) ∧
        ((boot flash now history).run es).loader.Confines (mapBacking.slice p.ram)
          activities := by
  obtain ⟨rfl, -⟩ := BpfLoader.metadata_ok hmetadata
  obtain ⟨-, ds, hlaid⟩ := (kept_laid F).firmware_run flash now history es
  exact p.executeLoadedBpf_refines hlaid hadmitted result

/-- The address taken for the examples is within RAM. -/
theorem start_le_backing : bpfRamStart.toNat ≤ (0x20000100 : UInt64).toNat := by
  decide

/-- So is the end of a backing there. -/
theorem backing_le_end : (0x20000100 : UInt64).toNat + bpfMaxMapBytes ≤ bpfRamEnd.toNat := by
  decide

/-- The helpers of `timerProgram`. -/
def committedHelpers : ActiveMapHelpers :=
  ⟨⟨0x20000100, start_le_backing, backing_le_end⟩,
    (Firmware.boot Firmware.committedFlash 0 []).loader.committedMetadata⟩

/-- RAM with a request to cancel once in the array, before anything has run. -/
def requestedProcess : Process :=
  ⟨copySlice (Vector.replicate _ 0) 0x100 (toLe 4 1),
    (Firmware.boot Firmware.committedFlash 0 []).captured⟩

/-- What `timerProgram` accesses for it: the request is looked up and copied into
the next value, the timer is cancelled, and the value after that is updated from
the stack. -/
def cancellingAccesses : List Access :=
  [.store 0x20002000 (toLe 4 0), .call 10 0x20000100 0x20002000 0 0 0,
    .store 0x20000104 (toLe 4 1), .call 13 0 0 0 0 0, .store 0x20001ffc (toLe 4 1),
    .store 0x20002000 (toLe 4 2), .call 11 0x20000100 0x20002000 0x20001ffc 0 0]

set_option maxRecDepth 4000 in
/-- The regions and the registered helpers admit all of it. -/
theorem cancellingAccesses_admitted :
    ∀ a ∈ cancellingAccesses, a.Admitted (programCall committedHelpers.metadata
      committedHelpers.backing Firmware.committedFlash.contents [] false)
        committedHelpers.backing := by
  have hregion : ⟨0x20000100, 4, 4, 0x20000100, 0x2000010c⟩ ∈
      mapRegions committedHelpers.metadata committedHelpers.backing := by decide +kernel
  simp only [cancellingAccesses, List.forall_mem_cons]
  refine ⟨.own (by decide) (by decide), .call ?_, .region hregion (by decide) (by decide),
    .call ?_, .own (by decide) (by decide), .own (by decide) (by decide), .call ?_, by simp⟩
  · exact ⟨⟨mapLookupHelperId, .bpfMapLookupElem, .mapValueOrNull 1⟩, by decide, rfl⟩
  · exact ⟨⟨13, .bpfCancelTimer, .scalar⟩, by decide, rfl⟩
  · exact ⟨⟨mapUpdateHelperId, .bpfMapUpdateElem, .scalar⟩, by decide, rfl⟩

/-- A program over an array, with a region store, an update and a cancellation. -/
theorem Firmware.invocation_refines_array :
    let executed := requestedProcess.executeLoadedBpf committedHelpers.metadata
      committedHelpers.backing committedFlash.contents [] false cancellingAccesses (.ok 1)
    executed.2.runtime.timer.generation = 1 ∧ ∃ activities,
      executeLoadedBpf committedHelpers.metadata ⟨activities, .ok 1⟩
          (committedHelpers.backing.slice requestedProcess.ram) requestedProcess.runtime =
          (executed.1, committedHelpers.backing.slice executed.2.ram, executed.2.runtime) ∧
        (boot committedFlash 0 []).loader.Confines
          (committedHelpers.backing.slice requestedProcess.ram) activities := by
  have hmetadata : ((boot committedFlash 0 []).run []).loader.executionMetadata =
      .ok committedHelpers.metadata := start_committedFlash
  have hcancelled : (requestedProcess.executeLoadedBpf committedHelpers.metadata
      committedHelpers.backing committedFlash.contents [] false cancellingAccesses
        (.ok 1)).2.runtime.timer.generation = 1 := by decide +kernel
  exact ⟨hcancelled, invocation_refines committedFlash 0 [] [] (.inl hmetadata)
    committedHelpers.backing committedFlash.contents [] false cancellingAccesses_admitted (.ok 1)
    requestedProcess⟩

end OptiBridge
