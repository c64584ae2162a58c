import OptiBridge.Execution
import OptiBridge.FreshMaps
import OptiBridge.Invocations
import OptiBridge.Reboots

/-!
# OptiBridge.ImageExecution

What runs is what was committed.  The bytecode and the regions an execution is
given are those of the image whose CRC the host is told, flash keeps them while
it lasts, and no execution reaches a byte of the backing that no image has
claimed.

An execution is known by the call of `execute_program` it makes
(`OptiBridge.Invocations`): the bytecode, the map regions, the helpers.
`RunsImage` says that these are an image's, and `executes_committed` that they
are the committed image's in every run: when a Start is about to run it, when
the main loop is about to, and for as long as either runs.

The second half is the other side of the same coin: what no map of the image
covers is not reached, so it stays zero from boot on.
-/

namespace OptiBridge

open Nor

/-! ## the image -/

/- From the invariant of `OptiBridge.Commit`, mirrored by the firmware. -/

/-- An execution of `metadata` over flash that holds `c` is one of the committed
image with this CRC: its program is the front of the bytes the CRC covers, and
its regions are the maps the image declares, side by side in the backing. -/
structure RunsImage (c : Contents) (metadata : BpfProgramMetadata) (crc : UInt32)
    (mapBacking : BackingAddress) : Prop where
  image : CommittedImage c metadata.bytecodeLen metadata.mapCount crc
  program : ∀ context readOnlyContext,
    (programCall metadata mapBacking c context readOnlyContext).program =
      (imageAt c metadata.bytecodeLen metadata.mapCount).take metadata.bytecodeLen.toNat
  count : (mapRegions metadata mapBacking).length = metadata.mapCount.toNat
  regions : ∀ i region, (mapRegions metadata mapBacking)[i]? = some region →
    ∃ d, (descriptorsAt c metadata.bytecodeLen metadata.mapCount)[i]? = some d ∧
      IsRegion mapBacking
        (totalSize ((descriptorsAt c metadata.bytecodeLen metadata.mapCount).take i)) d region
  fits : totalSize (descriptorsAt c metadata.bytecodeLen metadata.mapCount) ≤ bpfMaxMapBytes

/-- An adopted image lays out its descriptors. -/
theorem Adopted.laid {l : BpfLoader} {c : Contents} {crc : UInt32} (h : Adopted l c crc) :
    LaidBy l (descriptorsAt c l.bytecodeLen l.mapCount) where
  valid := h.image.maps
  length := by rw [h.count, descriptorsAt, length_descriptorsOf]
  count := by rw [descriptorsAt, length_descriptorsOf]; exact h.image.bounds.maps
  layouts := h.layouts

/-- The metadata of an adopted image run that image. -/
theorem Adopted.runsImage {l : BpfLoader} {c : Contents} {crc : UInt32} (h : Adopted l c crc)
    (mapBacking : BackingAddress) : RunsImage c l.committedMetadata crc mapBacking := by
  have hcount : l.committedMetadata.mapCount = l.mapCount := h.count
  have hmaps := h.image.bounds.maps
  refine ⟨hcount ▸ h.image, fun context readOnlyContext => ?_, ?_, fun i region hregion => ?_, ?_⟩
  · have hslice : ((imageAt c l.bytecodeLen l.committedMetadata.mapCount).drop 0).take
        l.bytecodeLen.toNat = Nor.bytesAt c (imageAddress + 0) l.bytecodeLen.toNat :=
      slice_bytesAt c imageAddress (by omega)
    exact hslice.symm
  · rw [mapRegions, List.length_map, List.length_take, List.length_finRange, hcount]
    exact Nat.min_eq_left hmaps
  · obtain ⟨d, hd, -, hisRegion⟩ := getElem?_mapRegions h.laid hregion
    rw [h.laid.start_eq] at hisRegion
    rw [hcount]
    exact ⟨d, hd, hisRegion⟩
  · rw [hcount]
    exact h.image.maps.2

namespace Firmware

/-- The program a loader has is the committed image flash holds. -/
theorem Mirrored.runsImage {loader : BpfLoader} {flash : Chip} (h : Mirrored loader flash)
    {metadata : BpfProgramMetadata} (hmetadata : loader.eventExecutionMetadata = .ok metadata)
    (mapBacking : BackingAddress) :
    ∃ crc, loader.query = .ok crc ∧ RunsImage flash.contents metadata crc mapBacking := by
  obtain ⟨-, t, hmirrors⟩ := h
  obtain ⟨hpending, hprogram, rfl⟩ := BpfLoader.eventExecutionMetadata_ok.mp hmetadata
  have hidle : ¬ loader.pending.isSome := by simp [hpending]
  cases hstate : loader.state with
  | committed crc =>
      refine ⟨crc, ?_, (hmirrors.program crc (.inl hstate)).runsImage mapBacking⟩
      simp only [BpfLoader.query, if_neg hidle, hstate]
  | running crc =>
      refine ⟨crc, ?_, (hmirrors.program crc (.inr hstate)).runsImage mapBacking⟩
      simp only [BpfLoader.query, if_neg hidle, hstate]
  | empty | receiving | failed =>
      rw [hstate] at hprogram
      contradiction

/-- A Start is given what a timer event is. -/
theorem event_of_execution {loader : BpfLoader} {metadata : BpfProgramMetadata}
    (h : loader.executionMetadata = .ok metadata) :
    loader.eventExecutionMetadata = .ok metadata := by
  obtain ⟨hpending, ⟨crc, hstate⟩, rfl⟩ := BpfLoader.executionMetadata_ok.mp h
  simp [BpfLoader.eventExecutionMetadata, hpending, hstate]

/-- **What runs is what was committed.** In every run over any chip: what a Start
would execute, what the main loop is about to execute for a timer and what it is
executing, is the committed image whose CRC a query reports, bytecode and maps;
and as long as an execution of the main loop lasts, whatever happens meanwhile,
flash keeps the code under it. -/
theorem executes_committed (flash : Chip) (now : Nat) (history : History)
    (es : List FirmwareEvent) (mapBacking : BackingAddress) {metadata : BpfProgramMetadata}
    (h : ((boot flash now history).run es).loader.executionMetadata = .ok metadata ∨
      (∃ event, ((boot flash now history).run es).next = .invoke event metadata) ∨
      ((boot flash now history).run es).captured.activeMapHelpers = some metadata) :
    let f := (boot flash now history).run es
    ∃ crc, f.loader.query = .ok crc ∧ RunsImage f.flash.contents metadata crc mapBacking ∧
      ∀ later, Machine.Along step (fun f _ => f.next.running = true) f later →
        ∀ context readOnlyContext,
          programCall metadata mapBacking (f.run later).flash.contents context readOnlyContext =
            programCall metadata mapBacking f.flash.contents context readOnlyContext := by
  intro f
  have hexclusive : f.Exclusive := exclusive_run (exclusive_boot flash now history) es
  have hmetadata : f.loader.eventExecutionMetadata = .ok metadata := by
    rcases h with hstart | ⟨event, hnext⟩ | hactive
    · exact event_of_execution hstart
    · exact hexclusive.fetched event metadata hnext
    · by_cases hnext : f.next = .invoked
      · obtain ⟨fetched, hhelpers, hfetched⟩ := hexclusive.invoked hnext
        rw [hhelpers, Option.some.injEq] at hactive
        exact hactive ▸ hfetched
      · have hnone := hexclusive.helpers hnext
        rw [hnone] at hactive
        contradiction
  obtain ⟨crc, hquery, hruns⟩ :=
    (mirrored_run flash now history es).runsImage hmetadata mapBacking
  refine ⟨crc, hquery, hruns, fun later hlater context readOnlyContext => ?_⟩
  rw [(isolated_run hexclusive hlater).flash]

set_option maxRecDepth 4000 in
/-- A committed image with an array may be started. -/
theorem executes_committed_array :
    (boot committedFlash 0 []).loader.mapLengths = [12] ∧
      ∃ crc, (boot committedFlash 0 []).loader.query = .ok crc ∧
        RunsImage (boot committedFlash 0 []).flash.contents committedHelpers.metadata crc
          committedHelpers.backing := by
  have hmaps : (boot committedFlash 0 []).loader.mapLengths = [12] := by decide +kernel
  have hstart : ((boot committedFlash 0 []).run []).loader.executionMetadata =
      .ok committedHelpers.metadata := start_committedFlash
  obtain ⟨crc, hquery, hruns, -⟩ :=
    executes_committed committedFlash 0 [] [] committedHelpers.backing (.inl hstart)
  exact ⟨hmaps, crc, hquery, hruns⟩

end Firmware

/-! ## the backing beyond the image -/

/- Bytes that belong to no map of any image committed since boot. -/

section unclaimed

variable {l : BpfLoader} {j : Nat}

/-- A range within a map ends before the maps do. -/
theorem BpfLoader.InMap.le_sum {mapId offset len : Nat} (h : l.InMap mapId offset len) :
    Regions.start l.mapLengths mapId + offset + len ≤ l.mapLengths.sum := by
  obtain ⟨size, hsize, hfit⟩ := h
  obtain ⟨hid, rfl⟩ := List.getElem?_eq_some_iff.mp hsize
  have hnext := Regions.start_succ hid
  have hsum := Regions.start_le_sum l.mapLengths (mapId + 1)
  omega

/-- A store within the maps keeps what lies beyond them. -/
theorem BpfLoader.StoresWithin.kept {before after : MapBacking} (h : l.StoresWithin before after)
    (hj : l.mapLengths.sum ≤ j) (hlt : j < bpfMaxMapBytes) : after[j]? = before[j]? := by
  cases h with
  | inl hsame => rw [hsame]
  | inr hcopied =>
      obtain ⟨mapId, offset, bytes, hin, rfl⟩ := hcopied
      have hle := hin.le_sum
      rw [Vector.getElem?_eq_getElem hlt, Vector.getElem?_eq_getElem hlt,
        Bytes.getElem_copySlice_of_not_mem _ _ _ hlt (by omega)]

/-- A confined invocation stores nothing beyond the maps. -/
theorem BpfLoader.Confines.not_stores {mapBacking : MapBacking} {activities : List Activity}
    (h : l.Confines mapBacking activities) (hj : l.mapLengths.sum ≤ j)
    (hlt : j < bpfMaxMapBytes) : ¬ Firmware.Stores mapBacking activities j := by
  rintro ⟨stored, hmem, hne⟩
  induction activities generalizing mapBacking with
  | nil => contradiction
  | cons activity activities ih =>
      obtain ⟨hhere, hrest⟩ := h
      have hkept := hhere.kept hj hlt
      rcases List.mem_cons.mp hmem with rfl | hlater
      · exact hne hkept
      · exact ih hrest hlater (by rw [hkept]; exact hne)

end unclaimed

namespace Firmware

variable {F : Type}

/-- The event's executions store within the maps, as those of the interpreter
do. -/
def StoresConfined (f : Firmware F) : FirmwareEvent → Prop
  | .packet _ _ invocation => (∃ metadata, f.loader.executionMetadata = .ok metadata) →
      f.loader.Confines f.mapBacking invocation.activities
  | .activity activity => f.next = .invoked → f.loader.Confines f.mapBacking [activity]
  | .main _ | .tick _ => True

/-- A byte that no activity stores to stays zero. -/
theorem not_stores_foldl {backing : MapBacking} {activities : List Activity} {j : Nat}
    (h : ¬ Stores backing activities j) (hzero : backing[j]? = some 0) :
    (activities.foldl Activity.stored backing)[j]? = some 0 :=
  (getElem?_foldl_stored h).trans hzero

variable [BpfFlash F]

/-- **Unclaimed step.** A byte beyond the maps of the loader stays zero. -/
theorem unclaimed_step {f : Firmware F} {e : FirmwareEvent} {j : Nat} {ds : List Descriptor}
    (hlaid : LaidBy f.loader ds) (hconfined : f.StoresConfined e)
    (hj : f.loader.mapLengths.sum ≤ j) (hlt : j < bpfMaxMapBytes)
    (h : f.mapBacking[j]? = some 0) : (f.step e).mapBacking[j]? = some 0 := by
  cases e with
  | main busIdle => exact zero_step hlt id h
  | tick ticks => exact zero_step hlt id h
  | activity activity =>
      refine zero_step hlt (fun hwrites => ?_) h
      exact (hconfined hwrites.1).not_stores hj hlt hwrites.2
  | packet bytes truncated invocation =>
      show (f.onI2cPacket bytes truncated invocation).2.mapBacking[j]? = some 0
      cases packet_step f bytes truncated invocation with
      | kept _ _ hbacking => rw [hbacking, h]
      | executed _ _ _ hmetadata _ _ hbacking =>
          rw [hbacking]
          exact not_stores_foldl ((hconfined ⟨_, hmetadata⟩).not_stores hj hlt) h
      | @wrote request start _ _ _ hrange hbacking =>
          have hprogram : f.loader.state.hasProgram = true := by
            refine Bool.eq_true_of_not_eq_false fun hnone => ?_
            rw [BpfLoader.mapRange_noProgram.mpr hnone] at hrange
            contradiction
          have hlength : (request.bytes.drop mapWriteLocationSize).length < 2 ^ 16 := by
            have hmax : request.bytes.length ≤ 16 := by
              simp only [Request.bytes, List.length_take, Vector.length_toList]
              exact Nat.min_le_right _ _
            rw [List.length_drop]
            omega
          obtain ⟨size, hsize, hfit, haccepted⟩ | ⟨-, status, -, hrefused⟩ :=
            mapRange_eq hlaid hprogram (writeTarget request).1 (writeTarget request).2 hlength
          · rw [haccepted, Except.ok.injEq] at hrange
            subst hrange
            have hin : f.loader.InMap (writeTarget request).1.toNat
                (writeTarget request).2.toNat _ := ⟨size, hsize, hfit⟩
            have hle := hin.le_sum
            rw [hbacking, Vector.getElem?_eq_getElem hlt,
              Bytes.getElem_copySlice_of_not_mem _ _ _ hlt (by omega),
              ← Vector.getElem?_eq_getElem hlt, h]
          · rw [hrefused] at hrange
            contradiction

/-- **Unclaimed bytes are zero.** In every run from power-on, over any flash and
across any number of images and resets: a byte of the backing that lies beyond
the maps of every image there has been is zero, whatever the host writes and
whatever confined executions store. -/
theorem unclaimed_zero (flash : F) (now : Nat) (history : History) {es : List FirmwareEvent}
    {n j : Nat} (hj : n ≤ j) (hlt : j < bpfMaxMapBytes)
    (hes : Machine.Along step (fun f e => f.StoresConfined e ∧ f.loader.mapLengths.sum ≤ n)
      (boot flash now history) es) :
    ((boot flash now history).run es).mapBacking[j]? = some 0 := by
  have hboot : (boot flash now history).mapBacking[j]? = some 0 := by
    show (Vector.replicate _ 0)[j]? = some 0
    rw [Vector.getElem?_replicate, if_pos hlt]
  have hlaid := (kept_laid F).validate flash
  exact (Machine.invariant_along
    (I := fun f : Firmware F =>
      (f.loader.Sane ∧ ∃ ds, LaidBy f.loader ds) ∧ f.mapBacking[j]? = some 0)
    (fun f e he hf => by
      obtain ⟨hkept, hzero⟩ := hf
      obtain ⟨ds, hds⟩ := hkept.2
      exact ⟨(kept_laid F).firmware_step hkept e,
        unclaimed_step hds he.1 (he.2.trans hj) hlt hzero⟩)
    ⟨hlaid, hboot⟩ hes).2

/-- What `timerProgram` stores goes into the second and the third value of its
array. -/
theorem cancelling_confined {l : BpfLoader} (h : l.mapLengths = [12]) (mapBacking : MapBacking)
    (cancels : Nat) : l.Confines mapBacking (cancelling mapBacking cancels) := by
  have hlength : (Bytes.toLe 4 cancels).length = 4 := Bytes.length_toLe 4 cancels
  have hin (offset : Nat) (hoffset : offset ≤ 8) :
      l.InMap 0 offset (Bytes.toLe 4 cancels).length := ⟨12, by rw [h]; rfl, by omega⟩
  have hcancels (before : MapBacking) (rest : List Activity) (hrest : l.Confines before rest) :
      l.Confines before (List.replicate cancels .cancel ++ rest) := by
    generalize cancels = n
    induction n with
    | zero => exact hrest
    | succ n ih => exact ⟨.inl rfl, ih⟩
  have hstore (before : MapBacking) (offset : Nat) (hoffset : offset ≤ 8) :
      l.StoresWithin before (Bytes.copySlice before offset (Bytes.toLe 4 cancels)) :=
    .inr ⟨0, offset, _, hin offset hoffset, by simp [Regions.start]⟩
  exact ⟨hstore mapBacking 4 (by decide), hcancels _ _ ⟨hstore _ 8 (by decide), trivial⟩⟩

/-- The host has asked `timerProgram` to cancel once. -/
def askedToCancel : Firmware Chip := (boot committedFlash 0 []).step (requestPacket 1)

/-- It is Started, and stores the request twice. -/
def startCancelling : FirmwareEvent :=
  startReturningOne (cancelling askedToCancel.mapBacking 1)

set_option maxRecDepth 4000 in
/-- The array takes twelve bytes, the host and the program have written all of
them, and the thirteenth is zero. -/
theorem unclaimed_zero_array :
    ((boot committedFlash 0 []).run [requestPacket 1, startCancelling]).mapBacking[8]? = some 1 ∧
      ((boot committedFlash 0 []).run [requestPacket 1, startCancelling]).mapBacking[12]? =
        some 0 := by
  obtain ⟨hmaps, hasked⟩ : (boot committedFlash 0 []).loader.mapLengths = [12] ∧
      askedToCancel.loader.mapLengths = [12] := by decide +kernel
  have hwritten : ((boot committedFlash 0 []).run
      [requestPacket 1, startCancelling]).mapBacking[8]? = some 1 := by decide +kernel
  have hrequest : (boot committedFlash 0 []).StoresConfined (requestPacket 1) := fun _ => trivial
  have hstart : askedToCancel.StoresConfined startCancelling :=
    fun _ => cancelling_confined hasked askedToCancel.mapBacking 1
  have hclaimed : (boot committedFlash 0 []).loader.mapLengths.sum ≤ 12 := by rw [hmaps]; decide
  have hclaimed' : askedToCancel.loader.mapLengths.sum ≤ 12 := by rw [hasked]; decide
  exact ⟨hwritten, unclaimed_zero committedFlash 0 [] (Nat.le_refl 12) (by decide)
    ⟨⟨hrequest, hclaimed⟩, ⟨hstart, hclaimed'⟩, trivial⟩⟩

end Firmware

end OptiBridge
