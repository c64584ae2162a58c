import OptiBridge.Answers
import OptiBridge.Execution
import OptiBridge.Maps

/-!
# OptiBridge.FreshMaps

The map backing is zeroed at boot and nowhere else.  A commit replaces the
layouts and keeps the bytes, so the maps of a new image show what is in the
backing: zeros where nothing has written since boot, and otherwise what was
written for an earlier image.

Every way the backing may change is a write by the host or a store by a program,
so a byte that neither has touched is what boot made it.

* `zero_run`, along any run from a boot;
* `commit_keeps_maps`, at the moment of a commit: the bytes are those from
  before it, and zero where nothing has written since boot;
* `commit_shows_old_bytes`, a run in which a second image finds the bytes of
  the first in its map.
-/

namespace OptiBridge

open Bytes

namespace Firmware

variable {F : Type}

/-! ## writes to the backing -/

/- Which events of a run write a given byte, whether or not they change it. -/

/-- Some store of an invocation changes byte `j`. -/
def Stores (backing : MapBacking) (activities : List Activity) (j : Nat) : Prop :=
  ∃ stored, .store stored ∈ activities ∧ stored[j]? ≠ backing[j]?

/-- The event may change byte `j` of the backing: a Write that covers it is
accepted, or an invocation stores another value. -/
def Writes (f : Firmware F) (j : Nat) : FirmwareEvent → Prop
  | .packet bytes truncated invocation =>
      ∃ request, parsePacket bytes truncated = some request ∧
        f.captured.bpfExecutionActive = false ∧ request.flags = 0 ∧
        ((request.command = cmdWriteBpfMap ∧
            ∃ start, f.loader.mapRange (writeTarget request).1 (writeTarget request).2
                (request.bytes.drop mapWriteLocationSize).length = .ok start ∧
              start ≤ j ∧ j < start + (request.bytes.drop mapWriteLocationSize).length) ∨
          (request.command = cmdStartBpf ∧ Stores f.mapBacking invocation.activities j))
  | .activity activity => f.next = .invoked ∧ Stores f.mapBacking [activity] j
  | .main _ | .tick _ => False

/-- Stores that leave a byte as it was. -/
theorem getElem?_foldl_stored {backing : MapBacking} {activities : List Activity} {j : Nat}
    (h : ¬ Stores backing activities j) :
    (activities.foldl Activity.stored backing)[j]? = backing[j]? := by
  have hall : ∀ (earlier : MapBacking) (rest : List Activity), earlier[j]? = backing[j]? →
      (∀ activity ∈ rest, activity ∈ activities) →
      (rest.foldl Activity.stored earlier)[j]? = backing[j]? := by
    intro earlier rest hearlier hrest
    induction rest generalizing earlier with
    | nil => exact hearlier
    | cons activity rest ih =>
        rw [List.forall_mem_cons] at hrest
        refine ih _ ?_ hrest.2
        cases activity with
        | store stored => exact by_contra fun hne => h ⟨stored, hrest.1, hne⟩
        | schedule delayMs cookie => exact hearlier
        | cancel => exact hearlier
        | wait ticks => exact hearlier
  exact hall backing activities rfl fun _ hactivity => hactivity

variable [BpfFlash F]

/-- **Zero step.** A byte that is not written stays zero. -/
theorem zero_step {f : Firmware F} {e : FirmwareEvent} {j : Nat} (hj : j < bpfMaxMapBytes)
    (hwrites : ¬ f.Writes j e) (h : f.mapBacking[j]? = some 0) :
    (f.step e).mapBacking[j]? = some 0 := by
  cases e with
  | main busIdle =>
      have hmain : (f.mainStep busIdle).mapBacking = f.mapBacking ∨
          (f.mainStep busIdle).mapBacking = Vector.replicate _ 0 := by
        have hstep := f.main_step busIdle
        generalize f.mainStep busIdle = f' at hstep ⊢
        cases hstep with
        | reset => exact .inr rfl
        | _ => exact .inl rfl
      show (f.mainStep busIdle).mapBacking[j]? = some 0
      cases hmain with
      | inl hkept => rw [hkept, h]
      | inr hzero => rw [hzero, Vector.getElem?_replicate, if_pos hj]
  | activity activity =>
      simp only [step, activityStep]
      split_ifs with hnext
      · have hstored := getElem?_foldl_stored fun hstores => hwrites ⟨hnext, hstores⟩
        exact hstored.trans h
      · exact h
  | packet bytes truncated invocation =>
      show (f.onI2cPacket bytes truncated invocation).2.mapBacking[j]? = some 0
      cases packet_step f bytes truncated invocation with
      | kept _ _ hbacking => rw [hbacking, h]
      | wrote hparse hactive hcommand hrange hbacking =>
          have houtside : ¬ (_ ≤ j ∧ j < _) := fun hcovers =>
            hwrites ⟨_, hparse, hactive, hcommand.1, .inl ⟨hcommand.2, _, hrange, hcovers⟩⟩
          rw [hbacking, Vector.getElem?_eq_getElem hj,
            getElem_copySlice_of_not_mem _ _ _ hj houtside, ← Vector.getElem?_eq_getElem hj, h]
      | executed hparse hactive hcommand _ _ _ hbacking =>
          rw [hbacking, getElem?_foldl_stored fun hstores =>
            hwrites ⟨_, hparse, hactive, hcommand.1, .inr ⟨hcommand.2, hstores⟩⟩, h]
  | tick ticks => exact h

/-- **Zero run.** -/
theorem zero_run (flash : F) (now : Nat) (history : History) {es : List FirmwareEvent} {j : Nat}
    (hj : j < bpfMaxMapBytes)
    (hes : Machine.Along step (fun f e => ¬ f.Writes j e) (boot flash now history) es) :
    ((boot flash now history).run es).mapBacking[j]? = some 0 := by
  have hboot : (boot flash now history).mapBacking[j]? = some 0 := by
    show (Vector.replicate _ 0)[j]? = some 0
    rw [Vector.getElem?_replicate, if_pos hj]
  exact Machine.invariant_along (I := fun f : Firmware F => f.mapBacking[j]? = some 0)
    (fun _ _ hwrites h => zero_step hj hwrites h) hboot hes

/-! ## what the host reads -/

/- A byte of a map, as a Read returns it. -/

/-- Every Read within a committed map, whatever capture brings it, is answered
with these bytes. -/
def ReadsAs (f : Firmware F) (contents : Nat → Nat → UInt8) : Prop :=
  ∀ request mapId offset count, IsMapRead request mapId offset count →
    1 ≤ count.toNat → count.toNat ≤ 16 →
    f.loader.InMap mapId.toNat offset.toNat count.toNat →
    ∀ packet invocation, parsePacket packet false = some request →
      ∃ reply : Frame, (f.onI2cPacket packet false invocation).1 = some reply.bytes ∧
        reply.command = statusOk ∧ reply.sequence = request.sequence ∧
        reply.payload =
          (List.range count.toNat).map fun i => contents mapId.toNat (offset.toNat + i)

omit [BpfFlash F] in
/-- An idle firmware shows the backing. -/
theorem readsAs_backing {f : Firmware F} {ds : List Descriptor}
    (hidle : f.captured.bpfExecutionActive = false) (hlaid : LaidBy f.loader ds)
    (hprogram : f.loader.state.hasProgram = true) :
    f.ReadsAs fun mapId offset => (f.loader.mapByte f.mapBacking mapId offset).getD 0 := by
  intro request mapId offset count hread hpos hcount hin packet invocation hparse
  have hfree : ¬ (f.captured.bpfExecutionActive ∧ request.command ≠ cmdReset) := by simp [hidle]
  have hdispatch := dispatch_read (startExecutor invocation) (s := f.toDispatchState) hlaid
    hprogram hread
  cases hdispatch with
  | inr hrefused => exact absurd ⟨hpos, hcount, hin⟩ hrefused.1
  | inl hok =>
      obtain ⟨-, hrespond⟩ := hok
      obtain ⟨hlength, hbytes⟩ := map_slice hlaid f.mapBacking hin
      obtain ⟨output, hqueued⟩ := queued_respond hparse hfree hrespond
        (hlength.trans_le hcount)
      refine ⟨_, congrArg Prod.fst hqueued, rfl, rfl, ?_⟩
      have hvalues := congrArg (List.map fun byte : Option UInt8 => byte.getD 0) hbytes
      simpa only [List.map_map, Function.comp_def, Option.getD_some, List.map_id'] using hvalues

/-! ## commits -/

/- The state just before a commit, and the state just after it. -/

/-- The statement the main loop runs next commits an image. -/
def CommitsNext (f : Firmware F) : Prop :=
  f.next = .executePending ∧
    loadOperationCommits f.loader (f.loader.executePending f.flash).1 = true

instance (f : Firmware F) : Decidable f.CommitsNext := by
  unfold CommitsNext
  infer_instance

/-- A commit leaves the loader with a program. -/
theorem hasProgram_of_commits {before after : BpfLoader}
    (h : loadOperationCommits before after = true) : after.state.hasProgram = true := by
  unfold loadOperationCommits at h
  split at h
  · next hstate => rw [hstate]; rfl
  · contradiction

/-- **Maps after a commit.** A commit keeps the backing and every Read within
the new maps is answered with what it holds: zero where nothing has written
since boot. -/
theorem commit_keeps_maps (flash : F) (now : Nat) (history : History)
    (es : List FirmwareEvent) (busIdle : Bool)
    (h : ((boot flash now history).run es).CommitsNext) :
    let f := (boot flash now history).run es
    let f' := f.step (.main busIdle)
    f'.mapBacking = f.mapBacking ∧
      f'.ReadsAs (fun mapId offset => (f'.loader.mapByte f.mapBacking mapId offset).getD 0) ∧
      ∀ mapId offset size, f'.loader.mapLengths[mapId]? = some size → offset < size →
        Machine.Along step
            (fun f e => ¬ f.Writes (Regions.start f'.loader.mapLengths mapId + offset) e)
            (boot flash now history) es →
          f'.loader.mapByte f.mapBacking mapId offset = some 0 := by
  intro f f'
  obtain ⟨hnext, hcommits⟩ := h
  have hexclusive : f.Exclusive := exclusive_run (exclusive_boot flash now history) es
  have hlaid := ((kept_laid F).firmware_step
    ((kept_laid F).firmware_run flash now history es) (.main busIdle)).2
  have hstep : f' = { f.executePending with next := .pollTimer } := by
    show f.mainStep busIdle = _
    rw [mainStep, hnext]
  have hbacking : f'.mapBacking = f.mapBacking := by rw [hstep]; rfl
  have hidle : f'.captured.bpfExecutionActive = false := by
    rw [hstep]
    show f.captured.bpfExecutionActive = false
    rw [hexclusive.active, hnext]
    rfl
  have hprogram : f'.loader.state.hasProgram = true := by
    rw [hstep]
    exact hasProgram_of_commits hcommits
  obtain ⟨ds, hlaid⟩ := hlaid
  refine ⟨hbacking, ?_, fun mapId offset size hsize hoffset hes => ?_⟩
  · have hreads := readsAs_backing hidle hlaid hprogram
    rwa [hbacking] at hreads
  · obtain ⟨hmap, hsizeEq⟩ := List.getElem?_eq_some_iff.mp hsize
    have hplace := Regions.start_add_lt_sum hmap (hsizeEq.symm ▸ hoffset)
    rw [hlaid.mapByte_eq f.mapBacking hmap]
    exact zero_run flash now history (hplace.trans_le hlaid.sum_le) hes

open Nor in
/-- One array map, loaded until the main loop is about to commit it. -/
def arrayUntilCommit : List FirmwareEvent :=
  loadRun (0 :: Bytes.toLe 2 8 ++ [1] ++ Bytes.toLe 4 (crc32IsoHdlc Device.arrayImage).toNat) ++
    loadRun (1 :: Bytes.toLe 2 0 ++ Device.arrayImage.take 12) ++
    loadRun (1 :: Bytes.toLe 2 12 ++ Device.arrayImage.drop 12) ++
    .packet [magic, cmdLoadBpf, 1, 0, 0, 2] false ⟨[], .ok 0⟩ :: mainLoop 3

/-- The image with one array map, at its commit. -/
theorem commit_keeps_maps_array :
    ((boot erasedFlash 0 []).run arrayUntilCommit).CommitsNext ∧
      (((boot erasedFlash 0 []).run arrayUntilCommit).step (.main true)).mapBacking =
        ((boot erasedFlash 0 []).run arrayUntilCommit).mapBacking := by
  have hcommits : ((boot erasedFlash 0 []).run arrayUntilCommit).CommitsNext := by decide +kernel
  exact ⟨hcommits, (commit_keeps_maps erasedFlash 0 [] arrayUntilCommit true hcommits).1⟩

/-! ## an image replaced -/

/- Two images over the same backing, one after the other. -/

/-- An image with a map is loaded, the host writes to the map, and the image is
loaded again. -/
def reloadingRun : List FirmwareEvent :=
  arrayUntilCommit ++ mainLoop 4 ++
    .packet [magic, cmdWriteBpfMap, 3, 0, 0, 0, 0, 7] false ⟨[], .ok 0⟩ :: arrayUntilCommit

/-- What was written for the old image is read through the map of the new one. -/
theorem commit_shows_old_bytes :
    ¬ ∀ (flash : Nor.Chip) (now : Nat) (es : List FirmwareEvent) (busIdle : Bool),
      ((boot flash now []).run es).CommitsNext →
        (((boot flash now []).run es).step (.main busIdle)).ReadsAs fun _ _ => 0 := by
  intro h
  have hcommits : ((boot erasedFlash 0 []).run reloadingRun).CommitsNext := by decide +kernel
  have hlengths : (((boot erasedFlash 0 []).run reloadingRun).step (.main true)).loader.mapLengths =
      [8] := by decide +kernel
  have hanswer : ((((boot erasedFlash 0 []).run reloadingRun).step (.main true)).onI2cPacket
      [magic, cmdReadBpfMap, 4, 0, 0, 0, 0, 0, 1] false ⟨[], .ok 0⟩).1 =
        some [magic, statusOk, 1, 0, 0, 7] := by decide +kernel
  have hparse : parsePacket [magic, cmdReadBpfMap, 4, 0, 0, 0, 0, 0, 1] false =
      some (readRequest 0 0 1) := by decide
  have hin : (((boot erasedFlash 0 []).run reloadingRun).step (.main true)).loader.InMap 0 0 1 :=
    ⟨8, by rw [hlengths]; rfl, by decide⟩
  obtain ⟨reply, hreply, -, -, hpayload⟩ := h erasedFlash 0 reloadingRun true hcommits
    (readRequest 0 0 1) 0 0 1 ⟨rfl, rfl, by decide⟩ (by decide) (by decide) hin _ _ hparse
  rw [hanswer, Option.some.injEq] at hreply
  have hbyte : [7] = reply.payload := congrArg (List.drop headerLen) hreply
  rw [hpayload] at hbyte
  exact absurd hbyte (by decide)

end Firmware

end OptiBridge
