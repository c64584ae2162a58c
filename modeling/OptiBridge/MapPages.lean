import OptiBridge.MapCalls
import OptiBridge.Reboots

/-!
# OptiBridge.MapPages

A map written and read back page by page, and read again after a reset: on a
quiet target each passes exactly when its transactions succeed in time.

`Passes` is the relation all of this is stated in: a script, on an idle port and
a target that shows given maps, makes so many transactions, and if these succeed
in time it returns a given value and leaves given maps.  It composes
(`Passes.pure`, `Passes.bind`), so a page loop is an induction over its pages.

* `writePages_passes` and `readPages_passes`, the two loops;
* `resetTarget_passes`, a reset and the wait after it;
* `pages_read_back`, pages that were written are read back;
* `reset_clears_maps`, after a reset the target has rebooted, holds the same
  program, and reads as zeros.
-/

namespace OptiBridge

open Bytes Nor Script

/-! ## a target that shows its maps -/

/- The loader and the maps that the target holds when a transaction reaches it;
no background changes them, as long as no timer is set. -/

namespace Firmware

/-- A quiet target touches no map. -/
theorem mapBacking_background {f : Firmware Chip} (h : f.Quiet) (b : Background) :
    (f.step b.event).mapBacking = f.mapBacking := by
  cases b with
  | tick ticks => rfl
  | activity activity =>
      have hnot : ¬ f.next = .invoked := fun hinvoked => by
        have hnext := h.next
        rw [hinvoked] at hnext
        contradiction
      simp only [Background.event, step, activityStep, if_neg hnot]
  | main busIdle =>
      show (f.mainStep busIdle).mapBacking = f.mapBacking
      have hstep := f.main_step busIdle
      generalize f.mainStep busIdle = f' at hstep
      cases hstep with
      | reset _ hreset =>
          rw [h.reset] at hreset
          contradiction
      | _ => rfl

/-- A quiet target with this loader, which has nothing to execute, and these
maps. -/
structure Shows (l : BpfLoader) (mapBacking : MapBacking) (f : Firmware Chip) : Prop where
  quiet : f.Quiet
  pending : l.pending = none
  loader : f.loader = l
  mapBacking : f.mapBacking = mapBacking

/-- A target that shows its maps goes on showing them. -/
theorem steady_shows (l : BpfLoader) (mapBacking : MapBacking) :
    Steady (Shows l mapBacking) where
  reset f h := h.quiet.reset
  output f output h := ⟨steady_quiet.output f output h.quiet, h.pending, h.loader, h.mapBacking⟩
  background f b h := by
    obtain ⟨-, hstorage⟩ := storage_background h.quiet.reset b
    rw [BpfLoader.executePending_rests (h.loader ▸ h.pending), or_self, Prod.mk.injEq] at hstorage
    exact ⟨steady_quiet.background f b h.quiet, h.pending, hstorage.1.trans h.loader,
      (mapBacking_background h.quiet b).trans h.mapBacking⟩

end Firmware

/-! ## pages -/

/- One page is one call of `read_map` or `write_map`; the pages of a map are the
multiples of eight below its length. -/

namespace Host

variable {P S : Type} [I2cSlave S] [LawfulI2cSlave S] [I2cMaster (Bus Chip S)]
  [LawfulI2cBus Chip S] [SerialPort P (Bus Chip S)] [LawfulSerialPort P (Bus Chip S)]
  {port : P} {bus : Bus Chip S} {l : BpfLoader} {mapBacking : MapBacking} {ds : List Descriptor}

omit [LawfulI2cSlave S] [I2cMaster (Bus Chip S)] [LawfulI2cBus Chip S] in
/-- Whatever a read is answered with, a quiet target stays quiet. -/
theorem quiet_readMap (h : bus.reach.firmware.Quiet) (sequence mapId : Nat) {byteOffset : Nat}
    (hoffset : byteOffset < 2 ^ 16) (byteLength : Nat) :
    (bus.asked (readMapFrame sequence mapId byteOffset byteLength)).2.Quiet := by
  have hread := isMapRead_readMapFrame sequence mapId hoffset byteLength
  cases hbytes : bus.reach.firmware.loader.readMap (UInt8.ofNat mapId) (UInt16.ofNat byteOffset)
      (UInt8.ofNat byteLength) bus.reach.firmware.mapBacking with
  | ok bytes =>
      obtain ⟨output, hqueued⟩ :=
        Firmware.packet_readMap_ok _ hread h.active hbytes (bus.turns 0).invocation
      rw [Bus.asked, hqueued]
      exact Firmware.steady_quiet.output _ output h
  | error status =>
      obtain ⟨_, output, hqueued⟩ := Firmware.packet_readMap_refused _ hread
        (fun _ bytes hok => by
          have hsame := hbytes.symm.trans hok
          contradiction) (bus.turns 0).invocation
      rw [Bus.asked, hqueued]
      exact Firmware.steady_quiet.output _ output h

omit [LawfulI2cSlave S] [I2cMaster (Bus Chip S)] [LawfulI2cBus Chip S] in
/-- So it does whatever a write is answered with. -/
theorem quiet_writeMap (h : bus.reach.firmware.Quiet) (sequence : Nat) {location : Nat}
    (hlocation : location < 8192) {data : List UInt8}
    (hbounds : 1 ≤ data.length ∧ data.length ≤ 8) :
    (bus.asked (writeMapFrame sequence location data hbounds.2)).2.Quiet := by
  have hwrite := isWriteAt_writeMapFrame sequence (Nat.lt_trans hlocation (by decide)) hbounds.1
    hbounds.2
  by_cases hok : (bus.reach.firmware.loader.writeMap (UInt8.ofNat (location / 1024))
      (UInt16.ofNat (location % 1024)) data bus.reach.firmware.mapBacking).1 = .ok ()
  · obtain ⟨output, hqueued⟩ := Firmware.packet_writeAt_ok _ hwrite hlocation h.active
      (Prod.ext hok rfl) (bus.turns 0).invocation
    rw [Bus.asked, hqueued]
    exact { h with }
  · obtain ⟨_, output, -, hqueued⟩ := Firmware.packet_writeAt_refused _ hwrite
      (fun hserved => hok hserved.2.2) (bus.turns 0).invocation
    rw [Bus.asked, hqueued]
    exact { h with }

omit [I2cSlave S] [LawfulI2cSlave S] in
/-- A write to a map leaves a quiet target quiet. -/
theorem quiet_written {f : Firmware Chip} (h : f.Quiet) (location : Nat) (data : List UInt8) :
    (written f location data).Quiet := by
  unfold written
  exact ⟨h.reset, h.active, h.pending, h.ready, h.next, h.sane, h.reliable⟩

/-- So many transactions to come succeed and are answered in time. -/
def AllAnswered (turns : Nat → Transaction) (count : Nat) : Prop :=
  ∀ k < count, (turns k).Answered

/-- So many answered transactions, and so many after them. -/
theorem allAnswered_add (turns : Nat → Transaction) (count rest : Nat) :
    AllAnswered turns (count + rest) ↔
      AllAnswered turns count ∧ AllAnswered (fun k => turns (k + count)) rest := by
  constructor
  · intro h
    exact ⟨fun k hk => h k (by omega), fun k hk => h (k + count) (by omega)⟩
  · rintro ⟨hfirst, hrest⟩ k hk
    by_cases hlt : k < count
    · exact hfirst k hlt
    · have hshift := hrest (k - count) (by omega)
      simp only [Nat.sub_add_cancel (Nat.not_lt.mp hlt)] at hshift
      exact hshift

/-- Two answered transactions. -/
theorem allAnswered_two {turns : Nat → Transaction} :
    AllAnswered turns 2 ↔ (turns 0).Answered ∧ (turns 1).Answered := by
  constructor
  · exact fun h => ⟨h 0 (by decide), h 1 (by decide)⟩
  · rintro ⟨hfirst, hsecond⟩ k hk
    interval_cases k
    · exact hfirst
    · exact hsecond

/-- The script comes to `a` exactly if so many transactions succeed, one after
another; then the target shows these maps. -/
def Passes {α : Type} (script : HostScript P α) (port : P)
    (bus : Bus Chip S) (count : Nat) (a : α) (l : BpfLoader) (mapBacking : MapBacking) : Prop :=
  ∃ idle, (AllAnswered bus.turns count → ∃ after : Bus Chip S, Idle idle after ∧
      after.reach.firmware.Shows l mapBacking ∧ after.turns = fun k => bus.turns (k + count)) ∧
    ReturnsIff script port (AllAnswered bus.turns count) a idle

namespace Passes

variable {α β : Type} {script : HostScript P α} {a : α} {b : β} {l' : BpfLoader}
  {mapBacking' : MapBacking}

omit [LawfulI2cSlave S] [I2cMaster (Bus Chip S)] [LawfulI2cBus Chip S]
  [LawfulSerialPort P (Bus Chip S)] in
/-- A script that makes no transaction passes. -/
theorem pure (hidle : Idle port bus) (h : bus.reach.firmware.Shows l mapBacking) (a : α) :
    Passes (Pure.pure a) port bus 0 a l mapBacking :=
  ⟨port, fun _ => ⟨bus, hidle, h, rfl⟩, ReturnsIff.pure.congr (by simp [AllAnswered])⟩

omit [LawfulI2cSlave S] [I2cMaster (Bus Chip S)] [LawfulI2cBus Chip S]
  [LawfulSerialPort P (Bus Chip S)] in
/-- A script passes if its two parts do, one after the other. -/
theorem bind {f : α → HostScript P β} {count rest : Nat}
    (h : Passes script port bus count a l mapBacking)
    (hrest : ∀ (idle : P) (after : Bus Chip S), Idle idle after →
      after.reach.firmware.Shows l mapBacking →
      after.turns = (fun k => bus.turns (k + count)) →
      Passes (f a) idle after rest b l' mapBacking') :
    Passes (script >>= f) port bus (count + rest) b l' mapBacking' := by
  obtain ⟨idle, hafter, hreturns⟩ := h
  rw [Passes, allAnswered_add]
  refine hreturns.bind fun hcount => ?_
  obtain ⟨after, hidle, hshows, hturns⟩ := hafter hcount
  obtain ⟨idle', hafter', hreturns'⟩ := hrest idle after hidle hshows hturns
  rw [hturns] at hafter' hreturns'
  refine ⟨idle', fun hok => ?_, hreturns'⟩
  obtain ⟨after', hidle', hshows', hturns'⟩ := hafter' hok
  refine ⟨after', hidle', hshows', ?_⟩
  funext k
  have hsum : k + (count + rest) = k + rest + count := by omega
  rw [hturns', hsum]

end Passes

/-- A page that is read. -/
theorem readMap_page (h : bus.reach.firmware.Shows l mapBacking) (hlaid : LaidBy l ds)
    (hidle : Idle port bus) {sequence : Nat} (hsequence : sequence < 256) {offset : Nat}
    (hin : l.InMap 0 offset 8) :
    Passes (readMap sequence 0 offset 8) port bus 2
      ((mapBacking.toList.drop offset).take 8, (sequence + 2) % 256) l mapBacking := by
  have hsane : bus.reach.firmware.loader.Sane := h.quiet.sane
  obtain ⟨idle, after, hafter, hgoes, hreturns⟩ :=
    returns_readMap_served hsane (h.loader ▸ hlaid) hidle sequence 0 offset 8
  have hbounds := hin.bounds hlaid
  have hserved : ServesRead bus sequence 0 offset 8 ↔ AllAnswered bus.turns 2 := by
    rw [allAnswered_two]
    constructor
    · exact fun hserved => ⟨hserved.replied.write, hserved.replied.read⟩
    · rintro ⟨hwrite, hread⟩
      have hoffset : offset < 2 ^ 16 := by omega
      have hquiet := quiet_readMap h.quiet sequence 0 hoffset 8
      exact ⟨by decide, ⟨hwrite, hread, Firmware.steady_quiet.unbroken hquiet _⟩, h.quiet.active,
        h.loader ▸ hin⟩
  refine ⟨idle, fun hanswered => ⟨after, hafter, ?_⟩, ?_⟩
  · have hafterward := hgoes (hserved.mpr hanswered)
    exact ⟨(Firmware.steady_shows l mapBacking).goesOn h hafterward, hafterward.turns⟩
  · rintro ⟨data, next⟩ port'
    obtain ⟨-, hbytes⟩ := map_slice hlaid mapBacking hin
    have hstart : Regions.start l.mapLengths 0 = 0 := rfl
    rw [hstart, Nat.zero_add] at hbytes
    rw [hreturns, hserved, h.loader, h.mapBacking, ← hbytes,
      (List.map_injective_iff.mpr (Option.some_injective _)).eq_iff, Prod.mk.injEq]
    simp [hsequence, and_assoc]

/-- A page that is written. -/
theorem writeMap_page (h : bus.reach.firmware.Shows l mapBacking) (hlaid : LaidBy l ds)
    (hidle : Idle port bus) {sequence : Nat} (hsequence : sequence < 256) {offset : Nat}
    {page : List UInt8} (hpage : 1 ≤ page.length ∧ page.length ≤ 8)
    (hin : l.InMap 0 offset page.length) :
    Passes (writeMap sequence 0 offset page) port bus 2 ((sequence + 2) % 256) l
      (copySlice mapBacking offset page) := by
  have hsane : bus.reach.firmware.loader.Sane := h.quiet.sane
  obtain ⟨idle, after, hafter, hgoes, hreturns⟩ :=
    returns_writeMap_served hsane (h.loader ▸ hlaid) hidle sequence 0 offset hpage.2
  have hbounds := hin.bounds hlaid
  have hlocation : 0 <<< 10 ||| offset = offset := by simp
  have hmap : offset / 1024 = 0 := by omega
  have hwithin : offset % 1024 = offset := by omega
  simp only [hlocation] at hgoes hreturns
  have hserved : ServesWrite bus sequence offset page hpage.2 ↔ AllAnswered bus.turns 2 := by
    rw [allAnswered_two]
    constructor
    · exact fun hserved => ⟨hserved.replied.write, hserved.replied.read⟩
    · rintro ⟨hwrite, hread⟩
      have hoffset : offset < 8192 := by omega
      have hquiet := quiet_writeMap h.quiet sequence hoffset hpage
      exact ⟨hpage.1, ⟨hwrite, hread, Firmware.steady_quiet.unbroken hquiet _⟩, h.quiet.active, by
        rw [h.loader, hmap, hwithin]
        exact hin⟩
  refine ⟨idle, fun hanswered => ⟨after, hafter, ?_⟩, fun next port' => ?_⟩
  · have hafterward := hgoes (hserved.mpr hanswered)
    have hwritten : (written bus.reach.firmware offset page).Shows l
        (copySlice mapBacking offset page) := by
      have hstart : Regions.start bus.reach.firmware.loader.mapLengths 0 = 0 := rfl
      have hquiet := quiet_written h.quiet offset page
      unfold written at hquiet ⊢
      refine ⟨hquiet, h.pending, h.loader, ?_⟩
      simp only [h.mapBacking, hmap, hwithin, hstart, Nat.zero_add]
    exact ⟨(Firmware.steady_shows l _).goesOn hwritten hafterward, hafterward.turns⟩
  · rw [hreturns, hserved]
    simp [hsequence]

/-- A part of a range within the first map is within it. -/
theorem InMap.within {total offset len : Nat} (h : l.InMap 0 0 total)
    (hfits : offset + len ≤ total) : l.InMap 0 offset len := by
  obtain ⟨size, hsize, hle⟩ := h
  exact ⟨size, hsize, by omega⟩

/-- **Write loop.** Page by page the map fills up. -/
theorem writePages_passes (hlaid : LaidBy l ds) {expected : List UInt8}
    (hin : l.InMap 0 0 expected.length) (n : Nat) {start : Nat}
    (hoffsets : ∀ offset ∈ List.range' start n 8, offset < expected.length)
    (hidle : Idle port bus)
    (h : bus.reach.firmware.Shows l (copySlice mapBacking 0 (expected.take start)))
    {sequence : Nat} (hsequence : sequence < 256) :
    Passes (writePages expected (List.range' start n 8) sequence) port bus (2 * n)
      ((sequence + 2 * n) % 256) l (copySlice mapBacking 0 (expected.take (start + 8 * n))) := by
  induction n generalizing port bus start sequence with
  | zero =>
      rw [Nat.mul_zero, Nat.add_zero, Nat.mod_eq_of_lt hsequence]
      exact .pure hidle h _
  | succ n ih =>
      rw [List.range'_succ] at hoffsets ⊢
      have hstart := hoffsets start List.mem_cons_self
      have hpage : 1 ≤ ((expected.drop start).take 8).length ∧
          ((expected.drop start).take 8).length ≤ 8 := by
        rw [List.length_take, List.length_drop]
        omega
      have hfits : start + ((expected.drop start).take 8).length ≤ expected.length := by
        rw [List.length_take, List.length_drop]
        omega
      have hfirst := writeMap_page h hlaid hidle hsequence hpage (InMap.within hin hfits)
      have hlength : (expected.take start).length = start := by
        rw [List.length_take]
        omega
      have hcopied := copySlice_append mapBacking 0 (expected.take start)
        ((expected.drop start).take 8)
      rw [Nat.zero_add, hlength, ← List.take_add] at hcopied
      rw [hcopied] at hfirst
      have hcount : 2 * (n + 1) = 2 + 2 * n := by omega
      have hnext : (sequence + 2 * (n + 1)) % 256 = ((sequence + 2) % 256 + 2 * n) % 256 := by
        omega
      have hend : start + 8 * (n + 1) = start + 8 + 8 * n := by omega
      rw [hnext, hend, hcount]
      -- this page, and by induction the others
      exact hfirst.bind fun idle after hidle' hshows _ =>
        ih (fun offset hmem => hoffsets offset (List.mem_cons_of_mem _ hmem)) hidle' hshows
          (Nat.mod_lt _ (by decide))

/-- **Read loop.** -/
theorem readPages_passes (hlaid : LaidBy l ds) (n : Nat) {start : Nat}
    (hin : l.InMap 0 0 (start + 8 * n)) (hidle : Idle port bus)
    (h : bus.reach.firmware.Shows l mapBacking) {sequence : Nat} (hsequence : sequence < 256) :
    Passes (readPages (List.range' start n 8) sequence) port bus (2 * n)
      ((mapBacking.toList.drop start).take (8 * n), (sequence + 2 * n) % 256) l mapBacking := by
  induction n generalizing port bus start sequence with
  | zero =>
      rw [Nat.mul_zero, Nat.add_zero, Nat.mod_eq_of_lt hsequence]
      exact .pure hidle h _
  | succ n ih =>
      have hfirst := readMap_page h hlaid hidle hsequence
        (InMap.within hin (show start + 8 ≤ start + 8 * (n + 1) by omega))
      have hend : start + 8 * (n + 1) = start + 8 + 8 * n := by omega
      have hcount : 2 * (n + 1) = 2 + (2 * n + 0) := by omega
      have hnext : (sequence + 2 * (n + 1)) % 256 = ((sequence + 2) % 256 + 2 * n) % 256 := by
        omega
      have hpages : (mapBacking.toList.drop start).take (8 * (n + 1)) =
          (mapBacking.toList.drop start).take 8 ++
            (mapBacking.toList.drop (start + 8)).take (8 * n) := by
        rw [Nat.mul_succ, Nat.add_comm, List.take_add, List.drop_drop]
      rw [List.range'_succ, hnext, hcount, hpages]
      rw [hend] at hin
      refine hfirst.bind fun idle after hidle' hshows _ => ?_
      exact (ih hin hidle' hshows (Nat.mod_lt _ (by decide))).bind
        fun idle' after' hidle'' hshows' _ => .pure hidle'' hshows' _

/-! ## written and read back -/

/- What was written page by page is what is read page by page, whatever the
pages are. -/

omit [I2cSlave S] [LawfulI2cSlave S] in
theorem copySlice_nil (mapBacking : MapBacking) : copySlice mapBacking 0 [] = mapBacking := by
  apply Vector.ext
  intro i hi
  rw [getElem_copySlice_of_not_mem _ _ _ hi (by simp)]

omit [I2cSlave S] [LawfulI2cSlave S] in
/-- The offsets of a whole number of pages. -/
theorem pageOffsets_of_pages {length n : Nat} (h : length = 8 * n) :
    pageOffsets length = List.range' 0 n 8 := by
  rw [pageOffsets, h, show (8 * n + 7) / 8 = n by omega]

omit [LawfulI2cSlave S] [I2cMaster (Bus Chip S)] [LawfulI2cBus Chip S] in
/-- What a quiet target with nothing to execute shows. -/
theorem shows_reach (hquiet : bus.firmware.Quiet) (hpending : bus.firmware.loader.pending = none) :
    bus.reach.firmware.Shows bus.firmware.loader bus.firmware.mapBacking :=
  (Firmware.steady_shows _ _).reach ⟨hquiet, hpending, rfl, rfl⟩

/-- **Pages are read back.** Over any run since a boot that has left the target
quiet with nothing to execute, writing bytes to a map that holds them and reading
them back, page by page, passes exactly when the transactions succeed, whatever
the target does in between; then the map holds the bytes, and nothing else has
changed. -/
theorem pages_read_back (flash : Chip) (now : Nat) (history : History) (es : List FirmwareEvent)
    (hboot : bus.firmware = (Firmware.boot flash now history).run es) (hidle : Idle port bus)
    (hquiet : bus.firmware.Quiet) (hpending : bus.firmware.loader.pending = none)
    {expected : List UInt8} (hpages : 8 ∣ expected.length)
    (hin : bus.firmware.loader.InMap 0 0 expected.length) {sequence : Nat}
    (hsequence : sequence < 256) :
    Passes (checkPages expected sequence) port bus (expected.length / 2)
      ((sequence + expected.length / 2) % 256) bus.firmware.loader
      (copySlice bus.firmware.mapBacking 0 expected) := by
  obtain ⟨n, hn⟩ := hpages
  have hshows := shows_reach hquiet hpending
  obtain ⟨-, ds, hlaid⟩ := laid_reach hboot
  rw [hshows.loader] at hlaid
  generalize bus.firmware.loader = l at *
  generalize bus.firmware.mapBacking = mapBacking at *
  have hoffsets := pageOffsets_of_pages hn
  have hinside : ∀ offset ∈ List.range' 0 n 8, offset < expected.length := by
    intro offset hmem
    obtain ⟨k, hk, rfl⟩ := List.mem_range'.mp hmem
    omega
  have hwritten : expected.take (0 + 8 * n) = expected := by
    rw [Nat.zero_add, ← hn, List.take_length]
  have hwrite := writePages_passes hlaid hin n hinside hidle
    (by rwa [List.take_zero, copySlice_nil]) hsequence
  rw [hwritten] at hwrite
  have hfits := (hin.bounds hlaid).2
  have hcount : expected.length / 2 = 2 * n + (2 * n + 0) := by omega
  have hnext : (sequence + expected.length / 2) % 256 =
      ((sequence + 2 * n) % 256 + 2 * n) % 256 := by omega
  have hread : (((copySlice mapBacking 0 expected).toList.drop 0).take (8 * n)) = expected := by
    rw [List.drop_zero, ← hn]
    exact take_copySlice_zero _ _ (by show _ ≤ 1024; omega)
  rw [checkPages, hoffsets, hnext, hcount]
  refine hwrite.bind fun idle after hidle' hshows' _ => ?_
  have hpages := readPages_passes hlaid n (by rwa [Nat.zero_add, ← hn]) hidle' hshows'
    (Nat.mod_lt (sequence + 2 * n) (by decide))
  rw [hread] at hpages
  refine hpages.bind fun idle' after' hidle'' hshows'' _ => ?_
  simp only [ne_eq, not_true_eq_false, if_false]
  exact .pure hidle'' hshows'' _

/-- What a host may write to a map of two pages. -/
def twoPages : List UInt8 := [1, 2, 3, 4, 5, 6, 7, 8, 9, 10, 11, 12, 13, 14, 15, 16]

/-- The two pages of the map are written and read back. -/
theorem pages_read_back_mapped : ∃ port' : Port (Bus Chip ResponseSlot),
    Returns (checkPages twoPages 1) (opened mappedBus) 9 port' := by
  have hpages : 8 ∣ twoPages.length := by decide
  obtain ⟨idle, -, hreturns⟩ := pages_read_back mappedFlash 0 [] [] rfl ready_mapped.idle
    ready_mapped.quiet mapped_loader.1 hpages ⟨16, by rw [mapped_loader.2]; rfl, by decide⟩
    (show 1 < 256 by decide)
  exact ⟨idle, hreturns.returns fun _ _ => answered_plain⟩

/-! ## reset -/

/- The reset of a target with a committed image: it reboots, adopts the image
again, and its maps are zero. -/

end Host

/-- The lengths of the maps are part of what a program declares. -/
theorem BpfLoader.mapLengths_eq_metadata (l : BpfLoader) : l.mapLengths =
    (l.committedMetadata.maps.toList.take l.committedMetadata.mapCount.toNat).map
      fun region => region.backingLen.toNat := by
  apply List.ext_getElem
  · simp [BpfLoader.mapLengths, BpfLoader.committedMetadata]
  · intro i hi hi'
    have hcount : i < l.committedMapCount.toNat := by
      simp [BpfLoader.mapLengths] at hi
      omega
    simp [BpfLoader.mapLengths, BpfLoader.committedMetadata, hcount]

/-- A loader's program is told by its metadata. -/
theorem BpfLoader.metadata_of_program {l : BpfLoader} {program : Program}
    (h : l.program = some program) : l.committedMetadata = program.metadata := by
  unfold BpfLoader.program at h
  cases hstate : l.state with
  | committed crc | running crc =>
      rw [hstate] at h
      exact congrArg Program.metadata (Option.some.inj h)
  | empty | receiving | failed =>
      rw [hstate] at h
      contradiction

namespace Firmware

/-- On its own the target puts nothing into the pending slot. -/
theorem puts_background (f : Firmware Chip) (bs : List Background) :
    Slot.puts (Machine.trace step slotEvents f (bs.map Background.event)) = [] := by
  induction bs generalizing f with
  | nil => rfl
  | cons b bs ih =>
      have hhere : Slot.puts (f.slotEvents b.event) = [] := by
        cases b with
        | main busIdle => exact f.puts_main busIdle
        | activity | tick => rfl
      rw [List.map_cons, Machine.trace_cons, Slot.puts_append, hhere]
      exact ih _

/-- A target asked to reset reboots, over the flash it had, and adopts the program
it had; from then on it shows the maps of that program, cleared. -/
theorem shows_rebooted {f : Firmware Chip} {l : BpfLoader} {mapBacking : MapBacking}
    (h : f.Shows l mapBacking) (hmirrored : Mirrored f.loader f.flash) {program : Program}
    (hprogram : l.program = some program) {bs : List Background}
    (hbs : 12 < mains (bs.map Background.event)) :
    let asked : Firmware Chip := { f with resetPending := true }
    ∃ l', l'.program = some program ∧ l'.mapLengths = l.mapLengths ∧ (∃ ds, LaidBy l' ds) ∧
      (∃ before e after, bs.map Background.event = before ++ e :: after ∧
        (asked.run before).Reboots e ∧
        asked.run (before ++ [e]) = boot f.flash (asked.run before).captured.now
          (.reset :: (asked.run before).captured.history) ∧
        (asked.run (before ++ [e])).loader = l') ∧
      (asked.run (bs.map Background.event)).Shows l' (Vector.replicate _ 0) := by
  intro asked
  have hreset : asked.resetPending = true := rfl
  have hflash : asked.flash = f.flash := rfl
  have hsettled : asked.Settled program := ⟨h.loader ▸ hprogram, h.loader ▸ h.pending⟩
  generalize asked = asked at hreset hflash hsettled ⊢
  obtain ⟨before, e, after, hsplit, hreboots, hbefore, -⟩ := reboot_happens hreset hbs
  obtain ⟨first, rest, rfl, rfl, hrest⟩ := List.map_eq_append_iff.mp hsplit
  obtain ⟨b, last, rfl, rfl, rfl⟩ := List.map_eq_cons_iff.mp hrest
  -- up to the reboot nothing touches flash, so the boot finds what was committed
  obtain ⟨-, hkept⟩ := settled_run hsettled (undisturbed_along hbefore (puts_background ..))
  have hfound := hkept.trans hflash
  have hholds : Holds f.flash.contents (some program) :=
    hmirrored.holds (h.loader ▸ hprogram)
  have hbooted : asked.run (first.map Background.event ++ [b.event]) =
      boot f.flash (asked.run (first.map Background.event)).captured.now
        (.reset :: (asked.run (first.map Background.event)).captured.history) := by
    rw [← hfound]
    exact (Machine.run_concat ..).trans (step_reboots hreboots)
  obtain ⟨-, hsettled', -⟩ := boot_program h.quiet.reliable hholds
    (asked.run (first.map Background.event)).captured.now
    (.reset :: (asked.run (first.map Background.event)).captured.history)
  have hlaid : ∃ ds, LaidBy (BpfLoader.new.validateCommitted f.flash).1 ds :=
    BpfLoader.laid_validateCommitted
  have hrun : asked.run ((first ++ b :: last).map Background.event) =
      (asked.run (first.map Background.event ++ [b.event])).run (last.map Background.event) := by
    rw [run, run, run, ← Machine.run_append, List.map_append, List.map_cons, List.append_assoc]
    rfl
  have hprogram' : (BpfLoader.new.validateCommitted f.flash).1.program = some program :=
    hsettled'.program
  refine ⟨_, hprogram', ?_, hlaid, ⟨_, _, _, hsplit, hreboots, hbooted, ?_⟩, ?_⟩
  · rw [BpfLoader.mapLengths_eq_metadata, BpfLoader.mapLengths_eq_metadata,
      BpfLoader.metadata_of_program hprogram, BpfLoader.metadata_of_program hprogram']
  · rw [hbooted]
    rfl
  · rw [hrun, hbooted]
    apply (steady_shows _ _).run
    exact ⟨Host.quiet_boot h.quiet.reliable _ _, hsettled'.pending, rfl, rfl⟩

end Firmware

namespace Host

variable {P S : Type} [I2cSlave S] [LawfulI2cSlave S] [I2cMaster (Bus Chip S)]
  [LawfulI2cBus Chip S] [SerialPort P (Bus Chip S)] [LawfulSerialPort P (Bus Chip S)]
  {port : P} {bus : Bus Chip S}

/-- The request of a reset. -/
def resetFrame (sequence : Nat) : Frame := requestFrame cmdReset sequence [] length_noPayload

omit [LawfulI2cSlave S] [I2cMaster (Bus Chip S)] [LawfulI2cBus Chip S] in
/-- A reset that is captured is awaited. -/
theorem asked_reset (bus : Bus Chip S) (sequence : Nat) :
    (bus.asked (resetFrame sequence)).2 = { bus.reach.firmware with resetPending := true } := by
  have hlen : (resetFrame sequence).request.payloadLen = 0 :=
    UInt8.toNat_inj.mp (payloadLen_request (resetFrame sequence))
  have hpacket : EndsWith (resetFrame sequence).bytes (resetFrame sequence) :=
    ⟨[], by simp⟩
  exact bus.reach.firmware.resetPending_reset hpacket ⟨rfl, rfl, hlen⟩ _

omit [LawfulI2cSlave S] in
/-- The call that resets the target, when the target reboots before the next
transaction. -/
theorem resetTarget_passes (hidle : Idle port bus) {sequence : Nat} (hsequence : sequence < 256)
    {l : BpfLoader} {mapBacking : MapBacking}
    (hcleared : ((bus.asked (resetFrame sequence)).2.run (bus.passing 1)).Shows l mapBacking) :
    Passes (resetTarget sequence) port bus 1 ((sequence + 1) % 256) l mapBacking := by
  have hshort : (targetAddress :: (resetFrame sequence).bytes).length ≤ maxPayload := by
    show 6 ≤ maxPayload
    decide
  obtain ⟨idle, hafter, hwrite⟩ := returns_targetWrite hidle hshort sequence
  have hframe : ∀ bytes port', Returns (frame cmdReset sequence [] : HostScript P _) port
      bytes port' ↔ bytes = (resetFrame sequence).bytes ∧ port' = port := fun bytes port' => by
    rw [returns_frame (Nat.zero_le _)]
    simp only [hsequence, true_and]
    rfl
  have hanswered : AllAnswered bus.turns 1 ↔ (bus.turns 0).Answered := by
    simp [AllAnswered]
  refine ⟨idle, fun hone => ?_, fun next port' => ?_⟩
  · have hturn := hanswered.mp hone
    have hidle' := hafter hturn.inTime
    rw [LawfulI2cBus.write_ok bus _ hturn.succeeds] at hidle'
    refine ⟨_, hidle', ?_, rfl⟩
    rw [Bus.firmware_reach, Bus.firmware_receive]
    exact hcleared
  · simp only [resetTarget, returns_bind, hframe, returns_pure, hanswered]
    constructor
    · rintro ⟨_, _, ⟨rfl, rfl⟩, _, _, hwritten, rfl, rfl⟩
      obtain ⟨-, htime, hok, rfl⟩ := (hwrite _).mp hwritten
      exact ⟨answered_of_write htime hok, rfl, rfl⟩
    · rintro ⟨hturn, rfl, rfl⟩
      have hok : (I2cMaster.write bus targetAddress (resetFrame sequence).bytes).1 = .ok () := by
        rw [LawfulI2cBus.write_ok bus _ hturn.succeeds]
      exact ⟨_, _, ⟨rfl, rfl⟩, (), _, (hwrite _).mpr ⟨hsequence, hturn.inTime, hok, rfl⟩, rfl,
        rfl⟩

omit [LawfulI2cSlave S] [I2cSlave S] [I2cMaster (Bus Chip S)] [LawfulI2cBus Chip S]
  [LawfulSerialPort P (Bus Chip S)] in
/-- The check of a reset is a reset, a read of all pages, and a comparison with
zeros. -/
theorem checkReset_eq (expected : List UInt8) (sequence : Nat) :
    (checkReset expected sequence : HostScript P Nat) =
      resetTarget sequence >>= fun sequence =>
        readPages (pageOffsets expected.length) sequence >>= fun read =>
          if read.1 ≠ List.replicate expected.length 0 then
            throw (.runtimeError ("map backing was not reset: " ++ hex read.1))
          else Pure.pure read.2 := by
  simp only [checkReset, resetTarget, bind_assoc, pure_bind]
  rfl

/-- **A reset clears the maps.** Over any run since a boot that has left the
target quiet with a program and nothing to execute, when the main loop runs
thirteen statements while the host sleeps: the capture of the reset makes the
target reboot meanwhile, over the flash it had, and adopt the same program with the
same maps; and a reset and a page by page read of the map pass exactly when the
transactions succeed in time, and every byte is zero. -/
theorem reset_clears_maps (flash : Chip) (now : Nat) (history : History)
    (es : List FirmwareEvent)
    (hboot : bus.firmware = (Firmware.boot flash now history).run es) (hidle : Idle port bus)
    (hquiet : bus.firmware.Quiet) (hpending : bus.firmware.loader.pending = none)
    {program : Program} (hprogram : bus.firmware.loader.program = some program)
    {expected : List UInt8} (hpages : 8 ∣ expected.length)
    (hin : bus.firmware.loader.InMap 0 0 expected.length) {sequence : Nat}
    (hsequence : sequence < 256) (hslept : 12 < Firmware.mains (bus.passing 1)) :
    let asked := (bus.asked (resetFrame sequence)).2
    ∃ l, l.program = some program ∧ l.mapLengths = bus.firmware.loader.mapLengths ∧
      (∃ before e after, bus.passing 1 = before ++ e :: after ∧ (asked.run before).Reboots e ∧
        asked.run (before ++ [e]) = Firmware.boot bus.reach.firmware.flash
          (asked.run before).captured.now (.reset :: (asked.run before).captured.history) ∧
        (asked.run (before ++ [e])).loader = l) ∧
      Passes (checkReset expected sequence) port bus (1 + expected.length / 4)
        ((sequence + 1 + expected.length / 4) % 256) l (Vector.replicate _ 0) := by
  intro asked
  obtain ⟨n, hn⟩ := hpages
  have hmirrored : Firmware.Mirrored bus.reach.firmware.loader bus.reach.firmware.flash := by
    rw [Bus.reach_boot hboot]
    exact Firmware.mirrored_run flash now history _
  have hrebooted :=
    Firmware.shows_rebooted (shows_reach hquiet hpending) hmirrored hprogram hslept
  rw [← asked_reset bus sequence] at hrebooted
  obtain ⟨l, hprogram', hlengths, ⟨ds, hlaid⟩, hreboots, hcleared⟩ := hrebooted
  refine ⟨l, hprogram', hlengths, hreboots, ?_⟩
  have hin' : l.InMap 0 0 (0 + 8 * n) := by
    obtain ⟨size, hsize, hle⟩ := hin
    exact ⟨size, hlengths ▸ hsize, by omega⟩
  have hfits := (hin'.bounds hlaid).2
  have hoffsets := pageOffsets_of_pages hn
  have hcount : 1 + expected.length / 4 = 1 + (2 * n + 0) := by omega
  have hnext : (sequence + 1 + expected.length / 4) % 256 =
      ((sequence + 1) % 256 + 2 * n) % 256 := by omega
  have hzeros : ((Vector.replicate bpfMaxMapBytes (0 : UInt8)).toList.drop 0).take (8 * n) =
      List.replicate expected.length 0 := by
    rw [List.drop_zero, Vector.toList_replicate, List.take_replicate, hn]
    congr 1
    show min (8 * n) 1024 = 8 * n
    omega
  rw [checkReset_eq, hoffsets, hnext, hcount]
  refine (resetTarget_passes hidle hsequence hcleared).bind fun idle₁ after₁ hidle₁ hshows₁ _ => ?_
  have hread := readPages_passes hlaid n hin' hidle₁ hshows₁
    (Nat.mod_lt (sequence + 1) (by decide))
  rw [hzeros] at hread
  refine hread.bind fun idle₂ after₂ hidle₂ hshows₂ _ => ?_
  simp only [ne_eq, not_true_eq_false, if_false]
  exact .pure hidle₂ hshows₂ _

/-- The target with a map, whose main loop runs on while the host sleeps. -/
def sleptBus : Bus Chip ResponseSlot :=
  { mappedBus with
    turns := fun k =>
      if k = 1 then { Transaction.plain with before := List.replicate 13 (.main true) }
      else .plain }

/-- Its two pages are cleared, and it has the program it had. -/
theorem reset_clears_maps_mapped : ∃ (l : BpfLoader) (port' : Port (Bus Chip ResponseSlot)),
    l.program = sleptBus.firmware.loader.program ∧ l.mapLengths = [16] ∧
      Returns (checkReset twoPages 1) (opened sleptBus) 6 port' := by
  have hpages : 8 ∣ twoPages.length := by decide
  have hsome : sleptBus.firmware.loader.program.isSome := by decide +kernel
  obtain ⟨program, hprogram⟩ := Option.isSome_iff_exists.mp hsome
  obtain ⟨l, hadopted, hlengths, -, idle, -, hreturns⟩ := reset_clears_maps mappedFlash 0 [] []
    rfl (idle_opened sleptBus) ready_mapped.quiet mapped_loader.1 hprogram hpages
    ⟨16, congrArg (fun lengths : List Nat => lengths[0]?) mapped_loader.2, by decide⟩
    (show 1 < 256 by decide) (by decide)
  refine ⟨l, idle, hadopted.trans hprogram.symm, hlengths.trans mapped_loader.2,
    hreturns.returns fun k _ => ?_⟩
  show Transaction.Answered (if k = 1 then _ else Transaction.plain)
  split_ifs
  · exact ⟨rfl, rfl⟩
  · exact answered_plain

end Host

end OptiBridge
