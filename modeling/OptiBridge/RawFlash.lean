import OptiBridge.Boot
import OptiBridge.RawLoader

/-!
# OptiBridge.RawFlash

The flash work of the loader, once more, with its panics spelled out: boot
validation and the deferred operations.  A pending operation may hold any length
and any number of maps; it is the invariant of the reachable loaders, and at boot
the header check, that rules the panics out.

What bounds the arithmetic is in three places: an accepted Begin keeps to the
limits of an image, an executed Data stays below the image's length, and a
header that boot accepts has passed the same limits.  The first two are the
loader invariant (`BpfLoader.Sane`); the third is local to `validateCommitted`,
whose lemma therefore needs no hypothesis at all.
-/

namespace OptiBridge

open Bytes

namespace Raw

open Checked

/-! ## flash work -/

/- The flash itself is a parameter; what may panic is the arithmetic on
addresses and lengths, and the copies into the header. -/

section flash

variable {F : Type} [BpfFlash F]

/-- `BPF_FLASH_OFFSET + BPF_HEADER_SIZE as u32 + offset as u32`. -/
def imageAddress (offset : Nat) : Checked UInt32 := do
  let image ← add 32 bpfFlashOffset.toNat bpfHeaderSize
  let offset ← cast 32 offset
  let address ← add 32 image offset
  pure (UInt32.ofNat address)

/-- Where `map_layouts` reads its descriptor number `i`. -/
def descriptorAddress (bytecodeLen : UInt16) (i : Nat) : Checked UInt32 := do
  let bytecodeEnd ← imageAddress bytecodeLen.toNat
  let descriptors ← mul 32 i bpfMapDescriptorSize
  let descriptors ← cast 32 descriptors
  let address ← add 32 bytecodeEnd.toNat descriptors
  pure (UInt32.ofNat address)

/-- The loop body of `map_layouts`: one descriptor, laid out after `total` bytes. -/
def mapLayout (total : UInt32) (descriptor : Vector UInt8 bpfMapDescriptorSize) :
    Checked (Option (MapLayout × UInt32)) := do
  let mapType ← u32At descriptor.toList 0
  let keySize ← u32At descriptor.toList 4
  let valueSize ← u32At descriptor.toList 8
  let maxEntries ← u32At descriptor.toList 12
  match checkedMul valueSize maxEntries with
  | none => pure none
  | some bytes =>
      match checkedAdd total bytes with
      | none => pure none
      | some nextTotal =>
          if mapType ≠ 1 ∨ keySize ≠ 4 ∨ valueSize = 0 ∨ maxEntries = 0 ∨
              bpfMaxMapBytes < nextTotal.toNat then pure none
          else
            let offset ← cast 16 total.toNat
            let len ← cast 16 bytes.toNat
            pure (some (⟨UInt16.ofNat offset, UInt16.ofNat len, keySize, valueSize⟩, nextTotal))

/-- The loop of `map_layouts`, from `i` on. -/
def mapLayoutsFrom (flash : F) (bytecodeLen : UInt16) (mapCount i : Nat) (total : UInt32)
    (layouts : Vector MapLayout bpfMaxMaps) :
    Checked (Option (Vector MapLayout bpfMaxMaps) × F) :=
  if i < mapCount then do
    let offset ← descriptorAddress bytecodeLen i
    match BpfFlash.read flash offset bpfMapDescriptorSize with
    | (.error _, flash) => pure (none, flash)
    | (.ok descriptor, flash) => do
        match ← mapLayout total descriptor with
        | none => pure (none, flash)
        | some (layout, nextTotal) =>
            let layouts ← set layouts i layout
            mapLayoutsFrom flash bytecodeLen mapCount (i + 1) nextTotal layouts
  else pure (some layouts, flash)
termination_by mapCount - i
decreasing_by omega

/-- `map_layouts`.  That there are at most eight maps is an assertion here; the
source would index past its layouts at the ninth valid descriptor. -/
def mapLayouts (flash : F) (bytecodeLen : UInt16) (mapCount : UInt8) :
    Checked (Option (Vector MapLayout bpfMaxMaps × UInt8) × F) := do
  ensure (mapCount.toNat ≤ bpfMaxMaps)
  match ← mapLayoutsFrom flash bytecodeLen mapCount.toNat 0 0 (Vector.replicate _ .EMPTY) with
  | (none, flash) => pure (none, flash)
  | (some layouts, flash) => pure (some (layouts, mapCount), flash)

/-- The image loop of `validate_committed`, from `offset` on. -/
def imageCrcFrom (flash : F) (imageLen offset : Nat) (crc : UInt32)
    (chunk : Vector UInt8 maxPayload) : Checked (Except Unit UInt32 × F) :=
  if offset < imageLen then do
    let _ ← sub imageLen offset
    let length := min maxPayload (imageLen - offset)
    let address ← imageAddress offset
    let _ ← slice chunk.toList 0 length
    match BpfFlash.read flash address length with
    | (.error _, flash) => pure (.error (), flash)
    | (.ok bytes, flash) => do
        let chunk ← copyFromSlice chunk 0 length bytes.toList
        let filled ← slice chunk.toList 0 length
        let crc ← crc32Update crc filled
        let _ ← add 32 offset length
        imageCrcFrom flash imageLen (offset + length) crc chunk
  else pure (.ok crc, flash)
termination_by imageLen - offset
decreasing_by simp only [maxPayload]; omega

/-- Where `begin`'s erase ends. -/
def eraseEnd (imageLen : Nat) : Checked UInt32 := do
  let covered ← add 32 bpfHeaderSize imageLen
  let bytes ← mul 32 (divCeil covered 4096) 4096
  let bytes ← cast 32 bytes
  let address ← add 32 bpfFlashOffset.toNat bytes
  pure (UInt32.ofNat address)

/-- The header a Begin writes: two copies and three bytes at fixed places. -/
def beginHeader (bytecodeLen : UInt16) (mapCount : UInt8) (expectedCrc : UInt32) :
    Checked (Vector UInt8 bpfHeaderSize) := do
  let header ← copyFromSlice (Vector.replicate bpfHeaderSize 0xff) 0 4 imageMagic
  let header ← set header 4 1
  let header ← set header 5 mapCount
  let header ← copyFromSlice header 6 8 (toLe 2 bytecodeLen.toNat)
  copyFromSlice header 8 12 (toLe 4 expectedCrc.toNat)

/-- Execute a Begin.  The image length is unwrapped here; acceptance has computed
it before. -/
def begin (self : BpfLoader) (flash : F) (bytecodeLen : UInt16) (mapCount : UInt8)
    (expectedCrc : UInt32) : Checked (BpfLoader × F) :=
  let self := self.clearMapLayouts
  match imageLen bytecodeLen mapCount with
  | none => pure ({ self with state := .failed statusFlashError }, flash)
  | some imageLen => do
      let eraseEnd ← eraseEnd imageLen
      match BpfFlash.erase flash bpfFlashOffset eraseEnd with
      | (.error _, flash) => pure ({ self with state := .failed statusFlashError }, flash)
      | (.ok _, flash) => do
          let header ← beginHeader bytecodeLen mapCount expectedCrc
          match BpfFlash.write flash bpfFlashOffset header.toList with
          | (.error _, flash) => pure ({ self with state := .failed statusFlashError }, flash)
          | (.ok _, flash) => do
              let imageLen ← cast 16 imageLen
              pure ({ self with
                  state := .receiving
                  bytecodeLen := bytecodeLen
                  mapCount := mapCount
                  imageLen := UInt16.ofNat imageLen
                  nextOffset := 0
                  expectedCrc := expectedCrc
                  crc := 0xffffffff }, flash)

/-- The `Data` arm of `execute_pending`. -/
def data (self : BpfLoader) (flash : F) (offset : UInt16) (bytes : Vector UInt8 12)
    (len : UInt8) : Checked (BpfLoader × F) := do
  let address ← imageAddress offset.toNat
  let fragment ← slice bytes.toList 0 len.toNat
  match BpfFlash.write flash address fragment with
  | (.error _, flash) => pure ({ self with state := .failed statusFlashError }, flash)
  | (.ok _, flash) => do
      let crc ← crc32Update self.crc fragment
      let nextOffset ← add 16 self.nextOffset.toNat len.toNat
      pure ({ self with crc := crc, nextOffset := UInt16.ofNat nextOffset }, flash)

/-- Execute a Finalize. -/
def finalize (self : BpfLoader) (flash : F) : Checked (BpfLoader × F) :=
  if crc32Finish self.crc ≠ self.expectedCrc then
    pure ({ self with state := .failed statusBadCrc }, flash)
  else do
    match ← mapLayouts flash self.bytecodeLen self.mapCount with
    | (none, flash) => pure ({ self with state := .failed statusBadState }, flash)
    | (some (mapLayouts, committedMapCount), flash) => do
        let marker ← add 32 bpfFlashOffset.toNat 12
        match BpfFlash.write flash (UInt32.ofNat marker) [0, 0] with
        | (.error _, flash) => pure ({ self with state := .failed statusFlashError }, flash)
        | (.ok _, flash) =>
            pure ({ self with
                state := .committed self.expectedCrc
                mapLayouts := mapLayouts
                committedMapCount := committedMapCount }, flash)

/-- Execute what is pending. -/
def executePending (self : BpfLoader) (flash : F) : Checked (BpfLoader × F) :=
  match self.pending with
  | none => pure (self, flash)
  | some operation =>
      let self := { self with pending := none }
      match operation with
      | .begin bytecodeLen mapCount expectedCrc => begin self flash bytecodeLen mapCount expectedCrc
      | .data offset bytes len => data self flash offset bytes len
      | .finalize => finalize self flash

/-- The header check of `validate_committed`, bounds included. -/
def acceptedHeader (header : Vector UInt8 bpfHeaderSize) :
    Checked (Option (UInt16 × UInt8 × Nat)) := do
  let imageMagicBytes ← slice header.toList 0 4
  let version ← index header 4
  let committed ← u16At header.toList 12
  let reserved ← slice header.toList 14 bpfHeaderSize
  if imageMagicBytes ≠ imageMagic ∨ version ≠ 1 ∨ committed ≠ 0 ∨ reserved ≠ [0xff, 0xff] then
    pure none
  else
    let bytecodeLen ← u16At header.toList 6
    let mapCount ← index header 5
    match imageLen bytecodeLen mapCount with
    | none => pure none
    | some imageLen =>
        if ← badBounds bytecodeLen mapCount imageLen then pure none
        else pure (some (bytecodeLen, mapCount, imageLen))

/-- Boot: adopt the image flash holds. -/
def validateCommitted (self : BpfLoader) (flash : F) : Checked (BpfLoader × F) :=
  let self := self.clearMapLayouts
  let rejected : BpfLoader := { self with state := .empty }
  let broken : BpfLoader := { self with state := .failed statusFlashError }
  match BpfFlash.read flash bpfFlashOffset bpfHeaderSize with
  | (.error _, flash) => pure (broken, flash)
  | (.ok header, flash) => do
      match ← acceptedHeader header with
      | none => pure (rejected, flash)
      | some (bytecodeLen, mapCount, imageLen) =>
          let expectedCrc ← u32At header.toList 8
          match ← imageCrcFrom flash imageLen 0 0xffffffff (Vector.replicate _ 0) with
          | (.error _, flash) => pure (broken, flash)
          | (.ok crc, flash) =>
              match ← mapLayouts flash bytecodeLen mapCount with
              | (none, flash) => pure (rejected, flash)
              | (some (mapLayouts, committedMapCount), flash) =>
                  if crc32Finish crc ≠ expectedCrc then pure (rejected, flash)
                  else
                    pure ({ self with
                        state := .committed expectedCrc
                        bytecodeLen := bytecodeLen
                        mapCount := mapCount
                        mapLayouts := mapLayouts
                        committedMapCount := committedMapCount }, flash)

end flash

end Raw

/-! ## in bounds, nothing panics -/

/- Most of what follows is arithmetic: an image is below 2^13 bytes, an address
below 2^15, and 32 bits are plenty for either. -/

section bounds

open Checked

section flash

variable {F : Type} [BpfFlash F] {self : BpfLoader} {flash : F}

/-- An offset within the image keeps the address within 32 bits. -/
theorem imageAddress_ok {offset : Nat} (h : offset < 2 ^ 31) :
    Raw.imageAddress offset =
      .ok (bpfFlashOffset + UInt32.ofNat bpfHeaderSize + UInt32.ofNat offset) := by
  have himage : bpfFlashOffset.toNat + bpfHeaderSize = 24592 := rfl
  unfold Raw.imageAddress
  rw [add_ok (by rw [himage]; omega), ok_bind, cast_ok (by omega), ok_bind,
    add_ok (by rw [himage]; omega), ok_bind, UInt32.ofNat_add, UInt32.ofNat_add,
    UInt32.ofNat_toNat]
  rfl

/-- Widening a `u16` by way of a number is widening it. -/
theorem ofNat_toNat_eq_toUInt32 (n : UInt16) : UInt32.ofNat n.toNat = n.toUInt32 := by
  apply UInt32.toNat_inj.mp
  have hlt := n.toNat_lt
  rw [UInt32.toNat_ofNat_of_lt' (by show _ < 2 ^ 32; omega), UInt16.toNat_toUInt32]

/-- Widening a `u8` by way of a number is widening it. -/
theorem ofNat_toNat_eq_toUInt16 (n : UInt8) : UInt16.ofNat n.toNat = n.toUInt16 := by
  apply UInt16.toNat_inj.mp
  have hlt := n.toNat_lt
  rw [UInt16.toNat_ofNat_of_lt' (by show _ < 2 ^ 16; omega), UInt8.toNat_toUInt16]

/-- The address of each of eight descriptors, behind any bytecode, stays within
32 bits. -/
theorem descriptorAddress_ok (bytecodeLen : UInt16) {i : Nat} (h : i < 8) :
    Raw.descriptorAddress bytecodeLen i =
      .ok (bpfFlashOffset + UInt32.ofNat bpfHeaderSize + bytecodeLen.toUInt32 +
        UInt32.ofNat (i * bpfMapDescriptorSize)) := by
  have hbytecode := bytecodeLen.toNat_lt
  have hdescriptors : i * bpfMapDescriptorSize < 128 := by
    show i * 16 < 128
    omega
  have hend : (bpfFlashOffset + UInt32.ofNat bpfHeaderSize +
      UInt32.ofNat bytecodeLen.toNat).toNat < 2 ^ 31 := by
    have himage : bpfFlashOffset + UInt32.ofNat bpfHeaderSize = UInt32.ofNat 24592 := rfl
    rw [himage, ← UInt32.ofNat_add, UInt32.toNat_ofNat_of_lt' (by show _ < 2 ^ 32; omega)]
    omega
  unfold Raw.descriptorAddress
  rw [imageAddress_ok (by omega), ok_bind, mul_ok (by omega), ok_bind, cast_ok (by omega),
    ok_bind, add_ok (by omega), ok_bind, UInt32.ofNat_add, UInt32.ofNat_toNat,
    ofNat_toNat_eq_toUInt32]
  rfl

/-- A `checked_add` that gives a sum gives the sum. -/
theorem checkedAdd_toNat {a b sum : UInt32} (h : checkedAdd a b = some sum) :
    sum.toNat = a.toNat + b.toNat := by
  rw [checkedAdd_eq] at h
  split_ifs at h with hlt
  rw [← Option.some.inj h, UInt32.toNat_ofNat_of_lt' hlt]

/-- Within the backing, a layout's offset and length fit their fields. -/
theorem raw_mapLayout {total : UInt32} (htotal : total.toNat ≤ bpfMaxMapBytes)
    (descriptor : Vector UInt8 bpfMapDescriptorSize) :
    Raw.mapLayout total descriptor = .ok (mapLayout total descriptor) := by
  have htotal : total.toNat ≤ 1024 := htotal
  unfold Raw.mapLayout mapLayout
  rw [u32At_vector _ (by decide), ok_bind, u32At_vector _ (by decide), ok_bind,
    u32At_vector _ (by decide), ok_bind, u32At_vector _ (by decide), ok_bind]
  simp only [Nat.zero_add]
  cases checkedMul (u32FromLeBytes descriptor[8] descriptor[9] descriptor[10] descriptor[11])
      (u32FromLeBytes descriptor[12] descriptor[13] descriptor[14] descriptor[15]) with
  | none => rfl
  | some bytes =>
      simp only
      cases hsum : checkedAdd total bytes with
      | none => rfl
      | some nextTotal =>
          simp only
          split_ifs with hbad
          · rfl
          · simp only [not_or, Nat.not_lt] at hbad
            have hnext := checkedAdd_toNat hsum
            have hfits : nextTotal.toNat ≤ 1024 := hbad.2.2.2.2
            rw [cast_ok (by omega), ok_bind, cast_ok (by omega), ok_bind]
            rfl

/-- A layout that is accepted leaves the running total within the backing, so
the casts to `u16` that record it lose nothing. -/
theorem mapLayout_total_le {total nextTotal : UInt32} (htotal : total.toNat ≤ bpfMaxMapBytes)
    {descriptor : Vector UInt8 bpfMapDescriptorSize} {layout : MapLayout}
    (h : mapLayout total descriptor = some (layout, nextTotal)) :
    nextTotal.toNat ≤ bpfMaxMapBytes := by
  rw [mapLayout_eq htotal] at h
  split_ifs at h with hgood
  rw [Option.some.injEq, Prod.mk.injEq] at h
  rw [← h.2, UInt32.toNat_ofNat_of_lt' (Nat.lt_of_le_of_lt hgood.2 (by decide))]
  exact hgood.2

/-- The descriptor loop never leaves the layouts when there are at most eight maps. -/
theorem raw_mapLayoutsFrom (flash : F) (bytecodeLen : UInt16) {mapCount : Nat}
    (hcount : mapCount ≤ bpfMaxMaps) (i : Nat) {total : UInt32}
    (htotal : total.toNat ≤ bpfMaxMapBytes) (layouts : Vector MapLayout bpfMaxMaps) :
    Raw.mapLayoutsFrom flash bytecodeLen mapCount i total layouts =
      .ok (mapLayoutsFrom flash bytecodeLen mapCount i total layouts) := by
  have hcount : mapCount ≤ 8 := hcount
  have hbytecode := bytecodeLen.toNat_lt
  fun_induction mapLayoutsFrom flash bytecodeLen mapCount i total layouts with
  | case1 flash i total layouts hlt offset error flash' hread =>
      unfold Raw.mapLayoutsFrom
      simp only [offset] at hread
      rw [if_pos hlt, descriptorAddress_ok _ (by omega), ok_bind, hread]
      rfl
  | case2 flash i total layouts hlt offset descriptor flash' hread hbad =>
      unfold Raw.mapLayoutsFrom
      simp only [offset] at hread
      rw [if_pos hlt, descriptorAddress_ok _ (by omega), ok_bind, hread]
      simp only
      rw [raw_mapLayout htotal, ok_bind, hbad]
      rfl
  | case3 flash i total layouts hlt offset descriptor flash' hread layout nextTotal hgood ih =>
      have hroom : i < bpfMaxMaps := Nat.lt_of_lt_of_le hlt hcount
      unfold Raw.mapLayoutsFrom
      simp only [offset] at hread
      rw [if_pos hlt, descriptorAddress_ok _ (by omega), ok_bind, hread]
      simp only
      rw [raw_mapLayout htotal, ok_bind, hgood]
      simp only
      rw [set_ok _ _ hroom, ok_bind, ← setIfInBounds_of_lt _ _ hroom,
        ih (mapLayout_total_le htotal hgood)]
  | case4 flash i total layouts hge =>
      unfold Raw.mapLayoutsFrom
      rw [if_neg hge]
      rfl

/-- For at most eight maps the descriptors are read and the layouts filled in
without a panic: the total that is cast never exceeds the backing. -/
theorem raw_mapLayouts (flash : F) (bytecodeLen : UInt16) {mapCount : UInt8}
    (hcount : mapCount.toNat ≤ bpfMaxMaps) :
    Raw.mapLayouts flash bytecodeLen mapCount = .ok (mapLayouts flash bytecodeLen mapCount) := by
  unfold Raw.mapLayouts mapLayouts
  rw [ensure_ok hcount, ok_bind, raw_mapLayoutsFrom flash bytecodeLen hcount 0 (Nat.zero_le _),
    ok_bind]
  obtain ⟨layouts, flash'⟩ := mapLayoutsFrom flash bytecodeLen mapCount.toNat 0 0
    (Vector.replicate _ .EMPTY)
  cases layouts <;> rfl

/-- The image loop reads into the front of its chunk and out of it again. -/
theorem raw_imageCrcFrom (flash : F) {imageLen : Nat} (h : imageLen < 2 ^ 31) (offset : Nat)
    (crc : UInt32) (chunk : Vector UInt8 maxPayload) :
    Raw.imageCrcFrom flash imageLen offset crc chunk =
      .ok (imageCrcFrom flash imageLen offset crc) := by
  fun_induction imageCrcFrom flash imageLen offset crc generalizing chunk with
  | case1 flash offset crc hlt length error flash' hread =>
      unfold Raw.imageCrcFrom
      rw [if_pos hlt, sub_ok (by omega), ok_bind, imageAddress_ok (by omega), ok_bind,
        slice_zero (by simp), ok_bind, hread]
      rfl
  | case2 flash offset crc hlt length bytes flash' hread ih =>
      have hfits : length ≤ 16 := Nat.min_le_left ..
      have hcopied : (copySlice chunk 0 bytes.toList).toList.take length = bytes.toList := by
        have htake := take_copySlice_zero chunk bytes.toList (by simpa using hfits)
        rwa [Vector.length_toList] at htake
      unfold Raw.imageCrcFrom
      rw [if_pos hlt, sub_ok (by omega), ok_bind, imageAddress_ok (by omega), ok_bind,
        slice_zero (by simp), ok_bind, hread]
      simp only
      rw [copyFromSlice_ok _ (by simp [length]) hfits, ok_bind,
        slice_zero (by simp), ok_bind, hcopied,
        raw_crc32Update _ (by simp; omega), ok_bind, add_ok (by omega), ok_bind, ih]
  | case3 flash offset crc hge =>
      unfold Raw.imageCrcFrom
      rw [if_neg hge]
      rfl

/-- A rounded-up quotient is at most one more than the other. -/
theorem divCeil_le (a b : Nat) : divCeil a b ≤ a / b + 1 := by
  unfold divCeil
  split_ifs <;> omega

/-- The end of the erased pages is computed within 32 bits. -/
theorem raw_eraseEnd {imageLen : Nat} (h : imageLen < 2 ^ 20) :
    Raw.eraseEnd imageLen = .ok (eraseEnd imageLen) := by
  have hcovered : bpfHeaderSize + imageLen < 2 ^ 21 := by
    show 16 + imageLen < 2 ^ 21
    omega
  have hpages := divCeil_le (bpfHeaderSize + imageLen) 4096
  have hoffset : bpfFlashOffset.toNat = 24576 := rfl
  unfold Raw.eraseEnd eraseEnd
  rw [add_ok (by omega), ok_bind, mul_ok (by omega), ok_bind, cast_ok (by omega), ok_bind,
    add_ok (by omega), ok_bind, UInt32.ofNat_add, UInt32.ofNat_toNat]
  rfl

/-- Every copy into the header has the length of its place. -/
theorem raw_beginHeader (bytecodeLen : UInt16) (mapCount : UInt8) (expectedCrc : UInt32) :
    Raw.beginHeader bytecodeLen mapCount expectedCrc =
      .ok (BpfLoader.beginHeader bytecodeLen mapCount expectedCrc) := by
  unfold Raw.beginHeader BpfLoader.beginHeader
  rw [copyFromSlice_ok _ (by rfl) (by decide), ok_bind, set_ok _ _ (by decide), ok_bind,
    set_ok _ _ (by decide), ok_bind, copyFromSlice_ok _ (by rw [length_toLe]) (by decide), ok_bind,
    copyFromSlice_ok _ (by rw [length_toLe]) (by decide)]

/-- A Begin within the limits is executed without a panic. -/
theorem raw_begin {bytecodeLen : UInt16} {mapCount : UInt8} (expectedCrc : UInt32)
    (hbounds : GoodBounds bytecodeLen mapCount) :
    Raw.begin self flash bytecodeLen mapCount expectedCrc =
      .ok (self.begin flash bytecodeLen mapCount expectedCrc) := by
  have hbytecode := hbounds.bytecode
  have hmaps := hbounds.maps
  unfold Raw.begin BpfLoader.begin
  simp only [imageLen_eq]
  rw [raw_eraseEnd (by omega), ok_bind]
  obtain ⟨erased, flash'⟩ := BpfFlash.erase flash bpfFlashOffset
    (eraseEnd (bytecodeLen.toNat + 16 * mapCount.toNat))
  cases erased with
  | error => rfl
  | ok =>
      simp only
      rw [raw_beginHeader, ok_bind]
      obtain ⟨written, flash''⟩ := BpfFlash.write flash' bpfFlashOffset
        (BpfLoader.beginHeader bytecodeLen mapCount expectedCrc).toList
      cases written with
      | error => rfl
      | ok =>
          simp only
          rw [cast_ok (by omega), ok_bind]
          rfl

/-- A Data that fits the loader's counters is executed without a panic: its
slice ends within its twelve bytes, and the next offset within 16 bits. -/
theorem raw_data {offset : UInt16} {bytes : Vector UInt8 12} {len : UInt8}
    (hlen : len.toNat ≤ 12) (hnext : self.nextOffset.toNat + len.toNat < 2 ^ 16) :
    Raw.data self flash offset bytes len = .ok (self.data flash offset bytes len) := by
  have hoffset := offset.toNat_lt
  have hcount : (bytes.toList.take len.toNat).length < 2 ^ 32 := by simp
  unfold Raw.data BpfLoader.data
  simp only
  rw [imageAddress_ok (by omega), ok_bind, slice_zero (by simpa using hlen), ok_bind,
    ofNat_toNat_eq_toUInt32]
  obtain ⟨written, flash'⟩ := BpfFlash.write flash
    (bpfFlashOffset + UInt32.ofNat bpfHeaderSize + offset.toUInt32) (bytes.toList.take len.toNat)
  cases written with
  | error => rfl
  | ok =>
      simp only
      rw [raw_crc32Update _ hcount, ok_bind, add_ok hnext, ok_bind, UInt16.ofNat_add,
        UInt16.ofNat_toNat, ofNat_toNat_eq_toUInt16]
      rfl

/-- A Finalize of at most eight maps is executed without a panic. -/
theorem raw_finalize (hcount : self.mapCount.toNat ≤ bpfMaxMaps) :
    Raw.finalize self flash = .ok (self.finalize flash) := by
  unfold Raw.finalize BpfLoader.finalize
  split_ifs with hcrc
  · rfl
  · rw [raw_mapLayouts _ _ hcount, ok_bind]
    obtain ⟨layouts, flash'⟩ := mapLayouts flash self.bytecodeLen self.mapCount
    cases layouts with
    | none => rfl
    | some layouts =>
        simp only
        rw [add_ok (by decide), ok_bind]
        have hmarker : UInt32.ofNat (bpfFlashOffset.toNat + 12) = bpfFlashOffset + 12 := rfl
        rw [hmarker]
        obtain ⟨written, flash''⟩ := BpfFlash.write flash' (bpfFlashOffset + 12) [0, 0]
        cases written <;> rfl

/-- A sane loader executes its pending operation without a panic. -/
theorem raw_executePending (hsane : self.Sane) :
    Raw.executePending self flash = .ok (self.executePending flash) := by
  unfold Raw.executePending BpfLoader.executePending
  cases hpending : self.pending with
  | none => rfl
  | some operation =>
      have haccepts := (hsane.pending operation hpending).2
      cases operation with
      | begin bytecodeLen mapCount expectedCrc =>
          obtain ⟨n, -, hbounds⟩ := haccepts
          exact raw_begin expectedCrc (goodBounds_of_not_bad hbounds)
      | data offset bytes len =>
          obtain ⟨-, rfl, ⟨-, hlen⟩, -, hfit⟩ := haccepts
          exact raw_data hlen (Nat.lt_of_le_of_lt hfit self.imageLen.toNat_lt)
      | finalize => exact raw_finalize (hsane.transfer haccepts.1).1.maps

/-- The header check indexes sixteen bytes at fixed places, and multiplies a map
count it has not bounded yet; the product is small all the same. -/
theorem raw_acceptedHeader (header : Vector UInt8 bpfHeaderSize) :
    Raw.acceptedHeader header = .ok (BpfLoader.acceptedHeader header) := by
  have hbytecode := (u16FromLeBytes header[6] header[7]).toNat_lt
  have hmaps := header[5].toNat_lt
  have hlen : Raw.u16At header.toList 6 = .ok (u16FromLeBytes header[6] header[7]) :=
    u16At_vector _ (by decide)
  have hmarker : Raw.u16At header.toList 12 = .ok (u16FromLeBytes header[12] header[13]) :=
    u16At_vector _ (by decide)
  have hreserved : slice header.toList 14 bpfHeaderSize = .ok (header.toList.drop 14) := by
    rw [slice_ok (by decide) (by simp), List.take_of_length_le (by simp)]
  unfold Raw.acceptedHeader BpfLoader.acceptedHeader
  rw [slice_zero (by simp [bpfHeaderSize]), ok_bind, index_vector _ (by decide), ok_bind, hmarker,
    ok_bind, hreserved, ok_bind]
  split_ifs with hmagic
  · rfl
  · rw [hlen, ok_bind, index_vector _ (by decide), ok_bind]
    simp only [imageLen_eq]
    rw [badBounds_ok _ _ (by omega), ok_bind]
    simp only [decide_eq_true_eq]
    split_ifs <;> rfl

/-- A boot over any flash, whatever it holds and however it reads, validates
without a panic. -/
theorem raw_validateCommitted (self : BpfLoader) (flash : F) :
    Raw.validateCommitted self flash = .ok (self.validateCommitted flash) := by
  have hsmall : ∀ {header : Vector UInt8 bpfHeaderSize} {bytecodeLen mapCount n},
      BpfLoader.acceptedHeader header = some (bytecodeLen, mapCount, n) →
      mapCount.toNat ≤ bpfMaxMaps ∧ n < 2 ^ 31 := by
    intro header bytecodeLen mapCount n hheader
    obtain ⟨-, hbounds, rfl⟩ := acceptedHeader_eq_some.mp hheader
    have hbytecode := hbounds.bytecode
    have hmaps := hbounds.maps
    exact ⟨hmaps, by omega⟩
  have hcrcField : ∀ header : Vector UInt8 bpfHeaderSize,
      Raw.u32At header.toList 8 = .ok (BpfLoader.headerCrc header) := fun header =>
    u32At_vector header (by decide)
  have hstep := self.validate_step flash
  generalize self.validateCommitted flash = out at hstep ⊢
  unfold Raw.validateCommitted
  cases hstep with
  | headerUnread hread =>
      simp only [hread]
      rfl
  | badHeader hread hheader =>
      simp only [hread, raw_acceptedHeader, ok_bind, hheader]
      rfl
  | imageUnread hread hheader himage =>
      simp only [hread, raw_acceptedHeader, ok_bind, hheader, hcrcField,
        raw_imageCrcFrom _ (hsmall hheader).2, himage]
      rfl
  | badMaps hread hheader himage hmaps =>
      simp only [hread, raw_acceptedHeader, ok_bind, hheader, hcrcField,
        raw_imageCrcFrom _ (hsmall hheader).2, himage, raw_mapLayouts _ _ (hsmall hheader).1, hmaps]
      rfl
  | badCrc hread hheader himage hmaps hcrc =>
      simp only [hread, raw_acceptedHeader, ok_bind, hheader, hcrcField,
        raw_imageCrcFrom _ (hsmall hheader).2, himage, raw_mapLayouts _ _ (hsmall hheader).1, hmaps,
        if_pos hcrc]
      rfl
  | committed hread hheader himage hmaps hcrc =>
      simp only [hread, raw_acceptedHeader, ok_bind, hheader, hcrcField,
        raw_imageCrcFrom _ (hsmall hheader).2, himage, raw_mapLayouts _ _ (hsmall hheader).1, hmaps,
        if_neg (not_not.mpr hcrc)]
      rfl

end flash

end bounds

end OptiBridge
