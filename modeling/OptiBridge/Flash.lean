import OptiBridge.Lib.Nor
import OptiBridge.Image

/-!
# OptiBridge.Flash

The loader over a NOR chip.  A driver call is one logged operation; the two
loops that read flash (`imageCrcFrom`, `mapLayoutsFrom`) are related to what
the chip holds, so that everything above talks about contents and logs only.

`read_eq_ok` and its five siblings are the driver's specification: they turn the
result of a call into the outcome the chip had for it.  Both loops are instances
of one relation (`ReadLoop`), which has two rules: stop, because there is no
more or because a read failed, or read a piece and go on.

* `imageCrcFrom_spec`, the loop over the image: the CRC of what the chip
  holds, unless a read fails;
* `mapLayouts_spec`, the loop over the descriptors: their layouts if they are
  valid, unless a read fails.
-/

namespace OptiBridge

open Nor

/-! ## the driver -/

/- The driver turns `u32` addresses into numbers and a failed outcome into an
error. -/

/-- What the driver reports for an outcome. -/
def resultOf {α : Type} (o : Outcome) (value : α) : Except Unit α :=
  match o with
  | .done => .ok value
  | .failed _ => .error ()

instance : BpfFlash Chip where
  read f offset len :=
    (resultOf f.next (vectorAt f.contents offset.toNat len), f.push (.read offset.toNat len))
  write f offset bytes := (resultOf f.next (), f.push (.program offset.toNat bytes))
  erase f start stop := (resultOf f.next (), f.push (.erase start.toNat stop.toNat))

theorem resultOf_eq_ok {α : Type} {o : Outcome} {value result : α} :
    resultOf o value = .ok result ↔ o = .done ∧ value = result := by
  cases o <;> simp [resultOf]

theorem resultOf_eq_error {α : Type} {o : Outcome} {value : α} :
    resultOf o value = .error () ↔ ∃ residue, o = .failed residue := by
  cases o <;> simp [resultOf]

section calls

variable {f g : Chip} {offset : UInt32}

theorem read_eq_ok {len : Nat} {bytes : Vector UInt8 len}
    (h : BpfFlash.read f offset len = (.ok bytes, g)) :
    f.next = .done ∧ bytes = vectorAt f.contents offset.toNat len ∧
      g = f.push (.read offset.toNat len) := by
  injection h with hresult hchip
  obtain ⟨hnext, hbytes⟩ := resultOf_eq_ok.mp hresult
  exact ⟨hnext, hbytes.symm, hchip.symm⟩

theorem read_eq_error {len : Nat} (h : BpfFlash.read f offset len = (.error (), g)) :
    (∃ residue, f.next = .failed residue) ∧ g = f.push (.read offset.toNat len) := by
  injection h with hresult hchip
  exact ⟨resultOf_eq_error.mp hresult, hchip.symm⟩

theorem write_eq_ok {bytes : List UInt8} (h : BpfFlash.write f offset bytes = (.ok (), g)) :
    f.next = .done ∧ g = f.push (.program offset.toNat bytes) := by
  injection h with hresult hchip
  exact ⟨(resultOf_eq_ok.mp hresult).1, hchip.symm⟩

theorem write_eq_error {bytes : List UInt8}
    (h : BpfFlash.write f offset bytes = (.error (), g)) :
    (∃ residue, f.next = .failed residue) ∧ g = f.push (.program offset.toNat bytes) := by
  injection h with hresult hchip
  exact ⟨resultOf_eq_error.mp hresult, hchip.symm⟩

theorem erase_eq_ok {stop : UInt32} (h : BpfFlash.erase f offset stop = (.ok (), g)) :
    f.next = .done ∧ g = f.push (.erase offset.toNat stop.toNat) := by
  injection h with hresult hchip
  exact ⟨(resultOf_eq_ok.mp hresult).1, hchip.symm⟩

theorem erase_eq_error {stop : UInt32} (h : BpfFlash.erase f offset stop = (.error (), g)) :
    (∃ residue, f.next = .failed residue) ∧ g = f.push (.erase offset.toNat stop.toNat) := by
  injection h with hresult hchip
  exact ⟨resultOf_eq_error.mp hresult, hchip.symm⟩

end calls

/-! ## addresses -/

/- Fixed places as numbers, and sums of them that do not wrap. -/

/-- Where the header starts, and the image after it. -/
abbrev headerAddress : Nat := 0x6000
/-- Where bytecode and descriptors begin. -/
abbrev imageAddress : Nat := 0x6010
/-- Where the commit marker is, within the header. -/
abbrev markerAddress : Nat := 0x600c

/-- An offset that fits 16 bits does not carry the image out of the address
space. -/
theorem toNat_imageOffset {n : Nat} (h : n < 2 ^ 16) :
    (bpfFlashOffset + UInt32.ofNat bpfHeaderSize + UInt32.ofNat n).toNat = imageAddress + n := by
  rw [UInt32.toNat_add, UInt32.toNat_ofNat']
  show (0x6010 + n % 2 ^ 32) % 2 ^ 32 = 0x6010 + n
  omega

theorem toNat_dataOffset (offset : UInt16) :
    (bpfFlashOffset + UInt32.ofNat bpfHeaderSize + offset.toUInt32).toNat =
      imageAddress + offset.toNat := by
  have h := offset.toNat_lt
  rw [UInt32.toNat_add, UInt16.toNat_toUInt32]
  show (0x6010 + offset.toNat) % 2 ^ 32 = 0x6010 + offset.toNat
  omega

theorem toNat_descriptorOffset (bytecodeLen : UInt16) {index : Nat} (h : index < 256) :
    (bpfFlashOffset + UInt32.ofNat bpfHeaderSize + bytecodeLen.toUInt32 +
        UInt32.ofNat (index * bpfMapDescriptorSize)).toNat =
      imageAddress + bytecodeLen.toNat + 16 * index := by
  have hlen := bytecodeLen.toNat_lt
  rw [UInt32.toNat_add, toNat_dataOffset, UInt32.toNat_ofNat']
  show (0x6010 + bytecodeLen.toNat + index * 16 % 2 ^ 32) % 2 ^ 32 =
    0x6010 + bytecodeLen.toNat + 16 * index
  omega

/-- Begin erases one page, or two when header and image need them. -/
theorem toNat_eraseEnd {n : Nat} (h : n ≤ 8176) :
    (eraseEnd n).toNat = if n ≤ 4080 then 0x7000 else 0x8000 := by
  have hpages : divCeil (bpfHeaderSize + n) 4096 = if n ≤ 4080 then 1 else 2 := by
    show (if 0 < (16 + n) % 4096 then (16 + n) / 4096 + 1 else (16 + n) / 4096) = _
    split_ifs <;> omega
  rw [eraseEnd, hpages]
  split_ifs <;> rfl

/-! ## reading loops -/

/- A loop that reads a range piece by piece issues only reads within the range.
If all succeed it has seen the contents; if one fails it stops there. -/

/-- A logged read inside `[start, stop)`. -/
def ReadWithin (start stop : Nat) (p : Op × Outcome) : Prop :=
  ∃ offset len, p.1 = .read offset len ∧ start ≤ offset ∧ offset + len ≤ stop

/-- Reads that all succeed change nothing. -/
theorem replay_readsWithin (c : Contents) {reads : List (Op × Outcome)} {start stop : Nat}
    (hreads : ∀ p ∈ reads, ReadWithin start stop p) (hdone : ∀ p ∈ reads, p.2 = .done) :
    replay c reads = c := by
  refine replay_reads _ fun p hp => ?_
  obtain ⟨offset, len, hop, -⟩ := hreads p hp
  exact ⟨offset, len, Prod.ext hop (hdone p hp)⟩

/-- What a loop of reads did: the reads it issued stayed in a range, and its
result is `value` when they all succeeded and `unread` when one failed. -/
structure ReadLoop {α : Type} (f g : Chip) (start stop : Nat) (result value unread : α)
    (reads : List (Op × Outcome)) : Prop where
  issued : f.Issued g reads
  within : ∀ p ∈ reads, ReadWithin start stop p
  ok : (∀ p ∈ reads, p.2 = .done) → result = value
  failed : (∃ p ∈ reads, p.2 ≠ .done) → result = unread

namespace ReadLoop

variable {α : Type} {f g : Chip} {start stop : Nat} {result value unread : α}
  {reads : List (Op × Outcome)}

/-- The loop ends without another read. -/
theorem stop_here (f : Chip) (start stop : Nat) (value unread : α) :
    ReadLoop f f start stop value value unread [] :=
  ⟨.refl f, by simp, fun _ => rfl, by simp⟩

/-- The next read fails. -/
theorem fail_here {offset len : Nat} {residue : Nat → UInt8 → UInt8} (value unread : α)
    (hlo : start ≤ offset) (hhi : offset + len ≤ stop) (hnext : f.next = .failed residue) :
    ReadLoop f (f.push (.read offset len)) start stop unread value unread
      [(.read offset len, f.next)] where
  issued := f.issued_push _
  within := fun p hp => by
    rw [List.mem_singleton] at hp
    subst hp
    exact ⟨offset, len, rfl, hlo, hhi⟩
  ok := fun h => by
    have hdone := h _ (List.mem_singleton_self _)
    rw [hnext] at hdone
    contradiction
  failed := fun _ => rfl

/-- The next read succeeds and the loop goes on. -/
theorem cons {offset len : Nat} (hlo : start ≤ offset) (hhi : offset + len ≤ stop)
    (hnext : f.next = .done)
    (h : ReadLoop (f.push (.read offset len)) g start stop result value unread reads) :
    ReadLoop f g start stop result value unread ((.read offset len, .done) :: reads) where
  issued := by
    have hpush := f.issued_push (.read offset len)
    rw [hnext] at hpush
    exact hpush.trans h.issued
  within := fun p hp => by
    rcases List.mem_cons.mp hp with rfl | hp
    · exact ⟨offset, len, rfl, hlo, hhi⟩
    · exact h.within p hp
  ok := fun hall => h.ok fun p hp => hall p (List.mem_cons_of_mem _ hp)
  failed := fun ⟨p, hp, hne⟩ => by
    rcases List.mem_cons.mp hp with rfl | hp
    · exact absurd rfl hne
    · exact h.failed ⟨p, hp, hne⟩

/-- A loop that did not give up read everything, and changed nothing. -/
theorem done_of_ne (h : ReadLoop f g start stop result value unread reads)
    (hne : result ≠ unread) : ∀ p ∈ reads, p.2 = .done := by
  intro p hp
  by_contra hnot
  exact hne (h.failed ⟨p, hp, hnot⟩)

/-- A loop that only reads leaves the contents alone. -/
theorem contents (h : ReadLoop f g start stop result value unread reads)
    (hdone : ∀ p ∈ reads, p.2 = .done) : g.contents = f.contents := by
  rw [h.issued.contents, replay_readsWithin _ h.within hdone]

end ReadLoop

/-- A successful read leaves the contents as they were. -/
theorem contents_push_read {f : Chip} (hnext : f.next = .done) (offset len : Nat) :
    (f.push (.read offset len)).contents = f.contents := by
  rw [Chip.contents_push, hnext, apply_read_done]

/-- The image loop delivers the CRC of the bytes flash holds. -/
theorem imageCrcFrom_spec (f : Chip) {n : Nat} (offset : Nat) (crc : UInt32)
    (hn : n < 2 ^ 16) :
    ∃ reads, ReadLoop f (imageCrcFrom f n offset crc).2 imageAddress (imageAddress + n)
      (imageCrcFrom f n offset crc).1
      (.ok (crc32Update crc (bytesAt f.contents (imageAddress + offset) (n - offset))))
      (.error ()) reads := by
  fun_induction imageCrcFrom f n offset crc with
  | case1 f offset crc hlt length _ g hread =>
      have hlength : offset + length ≤ n := by
        have := Nat.min_le_right maxPayload (n - offset)
        omega
      obtain ⟨⟨residue, hnext⟩, rfl⟩ := read_eq_error hread
      rw [toNat_imageOffset (by omega)]
      exact ⟨_, .fail_here _ _ (by omega) (by omega) hnext⟩
  | case2 f offset crc hlt length chunk g hread ih =>
      have hlength : offset + length ≤ n := by
        have := Nat.min_le_right maxPayload (n - offset)
        omega
      obtain ⟨hnext, rfl, rfl⟩ := read_eq_ok hread
      obtain ⟨reads, hloop⟩ := ih
      rw [toNat_imageOffset (by omega)] at hloop ⊢
      rw [toList_vectorAt, contents_push_read hnext, ← crc32Update_append,
        show imageAddress + (offset + length) = imageAddress + offset + length by omega,
        ← bytesAt_add, show length + (n - (offset + length)) = n - offset by omega] at hloop
      rw [toList_vectorAt]
      exact ⟨_, hloop.cons (by omega) (by omega) hnext⟩
  | case3 f offset crc hge =>
      rw [show n - offset = 0 by omega, bytesAt_zero, crc32Update_nil]
      exact ⟨[], .stop_here _ _ _ _ _⟩

/-- The image payload flash holds. -/
def imageAt (c : Contents) (bytecodeLen : UInt16) (mapCount : UInt8) : List UInt8 :=
  bytesAt c imageAddress (bytecodeLen.toNat + 16 * mapCount.toNat)

@[simp] theorem length_imageAt (c : Contents) (bytecodeLen : UInt16) (mapCount : UInt8) :
    (imageAt c bytecodeLen mapCount).length = bytecodeLen.toNat + 16 * mapCount.toNat := by
  simp [imageAt]

/-- The descriptors flash holds. -/
def descriptorsAt (c : Contents) (bytecodeLen : UInt16) (mapCount : UInt8) : List Descriptor :=
  descriptorsOf (imageAt c bytecodeLen mapCount) bytecodeLen.toNat mapCount.toNat

/-- A slice of a range is the range of the slice. -/
theorem slice_bytesAt (c : Contents) (offset : Nat) {start len n : Nat} (h : start + len ≤ n) :
    ((bytesAt c offset n).drop start).take len = bytesAt c (offset + start) len := by
  rw [show n = start + (len + (n - start - len)) by omega, bytesAt_add, bytesAt_add,
    List.drop_append_of_le_length (by simp), List.drop_eq_nil_of_le (by simp), List.nil_append,
    List.take_append_of_le_length (by simp), List.take_of_length_le (by simp)]

theorem getElem_descriptorsAt (c : Contents) (bytecodeLen : UInt16) (mapCount : UInt8) {i : Nat}
    (h : i < (descriptorsAt c bytecodeLen mapCount).length) :
    (descriptorsAt c bytecodeLen mapCount)[i] =
      Descriptor.decode (bytesAt c (imageAddress + bytecodeLen.toNat + 16 * i) 16) := by
  have hi : i < mapCount.toNat := by simpa [descriptorsAt] using h
  simp only [descriptorsAt, descriptorsOf, List.getElem_map, List.getElem_range, imageAt]
  rw [slice_bytesAt _ _ (by omega), Nat.add_assoc]

/-- Whether one more descriptor keeps the walk valid. -/
theorem validDescriptors_concat (ds : List Descriptor) (d : Descriptor) :
    ValidDescriptors (ds ++ [d]) ↔
      ValidDescriptors ds ∧ d.Valid ∧ totalSize ds + d.size ≤ bpfMaxMapBytes := by
  simp only [ValidDescriptors, List.mem_append, List.mem_singleton, totalSize_append,
    totalSize_singleton]
  constructor
  · rintro ⟨hall, htotal⟩
    exact ⟨⟨fun x hx => hall x (.inl hx), Nat.le_of_add_right_le htotal⟩, hall d (.inr rfl),
      htotal⟩
  · rintro ⟨⟨hall, -⟩, hd, htotal⟩
    refine ⟨fun x hx => ?_, htotal⟩
    rcases hx with hx | rfl
    · exact hall x hx
    · exact hd

/-- The descriptor loop, started after the first `index` descriptors, lays the
rest out if they are valid. -/
theorem mapLayoutsFrom_spec (f : Chip) (bytecodeLen : UInt16) (mapCount : UInt8) {n index : Nat}
    (total : UInt32) (layouts : Vector MapLayout bpfMaxMaps) (ds : List Descriptor)
    (hn : mapCount.toNat = n) (hds : descriptorsAt f.contents bytecodeLen mapCount = ds)
    (hindex : index ≤ n) (hvalid : ValidDescriptors (ds.take index))
    (htotal : total.toNat = totalSize (ds.take index))
    (hlayouts : layouts = layoutVector (ds.take index)) :
    ∃ reads, ReadLoop f (mapLayoutsFrom f bytecodeLen n index total layouts).2
      imageAddress (imageAddress + (bytecodeLen.toNat + 16 * n))
      (mapLayoutsFrom f bytecodeLen n index total layouts).1
      (if ValidDescriptors ds then some (layoutVector ds) else none) none reads := by
  have hcount : n < 256 := hn ▸ mapCount.toNat_lt
  have hlength : ds.length = n := by rw [← hds, ← hn]; simp [descriptorsAt]
  fun_induction mapLayoutsFrom f bytecodeLen n index total layouts with
  | case1 f index total layouts hlt offset _ g hread =>
      obtain ⟨⟨residue, hnext⟩, rfl⟩ := read_eq_error hread
      rw [toNat_descriptorOffset bytecodeLen (by omega)]
      exact ⟨_, .fail_here _ _ (by omega) (by simp only [bpfMapDescriptorSize]; omega) hnext⟩
  | case2 f index total layouts hlt offset descriptor g hread hrejected =>
      obtain ⟨hnext, rfl, rfl⟩ := read_eq_ok hread
      have htake := List.take_append_getElem (l := ds) (i := index) (by omega)
      have hd : Descriptor.decode (vectorAt f.contents offset.toNat bpfMapDescriptorSize).toList =
          ds[index] := by
        subst hds
        rw [toList_vectorAt, getElem_descriptorsAt, toNat_descriptorOffset bytecodeLen (by omega)]
      have hinvalid : ¬ ValidDescriptors ds := fun h => by
        have hnext := (validDescriptors_concat _ _).mp (htake ▸ h.take (index + 1))
        rw [mapLayout_eq (htotal ▸ hvalid.2), hd, htotal, if_pos hnext.2] at hrejected
        contradiction
      rw [if_neg hinvalid, toNat_descriptorOffset bytecodeLen (by omega)]
      exact ⟨_, (ReadLoop.stop_here _ _ _ _ _).cons (by omega)
        (by simp only [bpfMapDescriptorSize]; omega) hnext⟩
  | case3 f index total layouts hlt offset descriptor g hread layout nextTotal haccepted ih =>
      obtain ⟨hnext, rfl, rfl⟩ := read_eq_ok hread
      have htake := List.take_append_getElem (l := ds) (i := index) (by omega)
      have hd : Descriptor.decode (vectorAt f.contents offset.toNat bpfMapDescriptorSize).toList =
          ds[index] := by
        subst hds
        rw [toList_vectorAt, getElem_descriptorsAt, toNat_descriptorOffset bytecodeLen (by omega)]
      rw [mapLayout_eq (htotal ▸ hvalid.2), hd, htotal] at haccepted
      split_ifs at haccepted with hfits
      injection haccepted with hpair
      injection hpair with hlayout hnextTotal
      have hfit : totalSize (ds.take index) + ds[index].size ≤ 1024 := hfits.2
      obtain ⟨reads, hloop⟩ := ih (by rw [contents_push_read hnext, hds]) (by omega)
        (htake ▸ (validDescriptors_concat _ _).mpr ⟨hvalid, hfits⟩)
        (by
          rw [← hnextTotal, ← htake, totalSize_append, totalSize_singleton]
          exact UInt32.toNat_ofNat_of_lt' (by show _ < 2 ^ 32; omega))
        (by
          rw [← htake, layoutVector_concat, ← hlayout, hlayouts, List.length_take,
            Nat.min_eq_left (by omega)])
      rw [toNat_descriptorOffset bytecodeLen (by omega)] at hloop ⊢
      exact ⟨_, hloop.cons (by omega) (by simp only [bpfMapDescriptorSize]; omega) hnext⟩
  | case4 f index total layouts hge =>
      have hall : ds.take index = ds := List.take_of_length_le (by omega)
      rw [hall] at hvalid hlayouts
      rw [if_pos hvalid, hlayouts]
      exact ⟨[], .stop_here _ _ _ _ _⟩

/-- The layouts `map_layouts` derives, and the count it passes on. -/
def layoutsOf (c : Contents) (bytecodeLen : UInt16) (mapCount : UInt8) :
    Option (Vector MapLayout bpfMaxMaps × UInt8) :=
  if ValidDescriptors (descriptorsAt c bytecodeLen mapCount) then
    some (layoutVector (descriptorsAt c bytecodeLen mapCount), mapCount)
  else none

/-- Reading the layouts back is such a loop: over the bytes of the image, with
the layouts of its descriptors as the value. -/
theorem mapLayouts_spec (f : Chip) (bytecodeLen : UInt16) (mapCount : UInt8) :
    ∃ reads, ReadLoop f (mapLayouts f bytecodeLen mapCount).2 imageAddress
      (imageAddress + (bytecodeLen.toNat + 16 * mapCount.toNat))
      (mapLayouts f bytecodeLen mapCount).1 (layoutsOf f.contents bytecodeLen mapCount) none
      reads := by
  obtain ⟨reads, hloop⟩ := mapLayoutsFrom_spec (n := mapCount.toNat) f bytecodeLen mapCount 0
    (Vector.replicate _ .EMPTY) _ rfl rfl (Nat.zero_le mapCount.toNat) ⟨by simp, Nat.zero_le _⟩ rfl
    layoutVector_nil.symm
  refine ⟨reads, ?_⟩
  unfold mapLayouts
  cases hresult : mapLayoutsFrom f bytecodeLen mapCount.toNat 0 0 (Vector.replicate _ .EMPTY) with
  | mk result g =>
      rw [hresult] at hloop
      obtain ⟨hissued, hwithin, hok, hfailed⟩ := hloop
      cases result with
      | none =>
          refine ⟨hissued, hwithin, fun h => ?_, fun _ => rfl⟩
          have hvalue := hok h
          rw [layoutsOf]
          split_ifs at hvalue ⊢
          rfl
      | some layouts =>
          refine ⟨hissued, hwithin, fun h => ?_, fun h => by simpa using hfailed h⟩
          have hvalue := hok h
          rw [layoutsOf]
          split_ifs at hvalue ⊢
          injection hvalue with hvalue
          simp only [hvalue]

/-! ## a transfer, as a host makes it -/

/- Concrete requests and images, for examples: the erased chip, a program that
exits, and an image with one array map. -/

namespace Device

/-- A booted device whose flash is erased and never fails. -/
def erased : Device Chip :=
  boot .ready (Vector.replicate _ 0) (Vector.replicate _ 0)
    (.fresh (fun _ => 0xff) fun _ => .done)

/-- An interpreter that returns `value` and leaves the maps alone. -/
def returning (value : UInt64) : HostExecutor := fun _ mapBacking => (.ok value, mapBacking)

/-- One Load, executed before the next request. -/
def load (payload : List UInt8) : List Event :=
  [.request (.ofPayload cmdLoadBpf 0 payload) (returning 0), .executePending]

/-- An image with `mapCount` descriptors at its end, in fragments of 12 bytes. -/
def transfer (mapCount : UInt8) (image : List UInt8) : List Event :=
  load (0 :: Bytes.toLe 2 (image.length - 16 * mapCount.toNat) ++ [mapCount] ++
      Bytes.toLe 4 (crc32IsoHdlc image).toNat) ++
    (List.range ((image.length + 11) / 12)).flatMap (fun i =>
      load (1 :: Bytes.toLe 2 (12 * i) ++ (image.drop (12 * i)).take 12)) ++
    load [2]

/-- A Start. -/
def start (value : UInt64) : Event :=
  .request (.ofPayload cmdStartBpf 0 []) (returning value)

/-- `exit`, eight bytes of bytecode. -/
def exitProgram : List UInt8 := [0x95, 0, 0, 0, 0, 0, 0, 0]

/-- `exit` with one array map of two values of four bytes. -/
def arrayImage : List UInt8 := exitProgram ++ ([1, 4, 4, 2] : List Nat).flatMap (Bytes.toLe 4)

end Device

end OptiBridge
