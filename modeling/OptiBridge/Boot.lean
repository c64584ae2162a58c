import OptiBridge.FlashSteps

/-!
# OptiBridge.Boot

What a committed image is, stated on flash contents alone, and the boot
validator against it: over reads that succeed it adopts exactly the committed
images, and whatever it adopts is one.

The header determines bytecode length, map count and CRC (`headerBytes_inj`), so
flash holds at most one committed image (`CommittedImage.unique`).  What the
validator reads is the header and the image behind it and no more; a read that
fails leaves the loader empty.

* `CommittedImage`, sixteen bytes of header and an image whose CRC and
  descriptors they tell;
* `validateCommitted_chip`, every way a validation may end;
* `validateCommitted_exact`, the loader has a program exactly if all reads
  succeeded and flash holds a committed image, and then it has that one.
-/

namespace OptiBridge

open Bytes Nor

/-- Flash holds a committed image: a header with a cleared marker, good bounds,
a payload with the declared CRC, and descriptors that fit the backing. -/
structure CommittedImage (c : Contents) (bytecodeLen : UInt16) (mapCount : UInt8)
    (crc : UInt32) : Prop where
  header : bytesAt c headerAddress 16 = headerBytes bytecodeLen mapCount crc [0, 0]
  bounds : GoodBounds bytecodeLen mapCount
  crc : crc32IsoHdlc (imageAt c bytecodeLen mapCount) = crc
  maps : ValidDescriptors (descriptorsAt c bytecodeLen mapCount)

/-! ## header fields -/

/- Fields as numbers and as bytes, back and forth. -/

/-- Two bytes, read as a number and written again. -/
theorem toLe_u16FromLeBytes (a b : UInt8) : toLe 2 (u16FromLeBytes a b).toNat = [a, b] := by
  have hlt : ofLe [a, b] < 2 ^ 16 := (ofLe_lt [a, b]).trans_eq (by norm_num)
  rw [u16FromLeBytes, UInt16.toNat_ofNat_of_lt' hlt]
  exact toLe_ofLe [a, b]

/-- Four bytes, read as a number and written again. -/
theorem toLe_u32FromLeBytes (a b c d : UInt8) :
    toLe 4 (u32FromLeBytes a b c d).toNat = [a, b, c, d] := by
  have hlt : ofLe [a, b, c, d] < 2 ^ 32 := (ofLe_lt [a, b, c, d]).trans_eq (by norm_num)
  rw [u32FromLeBytes, UInt32.toNat_ofNat_of_lt' hlt]
  exact toLe_ofLe [a, b, c, d]

/-- A 16-bit number is told by its bytes. -/
theorem u16_toLe_inj {x y : UInt16} (h : toLe 2 x.toNat = toLe 2 y.toNat) : x = y := by
  have hofLe := congrArg ofLe h
  rw [ofLe_toLe_of_lt x.toNat_lt, ofLe_toLe_of_lt y.toNat_lt] at hofLe
  exact UInt16.toNat_inj.mp hofLe

/-- So is a 32-bit number. -/
theorem u32_toLe_inj {x y : UInt32} (h : toLe 4 x.toNat = toLe 4 y.toNat) : x = y := by
  have hofLe := congrArg ofLe h
  rw [ofLe_toLe_of_lt x.toNat_lt, ofLe_toLe_of_lt y.toNat_lt] at hofLe
  exact UInt32.toNat_inj.mp hofLe

/-- A header spells its fields. -/
theorem headerBytes_inj {bytecodeLen bytecodeLen' : UInt16} {mapCount mapCount' : UInt8}
    {crc crc' : UInt32} {marker : List UInt8}
    (h : headerBytes bytecodeLen mapCount crc marker =
      headerBytes bytecodeLen' mapCount' crc' marker) :
    bytecodeLen = bytecodeLen' ∧ mapCount = mapCount' ∧ crc = crc' := by
  simp only [headerBytes, imageMagic, List.append_assoc, List.cons_append, List.nil_append,
    List.cons.injEq, true_and] at h
  obtain ⟨hcount, h⟩ := h
  obtain ⟨hlen, h⟩ := List.append_inj h (by simp)
  obtain ⟨hcrc, -⟩ := List.append_inj h (by simp)
  exact ⟨u16_toLe_inj hlen, hcount, u32_toLe_inj hcrc⟩

/-- Flash holds at most one committed image. -/
theorem CommittedImage.unique {c : Contents} {bytecodeLen bytecodeLen' : UInt16}
    {mapCount mapCount' : UInt8} {crc crc' : UInt32}
    (h : CommittedImage c bytecodeLen mapCount crc)
    (h' : CommittedImage c bytecodeLen' mapCount' crc') :
    bytecodeLen = bytecodeLen' ∧ mapCount = mapCount' ∧ crc = crc' :=
  headerBytes_inj (h.header.symm.trans h'.header)

/-- The sixteen bytes of a header, one by one. -/
theorem toList_header (header : Vector UInt8 bpfHeaderSize) :
    header.toList =
      [header[0], header[1], header[2], header[3], header[4], header[5], header[6], header[7],
        header[8], header[9], header[10], header[11], header[12], header[13], header[14],
        header[15]] := by
  have hword : ∀ k, header.toList.drop k =
      (header.toList.drop k).take 4 ++ header.toList.drop (k + 4) := fun k => by
    rw [← List.drop_drop, List.take_append_drop]
  have hend : header.toList.drop 16 = [] := List.drop_eq_nil_of_le (by simp [bpfHeaderSize])
  rw [← List.drop_zero (l := header.toList), hword 0, hword 4, hword 8, hword 12, hend,
    take_four_drop header 0 (by decide), take_four_drop header 4 (by decide),
    take_four_drop header 8 (by decide), take_four_drop header 12 (by decide)]
  rfl

theorem marker_eq_zero {a b : UInt8} : u16FromLeBytes a b = 0 ↔ a = 0 ∧ b = 0 := by
  constructor
  · intro h
    have hbytes := toLe_u16FromLeBytes a b
    rw [h] at hbytes
    simpa [toLe, eq_comm] using hbytes
  · rintro ⟨rfl, rfl⟩
    rfl

/-- **Header check.** A header passes exactly when it spells a committed image
with good bounds. -/
theorem acceptedHeader_eq_some {header : Vector UInt8 bpfHeaderSize} {bytecodeLen : UInt16}
    {mapCount : UInt8} {n : Nat} :
    BpfLoader.acceptedHeader header = some (bytecodeLen, mapCount, n) ↔
      header.toList = headerBytes bytecodeLen mapCount (BpfLoader.headerCrc header) [0, 0] ∧
        GoodBounds bytecodeLen mapCount ∧ n = bytecodeLen.toNat + 16 * mapCount.toNat := by
  have hspelled : headerBytes bytecodeLen mapCount (BpfLoader.headerCrc header) [0, 0] =
      [0x4f, 0x42, 0x50, 0x46, 1, mapCount] ++ toLe 2 bytecodeLen.toNat ++
        [header[8], header[9], header[10], header[11], 0, 0, 0xff, 0xff] := by
    rw [headerBytes, BpfLoader.headerCrc, toLe_u32FromLeBytes]
    simp
  rw [hspelled, BpfLoader.acceptedHeader, toList_header]
  constructor
  · intro h
    split_ifs at h with hmagic
    simp only [not_or, not_not] at hmagic
    obtain ⟨hmagic, hversion, hmarker, hreserved⟩ := hmagic
    obtain ⟨hlow, hhigh⟩ := marker_eq_zero.mp hmarker
    simp only [imageLen_eq] at h
    split_ifs at h with hbounds
    simp only [Option.some.injEq, Prod.mk.injEq] at h
    obtain ⟨rfl, rfl, rfl⟩ := h
    have hgood := goodBounds_of_not_bad hbounds
    refine ⟨?_, hgood, rfl⟩
    simp only [List.take_succ_cons, List.take_zero, imageMagic, List.cons.injEq, and_true,
      List.drop_succ_cons, List.drop_zero] at hmagic hreserved
    rw [toLe_u16FromLeBytes, hmagic.1, hmagic.2.1, hmagic.2.2.1, hmagic.2.2.2, hversion, hlow,
      hhigh, hreserved.1, hreserved.2]
    rfl
  · rintro ⟨hheader, hbounds, rfl⟩
    simp only [toLe, List.cons_append, List.nil_append, List.cons.injEq, and_true] at hheader
    obtain ⟨h₀, h₁, h₂, h₃, h₄, h₅, h₆, h₇, -, -, -, -, h₁₂, h₁₃, h₁₄, h₁₅⟩ := hheader
    have hlen : u16FromLeBytes header[6] header[7] = bytecodeLen := by
      apply u16_toLe_inj
      rw [toLe_u16FromLeBytes, h₆, h₇]
      rfl
    have hmagic : ¬ (List.take 4 [header[0], header[1], header[2], header[3], header[4], header[5],
          header[6], header[7], header[8], header[9], header[10], header[11], header[12],
          header[13], header[14], header[15]] ≠ imageMagic ∨ header[4] ≠ 1 ∨
        u16FromLeBytes header[12] header[13] ≠ 0 ∨
        List.drop 14 [header[0], header[1], header[2], header[3], header[4], header[5],
          header[6], header[7], header[8], header[9], header[10], header[11], header[12],
          header[13], header[14], header[15]] ≠ [0xff, 0xff]) := by
      simp [h₀, h₁, h₂, h₃, h₄, h₁₄, h₁₅, marker_eq_zero, h₁₂, h₁₃, imageMagic]
    rw [if_neg hmagic]
    simp only [hlen, h₅, imageLen_eq]
    rw [if_neg (not_bad_of_goodBounds hbounds)]

/-- The CRC field of a header, read back. -/
theorem headerCrc_of_toList {header : Vector UInt8 bpfHeaderSize} {bytecodeLen : UInt16}
    {mapCount : UInt8} {crc : UInt32} {marker : List UInt8}
    (h : header.toList = headerBytes bytecodeLen mapCount crc marker) :
    BpfLoader.headerCrc header = crc := by
  rw [toList_header] at h
  simp only [headerBytes, imageMagic, List.cons_append, List.nil_append,
    toLe, List.cons.injEq] at h
  obtain ⟨-, -, -, -, -, -, -, -, h₈, h₉, h₁₀, h₁₁, -⟩ := h
  apply u32_toLe_inj
  rw [BpfLoader.headerCrc, toLe_u32FromLeBytes, h₈, h₉, h₁₀, h₁₁]
  rfl

/-- The validator accepts the header of a committed image. -/
theorem CommittedImage.accepted {c : Contents} {bytecodeLen : UInt16} {mapCount : UInt8}
    {crc : UInt32} (h : CommittedImage c bytecodeLen mapCount crc) :
    BpfLoader.acceptedHeader (vectorAt c headerAddress bpfHeaderSize) =
        some (bytecodeLen, mapCount, bytecodeLen.toNat + 16 * mapCount.toNat) ∧
      BpfLoader.headerCrc (vectorAt c headerAddress bpfHeaderSize) = crc := by
  have hspelled : (vectorAt c headerAddress bpfHeaderSize).toList =
      headerBytes bytecodeLen mapCount crc [0, 0] := (toList_vectorAt _ _ _).trans h.header
  have hcrc := headerCrc_of_toList hspelled
  exact ⟨acceptedHeader_eq_some.mpr ⟨hcrc.symm ▸ hspelled, h.bounds, rfl⟩, hcrc⟩

/-- A committed image is the one that an accepted header declares. -/
theorem CommittedImage.declared {c : Contents} {bytecodeLen bytecodeLen' : UInt16}
    {mapCount mapCount' : UInt8} {crc : UInt32} {n : Nat}
    (h : CommittedImage c bytecodeLen mapCount crc)
    (hheader : BpfLoader.acceptedHeader (vectorAt c headerAddress bpfHeaderSize) =
      some (bytecodeLen', mapCount', n)) :
    bytecodeLen = bytecodeLen' ∧ mapCount = mapCount' := by
  have haccepted := h.accepted.1
  rw [hheader] at haccepted
  simp only [Option.some.injEq, Prod.mk.injEq] at haccepted
  exact ⟨haccepted.1.symm, haccepted.2.1.symm⟩

/-- A read within a range is within any larger one. -/
theorem readWithin_mono {start stop start' stop' : Nat} {p : Op × Outcome}
    (h : ReadWithin start stop p) (hstart : start' ≤ start) (hstop : stop ≤ stop') :
    ReadWithin start' stop' p := by
  obtain ⟨offset, len, hop, hlo, hhi⟩ := h
  exact ⟨offset, len, hop, hstart.trans hlo, hhi.trans hstop⟩

/-- A read of the header, or of the image that a header within bounds declares. -/
def BootRead (c : Contents) (p : Op × Outcome) : Prop :=
  ReadWithin headerAddress imageAddress p ∨
    ∃ bytecodeLen mapCount crc,
      bytesAt c headerAddress 16 = headerBytes bytecodeLen mapCount crc [0, 0] ∧
      GoodBounds bytecodeLen mapCount ∧
      ReadWithin imageAddress (imageAddress + (bytecodeLen.toNat + 16 * mapCount.toNat)) p

/-- The header is among what a boot reads. -/
theorem BootRead.header {c : Contents} (o : Outcome) :
    BootRead c (.read headerAddress bpfHeaderSize, o) :=
  .inl ⟨_, _, rfl, Nat.le_refl _, Nat.le_refl _⟩

/-- The boot validator stays in the reserved pages. -/
theorem BootRead.within {c : Contents} {p : Op × Outcome} (h : BootRead c p) :
    ReadWithin headerAddress 0x8000 p := by
  cases h with
  | inl hheader => exact readWithin_mono hheader (Nat.le_refl _) (by decide)
  | inr himage =>
      obtain ⟨bytecodeLen, mapCount, -, -, hbounds, hread⟩ := himage
      have hlen := hbounds.imageLen_le
      exact readWithin_mono hread (by decide) (by show 0x6010 + _ ≤ 0x8000; omega)

/-! ## the boot validator -/

/- Its ways to end, over a chip whose reads may fail, and over one whose reads
do not. -/

namespace BpfLoader

/-- Every way the boot validator ends on a chip that holds `c`. -/
inductive Validated (self : BpfLoader) (c : Contents) :
    BpfLoader → List (Op × Outcome) → Prop where
  | unread {reads : List (Op × Outcome)} (hfailed : ∃ p ∈ reads, p.2 ≠ .done) :
      Validated self c { self.clearMapLayouts with state := .failed statusFlashError } reads
  | rejected {reads : List (Op × Outcome)}
      (hbad : (∃ p ∈ reads, p.2 ≠ .done) ∨
        ∀ bytecodeLen mapCount crc, ¬ CommittedImage c bytecodeLen mapCount crc) :
      Validated self c { self.clearMapLayouts with state := .empty } reads
  | committed {reads : List (Op × Outcome)} {bytecodeLen : UInt16} {mapCount : UInt8}
      {crc : UInt32} (hdone : ∀ p ∈ reads, p.2 = .done)
      (himage : CommittedImage c bytecodeLen mapCount crc) :
      Validated self c
        { self.clearMapLayouts with
            state := .committed crc
            bytecodeLen := bytecodeLen
            mapCount := mapCount
            mapLayouts := layoutVector (descriptorsAt c bytecodeLen mapCount)
            committedMapCount := mapCount } reads

/-- The two ways it ends once everything has been read. -/
inductive Found (self : BpfLoader) (c : Contents) : BpfLoader → Prop where
  | nothing (hnone : ∀ bytecodeLen mapCount crc, ¬ CommittedImage c bytecodeLen mapCount crc) :
      Found self c { self.clearMapLayouts with state := .empty }
  | program {bytecodeLen : UInt16} {mapCount : UInt8} {crc : UInt32}
      (himage : CommittedImage c bytecodeLen mapCount crc) :
      Found self c
        { self.clearMapLayouts with
            state := .committed crc
            bytecodeLen := bytecodeLen
            mapCount := mapCount
            mapLayouts := layoutVector (descriptorsAt c bytecodeLen mapCount)
            committedMapCount := mapCount }

/-- If all reads succeeded, the loader has what flash holds. -/
theorem Validated.found {self l : BpfLoader} {c : Contents} {reads : List (Op × Outcome)}
    (h : Validated self c l reads) (hdone : ∀ p ∈ reads, p.2 = .done) : Found self c l := by
  have hnot : ¬ ∃ p ∈ reads, p.2 ≠ .done := fun ⟨p, hp, hne⟩ => hne (hdone p hp)
  cases h with
  | unread hfailed => exact absurd hfailed hnot
  | rejected hbad => exact .nothing (hbad.resolve_left hnot)
  | committed _ himage => exact .program himage

/-- The header read that every boot starts with, and the reads after it. -/
private theorem boot_reads {f g : Chip} {reads : List (Op × Outcome)} {bytecodeLen : UInt16}
    {mapCount : UInt8} {n : Nat} (hnext : f.next = .done)
    (hheader : acceptedHeader (vectorAt f.contents headerAddress bpfHeaderSize) =
      some (bytecodeLen, mapCount, n))
    (hissued : (f.push (.read headerAddress bpfHeaderSize)).Issued g reads)
    (hreads : ∀ p ∈ reads, ReadWithin imageAddress (imageAddress + n) p) :
    f.Issued g ((.read headerAddress bpfHeaderSize, .done) :: reads) ∧
      ∀ p ∈ (.read headerAddress bpfHeaderSize, .done) :: reads, BootRead f.contents p := by
  obtain ⟨hspelled, hbounds, rfl⟩ := acceptedHeader_eq_some.mp hheader
  rw [toList_vectorAt] at hspelled
  have hpush := f.issued_push (.read headerAddress bpfHeaderSize)
  rw [hnext] at hpush
  refine ⟨hpush.trans hissued, fun p hp => ?_⟩
  rcases List.mem_cons.mp hp with rfl | hp
  · exact .header _
  · exact .inr ⟨_, _, _, hspelled, hbounds, hreads p hp⟩

/-- What the image loop read, once the header has been accepted. -/
private theorem boot_image {f : Chip} {bytecodeLen : UInt16} {mapCount : UInt8} {n : Nat}
    (hnext : f.next = .done)
    (hheader : acceptedHeader (vectorAt f.contents headerAddress bpfHeaderSize) =
      some (bytecodeLen, mapCount, n)) :
    ∃ reads, ReadLoop (f.push (.read headerAddress bpfHeaderSize))
      (imageCrcFrom (f.push (.read headerAddress bpfHeaderSize)) n 0 0xffffffff).2
      imageAddress (imageAddress + n)
      (imageCrcFrom (f.push (.read headerAddress bpfHeaderSize)) n 0 0xffffffff).1
      (.ok (crc32Update 0xffffffff (imageAt f.contents bytecodeLen mapCount))) (.error ())
      reads := by
  obtain ⟨-, hbounds, rfl⟩ := acceptedHeader_eq_some.mp hheader
  have hspec := imageCrcFrom_spec (f.push (.read headerAddress bpfHeaderSize)) 0 0xffffffff
    (hbounds.imageLen_le.trans_lt (by norm_num))
  rw [contents_push_read hnext] at hspec
  exact hspec

/-- What a boot that read everything knows. -/
private theorem boot_read_all {f f₂ f₃ : Chip} {bytecodeLen : UInt16} {mapCount count : UInt8}
    {n : Nat} {crc : UInt32} {layouts : Vector MapLayout bpfMaxMaps} (hnext : f.next = .done)
    (hheader : acceptedHeader (vectorAt f.contents headerAddress bpfHeaderSize) =
      some (bytecodeLen, mapCount, n))
    (himage : imageCrcFrom (f.push (.read headerAddress bpfHeaderSize)) n 0 0xffffffff =
      (.ok crc, f₂))
    (hmaps : OptiBridge.mapLayouts f₂ bytecodeLen mapCount = (some (layouts, count), f₃)) :
    ∃ reads, f.Issued f₃ reads ∧ (∀ p ∈ reads, BootRead f.contents p) ∧
      (∀ p ∈ reads, p.2 = .done) ∧
      crc32Finish crc = crc32IsoHdlc (imageAt f.contents bytecodeLen mapCount) ∧
      ValidDescriptors (descriptorsAt f.contents bytecodeLen mapCount) ∧
      layouts = layoutVector (descriptorsAt f.contents bytecodeLen mapCount) ∧
      count = mapCount := by
  obtain ⟨reads, hreads⟩ := boot_image hnext hheader
  rw [himage] at hreads
  have hdone := hreads.done_of_ne (by simp)
  have hcrc := Except.ok.inj (hreads.ok hdone)
  obtain ⟨-, -, hn⟩ := acceptedHeader_eq_some.mp hheader
  obtain ⟨mapReads, hissued', hwithin', hdone', -, hvalid, hlayouts, hcount⟩ :=
    mapLayouts_chip hmaps
  rw [← hn] at hwithin'
  rw [hreads.contents hdone, contents_push_read hnext] at hvalid hlayouts
  obtain ⟨hissued, hwithin⟩ := boot_reads hnext hheader (hreads.issued.trans hissued')
    fun p hp => (List.mem_append.mp hp).elim (hreads.within p) (hwithin' p)
  refine ⟨_, hissued, hwithin, fun p hp => ?_, hcrc ▸ rfl, hvalid, hlayouts, hcount⟩
  rcases List.mem_cons.mp hp with rfl | hp
  · rfl
  · exact (List.mem_append.mp hp).elim (hdone p) (hdone' p)

/-- **Boot step.** The validator only reads, nothing but the header and the image
it declares, and adopts what flash holds. -/
theorem validateCommitted_chip (self : BpfLoader) (f : Chip) :
    ∃ reads, f.Issued (self.validateCommitted f).2 reads ∧
      (∀ p ∈ reads, BootRead f.contents p) ∧
      Validated self f.contents (self.validateCommitted f).1 reads := by
  have hread := BootRead.header (c := f.contents) f.next
  have htoNat : bpfFlashOffset.toNat = headerAddress := rfl
  have hstep := self.validate_step f
  generalize self.validateCommitted f = out at hstep ⊢
  cases hstep with
  | headerUnread h =>
      obtain ⟨⟨residue, hnext⟩, rfl⟩ := read_eq_error h
      rw [htoNat]
      exact ⟨_, f.issued_push _, by simpa using hread, .unread (by simp [hnext])⟩
  -- from here on the header has been read, and is the one flash holds
  | badHeader h hheader =>
      obtain ⟨hnext, rfl, rfl⟩ := read_eq_ok h
      rw [htoNat] at hheader ⊢
      refine ⟨_, f.issued_push _, by simpa using hread, .rejected (.inr ?_)⟩
      intro bytecodeLen mapCount crc himage
      rw [himage.accepted.1] at hheader
      exact Option.some_ne_none _ hheader
  | imageUnread h hheader himage =>
      obtain ⟨hnext, rfl, rfl⟩ := read_eq_ok h
      rw [htoNat] at hheader himage
      obtain ⟨reads, hreads⟩ := boot_image hnext hheader
      rw [himage] at hreads
      obtain ⟨hissued, hwithin⟩ := boot_reads hnext hheader hreads.issued hreads.within
      refine ⟨_, hissued, hwithin, .unread ?_⟩
      -- had all reads gone well, the loop would have ended with a CRC
      by_contra hnot
      have hvalue := hreads.ok fun p hp => by_contra fun hne =>
        hnot ⟨p, List.mem_cons_of_mem _ hp, hne⟩
      simp at hvalue
  | badMaps h hheader himage hmaps =>
      obtain ⟨hnext, rfl, rfl⟩ := read_eq_ok h
      rw [htoNat] at hheader himage
      obtain ⟨reads, hreads⟩ := boot_image hnext hheader
      rw [himage] at hreads
      have hdone := hreads.done_of_ne (by simp)
      obtain ⟨-, -, hn⟩ := acceptedHeader_eq_some.mp hheader
      obtain ⟨mapReads, hissued', hwithin', hbad⟩ := mapLayouts_chip_none hmaps
      rw [← hn] at hwithin'
      rw [hreads.contents hdone, contents_push_read hnext] at hbad
      obtain ⟨hissued, hwithin⟩ := boot_reads hnext hheader (hreads.issued.trans hissued')
        fun p hp => (List.mem_append.mp hp).elim (hreads.within p) (hwithin' p)
      refine ⟨_, hissued, hwithin, .rejected ?_⟩
      -- a read failed, or no image has these descriptors
      rcases hbad with ⟨p, hp, hne⟩ | hinvalid
      · exact .inl ⟨p, List.mem_cons_of_mem _ (List.mem_append_right _ hp), hne⟩
      · right
        intro bytecodeLen' mapCount' crc' himage'
        obtain ⟨rfl, rfl⟩ := himage'.declared hheader
        exact hinvalid himage'.maps
  | badCrc h hheader himage hmaps hcrc =>
      obtain ⟨hnext, rfl, rfl⟩ := read_eq_ok h
      rw [htoNat] at hheader himage hcrc
      obtain ⟨reads, hissued, hwithin, -, hvalue, -⟩ := boot_read_all hnext hheader himage hmaps
      refine ⟨reads, hissued, hwithin, .rejected (.inr ?_)⟩
      intro bytecodeLen' mapCount' crc' himage'
      obtain ⟨rfl, rfl⟩ := himage'.declared hheader
      exact hcrc (by rw [hvalue, himage'.crc, himage'.accepted.2])
  | committed h hheader himage hmaps hcrc =>
      obtain ⟨hnext, rfl, rfl⟩ := read_eq_ok h
      rw [htoNat] at hheader himage hcrc ⊢
      obtain ⟨reads, hissued, hwithin, hdone, hvalue, hvalid, rfl, rfl⟩ :=
        boot_read_all hnext hheader himage hmaps
      obtain ⟨hspelled, hbounds, -⟩ := acceptedHeader_eq_some.mp hheader
      rw [toList_vectorAt] at hspelled
      exact ⟨reads, hissued, hwithin,
        .committed hdone ⟨hspelled, hbounds, hvalue.symm.trans hcrc, hvalid⟩⟩

/-- **Boot validation is exact.** Over any contents that can be read, and
whatever the loader held before: it commits to a CRC exactly when flash holds a
committed image with that CRC, is empty otherwise, and reads nothing else. -/
theorem validateCommitted_exact (self : BpfLoader) (c : Contents) :
    let validated := self.validateCommitted (Chip.fresh c fun _ => .done)
    (∀ crc, validated.1.state = .committed crc ↔
      ∃ bytecodeLen mapCount, CommittedImage c bytecodeLen mapCount crc) ∧
    ((∀ bytecodeLen mapCount crc, ¬ CommittedImage c bytecodeLen mapCount crc) →
      validated.1.state = .empty ∧ validated.1.committedMapCount = 0 ∧
        validated.1.mapLayouts = Vector.replicate _ .EMPTY) ∧
    ∀ p ∈ validated.2.log, BootRead c p := by
  obtain ⟨reads, hissued, hreads, hvalidated⟩ :=
    self.validateCommitted_chip (Chip.fresh c fun _ => .done)
  generalize self.validateCommitted (Chip.fresh c fun _ => .done) = out at hissued hvalidated ⊢
  obtain ⟨loader, chip⟩ := out
  intro validated
  have hlog : validated.2.log = reads := hissued.log
  have hfound := hvalidated.found fun p hp => (hissued.mem hp).elim fun _ hi => hi
  rw [hlog]
  refine ⟨?_, ?_, hreads⟩
  · intro crc
    cases hfound with
    | nothing hnone =>
        exact ⟨fun h => by contradiction, fun ⟨_, _, himage⟩ => absurd himage (hnone _ _ _)⟩
    | program himage =>
        constructor
        · rintro ⟨rfl⟩
          exact ⟨_, _, himage⟩
        · rintro ⟨_, _, himage'⟩
          exact congrArg LoaderState.committed (himage.unique himage').2.2
  · intro hnone
    cases hfound with
    | nothing => exact ⟨rfl, rfl, rfl⟩
    | program himage => exact absurd himage (hnone _ _ _)

end BpfLoader

end OptiBridge
