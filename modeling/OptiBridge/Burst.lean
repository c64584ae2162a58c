import OptiBridge.Boot
import OptiBridge.Remainder

/-!
# OptiBridge.Burst

What the boot validator's CRC is for: an accepted image that is hit by one short
error burst, wherever it lies, is not accepted again.

Bits are numbered as the CRC takes them: bytes in address order, each from its
low bit up.  In that numbering

* `ImageBurst` says that contents differ within 32 consecutive bits of the
  image;
* `ImageBytes` says that they differ within four consecutive bytes, which is a
  burst of that kind;
* `CommittedImage.not_of_burst` says that a committed image does not survive
  either, by the polynomial argument of `OptiBridge.Lib.Crc`;
* `BpfLoader.burst_detected` says so of the validator.

The header is outside the image and the same on both sides, so the lengths and
the CRC field of the two images agree.
-/

namespace OptiBridge

open Nor

/-- Bit `k` of the bytes from `address` on: bytes in address order, each least
significant bit first. -/
def bitAt (c : Contents) (address k : Nat) : Bool :=
  (c (address + k / 8)).toBitVec.getLsbD (k % 8)

/-- The contents differ, but only in 32 consecutive bits of the `len` image
bytes, from bit `k` on. -/
structure ImageBurst (c c' : Contents) (len k : Nat) : Prop where
  ne : c' ≠ c
  outside : ∀ x, ¬ (imageAddress ≤ x ∧ x < imageAddress + len) → c' x = c x
  window : ∀ i, i < 8 * len → ¬ (k ≤ i ∧ i < k + 32) →
    bitAt c' imageAddress i = bitAt c imageAddress i

/-- The contents differ, but only in four consecutive image bytes. -/
structure ImageBytes (c c' : Contents) (len address : Nat) : Prop where
  ne : c' ≠ c
  outside : ∀ x, ¬ (imageAddress ≤ x ∧ x < imageAddress + len) → c' x = c x
  window : ∀ x, ¬ (address ≤ x ∧ x < address + 4) → c' x = c x

namespace ImageBurst

variable {c c' : Contents} {len k : Nat}

/-- Four bytes are 32 bits, wherever they begin. -/
theorem of_bytes {address : Nat} (h : ImageBytes c c' len address) :
    ImageBurst c c' len (8 * (address - imageAddress)) where
  ne := h.ne
  outside := h.outside
  window := fun i _ hi => by
    have hbyte : c' (imageAddress + i / 8) = c (imageAddress + i / 8) :=
      h.window _ (by omega)
    simp only [bitAt, hbyte]

theorem getElem?_bits (c : Contents) {i : Nat} (h : i < 8 * len) :
    (messageBits (bytesAt c imageAddress len))[i]? = some (bitAt c imageAddress i) := by
  have hlt : i / 8 < (bytesAt c imageAddress len).length := by
    rw [length_bytesAt]
    omega
  rw [getElem?_messageBits, List.getElem?_eq_getElem hlt, getElem_bytesAt]
  rfl

/-- The image's bits are hit by a burst. -/
theorem burst (h : ImageBurst c c' len k) :
    Crc.Burst 32 (messageBits (bytesAt c imageAddress len))
      (messageBits (bytesAt c' imageAddress len)) := by
  have hsame : ∀ i, ¬ (k ≤ i ∧ i < k + 32) →
      (messageBits (bytesAt c imageAddress len))[i]? =
        (messageBits (bytesAt c' imageAddress len))[i]? := by
    intro i hi
    by_cases hlt : i < 8 * len
    · rw [getElem?_bits c hlt, getElem?_bits c' hlt, h.window i hlt hi]
    · rw [List.getElem?_eq_none (by simpa using hlt), List.getElem?_eq_none (by simpa using hlt)]
  have hne : messageBits (bytesAt c imageAddress len) ≠
      messageBits (bytesAt c' imageAddress len) := by
    intro hbits
    have hbytes := messageBits_injective hbits
    refine h.ne (funext fun x => ?_)
    by_cases hx : imageAddress ≤ x ∧ x < imageAddress + len
    · obtain ⟨i, rfl⟩ := Nat.exists_eq_add_of_le hx.1
      exact (eq_of_bytesAt_eq hbytes (by omega)).symm
    · exact h.outside x hx
  refine .of_window (k := k) (by simp) ?_ ?_ hne
  · apply List.ext_getElem?
    intro i
    rw [List.getElem?_take, List.getElem?_take]
    split_ifs with hi
    · exact hsame i (by omega)
    · rfl
  · apply List.ext_getElem?
    intro i
    rw [List.getElem?_drop, List.getElem?_drop]
    exact hsame _ (by omega)

end ImageBurst

/-- A burst in a committed image leaves none. -/
theorem CommittedImage.not_of_burst {c c' : Contents} {bytecodeLen : UInt16} {mapCount : UInt8}
    {crc : UInt32} (h : CommittedImage c bytecodeLen mapCount crc) {k : Nat}
    (hburst : ImageBurst c c' (bytecodeLen.toNat + 16 * mapCount.toNat) k)
    (bytecodeLen' : UInt16) (mapCount' : UInt8) (crc' : UInt32) :
    ¬ CommittedImage c' bytecodeLen' mapCount' crc' := by
  intro h'
  have hheader : bytesAt c' headerAddress 16 = bytesAt c headerAddress 16 :=
    bytesAt_congr fun x _ hhi => hburst.outside x fun hx => by
      have hlo : 0x6010 ≤ x := hx.1
      have hhi : x < 0x6000 + 16 := hhi
      omega
  -- the header is outside the image, so length and CRC are declared as before
  obtain ⟨rfl, rfl, rfl⟩ := headerBytes_inj (h.header.symm.trans (hheader.symm.trans h'.header))
  have hlength : (imageAt c bytecodeLen mapCount).length =
      (imageAt c' bytecodeLen mapCount).length := by simp
  exact crc32IsoHdlc_ne_of_burst hlength hburst.burst (h.crc.trans h'.crc.symm)

namespace BpfLoader

/-- What the validator commits to is in flash. -/
theorem validateCommitted_image {self : BpfLoader} {c : Contents} {outcomes : Nat → Outcome}
    {crc : UInt32}
    (h : (self.validateCommitted (Chip.fresh c outcomes)).1.state = .committed crc) :
    CommittedImage c (self.validateCommitted (Chip.fresh c outcomes)).1.bytecodeLen
      (self.validateCommitted (Chip.fresh c outcomes)).1.mapCount crc := by
  obtain ⟨reads, -, -, hvalidated⟩ := self.validateCommitted_chip (Chip.fresh c outcomes)
  rw [Chip.contents_fresh] at hvalidated
  generalize (self.validateCommitted (Chip.fresh c outcomes)).1 = l at h hvalidated
  cases hvalidated with
  | unread => contradiction
  | rejected => contradiction
  | committed _ himage =>
      obtain rfl := LoaderState.committed.inj h
      exact himage

/-- **Short bursts are detected.** Over flash that may also fail: where the
validator commits to an image, it commits to none once at most 32 consecutive
bits of that image, or four consecutive bytes, have changed. -/
theorem burst_detected (self : BpfLoader) (c : Contents) (outcomes : Nat → Outcome) (crc : UInt32) :
    let l := (self.validateCommitted (Chip.fresh c outcomes)).1
    let len := l.bytecodeLen.toNat + 16 * l.mapCount.toNat
    l.state = .committed crc →
      ∀ c', ((∃ k, ImageBurst c c' len k) ∨ ∃ address, ImageBytes c c' len address) →
        ∀ (self' : BpfLoader) (outcomes' : Nat → Outcome) (crc' : UInt32),
          (self'.validateCommitted (Chip.fresh c' outcomes')).1.state ≠ .committed crc' := by
  intro l len hstate c' hchanged self' outcomes' crc' hstate'
  have himage : CommittedImage c l.bytecodeLen l.mapCount crc := validateCommitted_image hstate
  have hburst : ∃ k, ImageBurst c c' len k := by
    cases hchanged with
    | inl hbits => exact hbits
    | inr hbytes =>
        obtain ⟨address, hbytes⟩ := hbytes
        exact ⟨_, .of_bytes hbytes⟩
  obtain ⟨k, hburst⟩ := hburst
  exact himage.not_of_burst hburst _ _ _ (validateCommitted_image hstate')

/-- Flash that holds `exit`, committed. -/
def committedExit : Contents := fun x =>
  (headerBytes 8 0 (crc32IsoHdlc Device.exitProgram) [0, 0] ++ Device.exitProgram).getD
    (x - headerAddress) 0xff

/-- One flipped bit in the first image byte is detected. -/
theorem burst_detected_exit :
    (BpfLoader.new.validateCommitted
      (Chip.fresh (Function.update committedExit imageAddress 0x94) fun _ => .done)).1.state ≠
        .committed (crc32IsoHdlc Device.exitProgram) := by
  have hstate : (BpfLoader.new.validateCommitted
      (Chip.fresh committedExit fun _ => .done)).1.state =
        .committed (crc32IsoHdlc Device.exitProgram) := by decide +kernel
  have hlen : 0 < (BpfLoader.new.validateCommitted
      (Chip.fresh committedExit fun _ => .done)).1.bytecodeLen.toNat := by decide +kernel
  refine burst_detected .new committedExit (fun _ => .done) _ hstate _
    (.inr ⟨imageAddress, ⟨fun heq => ?_, fun x hx => ?_, fun x hx => ?_⟩⟩) .new _ _
  · have hbyte := congrFun heq imageAddress
    rw [Function.update_self] at hbyte
    exact absurd hbyte (by decide +kernel)
  · exact Function.update_of_ne (fun heq => hx (by omega)) _ _
  · exact Function.update_of_ne (fun heq => hx (by omega)) _ _

end BpfLoader

end OptiBridge
