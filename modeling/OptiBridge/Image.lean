import OptiBridge.LoaderInvariant

/-!
# OptiBridge.Image

The image format, stated on bytes and unbounded numbers: the 16-byte header,
the payload it describes and the array-map descriptors at the payload's end.
The loader's checked 32-bit arithmetic over one descriptor is shown to be the
exact arithmetic of this module.

Everything here is a function of bytes: no loader and no flash occur.  Later
modules relate what the loader holds and what flash holds to these definitions,
and through them to each other.

* `Descriptor`, `ValidDescriptors` and `totalSize`, the declared maps;
* `layoutVector`, where they lie;
* `mapLayout_eq`, the loader's checked arithmetic on one descriptor, in these
  terms;
* `headerBytes` and `descriptorsOf`, the bytes of an image.
-/

namespace OptiBridge

open Bytes

/-! ## descriptors -/

/- An array map by its descriptor, and what makes a list of them one the loader
takes. -/

/-- One array-map descriptor. -/
structure Descriptor where
  mapType : UInt32
  keySize : UInt32
  valueSize : UInt32
  maxEntries : UInt32
deriving DecidableEq

/-- The `i`-th little-endian 32-bit word of a byte list. -/
def wordAt (bs : List UInt8) (i : Nat) : UInt32 := UInt32.ofNat (ofLe ((bs.drop (4 * i)).take 4))

namespace Descriptor

/-- The descriptor 16 bytes spell. -/
def decode (bs : List UInt8) : Descriptor := ⟨wordAt bs 0, wordAt bs 1, wordAt bs 2, wordAt bs 3⟩

/-- The backing bytes its map takes. -/
def size (d : Descriptor) : Nat := d.valueSize.toNat * d.maxEntries.toNat

/-- An array map with four-byte keys and at least one byte. -/
def Valid (d : Descriptor) : Prop :=
  d.mapType = 1 ∧ d.keySize = 4 ∧ d.valueSize ≠ 0 ∧ d.maxEntries ≠ 0

instance (d : Descriptor) : Decidable d.Valid := inferInstanceAs (Decidable (_ ∧ _ ∧ _ ∧ _))

/-- A valid descriptor asks for at least one byte. -/
theorem Valid.size_pos {d : Descriptor} (h : d.Valid) : 0 < d.size := by
  obtain ⟨-, -, hvalue, hentries⟩ := h
  refine Nat.mul_pos ?_ ?_
  · exact Nat.pos_of_ne_zero fun h0 => hvalue (UInt32.toNat_inj.mp h0)
  · exact Nat.pos_of_ne_zero fun h0 => hentries (UInt32.toNat_inj.mp h0)

end Descriptor

/-- The backing bytes a list of descriptors takes. -/
def totalSize (ds : List Descriptor) : Nat := (ds.map Descriptor.size).sum

@[simp] theorem totalSize_nil : totalSize [] = 0 := rfl

@[simp] theorem totalSize_append (xs ys : List Descriptor) :
    totalSize (xs ++ ys) = totalSize xs + totalSize ys := by
  simp [totalSize]

/-- One map takes its size. -/
@[simp] theorem totalSize_singleton (d : Descriptor) : totalSize [d] = d.size := by
  simp [totalSize]

/-- Descriptors an image may carry. -/
def ValidDescriptors (ds : List Descriptor) : Prop :=
  (∀ d ∈ ds, d.Valid) ∧ totalSize ds ≤ bpfMaxMapBytes

instance (ds : List Descriptor) : Decidable (ValidDescriptors ds) :=
  inferInstanceAs (Decidable (_ ∧ _))

/-- The first maps take no more than all. -/
theorem totalSize_take_le (ds : List Descriptor) (k : Nat) :
    totalSize (ds.take k) ≤ totalSize ds := by
  conv => rhs; rw [← List.take_append_drop k ds, totalSize_append]
  exact Nat.le_add_right _ _

/-- One map more takes its size more. -/
theorem totalSize_take_succ (ds : List Descriptor) {i : Nat} (h : i < ds.length) :
    totalSize (ds.take (i + 1)) = totalSize (ds.take i) + ds[i].size := by
  rw [← List.take_append_getElem h, totalSize_append, totalSize_singleton]

/-- More maps do not take less. -/
theorem totalSize_take_mono (ds : List Descriptor) {i j : Nat} (h : i ≤ j) :
    totalSize (ds.take i) ≤ totalSize (ds.take j) := by
  have htake : (ds.take j).take i = ds.take i := by rw [List.take_take, Nat.min_eq_left h]
  rw [← htake]
  exact totalSize_take_le _ _

/-- The first of a list of valid descriptors are valid, and what they take is
within the backing. -/
theorem ValidDescriptors.take {ds : List Descriptor} (h : ValidDescriptors ds) (k : Nat) :
    ValidDescriptors (ds.take k) :=
  ⟨fun d hd => h.1 d (List.mem_of_mem_take hd), Nat.le_trans (totalSize_take_le ds k) h.2⟩

/-! ## layouts -/

/- Where the maps of a list of descriptors lie: each begins where the one before
it ends. -/

/-- The layout of a map that starts at `offset`. -/
def layoutOf (offset : Nat) (d : Descriptor) : MapLayout :=
  ⟨UInt16.ofNat offset, UInt16.ofNat d.size, d.keySize, d.valueSize⟩

/-- Maps lie one after another, in descriptor order. -/
def layoutVector (ds : List Descriptor) : Vector MapLayout bpfMaxMaps :=
  Vector.ofFn fun i =>
    match ds[i.val]? with
    | some d => layoutOf (totalSize (ds.take i.val)) d
    | none => .EMPTY

theorem getElem_layoutVector (ds : List Descriptor) {i : Nat} (hi : i < bpfMaxMaps)
    (h : i < ds.length) :
    (layoutVector ds)[i] = layoutOf (totalSize (ds.take i)) ds[i] := by
  simp [layoutVector, h]

@[simp] theorem layoutVector_nil : layoutVector [] = Vector.replicate _ .EMPTY := by
  apply Vector.ext
  intro i hi
  simp [layoutVector]

/-- One more descriptor fills the next slot. -/
theorem layoutVector_concat (ds : List Descriptor) (d : Descriptor) :
    layoutVector (ds ++ [d]) =
      (layoutVector ds).setIfInBounds ds.length (layoutOf (totalSize ds) d) := by
  apply Vector.ext
  intro i hi
  rw [Vector.getElem_setIfInBounds]
  rcases Nat.lt_trichotomy i ds.length with hlt | heq | hgt
  · have hne : ¬ ds.length = i := by omega
    have htake : (ds ++ [d]).take i = ds.take i := List.take_append_of_le_length (by omega)
    simp [layoutVector, hne, List.getElem?_append_left hlt, htake]
  · subst heq
    simp [layoutVector]
  · have hne : ¬ ds.length = i := by omega
    have hnone : (ds ++ [d])[i]? = none := by simp; omega
    have hnone' : ds[i]? = none := by simp; omega
    simp only [layoutVector, Vector.getElem_ofFn, hne, if_false, hnone, hnone']

/-! ## one descriptor, as the loader reads it -/

/- The loader's arithmetic is on 32-bit words with checks; on a descriptor it
accepts, that is arithmetic on numbers. -/

/-- The words the loader assembles from a descriptor's bytes. -/
theorem decode_toList (bs : Vector UInt8 bpfMapDescriptorSize) :
    Descriptor.decode bs.toList =
      ⟨u32FromLeBytes bs[0] bs[1] bs[2] bs[3], u32FromLeBytes bs[4] bs[5] bs[6] bs[7],
        u32FromLeBytes bs[8] bs[9] bs[10] bs[11], u32FromLeBytes bs[12] bs[13] bs[14] bs[15]⟩ := by
  simp only [Descriptor.decode, wordAt]
  rw [take_four_drop bs (4 * 0) (by decide), take_four_drop bs (4 * 1) (by decide),
    take_four_drop bs (4 * 2) (by decide), take_four_drop bs (4 * 3) (by decide)]
  rfl

/-- The checked product in numbers. -/
theorem checkedMul_eq (a b : UInt32) :
    checkedMul a b =
      if a.toNat * b.toNat < 2 ^ 32 then some (UInt32.ofNat (a.toNat * b.toNat)) else none := by
  unfold checkedMul
  split_ifs with h
  · congr 1
  · rfl

/-- The checked sum in numbers. -/
theorem checkedAdd_eq (a b : UInt32) :
    checkedAdd a b =
      if a.toNat + b.toNat < 2 ^ 32 then some (UInt32.ofNat (a.toNat + b.toNat)) else none := by
  unfold checkedAdd
  split_ifs with h
  · congr 1
  · rfl

/-- A layout truncates to 16 bits what the descriptor check has bounded. -/
theorem toUInt16_eq_ofNat (x : UInt32) : x.toUInt16 = UInt16.ofNat x.toNat := by
  apply UInt16.toNat_inj.mp
  rw [UInt32.toNat_toUInt16, UInt16.toNat_ofNat']

/-- **One descriptor.** The loader's checked arithmetic accepts a descriptor
exactly when it is valid and its map still fits the backing, and lays it out
after the maps before it. -/
theorem mapLayout_eq {total : UInt32} (htotal : total.toNat ≤ bpfMaxMapBytes)
    (bs : Vector UInt8 bpfMapDescriptorSize) :
    mapLayout total bs =
      if (Descriptor.decode bs.toList).Valid ∧
          total.toNat + (Descriptor.decode bs.toList).size ≤ bpfMaxMapBytes then
        some (layoutOf total.toNat (Descriptor.decode bs.toList),
          UInt32.ofNat (total.toNat + (Descriptor.decode bs.toList).size))
      else none := by
  have hdecode := decode_toList bs
  have htype := congrArg Descriptor.mapType hdecode.symm
  have hkey := congrArg Descriptor.keySize hdecode.symm
  have hvalue := congrArg Descriptor.valueSize hdecode.symm
  have hentries := congrArg Descriptor.maxEntries hdecode.symm
  simp only at htype hkey hvalue hentries
  simp only [mapLayout, htype, hkey, hvalue, hentries, checkedMul_eq]
  generalize Descriptor.decode bs.toList = d
  have htotal : total.toNat ≤ 1024 := htotal
  by_cases hfit : total.toNat + d.size ≤ 1024
  · -- nothing overflows, so both sides test the same conditions
    have hmul : d.valueSize.toNat * d.maxEntries.toNat < 2 ^ 32 := by
      show d.size < 2 ^ 32
      omega
    have hbytes : (UInt32.ofNat (d.valueSize.toNat * d.maxEntries.toNat)).toNat = d.size :=
      UInt32.toNat_ofNat_of_lt' hmul
    have hadd : total.toNat + d.size < 2 ^ 32 := by omega
    have hnext : (UInt32.ofNat (total.toNat + d.size)).toNat = total.toNat + d.size :=
      UInt32.toNat_ofNat_of_lt' hadd
    simp only [hmul, if_true, checkedAdd_eq, hbytes, hadd, hnext, toUInt16_eq_ofNat]
    by_cases hvalid : d.Valid
    · obtain ⟨h₁, h₂, h₃, h₄⟩ := hvalid
      have hok : ¬ (d.mapType ≠ 1 ∨ d.keySize ≠ 4 ∨ d.valueSize = 0 ∨ d.maxEntries = 0 ∨
          bpfMaxMapBytes < total.toNat + d.size) := by
        simp only [not_or, not_not, Nat.not_lt]
        exact ⟨h₁, h₂, h₃, h₄, hfit⟩
      rw [if_neg hok, if_pos ⟨⟨h₁, h₂, h₃, h₄⟩, hfit⟩]
      rfl
    · have hright : ¬ (d.Valid ∧ total.toNat + d.size ≤ bpfMaxMapBytes) := fun h => hvalid h.1
      rw [if_neg hright]
      refine if_pos ?_
      by_contra hnot
      simp only [not_or, not_not] at hnot
      exact hvalid ⟨hnot.1, hnot.2.1, hnot.2.2.1, hnot.2.2.2.1⟩
  · -- too big for the backing: some check fails, at the latest the last one
    have hright : ¬ (d.Valid ∧ total.toNat + d.size ≤ bpfMaxMapBytes) := fun h => hfit h.2
    rw [if_neg hright]
    by_cases hmul : d.valueSize.toNat * d.maxEntries.toNat < 2 ^ 32
    · simp only [hmul, if_true, checkedAdd_eq, UInt32.toNat_ofNat_of_lt' hmul]
      by_cases hadd : total.toNat + d.valueSize.toNat * d.maxEntries.toNat < 2 ^ 32
      · simp only [hadd, if_true, UInt32.toNat_ofNat_of_lt' hadd]
        exact if_pos (.inr (.inr (.inr (.inr (Nat.lt_of_not_le hfit)))))
      · simp only [hadd, if_false]
    · simp only [hmul, if_false]

/-! ## headers and images -/

/- The header as bytes, and an image as its bytecode and descriptors in a row. -/

/-- The 16 header bytes for a given commit marker. -/
def headerBytes (bytecodeLen : UInt16) (mapCount : UInt8) (crc : UInt32) (marker : List UInt8) :
    List UInt8 :=
  imageMagic ++ [1, mapCount] ++ toLe 2 bytecodeLen.toNat ++ toLe 4 crc.toNat ++ marker ++
    [0xff, 0xff]

/-- What `begin` programs is the header with an erased marker. -/
theorem toList_beginHeader (bytecodeLen : UInt16) (mapCount : UInt8) (crc : UInt32) :
    (BpfLoader.beginHeader bytecodeLen mapCount crc).toList =
      headerBytes bytecodeLen mapCount crc [0xff, 0xff] := by
  unfold BpfLoader.beginHeader
  simp only
  rw [toList_copySlice _ _ _ (by simp [bpfHeaderSize]),
    toList_copySlice _ _ _ (by simp [bpfHeaderSize]), Vector.toList_set, Vector.toList_set,
    toList_copySlice _ _ _ (by decide), Vector.toList_replicate]
  simp [headerBytes, toLe, List.replicate, imageMagic]

/-- The descriptors at the end of an image payload. -/
def descriptorsOf (image : List UInt8) (bytecodeLen mapCount : Nat) : List Descriptor :=
  (List.range mapCount).map fun i =>
    Descriptor.decode ((image.drop (bytecodeLen + 16 * i)).take 16)

@[simp] theorem length_descriptorsOf (image : List UInt8) (bytecodeLen mapCount : Nat) :
    (descriptorsOf image bytecodeLen mapCount).length = mapCount := by
  simp [descriptorsOf]

end OptiBridge
