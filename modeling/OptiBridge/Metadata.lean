import OptiBridge.Commit

/-!
# OptiBridge.Metadata

Whatever the loader hands out about a program is what flash holds: the
interpreter's memory safety rests on the map ranges being disjoint parts of the
backing.

There are three ways out of the loader for what it knows of a program: the
metadata for a Start, the metadata for a timer event, and the range of a map
access.  `SoundMetadata` says what the first two promise, on flash contents
alone:

* the bytecode and the descriptors are those of a committed image;
* each map is where its descriptor puts it, behind those before it;
* no two maps share a byte, and none leaves the backing.

The invariant behind it is `Mirrors` of `OptiBridge.Commit`; this module reads
it off.
-/

namespace OptiBridge

open Nor

/-- The metadata describes the committed image flash holds, and its map ranges
tile a prefix of the backing. -/
structure SoundMetadata (c : Contents) (m : BpfProgramMetadata) : Prop where
  image : ∃ crc, CommittedImage c m.bytecodeLen m.mapCount crc
  count : m.mapCount.toNat ≤ bpfMaxMaps
  decoded : ∀ i : Fin bpfMaxMaps, i.val < m.mapCount.toNat →
    ∃ d, (descriptorsAt c m.bytecodeLen m.mapCount)[i.val]? = some d ∧
      m.maps[i].keySize = d.keySize ∧ m.maps[i].valueSize = d.valueSize ∧
      m.maps[i].backingLen.toNat = d.valueSize.toNat * d.maxEntries.toNat
  offset : ∀ i : Fin bpfMaxMaps, i.val < m.mapCount.toNat →
    m.maps[i].backingOffset.toNat =
      ((m.maps.toList.take i.val).map fun map => map.backingLen.toNat).sum
  nonempty : ∀ i : Fin bpfMaxMaps, i.val < m.mapCount.toNat → 0 < m.maps[i].backingLen.toNat
  disjoint : ∀ i j : Fin bpfMaxMaps, i < j → j.val < m.mapCount.toNat →
    m.maps[i].backingOffset.toNat + m.maps[i].backingLen.toNat ≤ m.maps[j].backingOffset.toNat
  within : ∀ i : Fin bpfMaxMaps, i.val < m.mapCount.toNat →
    m.maps[i].backingOffset.toNat + m.maps[i].backingLen.toNat ≤ bpfMaxMapBytes

namespace BpfLoader

/-- One map of the metadata a loader hands out. -/
theorem getElem_committedMetadata {self : BpfLoader} {ds : List Descriptor}
    (hlayouts : self.mapLayouts = layoutVector ds)
    (hcount : ds.length = self.committedMapCount.toNat) (i : Fin bpfMaxMaps)
    (hi : i.val < ds.length) :
    self.committedMetadata.maps[i] =
      ⟨UInt16.ofNat (totalSize (ds.take i.val)), UInt16.ofNat ds[i.val].size,
        ds[i.val].keySize, ds[i.val].valueSize⟩ := by
  have hlayout : self.mapLayouts[i] = layoutOf (totalSize (ds.take i.val)) ds[i.val] := by
    rw [hlayouts]
    exact getElem_layoutVector ds i.isLt hi
  simp only [committedMetadata, Fin.getElem_fin, Vector.getElem_ofFn]
  rw [if_pos (hcount ▸ hi)]
  simp only [Fin.getElem_fin] at hlayout
  rw [hlayout]
  rfl

end BpfLoader

/-- What the loader adopted is sound. -/
theorem Adopted.sound {l : BpfLoader} {c : Contents} {crc : UInt32} (h : Adopted l c crc) :
    SoundMetadata c l.committedMetadata := by
  have hbytecode : l.committedMetadata.bytecodeLen = l.bytecodeLen := rfl
  have hmaps : l.committedMetadata.mapCount = l.mapCount := h.count
  have hlength : (descriptorsAt c l.bytecodeLen l.mapCount).length = l.mapCount.toNat := by
    simp [descriptorsAt]
  have hmap := BpfLoader.getElem_committedMetadata h.layouts (by rw [hlength, h.count])
  have hvalid := h.image.maps
  have hbound := h.image.bounds.maps
  generalize hds : descriptorsAt c l.bytecodeLen l.mapCount = ds at *
  have htotal : ∀ i, totalSize (ds.take i) ≤ 1024 := fun i =>
    (totalSize_take_le ds i).trans hvalid.2
  have hsize : ∀ i (hi : i < ds.length), totalSize (ds.take i) + ds[i].size ≤ 1024 := fun i hi =>
    totalSize_take_succ ds hi ▸ htotal (i + 1)
  have hoffset : ∀ (i : Fin bpfMaxMaps), i.val < ds.length →
      l.committedMetadata.maps[i].backingOffset.toNat = totalSize (ds.take i.val) := fun i hi => by
    rw [hmap i hi]
    exact UInt16.toNat_ofNat_of_lt' (Nat.lt_of_le_of_lt (htotal i.val) (by decide))
  have hlen : ∀ (i : Fin bpfMaxMaps) (hi : i.val < ds.length),
      l.committedMetadata.maps[i].backingLen.toNat = ds[i.val].size := fun i hi => by
    rw [hmap i hi]
    have hle := hsize i.val hi
    exact UInt16.toNat_ofNat_of_lt' (by show _ < 65536; omega)
  refine ⟨⟨crc, ?_⟩, ?_, fun i hi => ?_, fun i hi => ?_, fun i hi => ?_, fun i j hij hj => ?_,
    fun i hi => ?_⟩
  · rw [hbytecode, hmaps]
    exact h.image
  · rw [hmaps]
    exact hbound
  · rw [hmaps, ← hlength] at hi
    rw [hbytecode, hmaps, hds]
    refine ⟨ds[i.val], List.getElem?_eq_getElem hi, ?_, ?_, hlen i hi⟩ <;> rw [hmap i hi]
  · rw [hmaps, ← hlength] at hi
    rw [hoffset i hi, totalSize]
    congr 1
    apply List.ext_getElem
    · simp; omega
    · intro j h₁ h₂
      have hj : j < i.val := by simp at h₁; omega
      have hsizej := hlen ⟨j, by omega⟩ (by show j < ds.length; omega)
      simpa using hsizej.symm
  · rw [hmaps, ← hlength] at hi
    rw [hlen i hi]
    exact (hvalid.1 _ (List.getElem_mem hi)).size_pos
  · rw [hmaps, ← hlength] at hj
    have hi : i.val < ds.length := Nat.lt_trans hij hj
    rw [hoffset i hi, hlen i hi, hoffset j hj, ← totalSize_take_succ ds hi]
    exact totalSize_take_mono ds hij
  · rw [hmaps, ← hlength] at hi
    rw [hoffset i hi, hlen i hi]
    exact hsize i.val hi

/-- A loader with a program hands out sound metadata. -/
theorem Mirrors.sound {l : BpfLoader} {c : Contents} {t : Option Transfer} (h : Mirrors l c t)
    (hprogram : l.state.hasProgram = true) : SoundMetadata c l.committedMetadata := by
  cases hstate : l.state with
  | committed crc => exact (h.program crc (.inl hstate)).sound
  | running crc => exact (h.program crc (.inr hstate)).sound
  | empty | receiving | failed =>
      rw [hstate] at hprogram
      contradiction

namespace BpfLoader

variable {self : BpfLoader}

/-- The metadata a timer event runs is handed out with a program and nothing
pending. -/
theorem eventExecutionMetadata_ok {metadata : BpfProgramMetadata} :
    self.eventExecutionMetadata = .ok metadata ↔
      self.pending = none ∧ self.state.hasProgram = true ∧
        self.committedMetadata = metadata := by
  unfold eventExecutionMetadata
  cases hpending : self.pending with
  | some operation => simp
  | none => cases hstate : self.state <;> simp [LoaderState.hasProgram]

/-- `STATUS_NO_PROGRAM` is what the program check of `read_map` and `write_map`
answers, and nothing else does. -/
theorem mapRange_noProgram {mapId : UInt8} {byteOffset : UInt16} {len : Nat} :
    self.mapRange mapId byteOffset len = .error statusNoProgram ↔
      self.state.hasProgram = false := by
  cases hprogram : self.state.hasProgram with
  | false => simp [mapRange, hprogram]
  | true =>
      simp only [mapRange, hprogram, not_true_eq_false, if_false, Bool.true_eq_false, iff_false]
      split
      · simp [statusBadCommand, statusNoProgram]
      · split
        · simp [statusBadCommand, statusNoProgram]
        · cases checkedAdd16 byteOffset (UInt16.ofNat len) with
          | none => simp [statusBadLength, statusNoProgram]
          | some mapEnd =>
              simp only
              split_ifs <;> simp [statusBadLength, statusNoProgram]

end BpfLoader

/-- **Metadata soundness.** From boot, over any chip, however its operations
fail: the metadata a Start or a timer event is given, and the one `read_map` and
`write_map` check against once they are past their program check, describe the
committed image flash holds at that moment; without a program there are no
maps. -/
theorem Device.metadata_sound (statusQueue : StatusQueue) (mapBacking : MapBacking)
    (output : Output) (f : Chip) (es : List Event) :
    let d := (boot statusQueue mapBacking output f).run es
    (∀ m, d.loader.executionMetadata = .ok m → SoundMetadata d.flash.contents m) ∧
      (∀ m, d.loader.eventExecutionMetadata = .ok m → SoundMetadata d.flash.contents m) ∧
      (∀ mapId byteOffset len,
        d.loader.mapRange mapId byteOffset len ≠ .error statusNoProgram →
          SoundMetadata d.flash.contents d.loader.committedMetadata) ∧
      (d.loader.state.hasProgram = false →
        d.loader.committedMapCount = 0 ∧ d.loader.mapLayouts = Vector.replicate _ .EMPTY) := by
  intro d
  obtain ⟨hsane, hmirrors⟩ := mirrored_run (.boot statusQueue mapBacking output f) es
  refine ⟨fun m hm => ?_, fun m hm => ?_, fun mapId byteOffset len hrange => ?_, fun hnone => ?_⟩
  · obtain ⟨-, ⟨crc, hstate⟩, rfl⟩ := BpfLoader.executionMetadata_ok.mp hm
    exact hmirrors.sound (by rw [show d.loader.state = _ from hstate]; rfl)
  · obtain ⟨-, hprogram, rfl⟩ := BpfLoader.eventExecutionMetadata_ok.mp hm
    exact hmirrors.sound hprogram
  · have hprogram : d.loader.state.hasProgram ≠ false := fun h =>
      hrange (BpfLoader.mapRange_noProgram.mpr h)
    exact hmirrors.sound (Bool.eq_true_of_not_eq_false hprogram)
  · exact (hsane.cleared hnone).symm

end OptiBridge
