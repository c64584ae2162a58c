import OptiBridge.MapHelpers

/-!
# OptiBridge.HelperAccess

The access rule to an array map is written three times: over pointers, over
slices and for the host.  For the metadata of a reachable loader the three are
one rule, that of the declared descriptors: an entry exists exactly below
`max_entries`, and it is the same bytes to all of them.

The way there is from the inside out.  `MapOf` ties the metadata of one map to
its descriptor, which settles the slice helpers; `HelpersOf` ties the metadata
of an invocation to those of a loader, which settles what a map pointer names;
and from the two follows what each pointer helper does, with every reason it may
refuse.  `HelpersAgree` states the outcome, and it names neither metadata nor
slices, only descriptors and addresses.
-/

namespace OptiBridge

open Bytes

/-! ## entries -/

/- One map on its own: what `valueRange` computes is the range of an entry if
and only if the entry exists. -/

/-- Metadata of the map a descriptor declares, `first` bytes into the backing. -/
structure MapOf (map : BpfMapMetadata) (first : Nat) (d : Descriptor) : Prop where
  valid : d.Valid
  offset : map.backingOffset.toNat = first
  len : map.backingLen.toNat = d.size
  keySize : map.keySize = 4
  valueSize : map.valueSize = d.valueSize
  fits : first + d.size ≤ bpfMaxMapBytes

namespace Descriptor

variable {d : Descriptor}

/-- An entry below `max_entries` lies in the map, and no other does. -/
theorem entry_le_size_iff (h : d.Valid) {entry : Nat} :
    entry * d.valueSize.toNat + d.valueSize.toNat ≤ d.size ↔ entry < d.maxEntries.toNat := by
  have hpos : 0 < d.valueSize.toNat :=
    Nat.pos_of_ne_zero fun h0 => h.2.2.1 (UInt32.toNat_inj.mp h0)
  rw [← Nat.succ_mul, size, Nat.mul_comm d.valueSize.toNat, Nat.mul_le_mul_right_iff hpos]
  exact Nat.succ_le_iff

end Descriptor

namespace MapOf

variable {map : BpfMapMetadata} {first : Nat} {d : Descriptor}

/-- **Ranges.** The checked arithmetic finds exactly the declared entries. -/
theorem valueRange_eq (h : MapOf map first d) (entry : UInt32) :
    valueRange map entry =
      if entry.toNat < d.maxEntries.toNat then
        some ⟨entry.toNat * d.valueSize.toNat,
          entry.toNat * d.valueSize.toNat + d.valueSize.toNat⟩
      else none := by
  have hfits : d.size ≤ 1024 := Nat.le_of_add_left_le h.fits
  rw [valueRange, if_neg (not_not.mpr h.keySize), h.valueSize, h.len]
  simp only [checkedUsize, ← Descriptor.entry_le_size_iff h.valid]
  generalize entry.toNat * d.valueSize.toNat = start
  generalize d.valueSize.toNat = len
  by_cases hin : start + len ≤ d.size
  · have hstart : start < 2 ^ 32 := by omega
    have hstop : start + len < 2 ^ 32 := by omega
    simp only [if_pos hstart, if_pos hstop, if_neg (Nat.not_lt.mpr hin), if_pos hin]
  · rw [if_neg hin]
    split_ifs
    · simp only
      split_ifs
      · simp only [if_pos (Nat.lt_of_not_le hin)]
      · rfl
    · rfl

variable {backing : MapBacking}

/-- The slice helper finds an entry exactly below the declared number. -/
theorem lookup_eq (h : MapOf map first d) (entry : UInt32) :
    MapHelpers.lookup map entry backing =
      if entry.toNat < d.maxEntries.toNat then
        some ((backing.toList.drop (first + entry.toNat * d.valueSize.toNat)).take
          d.valueSize.toNat)
      else none := by
  rw [MapHelpers.lookup, h.valueRange_eq]
  split_ifs with hentry
  · have hin := (Descriptor.entry_le_size_iff h.valid).mpr hentry
    have hfits := h.fits
    have hslice : first + entry.toNat * d.valueSize.toNat ≤
          first + (entry.toNat * d.valueSize.toNat + d.valueSize.toNat) ∧
        first + (entry.toNat * d.valueSize.toNat + d.valueSize.toNat) ≤ bpfMaxMapBytes := by
      omega
    simp only [h.offset, getSlice, if_pos hslice, Nat.add_sub_add_left, Nat.add_sub_cancel_left]
  · rfl

/-- The slice helper replaces an entry exactly below the declared number. -/
theorem update_eq (h : MapOf map first d) (entry : UInt32) {value : List UInt8}
    (hvalue : value.length = d.valueSize.toNat) :
    MapHelpers.update map entry value backing =
      if entry.toNat < d.maxEntries.toNat then
        (.ok (), copySlice backing (first + entry.toNat * d.valueSize.toNat) value)
      else (.error (), backing) := by
  rw [MapHelpers.update, if_neg (by rw [hvalue, h.valueSize]; exact not_not.mpr rfl),
    h.valueRange_eq]
  split_ifs with hentry
  · have hin := (Descriptor.entry_le_size_iff h.valid).mpr hentry
    have hfits := h.fits
    have hslice : first + entry.toNat * d.valueSize.toNat ≤
          first + (entry.toNat * d.valueSize.toNat + d.valueSize.toNat) ∧
        first + (entry.toNat * d.valueSize.toNat + d.valueSize.toNat) ≤ bpfMaxMapBytes := by
      omega
    simp only [h.offset, getSlice, if_pos hslice]
  · rfl

end MapOf

/-- The metadata of a committed map. -/
theorem LaidBy.mapOf {l : BpfLoader} {ds : List Descriptor} (h : LaidBy l ds) {i : Fin bpfMaxMaps}
    {d : Descriptor} (hd : ds[i.val]? = some d) :
    MapOf l.committedMetadata.maps[i] (Regions.start l.mapLengths i.val) d := by
  obtain ⟨hi, rfl⟩ := List.getElem?_eq_some_iff.mp hd
  obtain ⟨hlayout, hoffset, hlen⟩ := h.layout hi
  have hvalid := h.valid.1 _ (List.getElem_mem hi)
  have hcount : i.val < l.committedMapCount.toNat := h.length ▸ hi
  have hmap : l.committedMetadata.maps[i] =
      ⟨(layoutOf (totalSize (ds.take i)) ds[i.val]).offset,
        (layoutOf (totalSize (ds.take i)) ds[i.val]).len, ds[i.val].keySize,
        ds[i.val].valueSize⟩ := by
    rw [Vector.getElem?_eq_getElem i.isLt, Option.some.injEq] at hlayout
    simp only [BpfLoader.committedMetadata, Fin.getElem_fin, Vector.getElem_ofFn, if_pos hcount,
      hlayout]
    rfl
  rw [hmap]
  exact ⟨hvalid, by rw [hoffset, h.start_eq], hlen, hvalid.2.1, rfl,
    by rw [h.start_eq]; exact h.size_le hi⟩

/-! ## map pointers -/

/- A program names a map by the address in RAM where its bytes begin; the helper
searches the metadata for it. -/

/-- The address a map begins at. -/
def ActiveMapHelpers.mapAddress (state : ActiveMapHelpers) (i : Fin bpfMaxMaps) : UInt64 :=
  pointerAdd state.backing.address state.metadata.maps[i].backingOffset.toNat

/-- Helpers of a loader's maps, and the descriptors that declare them. -/
structure HelpersOf (state : ActiveMapHelpers) (l : BpfLoader) (ds : List Descriptor) : Prop where
  metadata : state.metadata = l.committedMetadata
  laid : LaidBy l ds

/-- The pointer is the address of map `i`, which `d` declares. -/
structure Names (state : ActiveMapHelpers) (ds : List Descriptor) (map : UInt64)
    (i : Fin bpfMaxMaps) (d : Descriptor) : Prop where
  declared : ds[i.val]? = some d
  address : map = state.mapAddress i

/-- The pointers select an entry: the key can be read and is below
`max_entries`. -/
structure Selects (state : ActiveMapHelpers) (ds : List Descriptor) (ram : Ram)
    (map key : UInt64) (i : Fin bpfMaxMaps) (d : Descriptor) : Prop extends
    Names state ds map i d where
  readable : InRam key 4
  entry : (readUnaligned ram key).toNat < d.maxEntries.toNat

namespace HelpersOf

variable {state : ActiveMapHelpers} {l : BpfLoader} {ds : List Descriptor}

/-- The metadata of a map of the invocation are those of its descriptor. -/
theorem mapOf (h : HelpersOf state l ds) {i : Fin bpfMaxMaps} {d : Descriptor}
    (hd : ds[i.val]? = some d) :
    MapOf state.metadata.maps[i] (Regions.start l.mapLengths i.val) d := by
  rw [h.metadata]
  exact h.laid.mapOf hd

theorem toNat_mapAddress (h : HelpersOf state l ds) {i : Fin bpfMaxMaps} {d : Descriptor}
    (hd : ds[i.val]? = some d) :
    (state.mapAddress i).toNat =
      state.backing.address.toNat + Regions.start l.mapLengths i.val := by
  have hmap := h.mapOf hd
  rw [ActiveMapHelpers.mapAddress, hmap.offset,
    state.backing.toNat_pointerAdd (Nat.le_of_add_right_le hmap.fits)]

/-- No two maps begin at one address. -/
theorem names_unique (h : HelpersOf state l ds) {map : UInt64} {i j : Fin bpfMaxMaps}
    {d d' : Descriptor} (hi : Names state ds map i d) (hj : Names state ds map j d') : i = j := by
  have hne : ∀ {i j : Fin bpfMaxMaps} {d d' : Descriptor}, Names state ds map i d →
      Names state ds map j d' → ¬ i.val < j.val := by
    intro i j d d' hi hj hlt
    have hlength : i.val < l.mapLengths.length := by
      rw [h.laid.length_mapLengths]
      exact (List.getElem?_eq_some_iff.mp hi.declared).1
    have hpos : 0 < l.mapLengths[i.val] := by
      obtain ⟨hindex, -⟩ := List.getElem?_eq_some_iff.mp hi.declared
      simp only [h.laid.mapLengths_eq, List.getElem_map]
      exact (h.laid.valid.1 _ (List.getElem_mem hindex)).size_pos
    have hbefore := Regions.start_add_lt hlength hlt hpos
    have hsame : (state.mapAddress i).toNat = (state.mapAddress j).toNat := by
      rw [← hi.address, ← hj.address]
    rw [h.toNat_mapAddress hi.declared, h.toNat_mapAddress hj.declared] at hsame
    omega
  exact Fin.ext (Nat.le_antisymm (Nat.not_lt.mp (hne hj hi)) (Nat.not_lt.mp (hne hi hj)))

/-- The maps the search goes through are the declared ones. -/
theorem mem_searched (h : HelpersOf state l ds) {i : Fin bpfMaxMaps} :
    i ∈ (List.finRange bpfMaxMaps).take state.metadata.mapCount.toNat ↔
      ∃ d, ds[i.val]? = some d := by
  have hcount : state.metadata.mapCount.toNat = ds.length := by
    rw [h.metadata, h.laid.length]
    rfl
  rw [hcount, List.mem_take_iff_getElem]
  constructor
  · rintro ⟨j, hj, rfl⟩
    have hlt : j < ds.length := Nat.lt_of_lt_of_le hj (Nat.min_le_left _ _)
    exact ⟨ds[j], by rw [List.getElem_finRange]; exact List.getElem?_eq_getElem hlt⟩
  · rintro ⟨d, hd⟩
    obtain ⟨hlt, -⟩ := List.getElem?_eq_some_iff.mp hd
    refine ⟨i.val, ?_, List.getElem_finRange _⟩
    rw [List.length_finRange]
    exact Nat.lt_min.mpr ⟨hlt, i.isLt⟩

/-- A pointer that names a map is found to be that map's. -/
theorem bpfMapLayout_of_names (h : HelpersOf state l ds) {map : UInt64} {i : Fin bpfMaxMaps}
    {d : Descriptor} (hnames : Names state ds map i d) :
    bpfMapLayout map state = some (i, 4, d.valueSize, d.size) := by
  have hmap := h.mapOf hnames.declared
  cases hfound : bpfMapLayout map state with
  | none =>
      have hmem := h.mem_searched.mpr ⟨d, hnames.declared⟩
      have hnone := List.findSome?_eq_none_iff.mp hfound i hmem
      have haddress := hnames.address
      simp only [ActiveMapHelpers.mapAddress] at haddress
      simp only [if_pos haddress] at hnone
      contradiction
  | some found =>
      obtain ⟨j, hj, hfound⟩ := List.exists_of_findSome?_eq_some hfound
      obtain ⟨d', hd'⟩ := h.mem_searched.mp hj
      simp only at hfound
      split_ifs at hfound with haddress
      have hsame := h.names_unique hnames ⟨hd', haddress⟩
      subst hsame
      rw [← hfound, hmap.keySize, hmap.valueSize, hmap.len]

/-- A pointer that names none is not found. -/
theorem bpfMapLayout_of_not_names (h : HelpersOf state l ds) {map : UInt64}
    (hnames : ¬ ∃ i d, Names state ds map i d) : bpfMapLayout map state = none := by
  refine List.findSome?_eq_none_iff.mpr fun i hi => ?_
  obtain ⟨d, hd⟩ := h.mem_searched.mp hi
  exact if_neg fun haddress => hnames ⟨i, d, hd, haddress⟩

end HelpersOf

/-! ## helpers -/

/- Each helper either refuses, for a reason that can be said of its arguments,
or acts on one entry. -/

namespace HelpersOf

variable {state : ActiveMapHelpers} {l : BpfLoader} {ds : List Descriptor} {ram : Ram}
  {map key value flags : UInt64}

/-- The source's list of reasons to refuse an update, as a condition on ranges;
the key size is compared with itself, for array maps have no other. -/
theorem refuses_update_iff {valueSize : UInt32} :
    (key = 0 ∨ value = 0 ∨ flags ≠ 0 ∨ (4 : UInt32) ≠ 4 ∨ ¬ validBpfRamRange key 4 ∨
        ¬ validBpfRamRange value valueSize.toNat) ↔
      ¬ (InRam key 4 ∧ InRam value valueSize.toNat ∧ flags = 0) := by
  rw [validBpfRamRange_iff (by decide), validBpfRamRange_iff valueSize.toNat_lt]
  have hkey : InRam key 4 → key ≠ 0 := InRam.ne_zero
  have hvalue : InRam value valueSize.toNat → value ≠ 0 := InRam.ne_zero
  tauto

/-- The same list for a lookup, which has neither value nor flags. -/
theorem refuses_lookup_iff :
    (key = 0 ∨ (4 : UInt32) ≠ 4 ∨ ¬ validBpfRamRange key 4) ↔ ¬ InRam key 4 := by
  rw [validBpfRamRange_iff (by decide)]
  have hkey : InRam key 4 → key ≠ 0 := InRam.ne_zero
  tauto

/-- An update of a declared map. -/
theorem update_of_names (h : HelpersOf state l ds) {i : Fin bpfMaxMaps} {d : Descriptor}
    (hnames : Names state ds map i d) (unused : UInt64) :
    bpfMapUpdateElem (some state) ram map key value flags unused =
      if (InRam key 4 ∧ InRam value d.valueSize.toNat ∧ flags = 0) ∧
          (readUnaligned ram key).toNat < d.maxEntries.toNat then
        (0, ptrCopy ram value (pointerAdd state.backing.address
          (Regions.start l.mapLengths i.val +
            (readUnaligned ram key).toNat * d.valueSize.toNat)) d.valueSize.toNat)
      else (helperError, ram) := by
  have hmap := h.mapOf hnames.declared
  simp only [bpfMapUpdateElem, h.bpfMapLayout_of_names hnames, refuses_update_iff,
    hmap.valueRange_eq, hmap.offset]
  by_cases hpointers : InRam key 4 ∧ InRam value d.valueSize.toNat ∧ flags = 0
  · rw [if_neg (not_not.mpr hpointers)]
    by_cases hentry : (readUnaligned ram key).toNat < d.maxEntries.toNat
    · have hin := (Descriptor.entry_le_size_iff hmap.valid).mpr hentry
      simp only [if_pos hentry, if_neg (Nat.not_lt.mpr hin), hpointers, true_and, and_true]
    · simp only [hentry, and_false, if_false]
  · rw [if_pos hpointers, if_neg fun hboth => hpointers hboth.1]

/-- A lookup in a declared map. -/
theorem lookup_of_names (h : HelpersOf state l ds) {i : Fin bpfMaxMaps} {d : Descriptor}
    (hnames : Names state ds map i d) (unused : UInt64) :
    bpfMapLookupElem (some state) ram map key value flags unused =
      if InRam key 4 ∧ (readUnaligned ram key).toNat < d.maxEntries.toNat then
        pointerAdd state.backing.address (Regions.start l.mapLengths i.val +
          (readUnaligned ram key).toNat * d.valueSize.toNat)
      else 0 := by
  have hmap := h.mapOf hnames.declared
  simp only [bpfMapLookupElem, h.bpfMapLayout_of_names hnames, refuses_lookup_iff,
    hmap.valueRange_eq, hmap.offset]
  by_cases hkey : InRam key 4
  · rw [if_neg (not_not.mpr hkey)]
    by_cases hentry : (readUnaligned ram key).toNat < d.maxEntries.toNat
    · have hin := (Descriptor.entry_le_size_iff hmap.valid).mpr hentry
      simp only [if_pos hentry, if_neg (Nat.not_lt.mpr hin), hkey, true_and]
    · simp only [hentry, and_false, if_false]
  · rw [if_pos hkey, if_neg fun hboth => hkey hboth.1]

/-- Helpers refuse pointers that select no entry. -/
theorem update_of_not_selects (h : HelpersOf state l ds) (unused : UInt64)
    (hselects : ¬ ∃ i d, Selects state ds ram map key i d) :
    bpfMapUpdateElem (some state) ram map key value flags unused = (helperError, ram) := by
  by_cases hnames : ∃ i d, Names state ds map i d
  · obtain ⟨i, d, hnames⟩ := hnames
    rw [h.update_of_names hnames, if_neg]
    exact fun hboth => hselects ⟨i, d, hnames, hboth.1.1, hboth.2⟩
  · simp only [bpfMapUpdateElem, h.bpfMapLayout_of_not_names hnames]

/-- A lookup that selects no entry returns the null pointer. -/
theorem lookup_of_not_selects (h : HelpersOf state l ds) (unused : UInt64)
    (hselects : ¬ ∃ i d, Selects state ds ram map key i d) :
    bpfMapLookupElem (some state) ram map key value flags unused = 0 := by
  by_cases hnames : ∃ i d, Names state ds map i d
  · obtain ⟨i, d, hnames⟩ := hnames
    rw [h.lookup_of_names hnames, if_neg]
    exact fun hboth => hselects ⟨i, d, hnames, hboth.1, hboth.2⟩
  · simp only [bpfMapLookupElem, h.bpfMapLayout_of_not_names hnames]

end HelpersOf

/-! ## the agreement -/

/- The theorem, for every loader that a run may reach and every content of RAM. -/

/-- The descriptors behind a loader's layouts are determined by them. -/
theorem LaidBy.unique {l : BpfLoader} {ds ds' : List Descriptor} (h : LaidBy l ds)
    (h' : LaidBy l ds') : ds' = ds := by
  apply List.ext_getElem
  · rw [h.length, h'.length]
  · intro i hi' hi
    have hmap : MapOf _ _ ds[i] :=
      h.mapOf (i := ⟨i, Nat.lt_of_lt_of_le hi h.count⟩) (List.getElem?_eq_getElem hi)
    have hmap' : MapOf _ _ ds'[i] :=
      h'.mapOf (i := ⟨i, Nat.lt_of_lt_of_le hi h.count⟩) (List.getElem?_eq_getElem hi')
    obtain ⟨htype, hkey, hvalue, -⟩ := hmap.valid
    obtain ⟨htype', hkey', -, -⟩ := hmap'.valid
    have hvalueSize : ds'[i].valueSize = ds[i].valueSize :=
      hmap'.valueSize.symm.trans hmap.valueSize
    have hsize : ds'[i].size = ds[i].size := hmap'.len.symm.trans hmap.len
    have hentries : ds'[i].maxEntries = ds[i].maxEntries := by
      have hpos : 0 < ds[i].valueSize.toNat :=
        Nat.pos_of_ne_zero fun h0 => hvalue (UInt32.toNat_inj.mp h0)
      rw [Descriptor.size, Descriptor.size, hvalueSize] at hsize
      exact UInt32.toNat_inj.mp (Nat.eq_of_mul_eq_mul_left hpos hsize)
    generalize ds'[i] = d' at *
    generalize ds[i] = d at *
    cases d
    cases d'
    simp_all

/-- Access over pointers, over slices and by the host come to the same. -/
structure HelpersAgree (state : ActiveMapHelpers) (l : BpfLoader) (ds : List Descriptor) :
    Prop where
  /-- No two maps begin at one address. -/
  distinct : ∀ map i j d d', Names state ds map i d → Names state ds map j d' → i = j
  /-- An update succeeds exactly on an entry, from a value in RAM, without flags. -/
  update_ok : ∀ ram map key value flags unused,
    (bpfMapUpdateElem (some state) ram map key value flags unused).1 = 0 ↔
      ∃ i d, Selects state ds ram map key i d ∧ InRam value d.valueSize.toNat ∧ flags = 0
  /-- In every other case it changes nothing. -/
  update_error : ∀ ram map key value flags unused,
    (bpfMapUpdateElem (some state) ram map key value flags unused).1 ≠ 0 →
      bpfMapUpdateElem (some state) ram map key value flags unused = (helperError, ram)
  /-- It changes exactly the bytes of the entry, to the value before the call. -/
  update_bytes : ∀ ram map key value flags unused i d, Selects state ds ram map key i d →
    InRam value d.valueSize.toNat → flags = 0 →
      let entry := (readUnaligned ram key).toNat
      let first := ramIndex state.backing.address +
        (state.metadata.maps[i].backingOffset.toNat + entry * d.valueSize.toNat)
      ∀ k, (bpfMapUpdateElem (some state) ram map key value flags unused).2[k]? =
        if first ≤ k ∧ k < first + d.valueSize.toNat then
          (bytesAt ram value d.valueSize.toNat)[k - first]?
        else ram[k]?
  /-- The slice helper does to the backing what the update does. -/
  update_slice : ∀ ram map key value flags unused i d, Names state ds map i d →
    InRam key 4 → InRam value d.valueSize.toNat → flags = 0 →
      let updated := bpfMapUpdateElem (some state) ram map key value flags unused
      MapHelpers.update state.metadata.maps[i] (readUnaligned ram key)
          (bytesAt ram value d.valueSize.toNat) (state.backing.slice ram) =
        (if updated.1 = 0 then .ok () else .error (), state.backing.slice updated.2)
  /-- The host reads what was written. -/
  update_read : ∀ ram map key value flags unused i d, Selects state ds ram map key i d →
    InRam value d.valueSize.toNat → flags = 0 →
      ∀ {σ : Type} (execute : Executor σ) (s : DispatchState σ), s.loader = l →
        s.mapBacking = state.backing.slice
          (bpfMapUpdateElem (some state) ram map key value flags unused).2 →
        ∀ request mapId offset count, IsMapRead request mapId offset count →
          mapId.toNat = i.val → 1 ≤ count.toNat → count.toNat ≤ 16 →
          (readUnaligned ram key).toNat * d.valueSize.toNat ≤ offset.toNat →
          offset.toNat + count.toNat ≤
            (readUnaligned ram key).toNat * d.valueSize.toNat + d.valueSize.toNat →
          replyOf (dispatchWithBpfAndExecutor request execute s) =
            some ⟨statusOk, request.sequence, 0,
              ((bytesAt ram value d.valueSize.toNat).drop
                (offset.toNat - (readUnaligned ram key).toNat * d.valueSize.toNat)).take
                count.toNat⟩
  /-- A lookup gives the address of the entry. -/
  lookup_entry : ∀ ram map key value flags unused i d, Selects state ds ram map key i d →
    (bpfMapLookupElem (some state) ram map key value flags unused).toNat =
      (state.mapAddress i).toNat + (readUnaligned ram key).toNat * d.valueSize.toNat
  /-- In every other case it gives zero. -/
  lookup_zero : ∀ ram map key value flags unused,
    (¬ ∃ i d, Selects state ds ram map key i d) →
      bpfMapLookupElem (some state) ram map key value flags unused = 0
  /-- The slice helper finds the bytes the lookup points at, or none. -/
  lookup_slice : ∀ ram map key value flags unused i d, Names state ds map i d → InRam key 4 →
    let found := bpfMapLookupElem (some state) ram map key value flags unused
    MapHelpers.lookup state.metadata.maps[i] (readUnaligned ram key) (state.backing.slice ram) =
      if found = 0 then none else some (bytesAt ram found d.valueSize.toNat)

namespace Selects

variable {state : ActiveMapHelpers} {l : BpfLoader} {ds : List Descriptor} {ram : Ram}
  {map key value flags : UInt64} {i : Fin bpfMaxMaps} {d : Descriptor}

/-- A selected entry lies in the backing. -/
theorem entry_le (hselects : Selects state ds ram map key i d) (h : HelpersOf state l ds) :
    Regions.start l.mapLengths i.val + (readUnaligned ram key).toNat * d.valueSize.toNat +
      d.valueSize.toNat ≤ bpfMaxMapBytes := by
  have hmap := h.mapOf hselects.declared
  have hin := (Descriptor.entry_le_size_iff hmap.valid).mpr hselects.entry
  have hfits := hmap.fits
  omega

/-- An update that selects an entry copies the value over it and returns zero. -/
theorem update_eq (hselects : Selects state ds ram map key i d) (h : HelpersOf state l ds)
    (hvalue : InRam value d.valueSize.toNat) (hflags : flags = 0) (unused : UInt64) :
    bpfMapUpdateElem (some state) ram map key value flags unused =
      (0, copySlice ram (ramIndex (pointerAdd state.backing.address
        (Regions.start l.mapLengths i.val + (readUnaligned ram key).toNat * d.valueSize.toNat)))
        (bytesAt ram value d.valueSize.toNat)) := by
  rw [h.update_of_names hselects.toNames,
    if_pos ⟨⟨hselects.readable, hvalue, hflags⟩, hselects.entry⟩, ptrCopy]

/-- The backing after an update. -/
theorem slice_update (hselects : Selects state ds ram map key i d) (h : HelpersOf state l ds)
    (hvalue : InRam value d.valueSize.toNat) (hflags : flags = 0) (unused : UInt64) :
    state.backing.slice (bpfMapUpdateElem (some state) ram map key value flags unused).2 =
      copySlice (state.backing.slice ram)
        (Regions.start l.mapLengths i.val + (readUnaligned ram key).toNat * d.valueSize.toNat)
        (bytesAt ram value d.valueSize.toNat) := by
  rw [hselects.update_eq h hvalue hflags]
  have hlen := length_bytesAt ram hvalue
  exact state.backing.slice_copySlice ram _ (by rw [hlen]; exact hselects.entry_le h)

/-- A lookup that selects an entry returns its address. -/
theorem lookup_eq (hselects : Selects state ds ram map key i d) (h : HelpersOf state l ds)
    (unused : UInt64) :
    bpfMapLookupElem (some state) ram map key value flags unused =
      pointerAdd state.backing.address
        (Regions.start l.mapLengths i.val + (readUnaligned ram key).toNat * d.valueSize.toNat) := by
  rw [h.lookup_of_names hselects.toNames, if_pos ⟨hselects.readable, hselects.entry⟩]

/-- As a number, the address is that of the map plus the entry's offset: nothing
wraps. -/
theorem lookup_entry (hselects : Selects state ds ram map key i d) (h : HelpersOf state l ds)
    (unused : UInt64) :
    (bpfMapLookupElem (some state) ram map key value flags unused).toNat =
      (state.mapAddress i).toNat + (readUnaligned ram key).toNat * d.valueSize.toNat := by
  have hentry := hselects.entry_le h
  rw [hselects.lookup_eq h, state.backing.toNat_pointerAdd (Nat.le_of_add_right_le hentry),
    h.toNat_mapAddress hselects.declared, Nat.add_assoc]

/-- Every byte of RAM after an update. -/
theorem update_bytes (hselects : Selects state ds ram map key i d) (h : HelpersOf state l ds)
    (hvalue : InRam value d.valueSize.toNat) (hflags : flags = 0) (unused : UInt64) (k : Nat) :
    let first := ramIndex state.backing.address + (state.metadata.maps[i].backingOffset.toNat +
      (readUnaligned ram key).toNat * d.valueSize.toNat)
    (bpfMapUpdateElem (some state) ram map key value flags unused).2[k]? =
      if first ≤ k ∧ k < first + d.valueSize.toNat then
        (bytesAt ram value d.valueSize.toNat)[k - first]?
      else ram[k]? := by
  intro first
  have hentry := hselects.entry_le h
  have hlength := length_bytesAt ram hvalue
  have hfirst : ramIndex (pointerAdd state.backing.address
      (Regions.start l.mapLengths i.val + (readUnaligned ram key).toNat * d.valueSize.toNat)) =
      first := by
    rw [state.backing.ramIndex_pointerAdd (Nat.le_of_add_right_le hentry),
      ← (h.mapOf hselects.declared).offset]
  have hbound : first + d.valueSize.toNat ≤ bpfRamSize := by
    have hindex := state.backing.index_le
    have hoffset := (h.mapOf hselects.declared).offset
    simp only [first, hoffset]
    omega
  rw [hselects.update_eq h hvalue hflags, hfirst]
  by_cases hk : k < bpfRamSize
  · rw [Vector.getElem?_eq_getElem hk, Vector.getElem?_eq_getElem hk]
    split_ifs with hcovered
    · have hin : k - first < (bytesAt ram value d.valueSize.toNat).length := by omega
      rw [getElem_copySlice_of_mem _ _ _ hk hcovered.1 (by omega), List.getElem?_eq_getElem hin]
    · rw [getElem_copySlice_of_not_mem _ _ _ hk (by rw [hlength]; exact hcovered)]
  · rw [if_neg (by omega), Vector.getElem?_eq_none (by omega), Vector.getElem?_eq_none (by omega)]

/-- What the host reads of an entry after an update. -/
theorem update_read (hselects : Selects state ds ram map key i d) (h : HelpersOf state l ds)
    (hprogram : l.state.hasProgram = true) (hvalue : InRam value d.valueSize.toNat)
    (hflags : flags = 0) (unused : UInt64) {σ : Type} (execute : Executor σ)
    {s : DispatchState σ} (hloader : s.loader = l)
    (hbacking : s.mapBacking = state.backing.slice
      (bpfMapUpdateElem (some state) ram map key value flags unused).2)
    {request : Request} {mapId : UInt8} {offset : UInt16} {count : UInt8}
    (hread : IsMapRead request mapId offset count) (hid : mapId.toNat = i.val)
    (hpos : 1 ≤ count.toNat) (hcount : count.toNat ≤ 16)
    (hlo : (readUnaligned ram key).toNat * d.valueSize.toNat ≤ offset.toNat)
    (hhi : offset.toNat + count.toNat ≤
      (readUnaligned ram key).toNat * d.valueSize.toNat + d.valueSize.toNat) :
    replyOf (dispatchWithBpfAndExecutor request execute s) =
      some ⟨statusOk, request.sequence, 0,
        ((bytesAt ram value d.valueSize.toNat).drop
          (offset.toNat - (readUnaligned ram key).toNat * d.valueSize.toNat)).take
          count.toNat⟩ := by
  have hmap := h.mapOf hselects.declared
  have hsize := (Descriptor.entry_le_size_iff hmap.valid).mpr hselects.entry
  have hlength := length_bytesAt ram hvalue
  have hin : s.loader.InMap mapId.toNat offset.toNat count.toNat := by
    refine ⟨d.size, ?_, hhi.trans hsize⟩
    rw [hloader, h.laid.mapLengths_eq, List.getElem?_map, hid, hselects.declared]
    rfl
  cases dispatch_read execute (s := s) (hloader ▸ h.laid) (hloader ▸ hprogram) hread with
  | inr hrefused => exact absurd ⟨hpos, hcount, hin⟩ hrefused.1
  | inl hok =>
      obtain ⟨-, hdispatch⟩ := hok
      have hslice := slice_copySlice (state.backing.slice ram)
        (Regions.start l.mapLengths i.val + (readUnaligned ram key).toNat * d.valueSize.toNat)
        (bytesAt ram value d.valueSize.toNat) (by rw [hlength]; exact hselects.entry_le h)
      rw [hlength, ← hselects.slice_update h hvalue hflags unused, ← hbacking] at hslice
      have hpayload : (s.mapBacking.toList.drop (Regions.start s.loader.mapLengths mapId.toNat +
          offset.toNat)).take count.toNat = ((bytesAt ram value d.valueSize.toNat).drop
            (offset.toNat - (readUnaligned ram key).toNat * d.valueSize.toNat)).take
            count.toNat := by
        have hplace : Regions.start l.mapLengths i.val + offset.toNat =
            Regions.start l.mapLengths i.val +
                (readUnaligned ram key).toNat * d.valueSize.toNat +
              (offset.toNat - (readUnaligned ram key).toNat * d.valueSize.toNat) := by omega
        rw [hloader, hid, hplace, ← List.drop_drop, ← hslice, List.drop_take, List.take_take,
          Nat.min_eq_left (by omega)]
      rw [hdispatch, hpayload, replyOf_respond]
      rw [List.length_take]
      exact (Nat.min_le_left _ _).trans hcount

end Selects

namespace HelpersOf

variable {state : ActiveMapHelpers} {l : BpfLoader} {ds : List Descriptor} {ram : Ram}
  {map key value flags : UInt64} {i : Fin bpfMaxMaps} {d : Descriptor}

/-- An update succeeds exactly when it selects an entry and its value and flags
are in order. -/
theorem update_ok (h : HelpersOf state l ds) (unused : UInt64) :
    (bpfMapUpdateElem (some state) ram map key value flags unused).1 = 0 ↔
      ∃ i d, Selects state ds ram map key i d ∧ InRam value d.valueSize.toNat ∧ flags = 0 := by
  have herror : helperError ≠ 0 := by decide
  constructor
  · intro hok
    by_cases hselects : ∃ i d, Selects state ds ram map key i d
    · obtain ⟨i, d, hselects⟩ := hselects
      rw [h.update_of_names hselects.toNames] at hok
      split_ifs at hok with hvalue
      · exact ⟨i, d, hselects, hvalue.1.2⟩
      · exact absurd hok herror
    · rw [h.update_of_not_selects unused hselects] at hok
      exact absurd hok herror
  · rintro ⟨i, d, hselects, hvalue, hflags⟩
    rw [hselects.update_eq h hvalue hflags]

/-- An update that fails has changed nothing. -/
theorem update_error (h : HelpersOf state l ds) (unused : UInt64)
    (hfails : (bpfMapUpdateElem (some state) ram map key value flags unused).1 ≠ 0) :
    bpfMapUpdateElem (some state) ram map key value flags unused = (helperError, ram) := by
  by_cases hnames : ∃ i d, Names state ds map i d
  · obtain ⟨i, d, hnames⟩ := hnames
    rw [h.update_of_names hnames] at hfails ⊢
    split_ifs at hfails ⊢
    · exact absurd rfl hfails
    · rfl
  · exact h.update_of_not_selects unused fun ⟨i, d, hselects⟩ => hnames ⟨i, d, hselects.toNames⟩

/-- The pointer helper updates what the slice helper updates. -/
theorem update_slice (h : HelpersOf state l ds) (hnames : Names state ds map i d)
    (hkey : InRam key 4) (hvalue : InRam value d.valueSize.toNat) (hflags : flags = 0)
    (unused : UInt64) :
    let updated := bpfMapUpdateElem (some state) ram map key value flags unused
    MapHelpers.update state.metadata.maps[i] (readUnaligned ram key)
        (bytesAt ram value d.valueSize.toNat) (state.backing.slice ram) =
      (if updated.1 = 0 then .ok () else .error (), state.backing.slice updated.2) := by
  intro updated
  rw [(h.mapOf hnames.declared).update_eq _ (length_bytesAt ram hvalue)]
  by_cases hentry : (readUnaligned ram key).toNat < d.maxEntries.toNat
  · have hselects : Selects state ds ram map key i d := ⟨hnames, hkey, hentry⟩
    have hok : updated.1 = 0 := (h.update_ok unused).mpr ⟨i, d, hselects, hvalue, hflags⟩
    rw [if_pos hentry, if_pos hok, hselects.slice_update h hvalue hflags]
  · have hrefused : updated = (helperError, ram) := by
      simp only [updated]
      rw [h.update_of_names hnames, if_neg fun hboth => hentry hboth.2]
    have herror : ¬ helperError = 0 := by decide
    rw [if_neg hentry, hrefused, if_neg herror]

/-- The pointer helper looks up what the slice helper looks up. -/
theorem lookup_slice (h : HelpersOf state l ds) (hnames : Names state ds map i d)
    (hkey : InRam key 4) (unused : UInt64) :
    let found := bpfMapLookupElem (some state) ram map key value flags unused
    MapHelpers.lookup state.metadata.maps[i] (readUnaligned ram key) (state.backing.slice ram) =
      if found = 0 then none else some (bytesAt ram found d.valueSize.toNat) := by
  intro found
  rw [(h.mapOf hnames.declared).lookup_eq]
  by_cases hentry : (readUnaligned ram key).toNat < d.maxEntries.toNat
  · have hselects : Selects state ds ram map key i d := ⟨hnames, hkey, hentry⟩
    have hfound : found ≠ 0 := by
      intro hzero
      have hplace : found.toNat = _ := hselects.lookup_entry h unused
      have hge := state.backing.start_le
      rw [hzero, h.toNat_mapAddress hnames.declared] at hplace
      rw [toNat_bpfRamStart] at hge
      simp only [UInt64.toNat_zero] at hplace
      omega
    rw [if_pos hentry, if_neg hfound]
    simp only [found]
    rw [hselects.lookup_eq h, state.backing.bytesAt_pointerAdd ram (hselects.entry_le h)]
  · have hzero : found = 0 := by
      simp only [found]
      rw [h.lookup_of_names hnames, if_neg fun hboth => hentry hboth.2]
    rw [if_neg hentry, if_pos hzero]

/-- The three access rules agree. -/
theorem agree (h : HelpersOf state l ds) (hprogram : l.state.hasProgram = true) :
    HelpersAgree state l ds where
  distinct := fun _ _ _ _ _ hi hj => h.names_unique hi hj
  update_ok := fun _ _ _ _ _ unused => h.update_ok unused
  update_error := fun _ _ _ _ _ unused => h.update_error unused
  update_bytes := fun _ _ _ _ _ unused _ _ hselects hvalue hflags =>
    hselects.update_bytes h hvalue hflags unused
  update_slice := fun _ _ _ _ _ unused _ _ hnames hkey hvalue hflags =>
    h.update_slice hnames hkey hvalue hflags unused
  update_read := fun _ _ _ _ _ unused _ _ hselects hvalue hflags _ execute _ hloader hbacking _ _ _
      _ hread hid hpos hcount hlo hhi =>
    hselects.update_read h hprogram hvalue hflags unused execute hloader hbacking hread hid hpos
      hcount hlo hhi
  lookup_entry := fun _ _ _ _ _ unused _ _ hselects => hselects.lookup_entry h unused
  lookup_zero := fun _ _ _ _ _ unused hselects => h.lookup_of_not_selects unused hselects
  lookup_slice := fun _ _ _ _ _ unused _ _ hnames hkey => h.lookup_slice hnames hkey unused

end HelpersOf

/-- Whichever of the two calls gave the metadata, they are the committed ones. -/
theorem BpfLoader.metadata_ok {l : BpfLoader} {metadata : BpfProgramMetadata}
    (h : l.executionMetadata = .ok metadata ∨ l.eventExecutionMetadata = .ok metadata) :
    metadata = l.committedMetadata ∧ l.state.hasProgram = true := by
  have hevent : l.eventExecutionMetadata = .ok metadata := by
    cases h with
    | inl hstart =>
        obtain ⟨hpending, ⟨crc, hstate⟩, hmetadata⟩ := BpfLoader.executionMetadata_ok.mp hstart
        simp [eventExecutionMetadata, hpending, hstate, hmetadata]
    | inr hevent => exact hevent
  unfold eventExecutionMetadata at hevent
  split_ifs at hevent
  cases hstate : l.state with
  | committed crc | running crc =>
      rw [hstate, Except.ok.injEq] at hevent
      exact ⟨hevent.symm, rfl⟩
  | empty | receiving | failed status => simp [hstate] at hevent

/-- **Maps of a program.** For the metadata of any reachable loader, over any
flash, and wherever the backing lies: the two pointer helpers, the slice helpers
and the host's Read agree on the maps its descriptors declare. -/
theorem helpers_agree {F : Type} [BpfFlash F] (statusQueue : StatusQueue)
    (mapBacking : MapBacking) (output : Output) (flash : F) (es : List Event)
    (state : ActiveMapHelpers)
    (h : ((Device.boot statusQueue mapBacking output flash).run es).loader.executionMetadata =
        .ok state.metadata ∨
      ((Device.boot statusQueue mapBacking output flash).run es).loader.eventExecutionMetadata =
        .ok state.metadata) :
    let l := ((Device.boot statusQueue mapBacking output flash).run es).loader
    ∃ ds, LaidBy l ds ∧ (∀ ds', LaidBy l ds' → ds' = ds) ∧ HelpersAgree state l ds := by
  intro l
  obtain ⟨hmetadata, hprogram⟩ := BpfLoader.metadata_ok h
  obtain ⟨-, ds, hlaid⟩ := (kept_laid F).device_run statusQueue mapBacking output flash es
  have hhelpers : HelpersOf state l ds := ⟨hmetadata, hlaid⟩
  exact ⟨ds, hlaid, fun _ => hlaid.unique, hhelpers.agree hprogram⟩

open Device in
/-- The helpers of a committed image with one array map. -/
def arrayHelpers : ActiveMapHelpers :=
  ⟨⟨0x20000100, by decide, by decide⟩,
    (erased.run (transfer 1 arrayImage)).loader.committedMetadata⟩

open Device in
/-- An image with one array map, loaded by a host: its descriptors are the only
ones, and the helpers of its invocations agree with the host. -/
theorem helpers_agree_array :
    arrayHelpers.metadata.mapCount = 1 ∧
      ∃ ds, LaidBy (erased.run (transfer 1 arrayImage)).loader ds ∧
        (∀ ds', LaidBy (erased.run (transfer 1 arrayImage)).loader ds' → ds' = ds) ∧
        HelpersAgree arrayHelpers (erased.run (transfer 1 arrayImage)).loader ds := by
  have hcount : arrayHelpers.metadata.mapCount = 1 := by decide +kernel
  have hok : (erased.run (transfer 1 arrayImage)).loader.executionMetadata =
      .ok arrayHelpers.metadata := by decide +kernel
  refine ⟨hcount, ?_⟩
  rw [erased] at hok ⊢
  exact helpers_agree _ _ _ _ _ arrayHelpers (.inl hok)

end OptiBridge
