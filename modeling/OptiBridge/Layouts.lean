import OptiBridge.Boot

/-!
# OptiBridge.Layouts

Over any flash, whatever its reads return: the layouts a loader holds are those
of some valid descriptors, so its maps are adjacent regions of the backing.

`LaidBy l ds` says that the loader's layouts are the regions of the descriptors
`ds`, side by side from the start of the backing.  Nothing is said about flash: a
read may return any sixteen bytes, and `map_layouts` refuses those that are no
descriptor.  So the invariant holds over a flash that lies, and map accesses are
confined there too.

* `mapLayouts_valid`, what reading the descriptors may give;
* `laid_executePending` and `laid_validateCommitted`, the two functions that
  change layouts;
* `kept_laid`, so the layouts are laid out in every run.
-/

namespace OptiBridge

/-- The maps of a loader are laid out by valid descriptors. -/
structure LaidBy (l : BpfLoader) (ds : List Descriptor) : Prop where
  valid : ValidDescriptors ds
  length : ds.length = l.committedMapCount.toNat
  count : ds.length ≤ bpfMaxMaps
  layouts : l.mapLayouts = layoutVector ds

theorem laidBy_nil {l : BpfLoader} (hlayouts : l.mapLayouts = Vector.replicate _ .EMPTY)
    (hcount : l.committedMapCount = 0) : LaidBy l [] where
  valid := ⟨by simp, Nat.zero_le _⟩
  length := by rw [hcount]; rfl
  count := Nat.zero_le _
  layouts := by rw [hlayouts, layoutVector_nil]

/-- The other fields of a loader do not matter. -/
theorem LaidBy.congr {l l' : BpfLoader} {ds : List Descriptor} (h : LaidBy l ds)
    (hlayouts : l'.mapLayouts = l.mapLayouts)
    (hcount : l'.committedMapCount = l.committedMapCount) : LaidBy l' ds where
  valid := h.valid
  length := by rw [hcount, h.length]
  count := h.count
  layouts := by rw [hlayouts, h.layouts]

section flash

variable {F : Type} [BpfFlash F]

/-- The descriptor loop lays out the descriptors it has read. -/
theorem mapLayoutsFrom_valid {flash flash' : F} {bytecodeLen : UInt16} {n index : Nat}
    {total : UInt32} {layouts layouts' : Vector MapLayout bpfMaxMaps} {ds : List Descriptor}
    (hindex : index ≤ n) (hvalid : ValidDescriptors ds) (hlength : ds.length = index)
    (htotal : total.toNat = totalSize ds) (hlayouts : layouts = layoutVector ds)
    (h : mapLayoutsFrom flash bytecodeLen n index total layouts = (some layouts', flash')) :
    ∃ ds', ValidDescriptors ds' ∧ ds'.length = n ∧ layouts' = layoutVector ds' := by
  fun_induction mapLayoutsFrom flash bytecodeLen n index total layouts generalizing ds with
  | case1 => cases h
  | case2 => cases h
  | case3 flash index total layouts hlt offset descriptor g hread layout nextTotal haccepted =>
      rename_i ih
      rw [mapLayout_eq (by rw [htotal]; exact hvalid.2)] at haccepted
      split_ifs at haccepted with hfits
      rw [Option.some.injEq, Prod.mk.injEq] at haccepted
      obtain ⟨hlayout, hnextTotal⟩ := haccepted
      have hfit : total.toNat + (Descriptor.decode descriptor.toList).size ≤ 1024 := hfits.2
      refine ih (by omega) ((validDescriptors_concat _ _).mpr ⟨hvalid, hfits.1, ?_⟩) ?_ ?_ ?_ h
      · rw [← htotal]
        exact hfits.2
      · simp [hlength]
      · rw [← hnextTotal, totalSize_append, totalSize_singleton, ← htotal]
        exact UInt32.toNat_ofNat_of_lt' (by show _ < 2 ^ 32; omega)
      · rw [layoutVector_concat, ← hlayout, hlayouts, hlength, htotal]
  | case4 flash index total layouts hge =>
      cases h
      exact ⟨ds, hvalid, by omega, hlayouts⟩

/-- Layouts that were read are those of valid descriptors, as many as were asked
for. -/
theorem mapLayouts_valid {flash flash' : F} {bytecodeLen : UInt16} {mapCount count : UInt8}
    {layouts : Vector MapLayout bpfMaxMaps}
    (h : mapLayouts flash bytecodeLen mapCount = (some (layouts, count), flash')) :
    count = mapCount ∧
      ∃ ds, ValidDescriptors ds ∧ ds.length = mapCount.toNat ∧ layouts = layoutVector ds := by
  unfold mapLayouts at h
  split at h
  · cases h
  · next layouts' flash'' hfrom =>
      cases h
      exact ⟨rfl, mapLayoutsFrom_valid (Nat.zero_le _) ⟨by simp, Nat.zero_le _⟩ rfl rfl
        layoutVector_nil.symm hfrom⟩

namespace BpfLoader

variable {self : BpfLoader} {flash : F}

/-! ## what keeps the layouts -/

/- Layouts change at two places of the loader, and nowhere else: at a Begin or a
boot, which clear them, and where descriptors have been read. -/

/-- The layouts of `map_layouts`, adopted. -/
theorem laid_of_mapLayouts {flash' : F} {l : BpfLoader} {bytecodeLen : UInt16}
    {mapCount count : UInt8} {layouts : Vector MapLayout bpfMaxMaps}
    (h : OptiBridge.mapLayouts flash bytecodeLen mapCount = (some (layouts, count), flash'))
    (hcount : mapCount.toNat ≤ bpfMaxMaps) (hlayouts : l.mapLayouts = layouts)
    (hmapCount : l.committedMapCount = count) : ∃ ds, LaidBy l ds := by
  obtain ⟨hsame, ds, hvalid, hlength, hlaid⟩ := mapLayouts_valid h
  refine ⟨ds, hvalid, ?_, ?_, hlayouts.trans hlaid⟩
  · rw [hmapCount, hsame, hlength]
  · rw [hlength]
    exact hcount

/-- Begin and Finalize forget the layouts or read new ones; Data keeps them. -/
theorem laid_executePending (hsane : self.Sane) (h : ∃ ds, LaidBy self ds) :
    ∃ ds, LaidBy (self.executePending flash).1 ds := by
  obtain ⟨ds, hlaid⟩ := h
  unfold executePending
  cases hpending : self.pending with
  | none => exact ⟨ds, hlaid⟩
  | some operation =>
      have haccepts := (hsane.pending operation hpending).2
      cases operation with
      | begin bytecodeLen mapCount expectedCrc =>
          have hstep := BpfLoader.begin_step { self with pending := none } flash bytecodeLen
            mapCount expectedCrc
          simp only
          generalize BpfLoader.begin { self with pending := none } flash bytecodeLen mapCount
            expectedCrc = out at hstep ⊢
          cases hstep <;> exact ⟨[], laidBy_nil rfl rfl⟩
      | data offset bytes len =>
          have hstep := BpfLoader.data_step { self with pending := none } flash offset bytes len
          simp only
          generalize BpfLoader.data { self with pending := none } flash offset bytes len = out
            at hstep ⊢
          cases hstep <;> exact ⟨ds, hlaid.congr rfl rfl⟩
      | finalize =>
          have hbounds := (hsane.transfer haccepts.1).1
          have hstep := BpfLoader.finalize_step { self with pending := none } flash
          simp only
          generalize BpfLoader.finalize { self with pending := none } flash = out at hstep ⊢
          cases hstep with
          | badCrc => exact ⟨ds, hlaid.congr rfl rfl⟩
          | badMaps => exact ⟨ds, hlaid.congr rfl rfl⟩
          | markerFailed => exact ⟨ds, hlaid.congr rfl rfl⟩
          | committed _ hmaps => exact laid_of_mapLayouts hmaps hbounds.maps rfl rfl

/-- A boot adopts the layouts it has read, or none. -/
theorem laid_validateCommitted : ∃ ds, LaidBy (self.validateCommitted flash).1 ds := by
  have hstep := self.validate_step flash
  generalize self.validateCommitted flash = out at hstep ⊢
  cases hstep with
  | committed _ hheader _ hmaps =>
      obtain ⟨-, hbounds, -⟩ := acceptedHeader_eq_some.mp hheader
      exact laid_of_mapLayouts hmaps hbounds.maps rfl rfl
  | _ => exact ⟨[], laidBy_nil rfl rfl⟩

end BpfLoader

/-- Layouts are kept, along with sanity. -/
theorem kept_laid (F : Type) [BpfFlash F] : Kept F fun l => l.Sane ∧ ∃ ds, LaidBy l ds where
  validate := fun flash => ⟨(kept_sane F).validate flash, BpfLoader.laid_validateCommitted⟩
  execute := fun l flash hl =>
    ⟨(kept_sane F).execute l flash hl.1, BpfLoader.laid_executePending hl.1 hl.2⟩
  accept := fun l request operation hl hop =>
    ⟨(kept_sane F).accept l request operation hl.1 hop, hl.2.imp fun _ h => h.congr rfl rfl⟩
  start := fun l crc hl hpending hstate =>
    ⟨(kept_sane F).start l crc hl.1 hpending hstate, hl.2.imp fun _ h => h.congr rfl rfl⟩

end flash

end OptiBridge
