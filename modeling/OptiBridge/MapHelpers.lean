import OptiBridge.Maps
import OptiBridge.Timer

/-!
# OptiBridge.MapHelpers

The maps as a BPF program sees them: the slice helpers of `map_helpers`, and the
two helpers the interpreter calls with 64-bit pointers into RAM.  A helper takes
any five words; what it finds there is up to the program.

A pointer is a word, and RAM is the ten kilobytes it may point into; the map
backing is part of RAM, wherever the linker has put it (`BackingAddress`).  The
third and fourth arguments of a lookup, and the fifth of both helpers, are read
by nobody.

What a helper does is a function of RAM: it returns its result and the RAM it
leaves.  The interpreter's registers are its arguments.
-/

namespace OptiBridge

open Bytes

/-! ## slice helpers -/

/- The bounds arithmetic of `map_helpers`, which the source keeps free of
pointers so that it can be tested on a host. -/

/-- A half-open range of a map's bytes. -/
structure ValueRange where
  start : Nat
  stop : Nat
deriving DecidableEq

/-- The bytes of one entry within the backing: checked products and sums, and
the end no further than the map. -/
def valueRange (map : BpfMapMetadata) (entry : UInt32) : Option ValueRange :=
  if map.keySize ≠ 4 then none
  else
    let valueSize := map.valueSize.toNat
    match checkedUsize (entry.toNat * valueSize) with
    | none => none
    | some offset =>
        match checkedUsize (offset + valueSize) with
        | none => none
        | some stop => if map.backingLen.toNat < stop then none else some ⟨offset, stop⟩

/-- `slice::get` with a range. -/
def getSlice {n : Nat} (bytes : Vector UInt8 n) (start stop : Nat) : Option (List UInt8) :=
  if start ≤ stop ∧ stop ≤ n then some ((bytes.toList.drop start).take (stop - start)) else none

namespace MapHelpers

variable {n : Nat}

/-- The bytes of one entry, if it is one. -/
def lookup (map : BpfMapMetadata) (entry : UInt32) (backing : Vector UInt8 n) :
    Option (List UInt8) :=
  match valueRange map entry with
  | none => none
  | some range =>
      let start := map.backingOffset.toNat
      getSlice backing (start + range.start) (start + range.stop)

/-- Replace one entry, if the value has its length. -/
def update (map : BpfMapMetadata) (entry : UInt32) (value : List UInt8)
    (backing : Vector UInt8 n) : Except Unit Unit × Vector UInt8 n :=
  if value.length ≠ map.valueSize.toNat then (.error (), backing)
  else
    match valueRange map entry with
    | none => (.error (), backing)
    | some range =>
        let start := map.backingOffset.toNat
        match getSlice backing (start + range.start) (start + range.stop) with
        | none => (.error (), backing)
        | some _ => (.ok (), copySlice backing (start + range.start) value)

end MapHelpers

/-! ## RAM -/

/- Helpers read keys and values from RAM and write values to it.  What is outside
is refused, so it need not be there. -/

/-- Where the RAM of the microcontroller begins. -/
def bpfRamStart : UInt64 := 0x20000000
/-- Its size. -/
abbrev bpfRamSize : Nat := 10 * 1024
/-- Where it ends. -/
def bpfRamEnd : UInt64 := bpfRamStart + 10 * 1024

theorem toNat_bpfRamStart : bpfRamStart.toNat = 0x20000000 := rfl

theorem toNat_bpfRamEnd : bpfRamEnd.toNat = 0x20002800 := rfl

/-- The bytes from `bpfRamStart` to `bpfRamEnd`. -/
abbrev Ram := Vector UInt8 bpfRamSize

/-- Where in RAM a pointer points. -/
def ramIndex (pointer : UInt64) : Nat := pointer.toNat - bpfRamStart.toNat

/-- The bytes a pointer points at. -/
def bytesAt (ram : Ram) (pointer : UInt64) (len : Nat) : List UInt8 :=
  (ram.toList.drop (ramIndex pointer)).take len

/-- `core::ptr::read_unaligned` of a `u32`. -/
def readUnaligned (ram : Ram) (pointer : UInt64) : UInt32 :=
  UInt32.ofNat (ofLe (bytesAt ram pointer 4))

/-- `core::ptr::copy`: all of the source is read before any of it is written. -/
def ptrCopy (ram : Ram) (source destination : UInt64) (count : Nat) : Ram :=
  copySlice ram (ramIndex destination) (bytesAt ram source count)

/-- `pointer.add(count)`. -/
def pointerAdd (pointer : UInt64) (count : Nat) : UInt64 := pointer + UInt64.ofNat count

/-- Where the linker has put the backing. -/
structure BackingAddress where
  address : UInt64
  start_le : bpfRamStart.toNat ≤ address.toNat
  le_end : address.toNat + bpfMaxMapBytes ≤ bpfRamEnd.toNat

/-- What the helpers know of the invocation in progress: where its backing is
and what it may run. -/
structure ActiveMapHelpers where
  backing : BackingAddress
  metadata : BpfProgramMetadata

/-- `u64::checked_add`. -/
def checkedAdd64 (a b : UInt64) : Option UInt64 :=
  if a.toNat + b.toNat < 2 ^ 64 then some (a + b) else none

/-- Whether a pointer and a length lie within RAM. The sum is checked, for the
pointer is any word. -/
def validBpfRamRange (pointer : UInt64) (length : Nat) : Bool :=
  bpfRamStart ≤ pointer &&
    match checkedAdd64 pointer (UInt64.ofNat length) with
    | some stop => stop ≤ bpfRamEnd
    | none => false

/-! ## helpers -/

/-- The map a pointer is the start of, with its key size, value size and backing
length. -/
def bpfMapLayout (map : UInt64) (state : ActiveMapHelpers) :
    Option (Fin bpfMaxMaps × UInt32 × UInt32 × Nat) :=
  ((List.finRange bpfMaxMaps).take state.metadata.mapCount.toNat).findSome? fun index =>
    let metadata := getElem state.metadata.maps index index.isLt
    -- a pointer into the middle of a map names none
    let mapStart := pointerAdd state.backing.address metadata.backingOffset.toNat
    if map = mapStart then
      some (index, metadata.keySize, metadata.valueSize, metadata.backingLen.toNat)
    else none

/-- Helper 10.  It returns a pointer into the backing, or zero for everything
that is wrong: no invocation, no such map, a key outside RAM, an index past the
entries. -/
def bpfMapLookupElem (activeMapHelpers : Option ActiveMapHelpers) (ram : Ram)
    (map key _value _flags _unused : UInt64) : UInt64 :=
  match activeMapHelpers with
  | none => 0
  | some state =>
      match bpfMapLayout map state with
      | none => 0
      | some (index, keySize, _valueSize, backingLen) =>
          -- the key is read only if all of it lies in RAM
          if key = 0 ∨ keySize ≠ 4 ∨ ¬ validBpfRamRange key 4 then 0
          else
            let metadata := getElem state.metadata.maps index index.isLt
            match valueRange metadata (readUnaligned ram key) with
            | none => 0
            | some range =>
                if backingLen < range.stop then 0
                else
                  pointerAdd state.backing.address
                    (metadata.backingOffset.toNat + range.start)

/-- Helper 11.  It copies a value from RAM into the backing, or returns the error
value and leaves RAM alone.  Flags other than zero are refused. -/
def bpfMapUpdateElem (activeMapHelpers : Option ActiveMapHelpers) (ram : Ram)
    (map key value flags _unused : UInt64) : UInt64 × Ram :=
  match activeMapHelpers with
  | none => (helperError, ram)
  | some state =>
      match bpfMapLayout map state with
      | none => (helperError, ram)
      | some (index, keySize, valueSize, backingLen) =>
          if key = 0 ∨ value = 0 ∨ flags ≠ 0 ∨ keySize ≠ 4 ∨ ¬ validBpfRamRange key 4 ∨
              ¬ validBpfRamRange value valueSize.toNat then (helperError, ram)
          else
            let metadata := getElem state.metadata.maps index index.isLt
            match valueRange metadata (readUnaligned ram key) with
            | none => (helperError, ram)
            | some range =>
                if backingLen < range.stop then (helperError, ram)
                else
                  let destination := pointerAdd state.backing.address
                    (metadata.backingOffset.toNat + range.start)
                  (0, ptrCopy ram value destination valueSize.toNat)

/-! ## pointers -/

/- The arithmetic of addresses, once and for all in numbers. -/

/-- The bytes from a pointer on lie in RAM. -/
def InRam (pointer : UInt64) (len : Nat) : Prop :=
  bpfRamStart.toNat ≤ pointer.toNat ∧ pointer.toNat + len ≤ bpfRamEnd.toNat

instance (pointer : UInt64) (len : Nat) : Decidable (InRam pointer len) :=
  inferInstanceAs (Decidable (_ ∧ _))

/-- The checked comparison is the comparison of numbers. -/
theorem validBpfRamRange_iff {pointer : UInt64} {length : Nat} (h : length < 2 ^ 32) :
    validBpfRamRange pointer length = true ↔ InRam pointer length := by
  have hlength : (UInt64.ofNat length).toNat = length :=
    UInt64.toNat_ofNat_of_lt' (by show _ < 2 ^ 64; omega)
  simp only [validBpfRamRange, checkedAdd64, InRam, hlength, Bool.and_eq_true, decide_eq_true_eq,
    UInt64.le_iff_toNat_le]
  refine and_congr_right fun _ => ?_
  split_ifs with hadd
  · simp only [decide_eq_true_eq, UInt64.toNat_add, hlength, Nat.mod_eq_of_lt hadd]
  · rw [false_iff, toNat_bpfRamEnd]
    omega

theorem InRam.ne_zero {pointer : UInt64} {len : Nat} (h : InRam pointer len) : pointer ≠ 0 := by
  rintro rfl
  exact absurd h.1 (by decide)

@[simp] theorem length_bytesAt (ram : Ram) {pointer : UInt64} {len : Nat}
    (h : InRam pointer len) : (bytesAt ram pointer len).length = len := by
  obtain ⟨hlo, hhi⟩ := h
  rw [toNat_bpfRamStart] at hlo
  rw [toNat_bpfRamEnd] at hhi
  rw [bytesAt, List.length_take, List.length_drop, Vector.length_toList, ramIndex,
    toNat_bpfRamStart]
  show min len (10240 - (pointer.toNat - 0x20000000)) = len
  omega

namespace BackingAddress

variable (backing : BackingAddress)

theorem index_le : ramIndex backing.address + bpfMaxMapBytes ≤ bpfRamSize := by
  have hle := backing.le_end
  have hge := backing.start_le
  rw [toNat_bpfRamEnd] at hle
  rw [toNat_bpfRamStart] at hge
  rw [ramIndex, toNat_bpfRamStart]
  show backing.address.toNat - 0x20000000 + 1024 ≤ 10240
  have hle : backing.address.toNat + 1024 ≤ 0x20002800 := hle
  omega

/-- The backing, as a part of RAM. -/
def slice (ram : Ram) : MapBacking :=
  Vector.ofFn fun i =>
    have hlt : ramIndex backing.address + i.val < bpfRamSize :=
      Nat.lt_of_lt_of_le (Nat.add_lt_add_left i.isLt _) backing.index_le
    ram[ramIndex backing.address + i.val]

theorem toNat_pointerAdd {count : Nat} (h : count ≤ bpfMaxMapBytes) :
    (pointerAdd backing.address count).toNat = backing.address.toNat + count := by
  have hle := backing.le_end
  rw [toNat_bpfRamEnd] at hle
  have hcount : (UInt64.ofNat count).toNat = count :=
    UInt64.toNat_ofNat_of_lt' (Nat.lt_of_le_of_lt h (by decide))
  rw [pointerAdd, UInt64.toNat_add, hcount]
  exact Nat.mod_eq_of_lt (by omega)

/-- An offset into the backing is an offset into RAM. -/
theorem ramIndex_pointerAdd {count : Nat} (h : count ≤ bpfMaxMapBytes) :
    ramIndex (pointerAdd backing.address count) = ramIndex backing.address + count := by
  have hge := backing.start_le
  rw [ramIndex, backing.toNat_pointerAdd h, ramIndex]
  omega

/-- The bytes at an offset into the backing. -/
theorem bytesAt_pointerAdd (ram : Ram) {count len : Nat} (h : count + len ≤ bpfMaxMapBytes) :
    bytesAt ram (pointerAdd backing.address count) len =
      ((backing.slice ram).toList.drop count).take len := by
  have hbound := backing.index_le
  apply List.ext_getElem
  · simp only [bytesAt, List.length_take, List.length_drop, Vector.length_toList,
      backing.ramIndex_pointerAdd (Nat.le_of_add_right_le h)]
    omega
  · intro i hi hi'
    simp only [bytesAt, List.getElem_take, List.getElem_drop, Vector.getElem_toList,
      backing.ramIndex_pointerAdd (Nat.le_of_add_right_le h), slice, Vector.getElem_ofFn,
      Nat.add_assoc]

/-- What is copied into the backing is a copy in RAM. -/
theorem slice_copySlice (ram : Ram) {count : Nat} (source : List UInt8)
    (h : count + source.length ≤ bpfMaxMapBytes) :
    backing.slice (copySlice ram (ramIndex (pointerAdd backing.address count)) source) =
      copySlice (backing.slice ram) count source := by
  have hindex := backing.ramIndex_pointerAdd (Nat.le_of_add_right_le h)
  apply Vector.ext
  intro i hi
  have hbound := backing.index_le
  simp only [slice, Vector.getElem_ofFn]
  by_cases hcovered : count ≤ i ∧ i < count + source.length
  · have hplace : ramIndex backing.address + i -
        ramIndex (pointerAdd backing.address count) = i - count := by omega
    rw [getElem_copySlice_of_mem _ _ _ (by omega) (by omega) (by omega),
      getElem_copySlice_of_mem _ _ _ hi hcovered.1 hcovered.2]
    simp only [hplace]
  · rw [getElem_copySlice_of_not_mem _ _ _ (by omega) (by omega),
      getElem_copySlice_of_not_mem _ _ _ hi hcovered, Vector.getElem_ofFn]

end BackingAddress

end OptiBridge
