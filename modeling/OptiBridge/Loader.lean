import OptiBridge.Crc32
import OptiBridge.Protocol

/-!
# OptiBridge.Loader

The BPF image loader: what the I2C callback may accept (`acceptsLoad`), what
the main loop then does to flash (`executePending`), the boot validator
(`validateCommitted`), and what execution and the host see of a committed image
(`executionMetadata`, `readMap`, `writeMap`).

Flash is any type with the driver's three operations.  A function that takes
`&mut self` returns the new value; flash is threaded through.

Acceptance and execution are two moments: a Load is checked against the loader
when the callback answers it, and executed when the main loop gets to it.
Between the two the operation waits in `pending`, of which there is one; that
slot is the only way from the callback to flash.
-/

namespace OptiBridge

open Bytes

/-! ## constants -/

/- The map of flash and the limits of an image. -/

/-- Where the image header begins in flash. -/
abbrev bpfFlashOffset : UInt32 := 0x6000
/-- The last 8 KiB of flash belong to the image. -/
abbrev bpfFlashSize : Nat := 8192
/-- The header: magic, version, map count, bytecode length, CRC, commit marker,
filling. -/
abbrev bpfHeaderSize : Nat := 16
/-- The most bytecode an image may have. -/
abbrev bpfMaxBytecode : Nat := 7680
/-- The most maps an image may declare. -/
abbrev bpfMaxMaps : Nat := 8
/-- Four little-endian words: type, key size, value size, entries. -/
abbrev bpfMapDescriptorSize : Nat := 16
/-- The RAM that backs all maps together. -/
abbrev bpfMaxMapBytes : Nat := 1024
/-- A Write begins with two bytes that pack the map and the offset. -/
abbrev mapWriteLocationSize : Nat := 2
/-- What is left of a payload for the data of a Write. -/
abbrev maxMapWriteBytes : Nat := 14

/-- The 1,024 bytes all runtime maps share. -/
abbrev MapBacking := Vector UInt8 bpfMaxMapBytes

/-! ## checked arithmetic -/

/- Where the source uses `checked_add` or `checked_mul` the model has the
operation that may fail, not an inequality in its place. -/

/-- `usize::checked_add` and `usize::checked_mul` on the 32-bit target. -/
def checkedUsize (n : Nat) : Option Nat := if n < 2 ^ 32 then some n else none

/-- `u32::checked_mul`. -/
def checkedMul (a b : UInt32) : Option UInt32 :=
  if a.toNat * b.toNat < 2 ^ 32 then some (a * b) else none

/-- `u32::checked_add`. -/
def checkedAdd (a b : UInt32) : Option UInt32 :=
  if a.toNat + b.toNat < 2 ^ 32 then some (a + b) else none

/-- `u16::checked_add`. -/
def checkedAdd16 (a b : UInt16) : Option UInt16 :=
  if a.toNat + b.toNat < 2 ^ 16 then some (a + b) else none

/-- `usize::div_ceil`. -/
def divCeil (a b : Nat) : Nat := if 0 < a % b then a / b + 1 else a / b

/-- The source's `u16::from_le_bytes`. -/
def u16FromLeBytes (a b : UInt8) : UInt16 := UInt16.ofNat (ofLe [a, b])

/-- The source's `u32::from_le_bytes`. -/
def u32FromLeBytes (a b c d : UInt8) : UInt32 := UInt32.ofNat (ofLe [a, b, c, d])

/-! ## the data model -/

/-- A Load step that has been accepted and not yet executed.  A Data step carries
its bytes with it, for the request buffer is gone by the time the main loop gets
to them. -/
inductive LoadOperation where
  | begin (bytecodeLen : UInt16) (mapCount : UInt8) (expectedCrc : UInt32)
  | data (offset : UInt16) (bytes : Vector UInt8 12) (len : UInt8)
  | finalize
deriving DecidableEq

/-- The flash driver: each operation succeeds or fails, and a read that
succeeds fills the whole buffer it was given. -/
class BpfFlash (F : Type) where
  read : F → UInt32 → (len : Nat) → Except Unit (Vector UInt8 len) × F
  write : F → UInt32 → List UInt8 → Except Unit Unit × F
  erase : F → UInt32 → UInt32 → Except Unit Unit × F

/-- What the loader has.  `receiving` follows an executed Begin, `committed` an
executed Finalize or a boot that found an image, `running` a Start whose program
returned zero, and `failed` a flash operation that failed or an image that did
not check. -/
inductive LoaderState where
  | empty
  | receiving
  | committed (crc : UInt32)
  | running (crc : UInt32)
  | failed (status : UInt8)
deriving DecidableEq

/-- `matches!(state, LoaderState::Running(_))`. -/
def LoaderState.isRunning : LoaderState → Bool
  | .running _ => true
  | _ => false

/-- The `matches!` as an equation, for rewriting. -/
theorem LoaderState.isRunning_iff {state : LoaderState} :
    state.isRunning = true ↔ ∃ crc, state = .running crc := by
  cases state <;> simp [isRunning]

/-- `matches!(state, LoaderState::Committed(_) | LoaderState::Running(_))`. -/
def LoaderState.hasProgram : LoaderState → Bool
  | .committed _ | .running _ => true
  | _ => false

/-- Where a map lies in the backing, and the sizes its descriptor gives. -/
structure MapLayout where
  offset : UInt16
  len : UInt16
  keySize : UInt32
  valueSize : UInt32
deriving DecidableEq

/-- The layout of a map there is none of. -/
def MapLayout.EMPTY : MapLayout := ⟨0, 0, 0, 0⟩

/-- What an execution is told about one map. -/
structure BpfMapMetadata where
  backingOffset : UInt16
  backingLen : UInt16
  keySize : UInt32
  valueSize : UInt32
deriving DecidableEq

/-- What an execution is told about the image: it finds the bytecode at a fixed
place in flash, and the maps in the backing. -/
structure BpfProgramMetadata where
  bytecodeLen : UInt16
  mapCount : UInt8
  maps : Vector BpfMapMetadata bpfMaxMaps
deriving DecidableEq

/-- The loader: what it is doing, the image being received (`bytecodeLen` to
`crc`), the operation that waits, and the maps of the image that was committed
last.  Flash operations are performed only by `executePending`, so the I2C
callback stays bounded. -/
structure BpfLoader where
  state : LoaderState
  pending : Option LoadOperation
  bytecodeLen : UInt16
  mapCount : UInt8
  imageLen : UInt16
  nextOffset : UInt16
  expectedCrc : UInt32
  crc : UInt32
  mapLayouts : Vector MapLayout bpfMaxMaps
  committedMapCount : UInt8
deriving DecidableEq

/-! ## shared helpers -/

/- Boot and Finalize read the descriptors by the same function; boot reads the
payload by a loop that has its own CRC. -/

/-- The length of bytecode and descriptors, the part of an image the CRC covers.
Both checks of the source are there, although no `u16` and `u8` can fail them. -/
def imageLen (bytecodeLen : UInt16) (mapCount : UInt8) : Option Nat :=
  match checkedUsize (mapCount.toNat * bpfMapDescriptorSize) with
  | none => none
  | some descriptors => checkedUsize (bytecodeLen.toNat + descriptors)

/-- The bounds `accepts_load` and `validate_committed` both reject. -/
def BadBounds (bytecodeLen : UInt16) (mapCount : UInt8) (imageLen : Nat) : Prop :=
  bytecodeLen = 0 ∨ bpfMaxBytecode < bytecodeLen.toNat ∨ bytecodeLen.toNat % 8 ≠ 0 ∨
    bpfMaxMaps < mapCount.toNat ∨ bpfFlashSize < imageLen + bpfHeaderSize

instance (bytecodeLen : UInt16) (mapCount : UInt8) (imageLen : Nat) :
    Decidable (BadBounds bytecodeLen mapCount imageLen) :=
  inferInstanceAs (Decidable (_ ∨ _ ∨ _ ∨ _ ∨ _))

/-- ASCII `OBPF`. -/
abbrev imageMagic : List UInt8 := [0x4f, 0x42, 0x50, 0x46]

/-- The loop body of `map_layouts`: one descriptor laid out after `total`
bytes of earlier maps, and the new total. -/
def mapLayout (total : UInt32) (descriptor : Vector UInt8 bpfMapDescriptorSize) :
    Option (MapLayout × UInt32) :=
  let mapType := u32FromLeBytes descriptor[0] descriptor[1] descriptor[2] descriptor[3]
  let keySize := u32FromLeBytes descriptor[4] descriptor[5] descriptor[6] descriptor[7]
  let valueSize := u32FromLeBytes descriptor[8] descriptor[9] descriptor[10] descriptor[11]
  let maxEntries := u32FromLeBytes descriptor[12] descriptor[13] descriptor[14] descriptor[15]
  match checkedMul valueSize maxEntries with
  | none => none
  | some bytes =>
      match checkedAdd total bytes with
      | none => none
      | some nextTotal =>
          if mapType ≠ 1 ∨ keySize ≠ 4 ∨ valueSize = 0 ∨ maxEntries = 0 ∨
              bpfMaxMapBytes < nextTotal.toNat then none
          -- the total is bounded by now, so the two casts lose nothing
          else some (⟨total.toUInt16, bytes.toUInt16, keySize, valueSize⟩, nextTotal)

/-- Where `begin`'s erase ends: the pages that cover the header and the image. -/
def eraseEnd (imageLen : Nat) : UInt32 :=
  let pages := divCeil (bpfHeaderSize + imageLen) 4096
  bpfFlashOffset + UInt32.ofNat (pages * 4096)

section flash

variable {F : Type} [BpfFlash F]

/-- The loop of `map_layouts`, from `index` on. -/
def mapLayoutsFrom (flash : F) (bytecodeLen : UInt16) (mapCount index : Nat) (total : UInt32)
    (layouts : Vector MapLayout bpfMaxMaps) : Option (Vector MapLayout bpfMaxMaps) × F :=
  if index < mapCount then
    let offset := bpfFlashOffset + UInt32.ofNat bpfHeaderSize + bytecodeLen.toUInt32 +
      UInt32.ofNat (index * bpfMapDescriptorSize)
    match BpfFlash.read flash offset bpfMapDescriptorSize with
    | (.error _, flash) => (none, flash)
    | (.ok descriptor, flash) =>
        match mapLayout total descriptor with
        | none => (none, flash)
        | some (layout, nextTotal) =>
            mapLayoutsFrom flash bytecodeLen mapCount (index + 1) nextTotal
              (layouts.setIfInBounds index layout)
  else (some layouts, flash)
termination_by mapCount - index
decreasing_by omega

/-- The layouts of all descriptors, read back from flash.  A read that fails and
a descriptor that is invalid come out alike: nothing. -/
def mapLayouts (flash : F) (bytecodeLen : UInt16) (mapCount : UInt8) :
    Option (Vector MapLayout bpfMaxMaps × UInt8) × F :=
  match mapLayoutsFrom flash bytecodeLen mapCount.toNat 0 0 (Vector.replicate _ .EMPTY) with
  | (none, flash) => (none, flash)
  | (some layouts, flash) => (some (layouts, mapCount), flash)

/-- The image loop of `validate_committed`, from `offset` on: the running CRC
of what flash holds, read in chunks of at most 16 bytes. -/
def imageCrcFrom (flash : F) (imageLen offset : Nat) (crc : UInt32) : Except Unit UInt32 × F :=
  if offset < imageLen then
    let length := min maxPayload (imageLen - offset)
    match BpfFlash.read flash
        (bpfFlashOffset + UInt32.ofNat bpfHeaderSize + UInt32.ofNat offset) length with
    | (.error _, flash) => (.error (), flash)
    | (.ok chunk, flash) =>
        imageCrcFrom flash imageLen (offset + length) (crc32Update crc chunk.toList)
  else (.ok crc, flash)
termination_by imageLen - offset
decreasing_by simp only [maxPayload]; omega

end flash

namespace BpfLoader

/-- The loader before the boot validator has run. -/
def new : BpfLoader where
  state := .empty
  pending := none
  bytecodeLen := 0
  mapCount := 0
  imageLen := 0
  nextOffset := 0
  expectedCrc := 0
  crc := 0xffffffff
  mapLayouts := Vector.replicate _ .EMPTY
  committedMapCount := 0

/-! ## acceptance -/

/- What the callback decides, on nothing but the loader and the request.  Flash
is not touched here. -/

/-- The operation a Load request asks for, if the loader may accept it now. -/
def loadOperation (self : BpfLoader) (request : Request) : Except UInt8 LoadOperation :=
  let payload := request.payload
  let len := request.payloadLen.toNat
  let first := request.bytes.head?
  if self.pending.isSome then .error statusBusy
  else if self.state.isRunning then .error statusBadState
  else if first = some 0 ∧ len = 8 then
    let bytecodeLen := u16FromLeBytes payload[1] payload[2]
    let mapCount := payload[3]
    let expectedCrc := u32FromLeBytes payload[4] payload[5] payload[6] payload[7]
    match OptiBridge.imageLen bytecodeLen mapCount with
    | none => .error statusBadLength
    | some imageLen =>
        if BadBounds bytecodeLen mapCount imageLen then .error statusBadLength
        else .ok (.begin bytecodeLen mapCount expectedCrc)
  else if first = some 1 ∧ (5 ≤ len ∧ len ≤ 15) ∧ (len - 3) % 2 = 0 then
    let offset := u16FromLeBytes payload[1] payload[2]
    if self.state ≠ .receiving then .error statusBadState
    else if offset ≠ self.nextOffset then .error statusBadState
    else if self.imageLen.toNat < offset.toNat + (len - 3) then .error statusBadLength
    else
      .ok (.data offset (copySlice (Vector.replicate _ 0) 0 (request.bytes.drop 3))
        (UInt8.ofNat (len - 3)))
  else if first = some 2 ∧ len = 1 then
    if self.state ≠ .receiving then .error statusBadState
    else if self.nextOffset ≠ self.imageLen then .error statusBadState
    else .ok .finalize
  -- an operation there is, of a length it cannot have
  else if first = some 0 ∨ first = some 1 ∨ first = some 2 then .error statusBadLength
  else .error statusBadCommand

/-- Whether a Load is accepted; if so, its operation is pending from now on.
Busy and running are refused before the payload is looked at. -/
def acceptsLoad (self : BpfLoader) (request : Request) : Except UInt8 Unit × BpfLoader :=
  match self.loadOperation request with
  | .error status => (.error status, self)
  | .ok operation => (.ok (), { self with pending := some operation })

/-- What a CRC query answers: busy while an operation waits, the CRC of an
image, or why there is none. -/
def query (self : BpfLoader) : Except UInt8 UInt32 :=
  if self.pending.isSome then .error statusBusy
  else
    match self.state with
    | .committed crc | .running crc => .ok crc
    | .failed status => .error status
    | .empty | .receiving => .error statusNoProgram

/-! ## what a committed image offers -/

/- Queries, metadata and maps.  Each begins by asking whether there is an image,
and each asks it in its own way: a CRC query and a Start also want nothing
pending, map accesses do not. -/

/-- The metadata of whatever the loader holds, whether it may be run or not.  The
maps beyond the committed ones are zero. -/
def committedMetadata (self : BpfLoader) : BpfProgramMetadata where
  bytecodeLen := self.bytecodeLen
  mapCount := self.committedMapCount
  maps := Vector.ofFn fun index =>
    if index.val < self.committedMapCount.toNat then
      let layout := getElem self.mapLayouts index index.isLt
      ⟨layout.offset, layout.len, layout.keySize, layout.valueSize⟩
    else ⟨0, 0, 0, 0⟩

/-- What a Start may run: a committed image, while nothing is pending. -/
def executionMetadata (self : BpfLoader) : Except UInt8 BpfProgramMetadata :=
  if self.pending.isSome then .error statusBusy
  else
    match self.state with
    | .committed _ => .ok self.committedMetadata
    | .running _ => .error statusBadState
    | .empty | .receiving => .error statusNoProgram
    | .failed status => .error status

/-- What a timer event may run: a committed or running image, while nothing is
pending. -/
def eventExecutionMetadata (self : BpfLoader) : Except UInt8 BpfProgramMetadata :=
  if self.pending.isSome then .error statusBusy
  else
    match self.state with
    | .committed _ | .running _ => .ok self.committedMetadata
    | .empty | .receiving => .error statusNoProgram
    | .failed status => .error status

/-- From committed to running.  The other states answer as `executionMetadata`
does. -/
def markRunning (self : BpfLoader) : Except UInt8 Unit × BpfLoader :=
  match self.state with
  | .committed crc => (.ok (), { self with state := .running crc })
  | .running _ => (.error statusBadState, self)
  | .empty | .receiving => (.error statusNoProgram, self)
  | .failed status => (.error status, self)

/-- Whether the main loop has flash work to do. -/
def hasPending (self : BpfLoader) : Bool := self.pending.isSome

/-- The range checks `read_map` and `write_map` make, in order; `len` is the
number of bytes to copy, and the result is the backing index of the first. -/
def mapRange (self : BpfLoader) (mapId : UInt8) (byteOffset : UInt16) (len : Nat) :
    Except UInt8 Nat :=
  if ¬ self.state.hasProgram then .error statusNoProgram
  else
    match self.mapLayouts[mapId.toNat]? with
    | none => .error statusBadCommand
    | some layout =>
        if self.committedMapCount ≤ mapId then .error statusBadCommand
        else
          match checkedAdd16 byteOffset (UInt16.ofNat len) with
          | none => .error statusBadLength
          | some mapEnd =>
              if layout.len < mapEnd then .error statusBadLength
              else
                let start := layout.offset.toNat + byteOffset.toNat
                if start + len ≤ bpfMaxMapBytes then .ok start else .error statusBadLength

/-- A range of one map, as a host reads it: at least one byte, at most a
payload. -/
def readMap (self : BpfLoader) (mapId : UInt8) (byteOffset : UInt16) (byteLength : UInt8)
    (backing : MapBacking) : Except UInt8 (List UInt8) :=
  if byteLength = 0 ∨ maxPayload < byteLength.toNat then .error statusBadLength
  else
    match self.mapRange mapId byteOffset byteLength.toNat with
    | .error status => .error status
    | .ok start => .ok ((backing.toList.drop start).take byteLength.toNat)

/-- Replace a range of one map, as a host writes it.  A write that is refused
leaves the backing alone. -/
def writeMap (self : BpfLoader) (mapId : UInt8) (byteOffset : UInt16) (replacement : List UInt8)
    (backing : MapBacking) : Except UInt8 Unit × MapBacking :=
  if replacement.isEmpty ∨ maxMapWriteBytes < replacement.length then
    (.error statusBadLength, backing)
  else
    match self.mapRange mapId byteOffset replacement.length with
    | .error status => (.error status, backing)
    | .ok start => (.ok (), copySlice backing start replacement)

/-! ## deferred flash work -/

/- What the main loop does to flash, and what a boot finds there. -/

/-- Forget the maps, as every Begin and every boot does first. -/
def clearMapLayouts (self : BpfLoader) : BpfLoader :=
  { self with mapLayouts := Vector.replicate _ .EMPTY, committedMapCount := 0 }

/-- The 16 bytes `begin` programs: the commit marker and the reserved bytes
stay erased. -/
def beginHeader (bytecodeLen : UInt16) (mapCount : UInt8) (expectedCrc : UInt32) :
    Vector UInt8 bpfHeaderSize :=
  let header := Vector.replicate bpfHeaderSize 0xff
  let header := copySlice header 0 imageMagic
  let header := header.set 4 1
  let header := header.set 5 mapCount
  let header := copySlice header 6 (toLe 2 bytecodeLen.toNat)
  copySlice header 8 (toLe 4 expectedCrc.toNat)

section flash

variable {F : Type} [BpfFlash F]

/-- Execute a Begin: forget the old image, erase the pages the new one needs,
and write a header without the commit marker. -/
def begin (self : BpfLoader) (flash : F) (bytecodeLen : UInt16) (mapCount : UInt8)
    (expectedCrc : UInt32) : BpfLoader × F :=
  let self := self.clearMapLayouts
  match OptiBridge.imageLen bytecodeLen mapCount with
  | none => ({ self with state := .failed statusFlashError }, flash)
  | some imageLen =>
      -- the erase takes the old header with it
      match BpfFlash.erase flash bpfFlashOffset (eraseEnd imageLen) with
      | (.error _, flash) => ({ self with state := .failed statusFlashError }, flash)
      | (.ok _, flash) =>
          match BpfFlash.write flash bpfFlashOffset
              (beginHeader bytecodeLen mapCount expectedCrc).toList with
          | (.error _, flash) => ({ self with state := .failed statusFlashError }, flash)
          | (.ok _, flash) =>
              ({ self with
                  state := .receiving
                  bytecodeLen := bytecodeLen
                  mapCount := mapCount
                  imageLen := UInt16.ofNat imageLen
                  nextOffset := 0
                  expectedCrc := expectedCrc
                  crc := 0xffffffff }, flash)

/-- The `Data` arm of `execute_pending`. -/
def data (self : BpfLoader) (flash : F) (offset : UInt16) (bytes : Vector UInt8 12)
    (len : UInt8) : BpfLoader × F :=
  let fragment := bytes.toList.take len.toNat
  match BpfFlash.write flash
      (bpfFlashOffset + UInt32.ofNat bpfHeaderSize + offset.toUInt32) fragment with
  | (.error _, flash) => ({ self with state := .failed statusFlashError }, flash)
  | (.ok _, flash) =>
      ({ self with
          crc := crc32Update self.crc fragment
          nextOffset := self.nextOffset + len.toUInt16 }, flash)

/-- Execute a Finalize: check the CRC, read the descriptors back, and only then
clear the marker that makes the image a committed one. -/
def finalize (self : BpfLoader) (flash : F) : BpfLoader × F :=
  if crc32Finish self.crc ≠ self.expectedCrc then
    ({ self with state := .failed statusBadCrc }, flash)
  else
    match OptiBridge.mapLayouts flash self.bytecodeLen self.mapCount with
    -- also where the read of a descriptor failed
    | (none, flash) => ({ self with state := .failed statusBadState }, flash)
    | (some (mapLayouts, committedMapCount), flash) =>
        -- the last write: an image cut off before it is never adopted
        match BpfFlash.write flash (bpfFlashOffset + 12) [0, 0] with
        | (.error _, flash) => ({ self with state := .failed statusFlashError }, flash)
        | (.ok _, flash) =>
            ({ self with
                state := .committed self.expectedCrc
                mapLayouts := mapLayouts
                committedMapCount := committedMapCount }, flash)

/-- Execute what is pending.  The slot is emptied first, so whatever happens to
the operation it happens once. -/
def executePending (self : BpfLoader) (flash : F) : BpfLoader × F :=
  match self.pending with
  | none => (self, flash)
  | some operation =>
      let self := { self with pending := none }
      match operation with
      | .begin bytecodeLen mapCount expectedCrc =>
          self.begin flash bytecodeLen mapCount expectedCrc
      | .data offset bytes len => self.data flash offset bytes len
      | .finalize => self.finalize flash

/-- With nothing pending, nothing is executed. -/
theorem executePending_rests {self : BpfLoader} (h : self.pending = none) (flash : F) :
    self.executePending flash = (self, flash) := by
  rw [executePending, h]

/-- Boot: adopt the image flash holds, if it is a committed one. -/
def validateCommitted (self : BpfLoader) (flash : F) : BpfLoader × F :=
  let self := self.clearMapLayouts
  let rejected : BpfLoader := { self with state := .empty }
  let broken : BpfLoader := { self with state := .failed statusFlashError }
  match BpfFlash.read flash bpfFlashOffset bpfHeaderSize with
  | (.error _, flash) => (broken, flash)
  | (.ok header, flash) =>
      if header.toList.take 4 ≠ imageMagic ∨ header[4] ≠ 1 ∨
          u16FromLeBytes header[12] header[13] ≠ 0 ∨ header.toList.drop 14 ≠ [0xff, 0xff] then
        (rejected, flash)
      else
        let bytecodeLen := u16FromLeBytes header[6] header[7]
        let mapCount := header[5]
        match OptiBridge.imageLen bytecodeLen mapCount with
        | none => (rejected, flash)
        | some imageLen =>
            if BadBounds bytecodeLen mapCount imageLen then (rejected, flash)
            else
              let expectedCrc := u32FromLeBytes header[8] header[9] header[10] header[11]
              match imageCrcFrom flash imageLen 0 0xffffffff with
              | (.error _, flash) => (broken, flash)
              | (.ok crc, flash) =>
                  match OptiBridge.mapLayouts flash bytecodeLen mapCount with
                  -- also where the read of a descriptor failed; the CRC is not looked at then
                  | (none, flash) => (rejected, flash)
                  | (some (mapLayouts, committedMapCount), flash) =>
                      if crc32Finish crc ≠ expectedCrc then (rejected, flash)
                      else
                        ({ self with
                            state := .committed expectedCrc
                            bytecodeLen := bytecodeLen
                            mapCount := mapCount
                            mapLayouts := mapLayouts
                            committedMapCount := committedMapCount }, flash)

end flash

/-- The header check of `validate_committed`, bounds included: the bytecode
length, the map count and the image length of a header that passes. -/
def acceptedHeader (header : Vector UInt8 bpfHeaderSize) : Option (UInt16 × UInt8 × Nat) :=
  if header.toList.take 4 ≠ imageMagic ∨ header[4] ≠ 1 ∨
      u16FromLeBytes header[12] header[13] ≠ 0 ∨ header.toList.drop 14 ≠ [0xff, 0xff] then none
  else
    let bytecodeLen := u16FromLeBytes header[6] header[7]
    let mapCount := header[5]
    match OptiBridge.imageLen bytecodeLen mapCount with
    | none => none
    | some imageLen =>
        if BadBounds bytecodeLen mapCount imageLen then none
        else some (bytecodeLen, mapCount, imageLen)

/-- The CRC a header declares. -/
def headerCrc (header : Vector UInt8 bpfHeaderSize) : UInt32 :=
  u32FromLeBytes header[8] header[9] header[10] header[11]

end BpfLoader

end OptiBridge
