import OptiBridge.Device
import OptiBridge.Layouts
import OptiBridge.Lib.Regions

/-!
# OptiBridge.Maps

Host access to the maps, through the dispatcher: the two commands reach exactly
the bytes of the committed maps, and each map is a memory of its own.

What a successful Write did to one map depends on nothing but the requests so
far, so it can be read off them (`successfulWrites`); `Remembers` says that the
backing agrees with that reading, for every byte of every map that some Write
has covered and every byte that none has.

* `dispatch_read` and `dispatch_write`, the two commands on one state;
* `remembers_run`, any sequence of requests;
* `map_access`, the theorem: exact ranges, exact statuses, and each map a
  memory of its own.
-/

namespace OptiBridge

open Bytes

/-! ## the maps of a loader -/

/- The committed maps by their lengths, as regions of the backing. -/

/-- The lengths of the committed maps, by id. -/
def BpfLoader.mapLengths (l : BpfLoader) : List Nat :=
  (l.mapLayouts.toList.take l.committedMapCount.toNat).map fun layout => layout.len.toNat

/-- A byte of a map, where it lies in the backing. -/
def BpfLoader.mapByte (l : BpfLoader) (backing : MapBacking) (mapId offset : Nat) :
    Option UInt8 :=
  match l.mapLayouts[mapId]? with
  | some layout => backing[layout.offset.toNat + offset]?
  | none => none

namespace LaidBy

variable {l : BpfLoader} {ds : List Descriptor}

/-- A map lies within the backing. -/
theorem size_le (h : LaidBy l ds) {i : Nat} (hi : i < ds.length) :
    totalSize (ds.take i) + ds[i].size ≤ 1024 := by
  rw [← totalSize_take_succ ds hi]
  exact (totalSize_take_le ds (i + 1)).trans h.valid.2

/-- The layout of a committed map. -/
theorem layout (h : LaidBy l ds) {i : Nat} (hi : i < ds.length) :
    l.mapLayouts[i]? = some (layoutOf (totalSize (ds.take i)) ds[i]) ∧
      (layoutOf (totalSize (ds.take i)) ds[i]).offset.toNat = totalSize (ds.take i) ∧
      (layoutOf (totalSize (ds.take i)) ds[i]).len.toNat = ds[i].size := by
  have hsize := h.size_le hi
  have hcount : i < bpfMaxMaps := Nat.lt_of_lt_of_le hi h.count
  refine ⟨?_, ?_, ?_⟩
  · rw [h.layouts, Vector.getElem?_eq_getElem hcount, getElem_layoutVector ds hcount hi]
  · exact UInt16.toNat_ofNat_of_lt' (by show _ < 65536; omega)
  · exact UInt16.toNat_ofNat_of_lt' (by show _ < 65536; omega)

/-- The lengths are those of the descriptors. -/
theorem mapLengths_eq (h : LaidBy l ds) : l.mapLengths = ds.map Descriptor.size := by
  have hcount : l.committedMapCount.toNat ≤ 8 := h.length ▸ h.count
  apply List.ext_getElem
  · simp only [BpfLoader.mapLengths, List.length_map, List.length_take, Vector.length_toList,
      h.length]
    exact Nat.min_eq_left hcount
  · intro i hi hi'
    have hlt : i < ds.length := by simpa using hi'
    have hbound : i < bpfMaxMaps := Nat.lt_of_lt_of_le hlt h.count
    obtain ⟨hlayout, -, hlen⟩ := h.layout hlt
    rw [Vector.getElem?_eq_getElem hbound, Option.some.injEq] at hlayout
    simp only [BpfLoader.mapLengths, List.getElem_map, List.getElem_take, Vector.getElem_toList]
    rw [hlayout, hlen]

/-- A map begins behind those before it. -/
theorem start_eq (h : LaidBy l ds) (i : Nat) :
    Regions.start l.mapLengths i = totalSize (ds.take i) := by
  rw [Regions.start, h.mapLengths_eq, ← List.map_take, totalSize]

/-- All maps together fit the backing. -/
theorem sum_le (h : LaidBy l ds) : l.mapLengths.sum ≤ bpfMaxMapBytes := by
  rw [h.mapLengths_eq]
  exact h.valid.2

theorem length_mapLengths (h : LaidBy l ds) : l.mapLengths.length = ds.length := by
  rw [h.mapLengths_eq, List.length_map]

/-- A byte of a map is a byte of the backing. -/
theorem mapByte_eq (h : LaidBy l ds) (backing : MapBacking) {i offset : Nat}
    (hi : i < l.mapLengths.length) :
    l.mapByte backing i offset = backing[Regions.start l.mapLengths i + offset]? := by
  rw [h.length_mapLengths] at hi
  obtain ⟨hlayout, hoffset, -⟩ := h.layout hi
  simp only [BpfLoader.mapByte, hlayout, hoffset, h.start_eq]

end LaidBy

/-! ## ranges -/

/- When a range of a map is one the loader allows. -/

/-- **Ranges.** The range check accepts exactly the ranges within a map, and
points at its first byte. -/
theorem mapRange_eq {l : BpfLoader} {ds : List Descriptor} (h : LaidBy l ds)
    (hprogram : l.state.hasProgram = true) (mapId : UInt8) (byteOffset : UInt16) {len : Nat}
    (hlen : len < 2 ^ 16) :
    (∃ size, l.mapLengths[mapId.toNat]? = some size ∧ byteOffset.toNat + len ≤ size ∧
        l.mapRange mapId byteOffset len =
          .ok (Regions.start l.mapLengths mapId.toNat + byteOffset.toNat)) ∨
      ((∀ size, l.mapLengths[mapId.toNat]? = some size → size < byteOffset.toNat + len) ∧
        ∃ status, status ≠ statusOk ∧ l.mapRange mapId byteOffset len = .error status) := by
  have hcommand : statusBadCommand ≠ statusOk := by decide
  have hbad : statusBadLength ≠ statusOk := by decide
  unfold BpfLoader.mapRange
  rw [if_neg (not_not.mpr hprogram)]
  by_cases hid : mapId.toNat < ds.length
  · obtain ⟨hlayout, hoffset, hsize⟩ := h.layout hid
    have hfit := h.size_le hid
    have hlength : l.mapLengths[mapId.toNat]? = some ds[mapId.toNat].size := by
      rw [h.mapLengths_eq, List.getElem?_map, List.getElem?_eq_getElem hid]
      rfl
    have hcount : ¬ l.committedMapCount ≤ mapId := by
      rw [UInt8.le_iff_toNat_le, ← h.length]
      omega
    simp only [hlayout, if_neg hcount, checkedAdd16_eq hlen]
    by_cases hrange : byteOffset.toNat + len ≤ ds[mapId.toNat].size
    · have hsmall : byteOffset.toNat + len < 2 ^ 16 := by omega
      have hend : (UInt16.ofNat (byteOffset.toNat + len)).toNat = byteOffset.toNat + len :=
        UInt16.toNat_ofNat_of_lt' hsmall
      have hnot : ¬ (layoutOf (totalSize (ds.take mapId.toNat)) ds[mapId.toNat]).len <
          UInt16.ofNat (byteOffset.toNat + len) := by
        rw [UInt16.lt_iff_toNat_lt, hsize, hend]
        omega
      have hwithin : totalSize (ds.take mapId.toNat) + byteOffset.toNat + len ≤ bpfMaxMapBytes := by
        show _ ≤ 1024
        omega
      refine .inl ⟨_, hlength, hrange, ?_⟩
      simp only [if_pos hsmall, if_neg hnot, hoffset, if_pos hwithin, h.start_eq]
    · refine .inr ⟨fun size hsome => ?_, statusBadLength, hbad, ?_⟩
      · rw [hlength, Option.some.injEq] at hsome
        omega
      · -- the end is past the map, or already past what the checked sum can hold
        by_cases hsmall : byteOffset.toNat + len < 2 ^ 16
        · have hend : (UInt16.ofNat (byteOffset.toNat + len)).toNat = byteOffset.toNat + len :=
            UInt16.toNat_ofNat_of_lt' hsmall
          have hover : (layoutOf (totalSize (ds.take mapId.toNat)) ds[mapId.toNat]).len <
              UInt16.ofNat (byteOffset.toNat + len) := by
            rw [UInt16.lt_iff_toNat_lt, hsize, hend]
            omega
          simp only [if_pos hsmall, if_pos hover]
        · simp only [if_neg hsmall]
  · refine .inr ⟨fun size hsome => ?_, statusBadCommand, hcommand, ?_⟩
    · rw [h.mapLengths_eq, List.getElem?_map, List.getElem?_eq_none (by omega)] at hsome
      contradiction
    · have hcount : l.committedMapCount ≤ mapId := by
        rw [UInt8.le_iff_toNat_le, ← h.length]
        omega
      cases l.mapLayouts[mapId.toNat]? with
      | none => rfl
      | some layout => simp only [if_pos hcount]

/-- A range that lies within a committed map. -/
def BpfLoader.InMap (l : BpfLoader) (mapId offset len : Nat) : Prop :=
  ∃ size, l.mapLengths[mapId]? = some size ∧ offset + len ≤ size

/-! ## the location of a Write -/

/- A Write packs ten bits of offset and three of map into two bytes; the upper
three must be clear. -/

theorem toNat_offsetBits (x : UInt16) : (x &&& 0x03ff).toNat = x.toNat % 1024 := by
  rw [UInt16.toNat_and]
  exact Nat.and_two_pow_sub_one_eq_mod x.toNat 10

theorem toNat_mapIdBits (x : UInt16) :
    ((x >>> 10) &&& 0x07).toUInt8.toNat = x.toNat / 1024 % 8 := by
  rw [UInt16.toNat_toUInt8, UInt16.toNat_and, UInt16.toNat_shiftRight]
  have hshift : x.toNat >>> (UInt16.toNat 10 % 16) = x.toNat / 1024 :=
    Nat.shiftRight_eq_div_pow x.toNat 10
  have hand : x.toNat / 1024 &&& UInt16.toNat 7 = x.toNat / 1024 % 8 :=
    Nat.and_two_pow_sub_one_eq_mod (x.toNat / 1024) 3
  rw [hshift, hand]
  omega

/-- The reserved bits are zero exactly below 2^13. -/
theorem reservedBits_eq_zero (x : UInt16) : x &&& 0xe000 = 0 ↔ x.toNat < 8192 := by
  have hmask : UInt16.toNat 0xe000 = 7 <<< 13 := rfl
  rw [← UInt16.toNat_inj, UInt16.toNat_and, hmask]
  have hsplit : x.toNat &&& 7 <<< 13 = ((x.toNat >>> 13) &&& 7) <<< 13 := by
    apply Nat.eq_of_testBit_eq
    intro i
    simp only [Nat.testBit_and, Nat.testBit_shiftLeft, Nat.testBit_shiftRight]
    by_cases hi : 13 ≤ i
    · simp [hi]
    · simp [hi]
  have hand : (x.toNat >>> 13) &&& 7 = x.toNat / 8192 % 8 := by
    rw [Nat.shiftRight_eq_div_pow]
    exact Nat.and_two_pow_sub_one_eq_mod (x.toNat / 8192) 3
  have hlt : x.toNat < 65536 := x.toNat_lt
  rw [hsplit, hand, Nat.shiftLeft_eq]
  show _ = 0 ↔ _
  omega

/-! ## the two commands -/

/- Requests that are map accesses, and what the dispatcher makes of them. -/

/-- A Read of `count` bytes of map `mapId`, from `offset` on. -/
structure IsMapRead (request : Request) (mapId : UInt8) (offset : UInt16) (count : UInt8) :
    Prop where
  flags : request.flags = 0
  command : request.command = cmdReadBpfMap
  payload : request.bytes = mapId :: toLe 2 offset.toNat ++ [count]

/-- A Write of some bytes to map `mapId`, from `offset` on. -/
structure IsMapWrite (request : Request) (mapId offset : Nat) (bytes : List UInt8) : Prop where
  flags : request.flags = 0
  command : request.command = cmdWriteBpfMap
  mapId_lt : mapId < 8
  offset_lt : offset < 1024
  nonempty : 1 ≤ bytes.length
  length_le : bytes.length ≤ 14
  payload : request.bytes = toLe 2 ((mapId <<< 10) ||| offset) ++ bytes

/-- The write a Write request asks for. -/
def mapWriteOf (request : Request) : Regions.Write UInt8 :=
  ⟨(writeTarget request).1.toNat, (writeTarget request).2.toNat,
    request.bytes.drop mapWriteLocationSize⟩

/-- Two payload bytes that were packed from a number give it back. -/
theorem u16FromLeBytes_of_bytes {request : Request} {i x : Nat} {rest : List UInt8}
    (hx : x < 2 ^ 16) (hi : i + 1 < maxPayload)
    (h : request.bytes.drop i = toLe 2 x ++ rest) :
    u16FromLeBytes request.payload[i] request.payload[i + 1] = UInt16.ofNat x := by
  have hget : ∀ j (hj : j < 2), request.bytes[i + j]? = some (toLe 2 x)[j] := by
    intro j hj
    rw [← List.getElem?_drop, h, List.getElem?_append_left (by simpa using hj)]
    exact List.getElem?_eq_getElem _
  have hfirst := request.payload_eq_of_bytes (hget 0 (by decide)) (by omega)
  have hsecond := request.payload_eq_of_bytes (hget 1 (by decide)) (by omega)
  simp only [Nat.add_zero] at hfirst
  have hword : u16FromLeBytes request.payload[i] request.payload[i + 1] =
      UInt16.ofNat (ofLe (toLe 2 x)) := by
    rw [hfirst, hsecond]
    rfl
  rw [hword, ofLe_toLe_of_lt hx]

namespace IsMapWrite

variable {request : Request} {mapId offset : Nat} {bytes : List UInt8}

/-- The location of a Write, as the dispatcher unpacks it. -/
theorem location (h : IsMapWrite request mapId offset bytes) :
    (u16FromLeBytes request.payload[0] request.payload[1]).toNat = mapId * 1024 + offset := by
  have hid := h.mapId_lt
  have hoffset := h.offset_lt
  have hor : (mapId <<< 10) ||| offset = mapId * 1024 + offset := by
    rw [← Nat.shiftLeft_add_eq_or_of_lt hoffset, Nat.shiftLeft_eq]
  have hpayload : request.bytes.drop 0 = toLe 2 (mapId * 1024 + offset) ++ bytes := by
    rw [List.drop_zero, h.payload, hor]
  rw [u16FromLeBytes_of_bytes (by omega) (by decide) hpayload]
  exact UInt16.toNat_ofNat_of_lt' (by show _ < 65536; omega)

/-- The write its payload asks for. -/
theorem mapWriteOf_eq (h : IsMapWrite request mapId offset bytes) :
    mapWriteOf request = ⟨mapId, offset, bytes⟩ := by
  have hid := h.mapId_lt
  have hoffset := h.offset_lt
  have hbytes : request.bytes.drop mapWriteLocationSize = bytes := by
    rw [h.payload]
    exact List.drop_left' (length_toLe ..)
  rw [mapWriteOf, hbytes]
  congr 1
  · rw [writeTarget, toNat_mapIdBits, h.location]
    omega
  · rw [writeTarget, toNat_offsetBits, h.location]
    omega

/-- A Write has two bytes of location and its data. -/
theorem payloadLen (h : IsMapWrite request mapId offset bytes) :
    request.payloadLen.toNat = 2 + bytes.length := by
  rw [← request.length_bytes, h.payload, List.length_append, length_toLe]

end IsMapWrite

/-- The state with one write in its backing. -/
def DispatchState.written {σ : Type} (s : DispatchState σ) (w : Regions.Write UInt8) :
    DispatchState σ :=
  { s with
    mapBacking := copySlice s.mapBacking (Regions.start s.loader.mapLengths w.region + w.offset)
      w.elements }

/-- A write to the maps leaves the loader alone. -/
@[simp] theorem written_loader {σ : Type} (s : DispatchState σ) (w : Regions.Write UInt8) :
    (s.written w).loader = s.loader := by
  unfold DispatchState.written
  rfl

section dispatch

variable {σ : Type} {request : Request} (execute : Executor σ) {s : DispatchState σ}
  {ds : List Descriptor}

/-- **Read.** A Read is answered with the bytes of its range, or refused. -/
theorem dispatch_read (h : LaidBy s.loader ds) (hprogram : s.loader.state.hasProgram = true)
    {mapId : UInt8} {offset : UInt16} {count : UInt8}
    (hread : IsMapRead request mapId offset count) :
    ((1 ≤ count.toNat ∧ count.toNat ≤ 16 ∧
        s.loader.InMap mapId.toNat offset.toNat count.toNat) ∧
      dispatchWithBpfAndExecutor request execute s = s.respond request statusOk
        ((s.mapBacking.toList.drop (Regions.start s.loader.mapLengths mapId.toNat +
          offset.toNat)).take count.toNat)) ∨
    (¬ (1 ≤ count.toNat ∧ count.toNat ≤ 16 ∧
        s.loader.InMap mapId.toNat offset.toNat count.toNat) ∧
      ∃ status, status ≠ statusOk ∧
        dispatchWithBpfAndExecutor request execute s = s.respond request status []) := by
  have hlen : request.payloadLen = 4 := by
    apply UInt8.toNat_inj.mp
    rw [← request.length_bytes, hread.payload]
    rfl
  have hid : request.payload[0] = mapId :=
    request.payload_eq_of_bytes (by rw [hread.payload]; rfl) (by decide)
  have hcount : request.payload[3] = count :=
    request.payload_eq_of_bytes (by rw [hread.payload]; rfl) (by decide)
  have hoffset : u16FromLeBytes request.payload[1] request.payload[2] = offset := by
    have hdrop : request.bytes.drop 1 = toLe 2 offset.toNat ++ [count] := by
      rw [hread.payload]
      rfl
    rw [u16FromLeBytes_of_bytes offset.toNat_lt (by decide) hdrop]
    exact UInt16.ofNat_toNat
  rw [dispatch_readMap execute s hread.flags hread.command, dispatchReadMap,
    if_neg (not_not.mpr hlen)]
  simp only [hid, hcount, hoffset, BpfLoader.readMap]
  by_cases hbad : count = 0 ∨ maxPayload < count.toNat
  · refine .inr ⟨fun hok => ?_, statusBadLength, by decide, by rw [if_pos hbad]⟩
    cases hbad with
    | inl hzero => simp [hzero] at hok
    | inr hlong => exact absurd hok.2.1 (Nat.not_le.mpr hlong)
  · simp only [not_or, Nat.not_lt] at hbad
    have hpos : 1 ≤ count.toNat :=
      Nat.pos_of_ne_zero fun h0 => hbad.1 (UInt8.toNat_inj.mp h0)
    rw [if_neg (by simp only [not_or, Nat.not_lt]; exact hbad)]
    cases mapRange_eq h hprogram mapId offset
        (Nat.lt_of_lt_of_le count.toNat_lt (by decide) : count.toNat < 2 ^ 16) with
    | inl hrange =>
        obtain ⟨size, hsize, hfit, hrange⟩ := hrange
        refine .inl ⟨⟨hpos, hbad.2, size, hsize, hfit⟩, ?_⟩
        simp only [hrange]
    | inr hrange =>
        obtain ⟨hover, status, hstatus, hrange⟩ := hrange
        refine .inr ⟨fun hok => ?_, status, hstatus, by simp only [hrange]⟩
        obtain ⟨-, -, size, hsize, hfit⟩ := hok
        exact absurd hfit (Nat.not_le.mpr (hover size hsize))

/-- **Write.** A Write changes exactly the range it names, or is refused. -/
theorem dispatch_write (h : LaidBy s.loader ds) (hprogram : s.loader.state.hasProgram = true)
    (hflags : request.flags = 0) (hcommand : request.command = cmdWriteBpfMap) :
    (((3 ≤ request.payloadLen.toNat ∧
          (u16FromLeBytes request.payload[0] request.payload[1]).toNat < 8192) ∧
        s.loader.InMap (mapWriteOf request).region (mapWriteOf request).offset
          (mapWriteOf request).elements.length) ∧
      dispatchWithBpfAndExecutor request execute s =
        (s.written (mapWriteOf request)).respond request statusOk []) ∨
    (¬ ((3 ≤ request.payloadLen.toNat ∧
          (u16FromLeBytes request.payload[0] request.payload[1]).toNat < 8192) ∧
        s.loader.InMap (mapWriteOf request).region (mapWriteOf request).offset
          (mapWriteOf request).elements.length) ∧
      ∃ status, status ≠ statusOk ∧
        dispatchWithBpfAndExecutor request execute s = s.respond request status []) := by
  have hbadLength : statusBadLength ≠ statusOk := by decide
  rw [dispatch_writeMap execute s hflags hcommand, dispatchWriteMap]
  by_cases hlen : request.payloadLen.toNat < mapWriteLocationSize + 1
  · rw [if_pos hlen]
    exact .inr ⟨fun hok => absurd hok.1.1 (Nat.not_le.mpr hlen), _, hbadLength, rfl⟩
  · rw [if_neg hlen]
    by_cases hlocation : u16FromLeBytes request.payload[0] request.payload[1] &&& 0xe000 = 0
    · have hlt := (reservedBits_eq_zero _).mp hlocation
      have hlength : (request.bytes.drop mapWriteLocationSize).length =
          request.payloadLen.toNat - 2 := by simp [mapWriteLocationSize]
      have hpayload : request.payloadLen.toNat ≤ 16 := request.payloadLen_le
      have hlen : 3 ≤ request.payloadLen.toNat := Nat.not_lt.mp hlen
      have hfits : ¬ ((request.bytes.drop mapWriteLocationSize).isEmpty ∨
          maxMapWriteBytes < (request.bytes.drop mapWriteLocationSize).length) := by
        rw [List.isEmpty_iff_length_eq_zero, hlength]
        show ¬ (_ ∨ 14 < _)
        omega
      simp only [hlocation, ne_eq, not_true_eq_false, if_false]
      unfold BpfLoader.writeMap
      rw [if_neg hfits]
      cases mapRange_eq h hprogram (writeTarget request).1 (writeTarget request).2
          (by rw [hlength]; omega : (request.bytes.drop mapWriteLocationSize).length < 2 ^ 16) with
      | inl hrange =>
          obtain ⟨size, hsize, hfit, hrange⟩ := hrange
          refine .inl ⟨⟨⟨hlen, hlt⟩, size, hsize, hfit⟩, ?_⟩
          simp only [writeTarget] at hrange
          simp only [hrange]
          rfl
      | inr hrange =>
          obtain ⟨hover, status, hstatus, hrange⟩ := hrange
          refine .inr ⟨fun hok => ?_, status, hstatus, ?_⟩
          · obtain ⟨-, size, hsize, hfit⟩ := hok
            exact absurd hfit (Nat.not_le.mpr (hover size hsize))
          · simp only [writeTarget] at hrange
            simp only [hrange]
    · simp only [ne_eq, hlocation, not_false_eq_true, if_true]
      refine .inr ⟨fun hok => ?_, _, hbadLength, rfl⟩
      exact hlocation ((reservedBits_eq_zero _).mpr hok.1.2)

end dispatch

/-! ## sequences -/

/- Any list of requests in turn: the statuses, the state, and the writes that
succeeded. -/

section sequences

variable {σ : Type} (execute : Executor σ)

/-- The status a dispatch is answered with. -/
def statusOf (s : DispatchState σ) (request : Request) : Option UInt8 :=
  (replyOf (dispatchWithBpfAndExecutor request execute s)).map Reply.status

/-- The state after a sequence of requests. -/
def afterRequests (s : DispatchState σ) (requests : List Request) : DispatchState σ :=
  Machine.run (fun s request => (dispatchWithBpfAndExecutor request execute s).2) s requests

/-- The Writes of a sequence that were answered `STATUS_OK`. -/
def successfulWrites (s : DispatchState σ) (requests : List Request) :
    List (Regions.Write UInt8) :=
  Machine.trace (fun s request => (dispatchWithBpfAndExecutor request execute s).2)
    (fun s request =>
      if request.command = cmdWriteBpfMap ∧ statusOf execute s request = some statusOk then
        [mapWriteOf request]
      else []) s requests

/-- A zero-flag Read or Write, whatever its payload. -/
def IsMapCommand (request : Request) : Prop :=
  request.flags = 0 ∧ (request.command = cmdReadBpfMap ∨ request.command = cmdWriteBpfMap)

variable {s : DispatchState σ} {request : Request} {ds : List Descriptor}

variable {execute} in
/-- The status of a response is the one it was made with. -/
theorem statusOf_respond {s' : DispatchState σ} {status : UInt8} {payload : List UInt8}
    (h : dispatchWithBpfAndExecutor request execute s = s'.respond request status payload)
    (hpayload : payload.length ≤ maxPayload) : statusOf execute s request = some status := by
  rw [statusOf, h, replyOf_respond _ _ _ hpayload]
  rfl

/-- A Read leaves the maps and the loader alone. -/
theorem dispatch_read_kept (hflags : request.flags = 0)
    (hcommand : request.command = cmdReadBpfMap) :
    (dispatchWithBpfAndExecutor request execute s).2.mapBacking = s.mapBacking ∧
      (dispatchWithBpfAndExecutor request execute s).2.loader = s.loader := by
  rw [dispatch_readMap execute s hflags hcommand, dispatchReadMap]
  split_ifs
  · exact ⟨respond_mapBacking .., respond_loader ..⟩
  · simp only
    split <;> exact ⟨respond_mapBacking .., respond_loader ..⟩

/-- The maps hold what these writes left over what was there at first. -/
structure Remembers (s s' : DispatchState σ) (writes : List (Regions.Write UInt8)) : Prop where
  loader : s'.loader = s.loader
  bytes : ∀ mapId offset size, s.loader.mapLengths[mapId]? = some size → offset < size →
    s.loader.mapByte s'.mapBacking mapId offset =
      (Regions.last writes mapId offset).or (s.loader.mapByte s.mapBacking mapId offset)

/-- **Command step.** -/
theorem remembers_step {s' : DispatchState σ} {writes : List (Regions.Write UInt8)}
    (hlaid : LaidBy s.loader ds) (hprogram : s.loader.state.hasProgram = true)
    (hrequest : IsMapCommand request) (h : Remembers s s' writes) :
    Remembers s (dispatchWithBpfAndExecutor request execute s').2 (writes ++
      if request.command = cmdWriteBpfMap ∧ statusOf execute s' request = some statusOk then
        [mapWriteOf request]
      else []) := by
  obtain ⟨hflags, hcommand⟩ := hrequest
  obtain ⟨hloader, hbytes⟩ := h
  cases hcommand with
  | inl hread =>
      obtain ⟨hbacking, hkept⟩ := dispatch_read_kept execute (s := s') hflags hread
      have hne : ¬ cmdReadBpfMap = cmdWriteBpfMap := by decide
      rw [hread, if_neg fun hboth => hne hboth.1, List.append_nil]
      exact ⟨hkept.trans hloader, by rw [hbacking]; exact hbytes⟩
  | inr hwrite =>
      have hlaid' : LaidBy s'.loader ds := by rw [hloader]; exact hlaid
      have hprogram' : s'.loader.state.hasProgram = true := by rw [hloader]; exact hprogram
      cases dispatch_write execute hlaid' hprogram' hflags hwrite with
      | inl hok =>
          obtain ⟨⟨-, size, hsize, hfit⟩, hdispatch⟩ := hok
          have hstatus : statusOf execute s' request = some statusOk :=
            statusOf_respond hdispatch (Nat.zero_le maxPayload)
          rw [if_pos ⟨hwrite, hstatus⟩, hdispatch]
          refine ⟨by rw [respond_loader, written_loader, hloader],
            fun mapId offset size' hsize' hoffset => ?_⟩
          -- a write changes its own bytes of its own map, by the layout of the regions
          rw [respond_mapBacking, DispatchState.written, hloader]
          rw [hloader] at hsize
          have hregion := (List.getElem?_eq_some_iff.mp hsize).1
          have hsizeEq := (List.getElem?_eq_some_iff.mp hsize).2
          have hmap := (List.getElem?_eq_some_iff.mp hsize').1
          have hmapEq := (List.getElem?_eq_some_iff.mp hsize').2
          rw [hlaid.mapByte_eq _ hmap, Regions.copySlice_region hlaid.sum_le s'.mapBacking _ hregion
            (by rw [hsizeEq]; exact hfit) hmap (by rw [hmapEq]; exact hoffset),
            ← hlaid.mapByte_eq _ hmap, hbytes _ _ _ hsize' hoffset, Regions.last_concat,
            Option.or_assoc]
      | inr hrefused =>
          obtain ⟨-, status, hstatus, hdispatch⟩ := hrefused
          have hne : ¬ statusOf execute s' request = some statusOk := by
            rw [statusOf_respond hdispatch (by decide), Option.some.injEq]
            exact hstatus
          rw [if_neg fun hboth => hne hboth.2, List.append_nil, hdispatch]
          exact ⟨(respond_loader ..).trans hloader, by rw [respond_mapBacking]; exact hbytes⟩

/-- **Command run.** -/
theorem remembers_run (hlaid : LaidBy s.loader ds) (hprogram : s.loader.state.hasProgram = true)
    {requests : List Request} (hrequests : ∀ request ∈ requests, IsMapCommand request) :
    Remembers s (afterRequests execute s requests) (successfulWrites execute s requests) :=
  Machine.invariant_trace (P := IsMapCommand) (I := Remembers s)
    (fun _ _ _ hrequest h => remembers_step execute hlaid hprogram hrequest h)
    ⟨rfl, fun _ _ _ _ _ => by simp⟩ hrequests

end sequences

/-! ## the map theorem -/

/- `MapAccess` collects what is claimed of one state. -/

/-- Requests for every byte. -/
def readRequest (mapId : UInt8) (offset : UInt16) (count : UInt8) : Request :=
  .ofPayload cmdReadBpfMap 0 (mapId :: toLe 2 offset.toNat ++ [count])

/-- A Write, for examples. -/
def writeRequest (mapId offset : Nat) (bytes : List UInt8) : Request :=
  .ofPayload cmdWriteBpfMap 0 (toLe 2 ((mapId <<< 10) ||| offset) ++ bytes)

/-- A payload that fits is the slice of the request. -/
theorem bytes_ofPayload {command sequence : UInt8} {payload : List UInt8}
    (h : payload.length ≤ maxPayload) :
    (Request.ofPayload command sequence payload).bytes = payload := by
  have hmin : min payload.length maxPayload = payload.length := Nat.min_eq_left h
  have hlen : (UInt8.ofNat payload.length).toNat = payload.length :=
    UInt8.toNat_ofNat_of_lt' (Nat.lt_of_le_of_lt h (by decide))
  simp only [Request.bytes, Request.ofPayload, hmin, hlen]
  exact take_copySlice_zero _ payload h

/-- What host access to the maps comes to, for a state of the dispatcher. -/
structure MapAccess {σ : Type} (execute : Executor σ) (s : DispatchState σ) : Prop where
  /-- A Write succeeds exactly within its map. -/
  write_ok : ∀ request mapId offset bytes, IsMapWrite request mapId offset bytes →
    (statusOf execute s request = some statusOk ↔ s.loader.InMap mapId offset bytes.length)
  /-- A Read succeeds exactly within its map, with as many bytes as it asks for. -/
  read_ok : ∀ request mapId offset count, IsMapRead request mapId offset count →
    ((∃ reply, replyOf (dispatchWithBpfAndExecutor request execute s) = some reply ∧
        reply.status = statusOk ∧ reply.payload.length = count.toNat) ↔
      1 ≤ count.toNat ∧ count.toNat ≤ 16 ∧ s.loader.InMap mapId.toNat offset.toNat count.toNat) ∧
    (statusOf execute s request = some statusOk →
      1 ≤ count.toNat ∧ count.toNat ≤ 16 ∧ s.loader.InMap mapId.toNat offset.toNat count.toNat)
  /-- A command that is not answered `STATUS_OK` changes no map. -/
  refused : ∀ request, IsMapCommand request → statusOf execute s request ≠ some statusOk →
    (dispatchWithBpfAndExecutor request execute s).2.mapBacking = s.mapBacking ∧
      (dispatchWithBpfAndExecutor request execute s).2.loader = s.loader
  /-- After any sequence of commands, a Read that is answered gives for each byte
  what the last successful Write of that byte left, or what it was at first. -/
  memory : ∀ requests, (∀ request ∈ requests, IsMapCommand request) →
    ∀ request mapId offset count, IsMapRead request mapId offset count →
    ∀ reply, replyOf (dispatchWithBpfAndExecutor request execute
        (afterRequests execute s requests)) = some reply → reply.status = statusOk →
      reply.payload.map some = (List.range count.toNat).map fun i =>
        (Regions.last (successfulWrites execute s requests) mapId.toNat (offset.toNat + i)).or
          (s.loader.mapByte s.mapBacking mapId.toNat (offset.toNat + i))
  /-- Both commands reach every byte of every map. -/
  addressable : ∀ mapId size offset, s.loader.mapLengths[mapId]? = some size → offset < size →
    (∀ byte, IsMapWrite (writeRequest mapId offset [byte]) mapId offset [byte] ∧
      statusOf execute s (writeRequest mapId offset [byte]) = some statusOk) ∧
    (UInt8.ofNat mapId).toNat = mapId ∧ (UInt16.ofNat offset).toNat = offset ∧
    IsMapRead (readRequest (UInt8.ofNat mapId) (UInt16.ofNat offset) 1)
      (UInt8.ofNat mapId) (UInt16.ofNat offset) 1 ∧
    statusOf execute s (readRequest (UInt8.ofNat mapId) (UInt16.ofNat offset) 1) =
      some statusOk

section access

variable {σ : Type} (execute : Executor σ) {s : DispatchState σ} {ds : List Descriptor}

/-- A range within a map is within the backing. -/
theorem InMap.length_le {l : BpfLoader} {mapId offset len : Nat} (hlaid : LaidBy l ds)
    (h : l.InMap mapId offset len) :
    Regions.start l.mapLengths mapId + offset + len ≤ bpfMaxMapBytes := by
  obtain ⟨size, hsize, hfit⟩ := h
  obtain ⟨hid, hsizeEq⟩ := List.getElem?_eq_some_iff.mp hsize
  have hnext := Regions.start_succ hid
  have hsum := (Regions.start_le_sum l.mapLengths (mapId + 1)).trans hlaid.sum_le
  omega

/-- A Write is answered with success exactly when its range is within the map. -/
theorem write_ok_iff (hlaid : LaidBy s.loader ds) (hprogram : s.loader.state.hasProgram = true)
    {request : Request} {mapId offset : Nat} {bytes : List UInt8}
    (hwrite : IsMapWrite request mapId offset bytes) :
    statusOf execute s request = some statusOk ↔ s.loader.InMap mapId offset bytes.length := by
  have hform : 3 ≤ request.payloadLen.toNat ∧
      (u16FromLeBytes request.payload[0] request.payload[1]).toNat < 8192 := by
    have hid := hwrite.mapId_lt
    have hoffset := hwrite.offset_lt
    have hpos := hwrite.nonempty
    rw [hwrite.payloadLen, hwrite.location]
    omega
  cases dispatch_write execute hlaid hprogram hwrite.flags hwrite.command with
  | inl hok =>
      obtain ⟨⟨-, hin⟩, hdispatch⟩ := hok
      rw [hwrite.mapWriteOf_eq] at hin
      rw [statusOf_respond hdispatch (by decide)]
      exact ⟨fun _ => hin, fun _ => rfl⟩
  | inr hrefused =>
      obtain ⟨hnot, status, hstatus, hdispatch⟩ := hrefused
      rw [hwrite.mapWriteOf_eq] at hnot
      rw [statusOf_respond hdispatch (by decide), Option.some.injEq]
      exact ⟨fun heq => absurd heq hstatus, fun hin => absurd ⟨hform, hin⟩ hnot⟩

/-- A Read is answered with success exactly when its range is within the map and
no longer than a payload. -/
theorem read_ok_iff (hlaid : LaidBy s.loader ds) (hprogram : s.loader.state.hasProgram = true)
    {request : Request} {mapId : UInt8} {offset : UInt16} {count : UInt8}
    (hread : IsMapRead request mapId offset count) :
    statusOf execute s request = some statusOk ↔
      1 ≤ count.toNat ∧ count.toNat ≤ 16 ∧
        s.loader.InMap mapId.toNat offset.toNat count.toNat := by
  cases dispatch_read execute hlaid hprogram hread with
  | inl hok =>
      obtain ⟨hin, hdispatch⟩ := hok
      have hlen := hin.2.1
      rw [statusOf_respond hdispatch (by rw [List.length_take]; show _ ≤ 16; omega)]
      exact ⟨fun _ => hin, fun _ => rfl⟩
  | inr hrefused =>
      obtain ⟨hnot, status, hstatus, hdispatch⟩ := hrefused
      rw [statusOf_respond hdispatch (by decide), Option.some.injEq]
      exact ⟨fun heq => absurd heq hstatus, fun hin => absurd hin hnot⟩

/-- The slice of the backing a range of a map is, byte by byte. -/
theorem map_slice {l : BpfLoader} (hlaid : LaidBy l ds) (backing : MapBacking)
    {mapId offset len : Nat} (hin : l.InMap mapId offset len) :
    ((backing.toList.drop (Regions.start l.mapLengths mapId + offset)).take len).length = len ∧
      ((backing.toList.drop (Regions.start l.mapLengths mapId + offset)).take len).map some =
        (List.range len).map fun i => l.mapByte backing mapId (offset + i) := by
  have hbound := InMap.length_le hlaid hin
  have hmap : mapId < l.mapLengths.length := by
    obtain ⟨size, hsize, -⟩ := hin
    exact (List.getElem?_eq_some_iff.mp hsize).1
  have hlength : ((backing.toList.drop (Regions.start l.mapLengths mapId + offset)).take
      len).length = len := by
    rw [List.length_take, List.length_drop, Vector.length_toList]
    omega
  refine ⟨hlength, ?_⟩
  apply List.ext_getElem
  · simpa using hlength
  · intro i hi hi'
    have hlt : i < len := by simpa using hi'
    rw [List.getElem_map, List.getElem_take, List.getElem_drop, List.getElem_map,
      List.getElem_range, hlaid.mapByte_eq _ hmap, Vector.getElem_toList,
      Vector.getElem?_eq_getElem (by omega)]
    simp only [Nat.add_assoc]

/-- A Read that is answered gives the bytes of its map. -/
theorem read_bytes (hlaid : LaidBy s.loader ds) (hprogram : s.loader.state.hasProgram = true)
    {request : Request} {mapId : UInt8} {offset : UInt16} {count : UInt8}
    (hread : IsMapRead request mapId offset count) {reply : Reply}
    (hreply : replyOf (dispatchWithBpfAndExecutor request execute s) = some reply)
    (hok : reply.status = statusOk) :
    reply.payload.length = count.toNat ∧
      s.loader.InMap mapId.toNat offset.toNat count.toNat ∧
      reply.payload.map some = (List.range count.toNat).map fun i =>
        s.loader.mapByte s.mapBacking mapId.toNat (offset.toNat + i) := by
  cases dispatch_read execute hlaid hprogram hread with
  | inl hok =>
      obtain ⟨⟨-, hcount, hin⟩, hdispatch⟩ := hok
      obtain ⟨hlength, hbytes⟩ := map_slice hlaid s.mapBacking hin
      rw [hdispatch, replyOf_respond _ _ _ (by rw [hlength]; exact hcount),
        Option.some.injEq] at hreply
      subst hreply
      exact ⟨hlength, hin, hbytes⟩
  | inr hrefused =>
      obtain ⟨-, status, hstatus, hdispatch⟩ := hrefused
      rw [hdispatch, replyOf_respond _ _ _ (by decide), Option.some.injEq] at hreply
      subst hreply
      exact absurd hok hstatus

/-- **Map access.** For the loader of any run from boot, over any flash, and any
backing: the two map commands are exact, and every map is a memory of its own. -/
theorem map_access {F : Type} [BpfFlash F] (statusQueue : StatusQueue) (mapBacking : MapBacking)
    (output : Output) (flash : F) (es : List Event)
    (hloader : s.loader = ((Device.boot statusQueue mapBacking output flash).run es).loader)
    (hprogram : s.loader.state.hasProgram = true) : MapAccess execute s := by
  have hkept := (kept_laid F).device_run statusQueue mapBacking output flash es
  rw [← hloader] at hkept
  obtain ⟨-, ds, hlaid⟩ := hkept
  constructor
  · exact fun request mapId offset bytes hwrite => write_ok_iff execute hlaid hprogram hwrite
  · intro request mapId offset count hread
    have hiff := read_ok_iff execute hlaid hprogram hread
    refine ⟨⟨?_, fun hin => ?_⟩, hiff.mp⟩
    · rintro ⟨reply, hreply, hok, -⟩
      exact hiff.mp (by rw [statusOf, hreply, Option.map_some, hok])
    · obtain ⟨reply, hreply, hok⟩ := Option.map_eq_some_iff.mp (hiff.mpr hin)
      exact ⟨reply, hreply, hok, (read_bytes execute hlaid hprogram hread hreply hok).1⟩
  · intro request hcommand hstatus
    obtain ⟨hflags, hread | hwrite⟩ := hcommand
    · exact dispatch_read_kept execute hflags hread
    · cases dispatch_write execute hlaid hprogram hflags hwrite with
      | inl hok => exact absurd (statusOf_respond hok.2 (by decide)) hstatus
      | inr hrefused =>
          obtain ⟨-, status, -, hdispatch⟩ := hrefused
          rw [hdispatch]
          exact ⟨respond_mapBacking .., respond_loader ..⟩
  · intro requests hrequests request mapId offset count hread reply hreply hok
    obtain ⟨hsame, hbytes⟩ := remembers_run execute hlaid hprogram hrequests
    obtain ⟨-, ⟨size, hsize, hfit⟩, hpayload⟩ := read_bytes execute
      (by rw [hsame]; exact hlaid) (by rw [hsame]; exact hprogram) hread hreply hok
    rw [hsame] at hsize hpayload
    rw [hpayload]
    apply List.map_congr_left
    intro i hi
    have hlt : i < count.toNat := List.mem_range.mp hi
    exact hbytes _ _ size hsize (by omega)
  · intro mapId size offset hsize hoffset
    obtain ⟨hid, hsizeEq⟩ := List.getElem?_eq_some_iff.mp hsize
    have hmapId : mapId < 8 := by
      rw [hlaid.length_mapLengths] at hid
      exact Nat.lt_of_lt_of_le hid hlaid.count
    have hbound := (Regions.start_add_lt_sum hid (hsizeEq.symm ▸ hoffset)).trans_le hlaid.sum_le
    have hoffset' : offset < 1024 := Nat.lt_of_le_of_lt (Nat.le_add_left ..) hbound
    have hid8 : (UInt8.ofNat mapId).toNat = mapId :=
      UInt8.toNat_ofNat_of_lt' (by show _ < 256; omega)
    have hoffset16 : (UInt16.ofNat offset).toNat = offset :=
      UInt16.toNat_ofNat_of_lt' (by show _ < 65536; omega)
    have hread : IsMapRead (readRequest (UInt8.ofNat mapId) (UInt16.ofNat offset) 1)
        (UInt8.ofNat mapId) (UInt16.ofNat offset) 1 :=
      ⟨rfl, rfl, bytes_ofPayload (by simp [maxPayload])⟩
    refine ⟨fun byte => ?_, hid8, hoffset16, hread, ?_⟩
    · have hwrite : IsMapWrite (writeRequest mapId offset [byte]) mapId offset [byte] :=
        ⟨rfl, rfl, hmapId, hoffset', Nat.le_refl 1, Nat.le_of_ble_eq_true rfl,
          bytes_ofPayload (by simp [maxPayload])⟩
      exact ⟨hwrite, (write_ok_iff execute hlaid hprogram hwrite).mpr ⟨size, hsize, hoffset⟩⟩
    · refine (read_ok_iff execute hlaid hprogram hread).mpr ⟨by decide, by decide, size, ?_, ?_⟩
      · rw [hid8, hsize]
      · rw [hoffset16]
        exact hoffset

end access

open Device in
/-- The image with one array map, committed: what the theorem says of its maps. -/
theorem map_access_array :
    let s := (erased.run (transfer 1 arrayImage)).toDispatchState
    s.loader.state = .committed (crc32IsoHdlc arrayImage) ∧ s.loader.mapLengths = [8] ∧
      MapAccess (recording (returning 1)) s := by
  intro s
  have hstate : s.loader.state = .committed (crc32IsoHdlc arrayImage) := by decide +kernel
  have hprogram : s.loader.state.hasProgram = true := by rw [hstate]; rfl
  have hloader : s.loader = ((boot .ready (Vector.replicate _ 0) (Vector.replicate _ 0)
      (Nor.Chip.fresh (fun _ => 0xff) fun _ => .done)).run (transfer 1 arrayImage)).loader := by
    simp only [s, erased]
  exact ⟨hstate, by decide +kernel, map_access _ _ _ _ _ _ hloader hprogram⟩

end OptiBridge
