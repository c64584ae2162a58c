import OptiBridge.Completion
import OptiBridge.Maps

/-!
# OptiBridge.MapCalls

A host's map calls, end to end.  Each takes effect at one moment, the capture of
its request: a read that returns gives what the map held then, a write that
returns has changed its range of the map then and nothing else.

The busy retry of `read_map` is never taken: a busy answer has no payload, and
the bridge fills the frame up with zeros, which `target_request` refuses.  So
each call is two transactions, and what is left to say is what the loader
answered at the first of them.

* `returns_readMap` and `returns_writeMap`, the two calls, on any target;
* `returns_readMap_served` and `returns_writeMap_served`, within the maps of a
  target that keeps its program;
* `read_map_exact` and `write_map_exact`, over every run.
-/

namespace OptiBridge

open Bytes Nor Script

/-! ## what the two commands are answered with -/

/- Both commands by the range they ask for, on any loader. -/

/-- A read that succeeds is as long as asked. -/
theorem BpfLoader.length_readMap_eq {l : BpfLoader} {mapId count : UInt8} {offset : UInt16}
    {backing : MapBacking} {bytes : List UInt8}
    (h : l.readMap mapId offset count backing = .ok bytes) : bytes.length = count.toNat := by
  unfold readMap at h
  split_ifs at h with hbad
  cases hrange : l.mapRange mapId offset count.toNat with
  | error status =>
      rw [hrange] at h
      contradiction
  | ok start =>
      have hsmall : count.toNat < 2 ^ 16 := Nat.lt_of_lt_of_le count.toNat_lt (by decide)
      obtain ⟨layout, -, -, -, -, hfit⟩ := BpfLoader.mapRange_ok hsmall hrange
      rw [hrange, Except.ok.injEq] at h
      rw [← h, List.length_take, List.length_drop, Vector.length_toList]
      omega

/-- A range that is refused is refused with a status that says so. -/
theorem BpfLoader.mapRange_error_ne_ok {l : BpfLoader} {mapId : UInt8} {offset : UInt16}
    {len : Nat} {status : UInt8} (h : l.mapRange mapId offset len = .error status) :
    status ≠ statusOk := by
  unfold mapRange at h
  grind

/-- A write that is refused does not say it was served. -/
theorem BpfLoader.writeMap_error_ne_ok {l : BpfLoader} {mapId : UInt8} {offset : UInt16}
    {bytes : List UInt8} {backing backing' : MapBacking} {status : UInt8}
    (h : l.writeMap mapId offset bytes backing = (.error status, backing')) :
    status ≠ statusOk := by
  unfold writeMap at h
  split at h
  · rw [Prod.mk.injEq, Except.error.injEq] at h
    rw [← h.1]
    decide
  · cases hrange : l.mapRange mapId offset bytes.length with
    | error refused =>
        rw [hrange, Prod.mk.injEq, Except.error.injEq] at h
        rw [← h.1]
        exact BpfLoader.mapRange_error_ne_ok hrange
    | ok start => simp [hrange] at h

section ranges

variable {l : BpfLoader} {ds : List Descriptor}

/-- Without a program there are no maps. -/
theorem BpfLoader.Sane.not_inMap (hsane : l.Sane) (h : ¬ l.state.hasProgram = true)
    (mapId offset len : Nat) : ¬ l.InMap mapId offset len := by
  rintro ⟨size, hsize, -⟩
  obtain ⟨-, hcount⟩ := hsane.cleared (Bool.eq_false_iff.mpr h)
  simp [BpfLoader.mapLengths, hcount] at hsize

/-- A range within a map can be named by a request. -/
theorem BpfLoader.InMap.bounds (hlaid : LaidBy l ds) {mapId offset len : Nat}
    (h : l.InMap mapId offset len) : mapId < 8 ∧ offset + len ≤ 1024 := by
  have hlength := InMap.length_le hlaid h
  obtain ⟨size, hsize, -⟩ := h
  have hid := (List.getElem?_eq_some_iff.mp hsize).1
  rw [hlaid.length_mapLengths] at hid
  have hcount : ds.length ≤ 8 := hlaid.count
  have hbacking : bpfMaxMapBytes = 1024 := rfl
  omega

/-- The range check accepts exactly the ranges within a map. -/
theorem BpfLoader.mapRange_eq_ok (hsane : l.Sane) (hlaid : LaidBy l ds)
    {mapId offset len start : Nat} (hid : mapId < 256) (hoffset : offset < 2 ^ 16)
    (hlen : len < 2 ^ 16) :
    l.mapRange (UInt8.ofNat mapId) (UInt16.ofNat offset) len = .ok start ↔
      l.InMap mapId offset len ∧ start = Regions.start l.mapLengths mapId + offset := by
  by_cases hprogram : l.state.hasProgram = true
  · have hrange := mapRange_eq hlaid hprogram (UInt8.ofNat mapId) (UInt16.ofNat offset) hlen
    rw [UInt8.toNat_ofNat_of_lt' hid, UInt16.toNat_ofNat_of_lt' hoffset] at hrange
    cases hrange with
    | inl hrange =>
        obtain ⟨size, hsize, hfit, hrange⟩ := hrange
        rw [hrange, Except.ok.injEq]
        exact ⟨fun h => ⟨⟨size, hsize, hfit⟩, h.symm⟩, fun h => h.2.symm⟩
    | inr hrange =>
        obtain ⟨hover, status, -, hrange⟩ := hrange
        rw [hrange]
        constructor
        · intro h
          contradiction
        · rintro ⟨⟨size, hsize, hfit⟩, -⟩
          exact absurd hfit (Nat.not_le.mpr (hover size hsize))
  · rw [BpfLoader.mapRange, if_pos hprogram]
    constructor
    · intro h
      contradiction
    · exact fun h => absurd h.1 (hsane.not_inMap hprogram _ _ _)

/-- A read succeeds exactly within its map, with what the map holds there. -/
theorem BpfLoader.readMap_eq_ok (hsane : l.Sane) (hlaid : LaidBy l ds)
    {mapId offset count : Nat} (hid : mapId < 256) (hoffset : offset < 2 ^ 16)
    (hcount : 1 ≤ count ∧ count ≤ maxPayload) {backing : MapBacking} {bytes : List UInt8} :
    l.readMap (UInt8.ofNat mapId) (UInt16.ofNat offset) (UInt8.ofNat count) backing = .ok bytes ↔
      l.InMap mapId offset count ∧ bytes.map some =
        (List.range count).map fun i => l.mapByte backing mapId (offset + i) := by
  have hbyte : (UInt8.ofNat count).toNat = count :=
    UInt8.toNat_ofNat_of_lt' (Nat.lt_of_le_of_lt hcount.2 (by decide))
  have hbounds : ¬ (UInt8.ofNat count = 0 ∨ maxPayload < (UInt8.ofNat count).toNat) := by
    rw [hbyte, ← UInt8.toNat_inj, hbyte]
    show ¬ (_ = 0 ∨ _)
    omega
  have hlen : count < 2 ^ 16 := Nat.lt_of_le_of_lt hcount.2 (by decide)
  rw [BpfLoader.readMap, if_neg hbounds, hbyte]
  cases hcase : l.mapRange (UInt8.ofNat mapId) (UInt16.ofNat offset) count with
  | ok start =>
      obtain ⟨hin, rfl⟩ := (mapRange_eq_ok hsane hlaid hid hoffset hlen).mp hcase
      obtain ⟨-, hbytes⟩ := map_slice hlaid backing hin
      rw [← hbytes, Except.ok.injEq, eq_comm]
      exact ⟨fun h => ⟨hin, congrArg _ h⟩, fun h => List.map_injective_iff.mpr
        (Option.some_injective _) h.2⟩
  | error status =>
      constructor
      · intro h
        contradiction
      · rintro ⟨hin, -⟩
        rw [(mapRange_eq_ok hsane hlaid hid hoffset hlen).mpr ⟨hin, rfl⟩] at hcase
        contradiction

/-- A write succeeds exactly within its map, and replaces what the map holds
there. -/
theorem BpfLoader.writeMap_eq_ok (hsane : l.Sane) (hlaid : LaidBy l ds)
    {mapId offset : Nat} (hid : mapId < 256) (hoffset : offset < 2 ^ 16) {bytes : List UInt8}
    (hbytes : 1 ≤ bytes.length ∧ bytes.length ≤ maxMapWriteBytes)
    {backing backing' : MapBacking} :
    l.writeMap (UInt8.ofNat mapId) (UInt16.ofNat offset) bytes backing = (.ok (), backing') ↔
      l.InMap mapId offset bytes.length ∧
        backing' = copySlice backing (Regions.start l.mapLengths mapId + offset) bytes := by
  have hbounds : ¬ (bytes.isEmpty = true ∨ maxMapWriteBytes < bytes.length) := by
    rw [List.isEmpty_iff_length_eq_zero]
    omega
  have hlen : bytes.length < 2 ^ 16 := Nat.lt_of_le_of_lt hbytes.2 (by decide)
  rw [BpfLoader.writeMap, if_neg hbounds]
  cases hcase : l.mapRange (UInt8.ofNat mapId) (UInt16.ofNat offset) bytes.length with
  | ok start =>
      obtain ⟨hin, rfl⟩ := (mapRange_eq_ok hsane hlaid hid hoffset hlen).mp hcase
      simp [hin, eq_comm]
  | error status =>
      constructor
      · intro h
        simp at h
      · rintro ⟨hin, -⟩
        rw [(mapRange_eq_ok hsane hlaid hid hoffset hlen).mpr ⟨hin, rfl⟩] at hcase
        contradiction

end ranges

section dispatch

variable {σ : Type} {request : Request} (execute : Executor σ) (s : DispatchState σ)

/-- A Read is answered with what `read_map` returns. -/
theorem dispatch_readMap_eq {mapId count : UInt8} {offset : UInt16}
    (hread : IsMapRead request mapId offset count) :
    dispatchWithBpfAndExecutor request execute s =
      match s.loader.readMap mapId offset count s.mapBacking with
      | .ok bytes => s.respond request statusOk bytes
      | .error status => s.respond request status [] := by
  have hlen : request.payloadLen = 4 := by
    apply UInt8.toNat_inj.mp
    rw [← request.length_bytes, hread.payload]
    rfl
  have hid : request.payload[0] = mapId :=
    request.payload_eq_of_bytes (by rw [hread.payload]; rfl) (by decide)
  have hcount : request.payload[3] = count :=
    request.payload_eq_of_bytes (by rw [hread.payload]; rfl) (by decide)
  have hoffset : u16FromLeBytes request.payload[1] request.payload[2] = offset := by
    have hdrop : request.bytes.drop 1 = toLe 2 offset.toNat ++ [count] := by
      rw [hread.payload]
      rfl
    rw [u16FromLeBytes_of_bytes offset.toNat_lt (by decide) hdrop]
    exact UInt16.ofNat_toNat
  have hdispatch := dispatch_readMap execute s hread.flags hread.command
  rw [dispatchReadMap, if_neg (not_not.mpr hlen)] at hdispatch
  simp only [hid, hcount, hoffset] at hdispatch
  exact hdispatch

/-- A Write of some bytes to a location: three reserved bits, then the map and the
offset. -/
structure IsWriteAt (request : Request) (location : Nat) (bytes : List UInt8) : Prop where
  flags : request.flags = 0
  command : request.command = cmdWriteBpfMap
  location_lt : location < 2 ^ 16
  nonempty : 1 ≤ bytes.length
  payload : request.bytes = toLe 2 location ++ bytes

namespace IsWriteAt

variable {location : Nat} {bytes : List UInt8}

/-- The data of a write are what follows its location. -/
theorem bytes_drop (h : IsWriteAt request location bytes) :
    request.bytes.drop mapWriteLocationSize = bytes := by
  rw [h.payload]
  exact List.drop_left' (length_toLe ..)

/-- A write has its location and at least one byte. -/
theorem payloadLen (h : IsWriteAt request location bytes) :
    ¬ request.payloadLen.toNat < mapWriteLocationSize + 1 := by
  have hpos := h.nonempty
  rw [← request.length_bytes, h.payload, List.length_append, length_toLe]
  show ¬ _ < 3
  omega

/-- The location, as the dispatcher reads it. -/
theorem location_eq (h : IsWriteAt request location bytes) :
    u16FromLeBytes request.payload[0] request.payload[1] = UInt16.ofNat location :=
  u16FromLeBytes_of_bytes h.location_lt (by decide) ((List.drop_zero ..).trans h.payload)

end IsWriteAt

/-- A Write is answered by what `write_map` does, if the reserved bits are zero. -/
theorem dispatch_writeAt {location : Nat} {bytes : List UInt8}
    (hwrite : IsWriteAt request location bytes) :
    dispatchWithBpfAndExecutor request execute s =
      if location < 8192 then
        match s.loader.writeMap (UInt8.ofNat (location / 1024)) (UInt16.ofNat (location % 1024))
          bytes s.mapBacking with
        | (.ok _, mapBacking) => { s with mapBacking := mapBacking }.respond request statusOk []
        | (.error status, mapBacking) =>
            { s with mapBacking := mapBacking }.respond request status []
      else s.respond request statusBadLength [] := by
  have hlt := hwrite.location_lt
  have hword : (UInt16.ofNat location).toNat = location := UInt16.toNat_ofNat_of_lt' hlt
  have hreserved : (UInt16.ofNat location &&& 0xe000 = 0) = (location < 8192) := by
    rw [reservedBits_eq_zero, hword]
  have hdispatch := dispatch_writeMap execute s hwrite.flags hwrite.command
  rw [dispatchWriteMap, if_neg hwrite.payloadLen] at hdispatch
  simp only [hwrite.bytes_drop, hwrite.location_eq, ne_eq, hreserved, ite_not] at hdispatch
  by_cases hsmall : location < 8192
  · have htarget : ((UInt16.ofNat location >>> 10) &&& 0x07).toUInt8 =
        UInt8.ofNat (location / 1024) := by
      apply UInt8.toNat_inj.mp
      rw [toNat_mapIdBits, hword, UInt8.toNat_ofNat_of_lt' (by show _ < 256; omega)]
      omega
    have hat : UInt16.ofNat location &&& 0x03ff = UInt16.ofNat (location % 1024) := by
      apply UInt16.toNat_inj.mp
      rw [toNat_offsetBits, hword, UInt16.toNat_ofNat_of_lt' (by show _ < 65536; omega)]
    rw [if_pos hsmall, htarget, hat] at hdispatch
    rw [if_pos hsmall]
    exact hdispatch
  · rw [if_neg hsmall] at hdispatch ⊢
    exact hdispatch

end dispatch

namespace Firmware

variable {F : Type} {f : Firmware F} (request : Frame)

/-- A Read that is served. -/
theorem packet_readMap_ok {mapId count : UInt8} {offset : UInt16}
    (hread : IsMapRead request.request mapId offset count)
    (hidle : f.captured.bpfExecutionActive = false) {bytes : List UInt8}
    (hbytes : f.loader.readMap mapId offset count f.mapBacking = .ok bytes)
    (invocation : Invocation) :
    ∃ output, f.onI2cPacket request.bytes false invocation =
      (some (⟨statusOk, request.sequence, 0, bytes, BpfLoader.length_readMap hbytes⟩ :
        Frame).bytes, { f with output := output }) := by
  have hdispatch := dispatch_readMap_eq (startExecutor invocation) f.toDispatchState hread
  simp only [hbytes] at hdispatch
  exact queued_respond (parsePacket_frame request) (not_refuses_of_idle hidle _) hdispatch _

/-- Any other Read. -/
theorem packet_readMap_refused {mapId count : UInt8} {offset : UInt16}
    (hread : IsMapRead request.request mapId offset count)
    (hnot : f.captured.bpfExecutionActive = false →
      ∀ bytes, f.loader.readMap mapId offset count f.mapBacking ≠ .ok bytes)
    (invocation : Invocation) :
    ∃ status output, f.onI2cPacket request.bytes false invocation =
      (some (statusFrame status request.sequence).bytes, { f with output := output }) := by
  have hparse := parsePacket_frame request
  by_cases hbusy : f.Refuses request.request
  · obtain ⟨output, hqueued⟩ := queued_refused hparse hbusy invocation
    exact ⟨statusBusy, output, hqueued⟩
  · have hidle : f.captured.bpfExecutionActive = false := Bool.eq_false_iff.mpr fun hactive =>
      hbusy ⟨hactive, by rw [hread.command]; decide⟩
    have hdispatch := dispatch_readMap_eq (startExecutor invocation) f.toDispatchState hread
    cases hbytes : f.loader.readMap mapId offset count f.mapBacking with
    | ok bytes => exact absurd hbytes (hnot hidle bytes)
    | error status =>
        simp only [hbytes] at hdispatch
        obtain ⟨output, hqueued⟩ := queued_respond hparse hbusy hdispatch (Nat.zero_le _)
        exact ⟨status, output, hqueued⟩

/-- What a Read is answered with tells whether it was served. -/
theorem readMap_reply {reply : Frame} {mapId count : UInt8} {offset : UInt16}
    (hread : IsMapRead request.request mapId offset count) {invocation : Invocation}
    (hreply : (f.onI2cPacket request.bytes false invocation).1 = some reply.bytes) :
    (f.captured.bpfExecutionActive = false ∧ reply.command = statusOk ∧
        reply.payload.length = count.toNat ∧
        f.loader.readMap mapId offset count f.mapBacking = .ok reply.payload) ∨
      (reply.payload = [] ∧ (f.captured.bpfExecutionActive = false →
        ∀ bytes, f.loader.readMap mapId offset count f.mapBacking ≠ .ok bytes)) := by
  by_cases hserved : f.captured.bpfExecutionActive = false ∧
      ∃ bytes, f.loader.readMap mapId offset count f.mapBacking = .ok bytes
  · obtain ⟨hidle, bytes, hbytes⟩ := hserved
    obtain ⟨output, hqueued⟩ := packet_readMap_ok request hread hidle hbytes invocation
    rw [hqueued] at hreply
    obtain rfl := Frame.bytes_inj.mp (Option.some.inj hreply)
    exact .inl ⟨hidle, rfl, BpfLoader.length_readMap_eq hbytes, hbytes⟩
  · have hnot : f.captured.bpfExecutionActive = false →
        ∀ bytes, f.loader.readMap mapId offset count f.mapBacking ≠ .ok bytes :=
      fun hidle bytes hbytes => hserved ⟨hidle, bytes, hbytes⟩
    obtain ⟨status, output, hqueued⟩ := packet_readMap_refused request hread hnot invocation
    rw [hqueued] at hreply
    obtain rfl := Frame.bytes_inj.mp (Option.some.inj hreply)
    exact .inr ⟨rfl, hnot⟩

/-- A Write that is served. -/
theorem packet_writeAt_ok {location : Nat} {bytes : List UInt8} {mapBacking : MapBacking}
    (hwrite : IsWriteAt request.request location bytes) (hsmall : location < 8192)
    (hidle : f.captured.bpfExecutionActive = false)
    (hwritten : f.loader.writeMap (UInt8.ofNat (location / 1024))
      (UInt16.ofNat (location % 1024)) bytes f.mapBacking = (.ok (), mapBacking))
    (invocation : Invocation) :
    ∃ output, f.onI2cPacket request.bytes false invocation =
      (some (statusFrame statusOk request.sequence).bytes,
        { f with mapBacking := mapBacking, output := output }) := by
  have hdispatch := dispatch_writeAt (startExecutor invocation) f.toDispatchState hwrite
  simp only [hsmall, if_true, hwritten] at hdispatch
  exact queued_respond (parsePacket_frame request) (not_refuses_of_idle hidle _) hdispatch
    (Nat.zero_le _)

/-- Any other Write. -/
theorem packet_writeAt_refused {location : Nat} {bytes : List UInt8}
    (hwrite : IsWriteAt request.request location bytes)
    (hnot : ¬ (location < 8192 ∧ f.captured.bpfExecutionActive = false ∧
      (f.loader.writeMap (UInt8.ofNat (location / 1024)) (UInt16.ofNat (location % 1024)) bytes
        f.mapBacking).1 = .ok ())) (invocation : Invocation) :
    ∃ status output, status ≠ statusOk ∧ f.onI2cPacket request.bytes false invocation =
      (some (statusFrame status request.sequence).bytes, { f with output := output }) := by
  have hparse := parsePacket_frame request
  by_cases hbusy : f.Refuses request.request
  · obtain ⟨output, hqueued⟩ := queued_refused hparse hbusy invocation
    exact ⟨statusBusy, output, by decide, hqueued⟩
  · have hidle : f.captured.bpfExecutionActive = false := Bool.eq_false_iff.mpr fun hactive =>
      hbusy ⟨hactive, by rw [hwrite.command]; decide⟩
    have hdispatch := dispatch_writeAt (startExecutor invocation) f.toDispatchState hwrite
    by_cases hsmall : location < 8192
    · rw [if_pos hsmall] at hdispatch
      cases f.loader.writeMap_cases (UInt8.ofNat (location / 1024))
          (UInt16.ofNat (location % 1024)) bytes f.mapBacking with
      | inl hrefused =>
          obtain ⟨status, hrefused⟩ := hrefused
          simp only [hrefused] at hdispatch
          obtain ⟨output, hqueued⟩ := queued_respond hparse hbusy hdispatch (Nat.zero_le _)
          exact ⟨status, output, BpfLoader.writeMap_error_ne_ok hrefused, hqueued⟩
      | inr hwritten =>
          obtain ⟨start, -, hwritten⟩ := hwritten
          exact absurd ⟨hsmall, hidle, congrArg Prod.fst hwritten⟩ hnot
    · rw [if_neg hsmall] at hdispatch
      obtain ⟨output, hqueued⟩ := queued_respond hparse hbusy hdispatch (Nat.zero_le _)
      exact ⟨statusBadLength, output, by decide, hqueued⟩

end Firmware

/-- A request has been answered, and the bus goes on with the firmware in this
state. -/
structure Bus.GoesOn {F S : Type} [BpfFlash F] [I2cSlave S] (bus after : Bus F S)
    (f : Firmware F) : Prop where
  firmware : ∃ output,
    after.firmware = ({ f with output := output } : Firmware F).run (bus.passing 1)
  turns : after.turns = fun k => bus.turns (k + 2)

/-- What lasts through the background lasts to the next request. -/
theorem Steady.goesOn {F S : Type} [BpfFlash F] [I2cSlave S] {I : Firmware F → Prop}
    (hI : Steady I) {bus after : Bus F S} {f : Firmware F} (h : I f) (hgoes : bus.GoesOn after f) :
    I after.reach.firmware := by
  obtain ⟨output, hfirmware⟩ := hgoes.firmware
  apply hI.reach
  rw [hfirmware]
  exact hI.run (hI.output f output h) _

/-! ## reads -/

/- The frame of a read, and what the script makes of its answer. -/

namespace Host

theorem length_readMapPayload (mapId byteOffset byteLength : Nat) :
    ([UInt8.ofNat mapId] ++ (toLe 2 byteOffset ++ toLe 1 byteLength)).length ≤ 10 := by
  simp

/-- The request `read_map` makes. -/
def readMapFrame (sequence mapId byteOffset byteLength : Nat) : Frame :=
  requestFrame cmdReadBpfMap sequence
    ([UInt8.ofNat mapId] ++ (toLe 2 byteOffset ++ toLe 1 byteLength))
    (length_readMapPayload mapId byteOffset byteLength)

/-- The frame of a read is a read, in the dispatcher's sense. -/
theorem isMapRead_readMapFrame (sequence mapId : Nat) {byteOffset : Nat}
    (h : byteOffset < 2 ^ 16) (byteLength : Nat) :
    IsMapRead (readMapFrame sequence mapId byteOffset byteLength).request (UInt8.ofNat mapId)
      (UInt16.ofNat byteOffset) (UInt8.ofNat byteLength) where
  flags := rfl
  command := rfl
  payload := by
    rw [bytes_request, UInt16.toNat_ofNat_of_lt' h]
    rfl

variable {P F S : Type} [BpfFlash F] [I2cSlave S] [LawfulI2cSlave S] [I2cMaster (Bus F S)]
  [LawfulI2cBus F S] [SerialPort P (Bus F S)] [LawfulSerialPort P (Bus F S)] {port : P}
  {bus : Bus F S}

omit [BpfFlash F] [I2cSlave S] [LawfulI2cSlave S] [I2cMaster (Bus F S)] [LawfulI2cBus F S]
  [LawfulSerialPort P (Bus F S)] in
/-- The loop goes round once: an answer of the expected length is no busy answer. -/
theorem returns_readMapFrom {payload : List UInt8} {byteLength left sequence : Nat}
    {reply : Frame} (hok : reply.bytes.length = 5 + byteLength → reply.command = statusOk)
    (hfirst : ∀ response next port',
      Returns (targetRequest sequence cmdReadBpfMap payload (5 + byteLength)) port
        (response, next) port' → response = reply.bytes ∧ reply.bytes.length = 5 + byteLength)
    {data : List UInt8} {next : Nat} {port' : P} :
    Returns (readMapFrom payload byteLength (left + 1) sequence) port (data, next) port' ↔
      Returns (targetRequest sequence cmdReadBpfMap payload (5 + byteLength)) port
        (reply.bytes, next) port' ∧ data = reply.payload := by
  have hne : statusOk ≠ statusBusy := by decide
  simp only [readMapFrom, returns_bind, Prod.exists]
  constructor
  · rintro ⟨response, sequence', port₁, hasked, hrest⟩
    obtain ⟨rfl, hlength⟩ := hfirst _ _ _ hasked
    simp [Frame.bytes, hok hlength, hne] at hrest
    obtain ⟨-, ⟨hdata, rfl⟩, rfl⟩ := hrest
    exact ⟨hasked, hdata⟩
  · rintro ⟨hasked, rfl⟩
    obtain ⟨-, hlength⟩ := hfirst _ _ _ hasked
    refine ⟨_, _, _, hasked, ?_⟩
    have hcommand := hok hlength
    have hlong : reply.payload.length = byteLength := by
      rw [Frame.length_bytes] at hlength
      exact Nat.add_left_cancel hlength
    have hbyte : reply.payload.length % 256 = byteLength := by
      have hfits : reply.payload.length ≤ 16 := reply.payload_le
      omega
    simpa [Frame.bytes, hcommand, hne] using hbyte

/-- A read returns what the map held when the request was captured; there is no
second attempt, since a busy answer is too short to be taken. -/
theorem returns_readMap (hidle : Idle port bus) (sequence mapId byteOffset : Nat)
    {byteLength : Nat} (hbounds : 1 ≤ byteLength ∧ byteLength ≤ 11) :
    ∃ (idle : P) (after : Bus F S), Idle idle after ∧
      (bus.Replied (readMapFrame sequence mapId byteOffset byteLength) →
        bus.Follows after (readMapFrame sequence mapId byteOffset byteLength)) ∧
      ∀ data next port',
        Returns (readMap sequence mapId byteOffset byteLength) port (data, next) port' ↔
          (mapId < 256 ∧ byteOffset < 2 ^ 16 ∧ sequence < 256) ∧
            bus.Replied (readMapFrame sequence mapId byteOffset byteLength) ∧
            bus.reach.firmware.captured.bpfExecutionActive = false ∧
            bus.reach.firmware.loader.readMap (UInt8.ofNat mapId) (UInt16.ofNat byteOffset)
              (UInt8.ofNat byteLength) bus.reach.firmware.mapBacking = .ok data ∧
            next = (sequence + 2) % 256 ∧ port' = idle := by
  have hnotReset : (readMapFrame sequence mapId byteOffset byteLength).command ≠ cmdReset := by
    show cmdReadBpfMap ≠ cmdReset
    decide
  obtain ⟨reply, hreply, hanswers⟩ :=
    bus.reach.firmware.exists_reply _ hnotReset (bus.turns 0).invocation
  obtain ⟨idle, after, hafter, hfollows, hreturns⟩ :=
    returns_targetRequest hidle (length_readMapPayload mapId byteOffset byteLength) sequence
      (show 5 + byteLength ≤ maxPayload by show _ ≤ 16; omega) hreply hanswers
  have hcount : (UInt8.ofNat byteLength).toNat = byteLength :=
    UInt8.toNat_ofNat_of_lt' (Nat.lt_of_le_of_lt hbounds.2 (by decide))
  have hlong : reply.bytes.length = 5 + byteLength ↔ reply.payload.length = byteLength := by
    rw [Frame.length_bytes]
    exact Nat.add_right_inj
  -- what the answer tells, for an offset that can be sent
  have htells := fun hoffset : byteOffset < 2 ^ 16 =>
    Firmware.readMap_reply _ (isMapRead_readMapFrame sequence mapId hoffset byteLength) hreply
  refine ⟨idle, after, hafter, hfollows, fun data next port' => ?_⟩
  have hraise : ¬ ¬ (1 ≤ byteLength ∧ byteLength ≤ 11) := not_not.mpr hbounds
  have hfirst : ∀ response next port', Returns (targetRequest sequence cmdReadBpfMap
      ([UInt8.ofNat mapId] ++ (toLe 2 byteOffset ++ toLe 1 byteLength)) (5 + byteLength)) port
        (response, next) port' → response = reply.bytes ∧ reply.bytes.length = 5 + byteLength :=
    fun response next port' h => by
      obtain ⟨-, -, hlength, hresponse, -⟩ := (hreturns _ _ _).mp h
      exact ⟨hresponse, hlength⟩
  have hserved : byteOffset < 2 ^ 16 → reply.payload.length = byteLength →
      bus.reach.firmware.captured.bpfExecutionActive = false ∧ reply.command = statusOk ∧
        bus.reach.firmware.loader.readMap (UInt8.ofNat mapId) (UInt16.ofNat byteOffset)
          (UInt8.ofNat byteLength) bus.reach.firmware.mapBacking = .ok reply.payload :=
    fun hoffset hlength => by
      cases htells hoffset with
      | inl hok => exact ⟨hok.1, hok.2.1, hok.2.2.2⟩
      | inr hrefused =>
          rw [hrefused.1, List.length_nil] at hlength
          omega
  simp only [readMap, throw_bind, returns_raise, hraise, not_false_iff, true_and, returns_bind,
    returns_bytesOf, returns_pack]
  constructor
  · -- an answer as long as asked for is no busy one, so the loop ends at the first
    rintro ⟨map, _, ⟨hmap, rfl, rfl⟩, offset, _, ⟨hoffset, rfl, rfl⟩, length, _,
      ⟨hlength, rfl, rfl⟩, h⟩
    have hok : reply.bytes.length = 5 + byteLength → reply.command = statusOk := fun h =>
      (hserved hoffset (hlong.mp h)).2.1
    obtain ⟨hasked, rfl⟩ := (returns_readMapFrom hok hfirst).mp h
    obtain ⟨hsequence, hreplied, hlength, -, hnext, hport⟩ := (hreturns _ _ _).mp hasked
    obtain ⟨hidle, -, hdata⟩ := hserved hoffset (hlong.mp hlength)
    exact ⟨⟨hmap mapId (by simp), hoffset, hsequence⟩, hreplied, hidle, hdata, hnext, hport⟩
  · rintro ⟨⟨hmap, hoffset, hsequence⟩, hreplied, hidle, hdata, hnext, hport⟩
    have hsame : reply.payload = data ∧ reply.payload.length = byteLength := by
      cases htells hoffset with
      | inl hok =>
          rw [hdata] at hok
          exact ⟨(Except.ok.inj hok.2.2.2).symm, hok.2.2.1.trans hcount⟩
      | inr hrefused => exact absurd hdata (hrefused.2 hidle data)
    obtain ⟨rfl, hlength⟩ := hsame
    have hok : reply.bytes.length = 5 + byteLength → reply.command = statusOk := fun h =>
      (hserved hoffset (hlong.mp h)).2.1
    have hasked := (hreturns reply.bytes next port').mpr
      ⟨hsequence, hreplied, hlong.mpr hlength, rfl, hnext, hport⟩
    exact ⟨_, _, ⟨by simpa using hmap, rfl, rfl⟩, _, _, ⟨hoffset, rfl, rfl⟩, _, _,
      ⟨by omega, rfl, rfl⟩, (returns_readMapFrom hok hfirst).mpr ⟨hasked, rfl⟩⟩

/-! ## writes -/

/- The same for a write, whose location packs map and offset into sixteen bits
and overflows beyond. -/

omit [BpfFlash F] [I2cSlave S] in
theorem length_writeMapPayload (location : Nat) {data : List UInt8} (h : data.length ≤ 8) :
    (toLe 2 location ++ data).length ≤ 10 := by
  rw [List.length_append, length_toLe]
  omega

omit [BpfFlash F] [I2cSlave S] in
/-- The request `write_map` makes. -/
def writeMapFrame (sequence location : Nat) (data : List UInt8) (h : data.length ≤ 8) : Frame :=
  requestFrame cmdWriteBpfMap sequence (toLe 2 location ++ data) (length_writeMapPayload _ h)

omit [BpfFlash F] [I2cSlave S] in
/-- The frame of a write is a write, in the dispatcher's sense. -/
theorem isWriteAt_writeMapFrame (sequence : Nat) {location : Nat} {data : List UInt8}
    (hlocation : location < 2 ^ 16) (hnonempty : 1 ≤ data.length) (h : data.length ≤ 8) :
    IsWriteAt (writeMapFrame sequence location data h).request location data where
  flags := rfl
  command := rfl
  location_lt := hlocation
  nonempty := hnonempty
  payload := bytes_request _

/-- A write returns exactly when its request was served; then it changed the map
when the request was captured, and nothing else. -/
theorem returns_writeMap (hidle : Idle port bus) (sequence mapId byteOffset : Nat)
    {data : List UInt8} (hnonempty : 1 ≤ data.length) (h : data.length ≤ 8) :
    let location := mapId <<< 10 ||| byteOffset
    let written := bus.reach.firmware.loader.writeMap (UInt8.ofNat (location / 1024))
      (UInt16.ofNat (location % 1024)) data bus.reach.firmware.mapBacking
    let served := bus.Replied (writeMapFrame sequence location data h) ∧ location < 8192 ∧
      bus.reach.firmware.captured.bpfExecutionActive = false ∧ written.1 = .ok ()
    ∃ (idle : P) (after : Bus F S), Idle idle after ∧
      (served → bus.GoesOn after { bus.reach.firmware with mapBacking := written.2 }) ∧
      ∀ next port', Returns (writeMap sequence mapId byteOffset data) port next port' ↔
        (sequence < 256 ∧ served) ∧ next = (sequence + 2) % 256 ∧ port' = idle := by
  intro location written served
  have hnotReset : (writeMapFrame sequence location data h).command ≠ cmdReset := by
    show cmdWriteBpfMap ≠ cmdReset
    decide
  obtain ⟨reply, hreply, hanswers⟩ :=
    bus.reach.firmware.exists_reply _ hnotReset (bus.turns 0).invocation
  obtain ⟨idle, after, hafter, hfollows, hreturns⟩ :=
    returns_targetRequest hidle (length_writeMapPayload location h) sequence
      (show 5 ≤ maxPayload by decide) hreply hanswers
  have hwrite := fun hlocation : location < 2 ^ 16 =>
    isWriteAt_writeMapFrame sequence hlocation hnonempty h
  have hsmall : location < 8192 → location < 2 ^ 16 := fun h => Nat.lt_trans h (by decide)
  refine ⟨idle, after, hafter, fun hserved => ?_, fun next port' => ?_⟩
  · obtain ⟨hreplied, hlocation, hactive, hok⟩ := hserved
    obtain ⟨output, hqueued⟩ := Firmware.packet_writeAt_ok _ (hwrite (hsmall hlocation)) hlocation
      hactive (Prod.ext hok rfl) (bus.turns 0).invocation
    have hafterward := congrArg (fun out => out.2.run (bus.passing 1)) hqueued
    exact ⟨⟨output, (hfollows hreplied).firmware.trans hafterward⟩, (hfollows hreplied).turns⟩
  · simp only [writeMap, throw_bind, returns_raise, not_not, returns_bind, returns_pack,
      Prod.exists]
    constructor
    · rintro ⟨-, _, _, ⟨hlocation, rfl, rfl⟩, response, next', port₁, hasked, hrest⟩
      obtain ⟨hsequence, hreplied, -, rfl, rfl, rfl⟩ := (hreturns _ _ _).mp hasked
      simp only [returns_pure] at hrest
      obtain ⟨haccepted, rfl, rfl⟩ := hrest
      have hok := command_of_accepted haccepted
      refine ⟨⟨hsequence, hreplied, ?_⟩, rfl, rfl⟩
      by_contra hnot
      obtain ⟨status, output, hne, hqueued⟩ := Firmware.packet_writeAt_refused _
        (hwrite hlocation) hnot (bus.turns 0).invocation
      rw [hqueued] at hreply
      have hframe := Frame.bytes_inj.mp (Option.some.inj hreply)
      rw [← hframe] at hok
      exact hne hok
    · rintro ⟨⟨hsequence, hreplied, hlocation, hactive, hwritten⟩, rfl, rfl⟩
      obtain ⟨output, hqueued⟩ := Firmware.packet_writeAt_ok _ (hwrite (hsmall hlocation))
        hlocation hactive (Prod.ext hwritten rfl) (bus.turns 0).invocation
      rw [hqueued] at hreply
      obtain rfl := Frame.bytes_inj.mp (Option.some.inj hreply)
      have hasked := (hreturns _ _ _).mpr ⟨hsequence, hreplied, rfl, rfl, rfl, rfl⟩
      refine ⟨⟨hnonempty, h⟩, _, _, ⟨hsmall hlocation, rfl, rfl⟩, _, _, _, hasked, ?_⟩
      exact ⟨accepted_statusOk hsequence, returns_pure.mpr ⟨rfl, rfl⟩⟩

/-! ## calls within the maps -/

/- On a target that goes on by itself without touching its maps, a call is
served exactly when its two transactions succeed in time. -/

/-- A read of a map is served: it is answered, no program runs when it is
captured, and the range lies within a map. -/
structure ServesRead (bus : Bus F S) (sequence mapId byteOffset byteLength : Nat) : Prop where
  bounds : 1 ≤ byteLength ∧ byteLength ≤ 11
  replied : bus.Replied (readMapFrame sequence mapId byteOffset byteLength)
  idle : bus.reach.firmware.captured.bpfExecutionActive = false
  inMap : bus.reach.firmware.loader.InMap mapId byteOffset byteLength

/-- A write of a map is served. -/
structure ServesWrite (bus : Bus F S) (sequence location : Nat) (data : List UInt8)
    (h : data.length ≤ 8) : Prop where
  nonempty : 1 ≤ data.length
  replied : bus.Replied (writeMapFrame sequence location data h)
  idle : bus.reach.firmware.captured.bpfExecutionActive = false
  inMap : bus.reach.firmware.loader.InMap (location / 1024) (location % 1024) data.length

/-- The firmware with this written to the map that a location names. -/
def written (f : Firmware F) (location : Nat) (data : List UInt8) : Firmware F :=
  { f with
    mapBacking := copySlice f.mapBacking
      (Regions.start f.loader.mapLengths (location / 1024) + location % 1024) data }

section maps

variable {ds : List Descriptor}

/-- A read returns exactly when it is served, with what the map held when it was
captured. -/
theorem returns_readMap_served (hsane : bus.reach.firmware.loader.Sane)
    (hlaid : LaidBy bus.reach.firmware.loader ds) (hidle : Idle port bus)
    (sequence mapId byteOffset byteLength : Nat) :
    ∃ (idle : P) (after : Bus F S), Idle idle after ∧
      (ServesRead bus sequence mapId byteOffset byteLength →
        bus.GoesOn after bus.reach.firmware) ∧
      ∀ data next port',
        Returns (readMap sequence mapId byteOffset byteLength) port (data, next) port' ↔
          (sequence < 256 ∧ ServesRead bus sequence mapId byteOffset byteLength) ∧
            (data.map some = (List.range byteLength).map fun i =>
              bus.reach.firmware.loader.mapByte bus.reach.firmware.mapBacking mapId
                (byteOffset + i)) ∧
            next = (sequence + 2) % 256 ∧ port' = idle := by
  by_cases hbounds : 1 ≤ byteLength ∧ byteLength ≤ 11
  · obtain ⟨idle, after, hafter, hfollows, hreturns⟩ :=
      returns_readMap hidle sequence mapId byteOffset hbounds
    generalize hreached : bus.reach.firmware = f at *
    have hfits : 1 ≤ byteLength ∧ byteLength ≤ maxPayload :=
      ⟨hbounds.1, Nat.le_trans hbounds.2 (by decide)⟩
    have hread := fun (hid : mapId < 256) (hoffset : byteOffset < 2 ^ 16) (data : List UInt8) =>
      @BpfLoader.readMap_eq_ok f.loader ds hsane hlaid _ _ _ hid hoffset hfits f.mapBacking data
    have hsmall : f.loader.InMap mapId byteOffset byteLength →
        mapId < 256 ∧ byteOffset < 2 ^ 16 := fun hin => by
      have hbounds := hin.bounds hlaid
      omega
    refine ⟨idle, after, hafter, fun hserved => ?_, fun data next port' => ?_⟩
    · obtain ⟨-, hreplied, hactive, hin⟩ := hserved
      rw [hreached] at hactive hin
      obtain ⟨hid, hoffset⟩ := hsmall hin
      obtain ⟨-, hbytes⟩ := map_slice hlaid f.mapBacking hin
      obtain ⟨output, hqueued⟩ := Firmware.packet_readMap_ok _
        (isMapRead_readMapFrame sequence mapId hoffset byteLength) hactive
        ((hread hid hoffset _).mpr ⟨hin, hbytes⟩) (bus.turns 0).invocation
      have hafterward := congrArg (fun out => out.2.run (bus.passing 1)) hqueued
      have hfirmware := (hfollows hreplied).firmware
      rw [Bus.asked, hreached] at hfirmware
      exact ⟨⟨output, hfirmware.trans hafterward⟩, (hfollows hreplied).turns⟩
    · rw [hreturns]
      constructor
      · rintro ⟨⟨hid, hoffset, hsequence⟩, hreplied, hactive, hok, hnext, hport⟩
        obtain ⟨hin, hbytes⟩ := (hread hid hoffset data).mp hok
        exact ⟨⟨hsequence, hbounds, hreplied, hreached ▸ hactive, hreached ▸ hin⟩, hbytes, hnext,
          hport⟩
      · rintro ⟨⟨hsequence, -, hreplied, hactive, hin⟩, hbytes, hnext, hport⟩
        rw [hreached] at hactive hin
        obtain ⟨hid, hoffset⟩ := hsmall hin
        exact ⟨⟨hid, hoffset, hsequence⟩, hreplied, hactive,
          (hread hid hoffset data).mpr ⟨hin, hbytes⟩, hnext, hport⟩
  · refine ⟨port, bus, hidle, fun hserved => absurd hserved.bounds hbounds,
      fun data next port' => ?_⟩
    simp only [readMap, throw_bind, returns_raise, not_not]
    constructor
    · exact fun h => absurd h.1 hbounds
    · exact fun h => absurd h.1.2.bounds hbounds

/-- A write returns exactly when it is served; then it has replaced its range of
the map when it was captured, and nothing else. -/
theorem returns_writeMap_served (hsane : bus.reach.firmware.loader.Sane)
    (hlaid : LaidBy bus.reach.firmware.loader ds) (hidle : Idle port bus)
    (sequence mapId byteOffset : Nat) {data : List UInt8} (h : data.length ≤ 8) :
    let location := mapId <<< 10 ||| byteOffset
    ∃ (idle : P) (after : Bus F S), Idle idle after ∧
      (ServesWrite bus sequence location data h →
        bus.GoesOn after (written bus.reach.firmware location data)) ∧
      ∀ next port', Returns (writeMap sequence mapId byteOffset data) port next port' ↔
        (sequence < 256 ∧ ServesWrite bus sequence location data h) ∧
          next = (sequence + 2) % 256 ∧ port' = idle := by
  intro location
  by_cases hnonempty : 1 ≤ data.length
  · obtain ⟨idle, after, hafter, hfollows, hreturns⟩ :=
      returns_writeMap hidle sequence mapId byteOffset hnonempty h
    have hlocation : (mapId <<< 10 ||| byteOffset) = location := rfl
    simp only [hlocation] at hfollows hreturns
    have hfits : 1 ≤ data.length ∧ data.length ≤ maxMapWriteBytes :=
      ⟨hnonempty, Nat.le_trans h (by decide)⟩
    have hwrite := fun hlocation : location < 8192 => fun mapBacking =>
      @BpfLoader.writeMap_eq_ok bus.reach.firmware.loader ds hsane hlaid (location / 1024)
        (location % 1024) (by omega) (by omega) data hfits bus.reach.firmware.mapBacking
        mapBacking
    have hiff : ServesWrite bus sequence location data h ↔
        bus.Replied (writeMapFrame sequence location data h) ∧
          location < 8192 ∧ bus.reach.firmware.captured.bpfExecutionActive = false ∧
          (bus.reach.firmware.loader.writeMap (UInt8.ofNat (location / 1024))
            (UInt16.ofNat (location % 1024)) data bus.reach.firmware.mapBacking).1 = .ok () := by
      constructor
      · rintro ⟨-, hreplied, hactive, hin⟩
        have hlocation : location < 8192 := by
          have hbounds := hin.bounds hlaid
          omega
        exact ⟨hreplied, hlocation, hactive,
          congrArg Prod.fst ((hwrite hlocation _).mpr ⟨hin, rfl⟩)⟩
      · rintro ⟨hreplied, hlocation, hactive, hok⟩
        exact ⟨hnonempty, hreplied, hactive, ((hwrite hlocation _).mp (Prod.ext hok rfl)).1⟩
    refine ⟨idle, after, hafter, fun hserved => ?_, fun next port' => ?_⟩
    · obtain ⟨hreplied, hlocation, hactive, hok⟩ := hiff.mp hserved
      obtain ⟨-, hwritten⟩ := (hwrite hlocation _).mp (Prod.ext hok rfl)
      have hgoes := hfollows ⟨hreplied, hlocation, hactive, hok⟩
      exact (congrArg (fun mapBacking => bus.GoesOn after
        { bus.reach.firmware with mapBacking := mapBacking }) hwritten).mp hgoes
    · rw [hreturns, hiff]
  · refine ⟨port, bus, hidle, fun hserved => absurd hserved.nonempty hnonempty,
      fun next port' => ?_⟩
    have hbounds : ¬ (1 ≤ data.length ∧ data.length ≤ 8) := fun hboth => hnonempty hboth.1
    simp only [writeMap, throw_bind, returns_raise, not_not]
    constructor
    · exact fun h => absurd h.1 hbounds
    · exact fun h => absurd h.1.2.nonempty hnonempty

end maps

/-! ## a target with a map -/

/- An image with one map of two pages, in flash and adopted, for the examples of
this and the next module. -/

/-- `exit` with one array map of four values of four bytes: two pages. -/
def mappedImage : List UInt8 :=
  Device.exitProgram ++ ([1, 4, 4, 4] : List Nat).flatMap (toLe 4)

/-- A flash that never fails and holds that image, committed. -/
def mappedFlash : Chip :=
  .fresh (fun x =>
    if x < headerAddress then 0xff
    else (headerBytes 8 1 (crc32IsoHdlc mappedImage) [0, 0] ++ mappedImage).getD
      (x - headerAddress) 0xff) fun _ => .done

/-- A target that has just booted over it. -/
def mappedBus : Bus Chip ResponseSlot :=
  { Bus.erased with firmware := Firmware.boot mappedFlash 0 [] }

/-- The target of the examples is ready. -/
theorem ready_mapped : Ready (opened mappedBus) mappedBus where
  idle := idle_opened mappedBus
  quiet := quiet_boot (fun _ _ => rfl) 0 []
  smooth _ := smooth_plain

/-- It has nothing pending and one map of sixteen bytes. -/
theorem mapped_loader : mappedBus.firmware.loader.pending = none ∧
    mappedBus.firmware.loader.mapLengths = [16] := by
  decide +kernel

/-! ## calls of any target -/

/- The theorems: over every run of any target, with programs, timers and resets
in between. -/

omit [LawfulI2cSlave S] [I2cMaster (Bus F S)] [LawfulI2cBus F S] in
/-- The maps of a target that has booted are laid out. -/
theorem laid_reach {flash : F} {now : Nat} {history : History} {es : List FirmwareEvent}
    (hboot : bus.firmware = (Firmware.boot flash now history).run es) :
    bus.reach.firmware.loader.Sane ∧ ∃ ds, LaidBy bus.reach.firmware.loader ds := by
  rw [Bus.reach_boot hboot]
  exact (kept_laid F).firmware_run flash now history _

/-- **Reads are exact.** Over any run of the target, a read of a map returns
exactly when both transactions succeed in time, the target does not reboot between
them, no program runs when the request is captured and the range lies within a
map.  Then it returns what the map held at that moment, and has changed nothing.
The script's retry of a busy target is never taken: no request it makes comes back
busy, for a busy answer is shorter than the script waits for. -/
theorem read_map_exact (flash : F) (now : Nat) (history : History) (es : List FirmwareEvent)
    (hboot : bus.firmware = (Firmware.boot flash now history).run es) (hidle : Idle port bus)
    (sequence mapId byteOffset byteLength : Nat) :
    let f := bus.reach.firmware
    ∃ (idle : P) (after : Bus F S), Idle idle after ∧
      (ServesRead bus sequence mapId byteOffset byteLength → bus.GoesOn after f) ∧
      (∀ data next port',
        Returns (readMap sequence mapId byteOffset byteLength) port (data, next) port' ↔
          (sequence < 256 ∧ ServesRead bus sequence mapId byteOffset byteLength) ∧
            (data.map some = (List.range byteLength).map fun i =>
              f.loader.mapByte f.mapBacking mapId (byteOffset + i)) ∧
            next = (sequence + 2) % 256 ∧ port' = idle) ∧
      ((1 ≤ byteLength ∧ byteLength ≤ 11) → ∀ response next port',
        Returns (targetRequest sequence cmdReadBpfMap
          ([UInt8.ofNat mapId] ++ (toLe 2 byteOffset ++ toLe 1 byteLength)) (5 + byteLength)) port
            (response, next) port' → response[1]? ≠ some statusBusy) := by
  intro f
  obtain ⟨hsane, ds, hlaid⟩ := laid_reach hboot
  obtain ⟨idle, after, hafter, hgoes, hreturns⟩ :=
    returns_readMap_served hsane hlaid hidle sequence mapId byteOffset byteLength
  refine ⟨idle, after, hafter, hgoes, hreturns, fun hbounds response next port' hasked => ?_⟩
  have hfits : 5 + byteLength ≤ maxPayload := by
    show _ ≤ 16
    omega
  have hnotReset : cmdReadBpfMap ≠ cmdReset := by decide
  have hok := targetRequest_served hidle hnotReset
    (length_readMapPayload mapId byteOffset byteLength) (by omega) hfits hasked
  rw [hok]
  decide

/-- The second page of a fresh map is read as zeros. -/
theorem read_map_exact_mapped : ∃ port' : Port (Bus Chip ResponseSlot),
    Returns (readMap 1 0 8 8) (opened mappedBus) (List.replicate 8 0, 3) port' := by
  have hserved : ServesRead mappedBus 1 0 8 8 :=
    { bounds := by decide
      replied := ⟨answered_plain, answered_plain,
        fun hreboots => absurd hreboots.2 (by decide +kernel), trivial⟩
      idle := by decide +kernel
      inMap := ⟨16, by decide +kernel, by decide⟩ }
  obtain ⟨idle, -, -, -, hreturns, -⟩ := read_map_exact mappedFlash 0 [] [] rfl
    ready_mapped.idle 1 0 8 8
  exact ⟨idle, (hreturns _ _ _).mpr ⟨⟨by decide, hserved⟩, by decide +kernel, rfl, rfl⟩⟩

/-- **Writes are exact.** Over any run of the target, a write of a map returns
exactly when both transactions succeed in time, the target does not reboot between
them, no program runs when the request is captured, and the range lies within the map
that the location names.  Then it has replaced that range at that moment, and
nothing else. -/
theorem write_map_exact (flash : F) (now : Nat) (history : History) (es : List FirmwareEvent)
    (hboot : bus.firmware = (Firmware.boot flash now history).run es) (hidle : Idle port bus)
    (sequence mapId byteOffset : Nat) {data : List UInt8} (h : data.length ≤ 8) :
    let f := bus.reach.firmware
    let location := mapId <<< 10 ||| byteOffset
    ∃ (idle : P) (after : Bus F S), Idle idle after ∧
      (ServesWrite bus sequence location data h →
        bus.GoesOn after (written f location data)) ∧
      ∀ next port', Returns (writeMap sequence mapId byteOffset data) port next port' ↔
        (sequence < 256 ∧ ServesWrite bus sequence location data h) ∧
          next = (sequence + 2) % 256 ∧ port' = idle := by
  intro f location
  obtain ⟨hsane, ds, hlaid⟩ := laid_reach hboot
  exact returns_writeMap_served hsane hlaid hidle sequence mapId byteOffset h

/-- The last two bytes of the map are written. -/
theorem write_map_exact_mapped : ∃ port' : Port (Bus Chip ResponseSlot),
    Returns (writeMap 1 0 14 [7, 8]) (opened mappedBus) 3 port' := by
  have hserved : ServesWrite mappedBus 1 14 [7, 8] (by decide) :=
    { nonempty := by decide
      replied := ⟨answered_plain, answered_plain,
        fun hreboots => absurd hreboots.2 (by decide +kernel), trivial⟩
      idle := by decide +kernel
      inMap := ⟨16, by decide +kernel, by decide⟩ }
  obtain ⟨idle, -, -, -, hreturns⟩ := write_map_exact mappedFlash 0 [] [] rfl
    ready_mapped.idle 1 0 14 (show [7, 8].length ≤ 8 by decide)
  exact ⟨idle, (hreturns _ _).mpr ⟨⟨by decide, hserved⟩, rfl, rfl⟩⟩

end Host

end OptiBridge
