import OptiBridge.LoaderInvariant
import OptiBridge.RawProtocol

/-!
# OptiBridge.RawLoader

What the I2C callback asks of the loader, once more, with every index, slice, copy,
addition and narrowing cast spelled out.  Nothing in the loader's own fields bounds
how many maps a committed program has: that is left to the invariant.

The layout of the module is that of `OptiBridge.Loader`: the running CRC,
acceptance, what a committed image offers.  After the definitions come the lemmas
that no step of them fails, under the hypotheses the callers can keep: a length
below the address space, and at most eight committed maps.

The inner loop of the CRC has a counter of its own, which is added to under a
check like every other; so has the loop over the maps of a timer event.
-/

namespace OptiBridge

open Bytes

namespace Raw

open Checked

/-! ## the running CRC -/

/- Two nested loops, each with a counter that is added to and compared. -/

/-- The inner loop of `crc32_update`, from `bit` on. -/
def crc32BitsFrom (bit : Nat) (crc : UInt32) : Checked UInt32 :=
  if bit < 8 then do
    let _ ← add 32 bit 1
    crc32BitsFrom (bit + 1) (crc32Bit crc)
  else pure crc
termination_by 8 - bit
decreasing_by omega

/-- The outer loop, from byte `i` on. -/
def crc32UpdateFrom (bytes : List UInt8) (i : Nat) (crc : UInt32) : Checked UInt32 :=
  if i < bytes.length then do
    let byte ← index bytes i
    let crc ← crc32BitsFrom 0 (crc ^^^ byte.toUInt32)
    let _ ← add 32 i 1
    crc32UpdateFrom bytes (i + 1) crc
  else pure crc
termination_by bytes.length - i
decreasing_by omega

/-- The running CRC over a fragment. -/
def crc32Update (crc : UInt32) (bytes : List UInt8) : Checked UInt32 :=
  crc32UpdateFrom bytes 0 crc

/-! ## acceptance -/

/-- `u16::from_le_bytes([payload[i], payload[i + 1]])`. -/
def u16At (payload : List UInt8) (i : Nat) : Checked UInt16 := do
  let a ← index payload i
  let b ← index payload (i + 1)
  pure (u16FromLeBytes a b)

/-- `u32::from_le_bytes` of four bytes in a row. -/
def u32At (payload : List UInt8) (i : Nat) : Checked UInt32 := do
  let a ← index payload i
  let b ← index payload (i + 1)
  let c ← index payload (i + 2)
  let d ← index payload (i + 3)
  pure (u32FromLeBytes a b c d)

/-- The bounds check `accepts_load` and `validate_committed` share. -/
def badBounds (bytecodeLen : UInt16) (mapCount : UInt8) (imageLen : Nat) : Checked Bool :=
  if bytecodeLen = 0 ∨ bpfMaxBytecode < bytecodeLen.toNat ∨ bytecodeLen.toNat % 8 ≠ 0 ∨
      bpfMaxMaps < mapCount.toNat then pure true
  else do
    let total ← add 32 imageLen bpfHeaderSize
    pure (decide (bpfFlashSize < total))

/-- A Begin: eight bytes, whose fields are read by index. -/
def loadBegin (payload : List UInt8) : Checked (Except UInt8 LoadOperation) := do
  let bytecodeLen ← u16At payload 1
  let mapCount ← index payload 3
  let expectedCrc ← u32At payload 4
  match imageLen bytecodeLen mapCount with
  | none => pure (.error statusBadLength)
  | some imageLen =>
      if ← badBounds bytecodeLen mapCount imageLen then pure (.error statusBadLength)
      else pure (.ok (.begin bytecodeLen mapCount expectedCrc))

/-- A Data: a header of three bytes and up to twelve more. -/
def loadData (self : BpfLoader) (payload : List UInt8) : Checked (Except UInt8 LoadOperation) :=
  if self.state ≠ .receiving then pure (.error statusBadState)
  else do
    let offset ← u16At payload 1
    if offset ≠ self.nextOffset then pure (.error statusBadState)
    else
      let len ← sub payload.length 3
      let dataEnd ← add 32 offset.toNat len
      if self.imageLen.toNat < dataEnd then pure (.error statusBadLength)
      else
        let fragment ← slice payload 3 payload.length
        let bytes ← copyFromSlice (Vector.replicate 12 0) 0 len fragment
        let len ← cast 8 len
        pure (.ok (.data offset bytes (UInt8.ofNat len)))

/-- The guard of the `Data` arm. -/
def isData (payload : List UInt8) : Checked Bool :=
  if payload.head? = some 1 ∧ 5 ≤ payload.length ∧ payload.length ≤ 15 then do
    let len ← sub payload.length 3
    pure (decide (len % 2 = 0))
  else pure false

/-- The operation a payload asks for. -/
def loadOperation (self : BpfLoader) (payload : List UInt8) :
    Checked (Except UInt8 LoadOperation) :=
  if payload.head? = some 0 ∧ payload.length = 8 then loadBegin payload
  else do
    if ← isData payload then loadData self payload
    else if payload.head? = some 2 ∧ payload.length = 1 then
      if self.state ≠ .receiving then pure (.error statusBadState)
      else if self.nextOffset ≠ self.imageLen then pure (.error statusBadState)
      else pure (.ok .finalize)
    else if payload.head? = some 0 ∨ payload.head? = some 1 ∨ payload.head? = some 2 then
      pure (.error statusBadLength)
    else pure (.error statusBadCommand)

/-- Whether a Load is accepted, with the payload cut out of the request's
buffer. -/
def acceptsLoad (self : BpfLoader) (request : Request) :
    Checked (Except UInt8 Unit × BpfLoader) :=
  if self.pending.isSome then pure (.error statusBusy, self)
  else if self.state.isRunning then pure (.error statusBadState, self)
  else do
    let payload ← slice request.payload.toList 0 request.payloadLen.toNat
    match ← loadOperation self payload with
    | .error status => pure (.error status, self)
    | .ok operation => pure (.ok (), { self with pending := some operation })

/-! ## what a committed image offers -/

/-- The loop of `committed_metadata`, from `i` on. -/
def committedMapsFrom (self : BpfLoader) (i : Nat) (maps : Vector BpfMapMetadata bpfMaxMaps) :
    Checked (Vector BpfMapMetadata bpfMaxMaps) :=
  if i < self.committedMapCount.toNat then do
    let layout ← index self.mapLayouts i
    let maps ← set maps i ⟨layout.offset, layout.len, layout.keySize, layout.valueSize⟩
    let _ ← add 32 i 1
    committedMapsFrom self (i + 1) maps
  else pure maps
termination_by self.committedMapCount.toNat - i
decreasing_by omega

/-- The metadata of whatever the loader holds.  The loop indexes two arrays of
eight by a counter that runs up to a field. -/
def committedMetadata (self : BpfLoader) : Checked BpfProgramMetadata := do
  let maps ← committedMapsFrom self 0 (Vector.replicate _ ⟨0, 0, 0, 0⟩)
  pure ⟨self.bytecodeLen, self.committedMapCount, maps⟩

/-- What a Start may run. -/
def executionMetadata (self : BpfLoader) : Checked (Except UInt8 BpfProgramMetadata) :=
  if self.pending.isSome then pure (.error statusBusy)
  else
    match self.state with
    | .committed _ => do
        let metadata ← committedMetadata self
        pure (.ok metadata)
    | .running _ => pure (.error statusBadState)
    | .empty | .receiving => pure (.error statusNoProgram)
    | .failed status => pure (.error status)

/-- What a timer event may run. -/
def eventExecutionMetadata (self : BpfLoader) : Checked (Except UInt8 BpfProgramMetadata) :=
  if self.pending.isSome then pure (.error statusBusy)
  else
    match self.state with
    | .committed _ | .running _ => do
        let metadata ← committedMetadata self
        pure (.ok metadata)
    | .empty | .receiving => pure (.error statusNoProgram)
    | .failed status => pure (.error status)

/-- The range `start..end` that `read_map` and `write_map` compute, if it is one of
the backing. -/
def mapRange (self : BpfLoader) (mapId : UInt8) (byteOffset : UInt16) (len : Nat) :
    Checked (Except UInt8 (Nat × Nat)) :=
  if ¬ self.state.hasProgram then pure (.error statusNoProgram)
  else
    match self.mapLayouts[mapId.toNat]? with
    | none => pure (.error statusBadCommand)
    | some layout =>
        if self.committedMapCount ≤ mapId then pure (.error statusBadCommand)
        else do
          let len16 ← cast 16 len
          match checkedAdd16 byteOffset (UInt16.ofNat len16) with
          | none => pure (.error statusBadLength)
          | some mapEnd =>
              if layout.len < mapEnd then pure (.error statusBadLength)
              else
                let start ← add 32 layout.offset.toNat byteOffset.toNat
                let stop ← add 32 start len
                if stop ≤ bpfMaxMapBytes then pure (.ok (start, stop))
                else pure (.error statusBadLength)

/-- A range of one map. -/
def readMap (self : BpfLoader) (mapId : UInt8) (byteOffset : UInt16) (byteLength : UInt8)
    (backing : MapBacking) : Checked (Except UInt8 (List UInt8)) :=
  if byteLength = 0 ∨ maxPayload < byteLength.toNat then pure (.error statusBadLength)
  else do
    match ← mapRange self mapId byteOffset byteLength.toNat with
    | .error status => pure (.error status)
    | .ok (start, stop) => pure (.ok ((backing.toList.take stop).drop start))

/-- Replace a range of one map.  The destination is a slice of the backing, so
the copy into it cannot differ in length. -/
def writeMap (self : BpfLoader) (mapId : UInt8) (byteOffset : UInt16) (replacement : List UInt8)
    (backing : MapBacking) : Checked (Except UInt8 Unit × MapBacking) :=
  if replacement.isEmpty ∨ maxMapWriteBytes < replacement.length then
    pure (.error statusBadLength, backing)
  else do
    match ← mapRange self mapId byteOffset replacement.length with
    | .error status => pure (.error status, backing)
    | .ok (start, stop) =>
        let backing ← copyFromSlice backing start stop replacement
        pure (.ok (), backing)

end Raw

/-! ## in bounds, nothing panics -/

/- One lemma for each definition above, in the same order. -/

section bounds

open Checked

/-- The bit counter never leaves its width: it stops at eight. -/
theorem crc32BitsFrom_ok (bit : Nat) (crc : UInt32) :
    Raw.crc32BitsFrom bit crc = .ok (crc32Bit^[8 - bit] crc) := by
  fun_induction Raw.crc32BitsFrom bit crc with
  | case1 bit crc hbit ih =>
      have hturns : 8 - bit = 8 - (bit + 1) + 1 := by omega
      rw [add_ok (by omega), ok_bind, ih, hturns, Function.iterate_succ_apply]
  | case2 bit crc hbit =>
      have hdone : 8 - bit = 0 := by omega
      rw [hdone, Function.iterate_zero_apply, pure_eq_ok]

/-- Both counters stay within their width: one stops at the end of the slice,
the other at eight. -/
theorem crc32UpdateFrom_ok {bytes : List UInt8} (h : bytes.length < 2 ^ 32) (i : Nat)
    (crc : UInt32) :
    Raw.crc32UpdateFrom bytes i crc = .ok (crc32Update crc (bytes.drop i)) := by
  fun_induction Raw.crc32UpdateFrom bytes i crc with
  | case1 i crc hi ih =>
      rw [index_ok (List.getElem?_eq_getElem hi), ok_bind, crc32BitsFrom_ok, ok_bind,
        add_ok (by omega), ok_bind, ih, List.drop_eq_getElem_cons hi]
      rfl
  | case2 i crc hi =>
      rw [List.drop_of_length_le (Nat.le_of_not_lt hi)]
      rfl

/-- A slice that fits the address space is folded in without a panic. -/
theorem raw_crc32Update (crc : UInt32) {bytes : List UInt8} (h : bytes.length < 2 ^ 32) :
    Raw.crc32Update crc bytes = .ok (crc32Update crc bytes) := crc32UpdateFrom_ok h 0 crc

theorem u16At_ok {payload : List UInt8} {i : Nat} {a b : UInt8} (ha : payload[i]? = some a)
    (hb : payload[i + 1]? = some b) : Raw.u16At payload i = .ok (u16FromLeBytes a b) := by
  unfold Raw.u16At
  rw [index_ok ha, ok_bind, index_ok hb, ok_bind, pure_eq_ok]

theorem u32At_ok {payload : List UInt8} {i : Nat} {a b c d : UInt8} (ha : payload[i]? = some a)
    (hb : payload[i + 1]? = some b) (hc : payload[i + 2]? = some c)
    (hd : payload[i + 3]? = some d) :
    Raw.u32At payload i = .ok (u32FromLeBytes a b c d) := by
  unfold Raw.u32At
  rw [index_ok ha, ok_bind, index_ok hb, ok_bind, index_ok hc, ok_bind, index_ok hd, ok_bind,
    pure_eq_ok]

theorem u32At_vector {n : Nat} (xs : Vector UInt8 n) {i : Nat} (h : i + 4 ≤ n) :
    Raw.u32At xs.toList i = .ok (u32FromLeBytes xs[i] xs[i + 1] xs[i + 2] xs[i + 3]) :=
  u32At_ok (by simp) (by simp) (by simp) (by simp)

theorem u16At_vector {n : Nat} (xs : Vector UInt8 n) {i : Nat} (h : i + 1 < n) :
    Raw.u16At xs.toList i = .ok (u16FromLeBytes xs[i] xs[i + 1]) :=
  u16At_ok (by simp) (by simp)

/-- The bounds check adds the header to the image length, and both are small. -/
theorem badBounds_ok (bytecodeLen : UInt16) (mapCount : UInt8) {n : Nat} (h : n < 2 ^ 31) :
    Raw.badBounds bytecodeLen mapCount n = .ok (decide (BadBounds bytecodeLen mapCount n)) := by
  unfold Raw.badBounds
  split_ifs with hbad
  · have hall : BadBounds bytecodeLen mapCount n := by
      unfold BadBounds
      tauto
    rw [decide_eq_true hall, pure_eq_ok]
  · have hsum : n + bpfHeaderSize < 2 ^ 32 := by
      show n + 16 < 2 ^ 32
      omega
    have hrest : BadBounds bytecodeLen mapCount n ↔ bpfFlashSize < n + bpfHeaderSize := by
      unfold BadBounds
      tauto
    rw [add_ok hsum, ok_bind, pure_eq_ok, decide_eq_decide.mpr hrest]

/-- A payload byte of a request, by its place in the payload buffer. -/
theorem getElem?_bytes (request : Request) {i : Nat} (h : i < request.payloadLen.toNat)
    (hi : i < maxPayload) : request.bytes[i]? = some request.payload[i] := by
  simp [Request.bytes, h, hi]

section acceptance

variable {self : BpfLoader} {request : Request}

/-- The payload of a Begin has its eight bytes. -/
theorem raw_loadBegin (hpending : self.pending = none) (hrunning : self.state.isRunning = false)
    (hbegin : request.IsBegin) :
    Raw.loadBegin request.bytes = .ok (self.loadOperation request) := by
  have hlen := hbegin.2
  have hbyte := fun i (hi : i < 8) =>
    getElem?_bytes request (i := i) (by omega) (Nat.lt_trans hi (by decide))
  have hbytecode := (u16FromLeBytes request.payload[1] request.payload[2]).toNat_lt
  have hmaps := request.payload[3].toNat_lt
  rw [BpfLoader.loadOperation_begin hpending hrunning hbegin]
  unfold Raw.loadBegin
  rw [u16At_ok (hbyte 1 (by decide)) (hbyte 2 (by decide)), ok_bind,
    index_ok (hbyte 3 (by decide)), ok_bind,
    u32At_ok (hbyte 4 (by decide)) (hbyte 5 (by decide)) (hbyte 6 (by decide))
      (hbyte 7 (by decide)), ok_bind]
  simp only [imageLen_eq]
  rw [badBounds_ok _ _ (by omega), ok_bind]
  simp only [decide_eq_true_eq]
  split_ifs <;> rfl

/-- The guard of the Data arm. -/
theorem isData_ok (payload : List UInt8) :
    Raw.isData payload = .ok (decide (payload.head? = some 1 ∧
      (5 ≤ payload.length ∧ payload.length ≤ 15) ∧ (payload.length - 3) % 2 = 0)) := by
  unfold Raw.isData
  split_ifs with h
  · obtain ⟨hfirst, hlo, hhi⟩ := h
    rw [sub_ok (by omega), ok_bind, pure_eq_ok]
    simp [hfirst, hlo, hhi]
  · have hnot : ¬ (payload.head? = some 1 ∧ (5 ≤ payload.length ∧ payload.length ≤ 15) ∧
        (payload.length - 3) % 2 = 0) := fun hall => h ⟨hall.1, hall.2.1⟩
    rw [decide_eq_false hnot, pure_eq_ok]

/-- The payload of a Data has its header and at most twelve bytes more, so
neither the copy nor the cast of the length can fail. -/
theorem raw_loadData (hpending : self.pending = none) (hrunning : self.state.isRunning = false)
    (hdata : request.IsData) :
    Raw.loadData self request.bytes = .ok (self.loadOperation request) := by
  obtain ⟨hlo, hhi⟩ := hdata.2.1
  have hbyte := fun i (hi : i < 5) =>
    getElem?_bytes request (i := i) (by omega) (Nat.lt_trans hi (by decide))
  have hoffset := (u16FromLeBytes request.payload[1] request.payload[2]).toNat_lt
  have hlength := request.length_bytes
  have hcount : (request.bytes.drop 3).length = request.payloadLen.toNat - 3 := by simp
  have hfragment : slice request.bytes 3 request.payloadLen.toNat =
      .ok (request.bytes.drop 3) := by
    rw [slice_ok (by omega) (by omega), ← hlength, List.take_length]
  have hcopy : copyFromSlice (Vector.replicate 12 0) 0 (request.payloadLen.toNat - 3)
      (request.bytes.drop 3) =
        .ok (copySlice (Vector.replicate 12 0) 0 (request.bytes.drop 3)) :=
    copyFromSlice_ok _ (by omega) (by omega)
  rw [BpfLoader.loadOperation_data hpending hrunning hdata]
  unfold Raw.loadData
  rw [u16At_ok (hbyte 1 (by decide)) (hbyte 2 (by decide)), ok_bind, hlength,
    sub_ok (by omega), ok_bind, add_ok (by omega), ok_bind, hfragment, ok_bind, hcopy, ok_bind,
    cast_ok (by omega), ok_bind]
  split_ifs <;> rfl

/-- Any payload is classified without a panic: the arms test the length before
they index. -/
theorem raw_loadOperation (hpending : self.pending = none)
    (hrunning : self.state.isRunning = false) :
    Raw.loadOperation self request.bytes = .ok (self.loadOperation request) := by
  unfold Raw.loadOperation
  simp only [Request.length_bytes, isData_ok, ok_bind, decide_eq_true_eq]
  by_cases hbegin : request.IsBegin
  · rw [if_pos hbegin, raw_loadBegin hpending hrunning hbegin]
  rw [if_neg hbegin]
  by_cases hdata : request.IsData
  · rw [if_pos hdata, raw_loadData hpending hrunning hdata]
  rw [if_neg hdata, BpfLoader.loadOperation_rest hpending hrunning hbegin hdata]
  split_ifs <;> rfl

/-- No request makes acceptance panic. -/
theorem raw_acceptsLoad (self : BpfLoader) (request : Request) :
    Raw.acceptsLoad self request.raw = .ok (self.acceptsLoad request) := by
  unfold Raw.acceptsLoad BpfLoader.acceptsLoad
  by_cases hpending : self.pending.isSome
  · rw [if_pos hpending, self.loadOperation_pending request hpending]
    rfl
  have hnone : self.pending = none := by simpa using hpending
  by_cases hrunning : self.state.isRunning
  · rw [if_neg hpending, if_pos hrunning, self.loadOperation_running request hnone hrunning]
    rfl
  have hlen : request.payloadLen.toNat ≤ request.payload.toList.length := by
    simpa using request.payloadLen_le
  have hop : Raw.loadOperation self request.bytes = _ :=
    raw_loadOperation hnone (by simpa using hrunning)
  rw [if_neg hpending, if_neg hrunning, slice_zero hlen, ok_bind]
  unfold Request.bytes at hop
  rw [hop, ok_bind]
  cases self.loadOperation request <;> rfl

end acceptance

section committed

variable {self : BpfLoader}

/-- The metadata of the map at `i`, or of none. -/
theorem getElem_maps (self : BpfLoader) {i : Nat} (h : i < bpfMaxMaps) :
    self.committedMetadata.maps[i] =
      if i < self.committedMapCount.toNat then
        ⟨self.mapLayouts[i].offset, self.mapLayouts[i].len, self.mapLayouts[i].keySize,
          self.mapLayouts[i].valueSize⟩
      else ⟨0, 0, 0, 0⟩ := by
  simp [BpfLoader.committedMetadata]

/-- The loop fills in the maps one by one. -/
theorem committedMapsFrom_ok (hcount : self.committedMapCount.toNat ≤ bpfMaxMaps) {i : Nat}
    {maps : Vector BpfMapMetadata bpfMaxMaps}
    (hmaps : ∀ j (hj : j < bpfMaxMaps), maps[j] =
      if j < i then self.committedMetadata.maps[j] else ⟨0, 0, 0, 0⟩) :
    Raw.committedMapsFrom self i maps = .ok self.committedMetadata.maps := by
  fun_induction Raw.committedMapsFrom self i maps with
  | case1 i maps hi ih =>
      have hlt : i < bpfMaxMaps := Nat.lt_of_lt_of_le hi hcount
      have hsmall : i + 1 < 2 ^ 32 := by
        have hlt : i < 8 := hlt
        omega
      rw [index_vector _ hlt, ok_bind, set_ok _ _ hlt, ok_bind, add_ok hsmall, ok_bind]
      refine ih _ fun j hj => ?_
      rw [Vector.getElem_set]
      by_cases hij : i = j
      · subst hij
        rw [if_pos rfl, if_pos (Nat.lt_succ_self i), getElem_maps, if_pos hi]
      · rw [if_neg hij, hmaps j hj]
        have hiff : j < i ↔ j < i + 1 := by omega
        simp only [hiff]
  | case2 i maps hi =>
      rw [pure_eq_ok]
      congr 1
      apply Vector.ext
      intro j hj
      rw [hmaps j hj]
      split_ifs with hlt
      · rfl
      · rw [getElem_maps, if_neg (by omega)]

/-- With at most eight maps both arrays are indexed in bounds. -/
theorem raw_committedMetadata (hcount : self.committedMapCount.toNat ≤ bpfMaxMaps) :
    Raw.committedMetadata self = .ok self.committedMetadata := by
  unfold Raw.committedMetadata
  rw [committedMapsFrom_ok hcount (by simp), ok_bind]
  rfl

/-- A Start's metadata are fetched without a panic. -/
theorem raw_executionMetadata (hcount : self.committedMapCount.toNat ≤ bpfMaxMaps) :
    Raw.executionMetadata self = .ok self.executionMetadata := by
  unfold Raw.executionMetadata BpfLoader.executionMetadata
  split_ifs with hpending
  · rfl
  · cases self.state with
    | committed crc =>
        simp only [raw_committedMetadata hcount, ok_bind]
        rfl
    | empty | receiving | running crc | failed status => rfl

/-- So are those of a timer event. -/
theorem raw_eventExecutionMetadata (hcount : self.committedMapCount.toNat ≤ bpfMaxMaps) :
    Raw.eventExecutionMetadata self = .ok self.eventExecutionMetadata := by
  unfold Raw.eventExecutionMetadata BpfLoader.eventExecutionMetadata
  split_ifs with hpending
  · rfl
  · cases self.state with
    | committed crc | running crc =>
        simp only [raw_committedMetadata hcount, ok_bind]
        rfl
    | empty | receiving | failed status => rfl

/-- The range, with its end. -/
theorem raw_mapRange (self : BpfLoader) (mapId : UInt8) (byteOffset : UInt16) {len : Nat}
    (hlen : len ≤ maxPayload) :
    Raw.mapRange self mapId byteOffset len =
      .ok ((self.mapRange mapId byteOffset len).map fun start => (start, start + len)) := by
  have hlen : len ≤ 16 := hlen
  have hoffset := byteOffset.toNat_lt
  unfold Raw.mapRange BpfLoader.mapRange
  by_cases hprogram : ¬ self.state.hasProgram = true
  · rw [if_pos hprogram, if_pos hprogram]
    rfl
  rw [if_neg hprogram, if_neg hprogram]
  cases self.mapLayouts[mapId.toNat]? with
  | none => rfl
  | some layout =>
      have hlayout := layout.offset.toNat_lt
      simp only
      by_cases hid : self.committedMapCount ≤ mapId
      · rw [if_pos hid, if_pos hid]
        rfl
      rw [if_neg hid, if_neg hid, cast_ok (by omega), ok_bind]
      cases checkedAdd16 byteOffset (UInt16.ofNat len) with
      | none => rfl
      | some mapEnd =>
          simp only
          rw [add_ok (by omega), ok_bind, add_ok (by omega), ok_bind]
          split_ifs <;> rfl

/-- No map, offset or length makes a read panic: its range is checked against
the map and against the backing before it is sliced. -/
theorem raw_readMap (self : BpfLoader) (mapId : UInt8) (byteOffset : UInt16) (byteLength : UInt8)
    (backing : MapBacking) :
    Raw.readMap self mapId byteOffset byteLength backing =
      .ok (self.readMap mapId byteOffset byteLength backing) := by
  unfold Raw.readMap BpfLoader.readMap
  split_ifs with hlen
  · rfl
  · simp only [not_or, Nat.not_lt] at hlen
    rw [raw_mapRange self mapId byteOffset hlen.2, ok_bind]
    cases self.mapRange mapId byteOffset byteLength.toNat with
    | error status => rfl
    | ok start =>
        have hslice : (backing.toList.take (start + byteLength.toNat)).drop start =
            (backing.toList.drop start).take byteLength.toNat := by
          rw [List.drop_take, Nat.add_sub_cancel_left]
        simp only [Except.map, hslice]
        rfl

/-- No map, offset or data makes a write panic. -/
theorem raw_writeMap (self : BpfLoader) (mapId : UInt8) (byteOffset : UInt16)
    (replacement : List UInt8) (backing : MapBacking) :
    Raw.writeMap self mapId byteOffset replacement backing =
      .ok (self.writeMap mapId byteOffset replacement backing) := by
  unfold Raw.writeMap BpfLoader.writeMap
  split_ifs with hlen
  · rfl
  · simp only [not_or, Nat.not_lt] at hlen
    rw [raw_mapRange self mapId byteOffset (Nat.le_trans hlen.2 (by decide)), ok_bind]
    cases hrange : self.mapRange mapId byteOffset replacement.length with
    | error status => rfl
    | ok start =>
        have hsmall : replacement.length < 2 ^ 16 := Nat.lt_of_le_of_lt hlen.2 (by decide)
        obtain ⟨-, -, -, -, -, hfits⟩ := BpfLoader.mapRange_ok hsmall hrange
        simp only [Except.map]
        rw [copyFromSlice_ok _ rfl hfits, ok_bind]
        rfl

end committed

end bounds

end OptiBridge
