import OptiBridge.Reboots
import OptiBridge.Submissions

/-!
# OptiBridge.Transfers

A host's transfer of a program, end to end.  A script that returns has left the
target with the image committed, in its loader and in flash, whatever the
target did between the transactions and whatever its flash failed to do.

The script says nothing about what it has achieved except that it did not raise;
the theorem reads that back, one step after the other.  Each `submit_` lemma
takes what is known before a step (`Firmware.Receives`) and what the script
checked, and gives what is known after it.

* `submit_begin`, the announced image is being received, and nothing of it has
  been;
* `submit_data`, its bytes so far are in flash;
* `submit_finalize`, it is committed, and the CRC that was queried is the one
  announced;
* `loadImage_holds`, all of it, for every program the script takes.
-/

namespace OptiBridge

open Bytes Nor Script

/-! ## what a step came to, by what it was answered -/

/- Of the ways an operation may end, the answer to the query leaves one. -/

namespace BpfLoader

/-- A query that finds no program has found one of two states. -/
theorem query_of_noProgram {l : BpfLoader} {sequence : UInt8}
    (h : (l.queryReply sequence).command = statusNoProgram) :
    l.query = .error statusNoProgram := by
  unfold queryReply at h
  cases hquery : l.query with
  | ok crc =>
      rw [hquery] at h
      exact absurd (show statusOk = statusNoProgram from h) (by decide)
  | error status =>
      rw [hquery] at h
      exact congrArg Except.error h

/-- A failure is one of three, none of which the host waits for. -/
theorem query_failed {l : BpfLoader} {status : UInt8} (hpending : l.pending = none)
    (hstate : l.state = .failed status) : l.query = .error status := by
  simp [query, hpending, hstate]

variable {image : LoadableImage} {l l' : BpfLoader} {c : Contents} {ops : List (Op × Outcome)}

/-- Begin. -/
theorem Executed.begun
    (h : Executed l c (.begin image.bytecodeLen image.mapCount image.crc) l' ops)
    (hpending : l.pending = none) (hquery : l'.query = .error statusNoProgram) :
    l' = image.receiving [] ∧ replay c ops = image.stored c [] := by
  have hfailed := query_failed
    (l := { l.clearMapLayouts with state := .failed statusFlashError }) hpending rfl
  cases h with
  | eraseFailed | headerFailed =>
      rw [hfailed] at hquery
      contradiction
  | received =>
      constructor
      · simp only [LoadableImage.receiving, image.length, clearMapLayouts, hpending]
        rfl
      · rw [LoadableImage.stored, apply_program_nil, LoadableImage.prepared]

/-- Data. -/
theorem Executed.extended {received fragment : List UInt8}
    (hfragment : fragment.length ≤ 12) (hoffset : received.length < 2 ^ 16)
    (h : Executed (image.receiving received) (image.stored c received)
      (.data (UInt16.ofNat received.length) (copySlice (Vector.replicate _ 0) 0 fragment)
        (UInt8.ofNat fragment.length)) l' ops)
    (hquery : l'.query = .error statusNoProgram) :
    l' = image.receiving (received ++ fragment) ∧
      replay (image.stored c received) ops = image.stored c (received ++ fragment) := by
  have hoffset : (UInt16.ofNat received.length).toNat = received.length :=
    UInt16.toNat_ofNat_of_lt' hoffset
  have hlen : (UInt8.ofNat fragment.length).toNat = fragment.length :=
    UInt8.toNat_ofNat_of_lt' (Nat.lt_of_le_of_lt hfragment (by decide))
  have hbytes : (copySlice (Vector.replicate 12 (0 : UInt8)) 0 fragment).toList.take
      (UInt8.ofNat fragment.length).toNat = fragment := by
    rw [hlen]
    exact take_copySlice_zero _ _ hfragment
  have hfailed := query_failed
    (l := { image.receiving received with state := .failed statusFlashError }) rfl rfl
  cases h with
  | writeFailed =>
      rw [hfailed] at hquery
      contradiction
  | stored =>
      rw [hbytes, hoffset, replay_cons, replay_nil]
      constructor
      · have hnext : UInt16.ofNat received.length + (UInt8.ofNat fragment.length).toUInt16 =
            UInt16.ofNat (received ++ fragment).length := by
          apply UInt16.toNat_inj.mp
          rw [UInt16.toNat_add, UInt8.toNat_toUInt16, hoffset, hlen, UInt16.toNat_ofNat',
            List.length_append]
        simp only [LoadableImage.receiving, hnext, crc32Update_append]
      · exact apply_program_append ..

/-- Finalize. -/
theorem Executed.finished
    (h : Executed (image.receiving image.bytes) (image.stored c image.bytes) .finalize l' ops)
    {crc : UInt32} (hquery : l'.query = .ok crc) :
    l' = image.committed ∧ replay (image.stored c image.bytes) ops =
      apply (image.stored c image.bytes) (.program markerAddress [0, 0], .done) := by
  have hfailed : ∀ status,
      ({ image.receiving image.bytes with state := .failed status } : BpfLoader).query =
        .error status := fun status => query_failed rfl rfl
  cases h with
  | badCrc | badMaps | markerFailed =>
      rw [hfailed] at hquery
      contradiction
  | committed _ hreads hdone =>
      constructor
      · have hdescriptors : descriptorsAt (image.stored c image.bytes)
            (image.receiving image.bytes).bytecodeLen (image.receiving image.bytes).mapCount =
            image.descriptors := image.descriptorsAt_stored c
        rw [hdescriptors]
        rfl
      · rw [replay_append, replay_readsWithin _ hreads hdone]
        rfl

end BpfLoader

/-! ## the image a host sends -/

/- The script appends one array map to every program. -/

/-- Bytecode that fits. -/
structure Host.GoodBytecode (bytecode : List UInt8) : Prop where
  nonempty : 0 < bytecode.length
  fits : bytecode.length ≤ bpfMaxBytecode
  aligned : bytecode.length % 8 = 0

namespace Host

/-- The descriptor the script appends. -/
@[simp] theorem length_mapDescriptor : mapDescriptor.length = 16 := rfl

/-- It declares one array map of one four-byte entry. -/
theorem descriptorsOf_mapDescriptor (bytecode : List UInt8) :
    descriptorsOf (bytecode ++ mapDescriptor) bytecode.length 1 = [⟨1, 4, 4, 1⟩] := by
  simp [descriptorsOf]
  rfl

/-- The length fits sixteen bits. -/
theorem GoodBytecode.toNat_length {bytecode : List UInt8} (h : GoodBytecode bytecode) :
    (UInt16.ofNat bytecode.length).toNat = bytecode.length :=
  UInt16.toNat_ofNat_of_lt' (Nat.lt_of_le_of_lt h.fits (by decide))

/-- The lengths are within the limits of an image. -/
theorem GoodBytecode.bounds {bytecode : List UInt8} (h : GoodBytecode bytecode) :
    GoodBounds (UInt16.ofNat bytecode.length) 1 where
  nonempty := h.toNat_length.symm ▸ h.nonempty
  bytecode := h.toNat_length.symm ▸ h.fits
  aligned := h.toNat_length.symm ▸ h.aligned
  maps := by simp

/-- The image has the bytecode and one descriptor. -/
theorem GoodBytecode.length_image {bytecode : List UInt8} (h : GoodBytecode bytecode) :
    (bytecode ++ mapDescriptor).length =
      (UInt16.ofNat bytecode.length).toNat + 16 * (1 : UInt8).toNat := by
  simp [h.toNat_length]

/-- Its descriptor is valid. -/
theorem GoodBytecode.maps {bytecode : List UInt8} (h : GoodBytecode bytecode) :
    ValidDescriptors (descriptorsOf (bytecode ++ mapDescriptor)
      (UInt16.ofNat bytecode.length).toNat (1 : UInt8).toNat) := by
  have hone : (1 : UInt8).toNat = 1 := rfl
  rw [h.toNat_length, hone, descriptorsOf_mapDescriptor]
  decide

/-- The image made of some bytecode. -/
def imageOf (bytecode : List UInt8) (h : GoodBytecode bytecode) : LoadableImage where
  bytecodeLen := UInt16.ofNat bytecode.length
  mapCount := 1
  bytes := bytecode ++ mapDescriptor
  bounds := h.bounds
  length := h.length_image
  maps := h.maps

/-- Bytecode the target takes a Begin for. -/
theorem goodBytecode_of_bounds {bytecode : List UInt8} (hlength : bytecode.length < 2 ^ 16)
    {mapCount : UInt8} (h : GoodBounds (UInt16.ofNat bytecode.length) mapCount) :
    GoodBytecode bytecode := by
  obtain ⟨hpos, hfits, haligned, -⟩ := h
  rw [UInt16.toNat_ofNat_of_lt' hlength] at hpos hfits haligned
  exact ⟨hpos, hfits, haligned⟩

end Host

/-- The target has received these bytes of an image; `c` is what flash held
before. -/
structure Firmware.Receives (image : LoadableImage) (c : Contents) (received : List UInt8)
    (f : Firmware Chip) : Prop where
  reset : f.resetPending = false
  sane : f.loader.Sane
  loader : f.loader = image.receiving received
  contents : f.flash.contents = image.stored c received

/-! ## transfers -/

/- Induction over the fragments, with the script's own cut. -/

namespace Host

variable {P S : Type} [I2cSlave S] [LawfulI2cSlave S] [I2cMaster (Bus Chip S)]
  [LawfulI2cBus Chip S] [SerialPort P (Bus Chip S)] [LawfulSerialPort P (Bus Chip S)]
  {port : P} {bus : Bus Chip S}

/-- What a Begin spells. -/
theorem encoded_begin_of_bytes {request : Request} {bytecodeLen : UInt16} {mapCount : UInt8}
    {crc : UInt32} (h : request.bytes =
      0 :: (toLe 2 bytecodeLen.toNat ++ [mapCount] ++ toLe 4 crc.toNat)) :
    encodedOperation request = some (.begin bytecodeLen mapCount crc) := by
  have hlen : u16FromLeBytes (UInt8.ofNat bytecodeLen.toNat)
      (UInt8.ofNat (bytecodeLen.toNat / 256)) = bytecodeLen := by
    apply u16_toLe_inj
    rw [toLe_u16FromLeBytes]
    rfl
  have hcrc : u32FromLeBytes (UInt8.ofNat crc.toNat) (UInt8.ofNat (crc.toNat / 256))
      (UInt8.ofNat (crc.toNat / 256 / 256)) (UInt8.ofNat (crc.toNat / 256 / 256 / 256)) = crc := by
    apply u32_toLe_inj
    rw [toLe_u32FromLeBytes]
    rfl
  simp only [encodedOperation, h, toLe, List.cons_append, List.nil_append, if_true, hlen, hcrc]

/-- What the host has been told, read off the loader. -/
theorem command_of_answer {l' : BpfLoader} {response : List UInt8} {expected : UInt8}
    (hanswer : ∃ sequence, (l'.queryReply sequence).bytes <+: response)
    (hexpected : response[1]? = some expected) :
    ∃ sequence, (l'.queryReply sequence).command = expected ∧
      (l'.queryReply sequence).bytes <+: response := by
  obtain ⟨sequence, rest, rfl⟩ := hanswer
  refine ⟨sequence, ?_, rest, rfl⟩
  simpa [Frame.bytes] using hexpected

/-- Begin. -/
theorem submit_begin (hidle : Idle port bus)
    (hreset : bus.reach.firmware.resetPending = false) (hsane : bus.reach.firmware.loader.Sane)
    {bytecode : List UInt8} (hlength : bytecode.length < 2 ^ 16) {sequence next : Nat}
    {response : List UInt8} {port' : P}
    (h : Returns (submitLoadStep sequence (0 :: (toLe 2 bytecode.length ++ [1] ++
      toLe 4 (crc32IsoHdlc (bytecode ++ mapDescriptor)).toNat)) statusNoProgram) port
        (response, next) port') :
    ∃ (hgood : GoodBytecode bytecode) (after : Bus Chip S), Idle port' after ∧
      after.firmware.Receives (imageOf bytecode hgood) bus.reach.firmware.flash.contents [] := by
  obtain ⟨after, l', flash', hafter, hrests, hsane', hexpected, hsubmitted⟩ :=
    submitLoadStep_submitted hidle hreset hsane (by simp) h
  obtain ⟨sequence', hanswer, -⟩ := command_of_answer hsubmitted.answer hexpected
  obtain ⟨request, operation, ops, hbytes, hencoded, haccepts, hexecuted, hissued⟩ :=
    hsubmitted.executed
  have hlen : (UInt16.ofNat bytecode.length).toNat = bytecode.length :=
    UInt16.toNat_ofNat_of_lt' hlength
  rw [encoded_begin_of_bytes (hbytes.trans (by rw [hlen])), Option.some.injEq] at hencoded
  subst hencoded
  obtain ⟨n, -, hbounds⟩ := haccepts
  have hgood := goodBytecode_of_bounds hlength (goodBounds_of_not_bad hbounds)
  obtain ⟨rfl, hstored⟩ := @BpfLoader.Executed.begun (imageOf bytecode hgood) _ _ _ _ hexecuted
    hsubmitted.pending (BpfLoader.query_of_noProgram hanswer)
  refine ⟨hgood, after, hafter, hrests.reset, hrests.loader ▸ hsane', hrests.loader, ?_⟩
  rw [hrests.flash, hissued.contents, hstored]

omit [LawfulI2cSlave S] [I2cMaster (Bus Chip S)] [LawfulI2cBus Chip S] in
/-- Nothing of it is lost before the next transaction. -/
theorem reach_receives {image : LoadableImage} {c : Contents} {received : List UInt8}
    (h : bus.firmware.Receives image c received) :
    bus.reach.firmware.Receives image c received := by
  have hrests : bus.firmware.Rests (image.receiving received) bus.firmware.flash :=
    ⟨h.reset, rfl, h.loader, rfl⟩
  obtain ⟨hreset, -, hloader, hflash⟩ := (Firmware.steady_rests _ _).reach hrests
  exact ⟨hreset, hloader.trans h.loader.symm ▸ h.sane, hloader, hflash ▸ h.contents⟩

/-- One Data. -/
theorem submit_data (hidle : Idle port bus) {image : LoadableImage} {c : Contents}
    {received fragment : List UInt8}
    (hreceives : bus.firmware.Receives image c received)
    (hfragment : (2 ≤ fragment.length ∧ fragment.length ≤ 6) ∧ fragment.length % 2 = 0)
    (hoffset : received.length < 2 ^ 16) {sequence next : Nat}
    {response : List UInt8} {port' : P}
    (h : Returns (submitLoadStep sequence (1 :: (toLe 2 received.length ++ fragment))
      statusNoProgram) port (response, next) port') :
    ∃ after : Bus Chip S, Idle port' after ∧
      after.firmware.Receives image c (received ++ fragment) := by
  have hreached := reach_receives hreceives
  have hpayload : (1 :: (toLe 2 received.length ++ fragment)).length ≤ 10 := by
    simp
    omega
  obtain ⟨after, l', flash', hafter, hrests, hsane, hexpected, hsubmitted⟩ :=
    submitLoadStep_submitted hidle hreached.reset hreached.sane hpayload h
  obtain ⟨sequence', hanswer, -⟩ := command_of_answer hsubmitted.answer hexpected
  obtain ⟨request, operation, ops, hbytes, hencoded, haccepts, hexecuted, hissued⟩ :=
    hsubmitted.executed
  rw [hreached.loader, hreached.contents] at hexecuted
  have hshort : fragment.length ≤ 12 := Nat.le_trans hfragment.1.2 (by decide)
  rw [encoded_dataPayload hoffset ⟨⟨hfragment.1.1, hshort⟩, hfragment.2⟩ hbytes,
    Option.some.injEq] at hencoded
  subst hencoded
  obtain ⟨rfl, hstored⟩ :=
    hexecuted.extended hshort hoffset (BpfLoader.query_of_noProgram hanswer)
  refine ⟨after, hafter, hrests.reset, hrests.loader ▸ hsane, hrests.loader, ?_⟩
  rw [hrests.flash, hissued.contents, hreached.contents, hstored]

/-- Every fragment of an image, from `start` on. -/
theorem loadFragments_received {image : LoadableImage} (heven : image.bytes.length % 2 = 0)
    {c : Contents} {count start : Nat} (hcount : count = (image.bytes.length - start + 5) / 6)
    (hstart : start % 2 = 0) (hidle : Idle port bus)
    (hreceives : bus.firmware.Receives image c (image.bytes.take start)) {sequence next : Nat}
    {port' : P}
    (h : Returns (loadFragments image.bytes (List.range' start count 6) sequence) port next
      port') :
    ∃ after : Bus Chip S, Idle port' after ∧ after.firmware.Receives image c image.bytes := by
  induction count generalizing port bus start sequence with
  | zero =>
      have hall : image.bytes.take start = image.bytes := List.take_of_length_le (by omega)
      rw [hall] at hreceives
      obtain ⟨-, rfl⟩ := returns_pure.mp h
      exact ⟨bus, hidle, hreceives⟩
  | succ count ih =>
      have hbound := image.length_lt
      have hstarted : start < image.bytes.length := by omega
      have hreceived : (image.bytes.take start).length = start := by
        rw [List.length_take]
        omega
      have hfragment : ((image.bytes.drop start).take 6).length =
          min 6 (image.bytes.length - start) := by
        rw [List.length_take, List.length_drop]
      have hnext : image.bytes.take start ++ (image.bytes.drop start).take 6 =
          image.bytes.take (start + 6) := List.take_add.symm
      rw [List.range'_succ, loadFragments, returns_bind] at h
      obtain ⟨position, _, hposition, h⟩ := h
      obtain ⟨-, rfl, rfl⟩ := returns_pack.mp hposition
      simp only [returns_bind, Prod.exists] at h
      obtain ⟨response, sequence', port₁, hsubmit, h⟩ := h
      nth_rewrite 1 [← hreceived] at hsubmit
      obtain ⟨after, hafter, hextended⟩ := submit_data hidle hreceives
        (by rw [hfragment]; omega) (by rw [hreceived]; omega) hsubmit
      rw [hnext] at hextended
      exact ih (by omega) (by omega) hafter hextended h

/-- An answer of four bytes is a CRC. -/
theorem query_of_length {l' : BpfLoader} {response : List UInt8}
    (hanswer : ∃ sequence, (l'.queryReply sequence).bytes <+: response)
    (hlength : response[2]? = some 4) : ∃ crc, l'.query = .ok crc := by
  obtain ⟨sequence, rest, rfl⟩ := hanswer
  cases hquery : l'.query with
  | ok crc => exact ⟨crc, rfl⟩
  | error status =>
      rw [BpfLoader.queryReply_error hquery] at hlength
      simp [Frame.bytes, statusFrame] at hlength

/-- Finalize. -/
theorem submit_finalize (hidle : Idle port bus) {image : LoadableImage} {c : Contents}
    (hreceives : bus.firmware.Receives image c image.bytes) {sequence next : Nat}
    {response : List UInt8} {port' : P}
    (h : Returns (submitLoadStep sequence [2] statusOk) port (response, next) port')
    (hlength : response[2]? = some 4) :
    ∃ after : Bus Chip S, Idle port' after ∧ after.firmware.resetPending = false ∧
      Device.HoldsImage image after.firmware.device := by
  have hreached := reach_receives hreceives
  obtain ⟨after, l', flash', hafter, hrests, -, -, hsubmitted⟩ :=
    submitLoadStep_submitted hidle hreached.reset hreached.sane (by simp) h
  obtain ⟨request, operation, ops, hbytes, hencoded, haccepts, hexecuted, hissued⟩ :=
    hsubmitted.executed
  rw [hreached.loader, hreached.contents] at hexecuted
  rw [encoded_finalizePayload hbytes, Option.some.injEq] at hencoded
  subst hencoded
  obtain ⟨crc, hquery⟩ := query_of_length hsubmitted.answer hlength
  obtain ⟨rfl, hstored⟩ := hexecuted.finished hquery
  have hcontents : after.firmware.device.flash.contents =
      apply (image.stored c image.bytes) (.program markerAddress [0, 0], .done) := by
    show after.firmware.flash.contents = _
    rw [hrests.flash, hissued.contents, hreached.contents, hstored]
  exact ⟨after, hafter, hrests.reset, Device.holds_of_transfer hrests.loader hcontents⟩

/-- A transfer that returns, started while no reset is awaited. -/
theorem loadImage_holds (hreset : bus.reach.firmware.resetPending = false)
    (hsane : bus.reach.firmware.loader.Sane) (hidle : Idle port bus) {bytecode : List UInt8}
    {sequence next : Nat} {port' : P}
    (h : Returns (loadImage sequence bytecode) port next port') :
    ∃ (hgood : GoodBytecode bytecode) (after : Bus Chip S), Idle port' after ∧
      after.firmware.resetPending = false ∧
      Device.HoldsImage (imageOf bytecode hgood) after.firmware.device := by
  simp only [loadImage, returns_bind, Prod.exists] at h
  obtain ⟨length, _, hlength, begun, sequence₁, port₁, hbegin, sequence₂, port₂, hdata, response,
    sequence₃, port₃, hfinalize, h⟩ := h
  obtain ⟨hshort, rfl, rfl⟩ := returns_pack.mp hlength
  obtain ⟨hgood, bus₁, hidle₁, hbegun⟩ := submit_begin hidle hreset hsane hshort hbegin
  have heven : (imageOf bytecode hgood).bytes.length % 2 = 0 := by
    have haligned := hgood.aligned
    simp [imageOf]
    omega
  have hstart : 0 % 2 = 0 := rfl
  obtain ⟨bus₂, hidle₂, hreceived⟩ := loadFragments_received heven rfl hstart hidle₁ hbegun hdata
  simp only [throw_bind, returns_raise, not_or, not_not] at h
  obtain ⟨⟨-, hfour⟩, -, -, h⟩ := h
  obtain ⟨-, rfl⟩ := returns_pure.mp h
  obtain ⟨after, hafter, hdone⟩ := submit_finalize hidle₂ hreceived hfinalize hfour
  exact ⟨hgood, after, hafter, hdone⟩

end Host

end OptiBridge
