import OptiBridge.Captures
import OptiBridge.Host
import OptiBridge.LoaderSteps

/-!
# OptiBridge.HostPort

What a script's call of the bridge comes to.  While the bridge is between frames
and the host has read everything it sent, a call is one I2C transaction: it
returns exactly when the transaction succeeds and its answer comes in time, with
the bytes that were read, and then leaves the port as it found it.

An idle port is one whose bridge expects a new frame, and that is said by what
it does with more bytes and not by its buffer: garbage that the parser will skip
is harmless.

* `Idle.write`, a frame written to an idle port is served at once;
* `exchange_write` and `exchange_read`, what the bridge does with the two
  requests a host makes of it;
* `returns_targetWrite` and `returns_targetRead`, the two calls, as one
  transaction each.
-/

namespace OptiBridge

open Bytes Script

/-! ## an idle port -/

/- Writing a frame to an idle port has the bridge serve it at once; what it sent
is there, whole or not according to whether the answer came in time. -/

namespace Host

/-- Nothing is on its way between host and bridge. -/
structure Idle {P I : Type} [SerialPort P I] (port : P) (i2c : I) : Prop where
  unread : SerialPort.unread port = []
  session : ∃ s, SerialPort.bridge port = some s ∧ s.i2c = i2c ∧ PartialFrame s.parser.buffered ∧
    ∀ rest, framesOf (s.parser.buffered ++ rest) = framesOf rest

section port

variable {P I : Type} [SerialPort P I] [I2cMaster I] [AnswerTime I] [LawfulSerialPort P I]

/-- A frame has been written to an idle port and served.  What the bridge sent
waits there, whole if it came in time; once that has been read the port is idle
again. -/
structure Asked (port : P) (i2c : I) (sent : List UInt8) (i2c' : I) : Prop where
  unread : SerialPort.unread port = sent
  inTime : AnswerTime.inTime i2c = true → SerialPort.arrived port = sent.length
  late : AnswerTime.inTime i2c = false → sent ≠ [] → SerialPort.arrived port < sent.length
  idle : ∀ port' : P, SerialPort.bridge port' = SerialPort.bridge port →
    SerialPort.unread port' = [] → Idle port' i2c'

/-- An idle port serves the frame that is written to it, that frame only, and is
idle again once the answer has been read. -/
theorem Idle.write {port : P} {i2c : I} (h : Idle port i2c) (f : Frame) :
    Asked (SerialPort.write port f.bytes) i2c ((exchange i2c f.request).1.flatMap Action.sent)
      (exchange i2c f.request).2 := by
  obtain ⟨hunread, s, hbridge, rfl, hheld, hbetween⟩ := h
  obtain ⟨s', frames, actions, hpush, hserved⟩ := Session.pushBytes_served hheld f.bytes
  have hstream : ∀ rest, f :: framesOf rest = frames ++ framesOf (s'.parser.buffered ++ rest) :=
    fun rest => by rw [← hserved.stream, hbetween, framesOf_frame]
  have hframes : frames = [f] := by
    have hnil := hstream []
    rw [List.append_nil, framesOf_partialFrame hserved.held, framesOf_nil, List.append_nil] at hnil
    exact hnil.symm
  subst hframes
  have hi2c : s'.i2c = (exchange s.i2c f.request).2 := hserved.i2c
  have hactions : actions = (exchange s.i2c f.request).1 := by
    simpa [exchanges] using hserved.actions
  have hfits : f.bytes.length ≤ maxFrame := by
    rw [Frame.length_bytes]
    exact Nat.add_le_add_left f.payload_le headerLen
  obtain ⟨hserving, hsent⟩ := LawfulSerialPort.write_delivers hbridge hunread hfits hpush
  rw [hactions] at hsent
  have hinTime := LawfulSerialPort.write_inTime f.bytes hbridge hunread
  have hlate := LawfulSerialPort.write_late f.bytes hbridge hunread
  rw [hsent] at hinTime hlate
  refine ⟨hsent, hinTime, hlate, fun port' hbridge' hunread' => ?_⟩
  refine ⟨hunread', s', hbridge'.trans hserving, hi2c, hserved.held, fun rest => ?_⟩
  exact ((List.cons.inj (hstream rest)).2).symm

end port

/-- A port that has just been opened. -/
def opened {I : Type} (i2c : I) : Port I :=
  ⟨some ⟨i2c, .new, Vector.replicate _ 0, Vector.replicate _ 0⟩, [], 0⟩

/-- A port that has just been opened is idle. -/
theorem idle_opened {I : Type} [I2cMaster I] [AnswerTime I] (i2c : I) :
    Idle (opened i2c) i2c :=
  ⟨rfl, _, rfl, rfl, .empty, fun _ => rfl⟩

end Host

/-! ## the requests a host makes of the bridge -/

/- The host asks for a write or for a read, and the bridge does what it is
asked. -/

section exchange

variable {I : Type} [I2cMaster I] (i2c : I)

/-- A payload byte of a request frame, in the request it parses to. -/
theorem payload_request {f : Frame} {i : Nat} {b : UInt8} (h : f.payload[i]? = some b)
    (hi : i < maxPayload) : f.request.payload[i] = b :=
  f.request.payload_eq_of_bytes (by rw [bytes_request, h]) hi

/-- The payload length of that request. -/
theorem payloadLen_request (f : Frame) : f.request.payloadLen.toNat = f.payload.length := by
  rw [← Request.length_bytes, bytes_request]

variable (sequence : UInt8)

/-- A write to the target. -/
theorem exchange_write {bytes : List UInt8}
    (h : (Host.targetAddress :: bytes).length ≤ maxPayload) :
    let written := I2cMaster.write i2c Host.targetAddress bytes
    exchange i2c (⟨cmdI2cWrite, sequence, 0, Host.targetAddress :: bytes, h⟩ : Frame).request =
      ([.i2cWrite Host.targetAddress bytes,
        .writePacket (statusFrame (resultStatus written.1) sequence).bytes], written.2) := by
  intro written
  generalize hf : (⟨cmdI2cWrite, sequence, 0, Host.targetAddress :: bytes, h⟩ : Frame) = f
  have hpayload : f.payload = Host.targetAddress :: bytes := by rw [← hf]
  have hcommand : f.request.command = cmdI2cWrite := by rw [← hf]; rfl
  have hflags : f.request.flags = 0 := by rw [← hf]; rfl
  have hsequence : f.request.sequence = sequence := by rw [← hf]; rfl
  have haddress : f.request.payload[0] = Host.targetAddress :=
    payload_request (by rw [hpayload]; rfl) (by decide)
  have hlen := payloadLen_request f
  rw [hpayload] at hlen
  have hvalid : validateI2cRequest f.request = .ok () := by
    have hfits := f.request.payloadLen_le
    have hmask : Host.targetAddress &&& 0x80 = 0 := by decide
    simp only [validateI2cRequest, hflags, hcommand, haddress, hmask]
    grind
  simp only [exchange, hvalid, hcommand, if_true, bytes_request, hpayload, hsequence, haddress]
  rfl

/-- A read from the target. -/
theorem exchange_read {count : Nat} (hcount : count ≤ maxPayload)
    (h : [Host.targetAddress, UInt8.ofNat count].length ≤ maxPayload) :
    let result := I2cMaster.read i2c Host.targetAddress count
    exchange i2c (⟨cmdI2cRead, sequence, 0, [Host.targetAddress, UInt8.ofNat count], h⟩ :
        Frame).request =
      ([.i2cRead Host.targetAddress count,
        .writePacket (readFrame sequence result.1 result.2.1).bytes], result.2.2) := by
  intro result
  generalize hf : (⟨cmdI2cRead, sequence, 0, [Host.targetAddress, UInt8.ofNat count], h⟩ :
    Frame) = f
  have hpayload : f.payload = [Host.targetAddress, UInt8.ofNat count] := by rw [← hf]
  have hcommand : f.request.command = cmdI2cRead := by rw [← hf]; rfl
  have hflags : f.request.flags = 0 := by rw [← hf]; rfl
  have hsequence : f.request.sequence = sequence := by rw [← hf]; rfl
  have haddress : f.request.payload[0] = Host.targetAddress :=
    payload_request (by rw [hpayload]; rfl) (by decide)
  have hasked : f.request.payload[1].toNat = count := by
    rw [payload_request (b := UInt8.ofNat count) (by rw [hpayload]; rfl) (by decide)]
    exact UInt8.toNat_ofNat_of_lt' (Nat.lt_of_le_of_lt hcount (by decide))
  have hlen := payloadLen_request f
  rw [hpayload] at hlen
  have hne : ¬ cmdI2cRead = cmdI2cWrite := by decide
  have hvalid : validateI2cRequest f.request = .ok () := by
    have hmask : Host.targetAddress &&& 0x80 = 0 := by decide
    simp only [validateI2cRequest, hflags, hcommand, haddress, hasked, hmask, hlen]
    grind
  simp only [exchange, hvalid, hcommand, if_neg hne, hsequence, haddress]
  generalize f.request.payload[1].toNat = asked at hasked
  subst hasked
  rfl

end exchange

/-! ## calls -/

/- Every call as a condition on what the port holds: a script step returns if
and only if the condition is met, so a script that returns says something about
all its transactions. -/

namespace Host

section values

variable {P : Type} {port port' : P}

/-- `bytes` raises on numbers that are no bytes. -/
theorem returns_bytesOf {values : List Nat} {bytes : List UInt8} :
    Returns (bytesOf values : HostScript P _) port bytes port' ↔
      (∀ value ∈ values, value < 256) ∧ bytes = values.map UInt8.ofNat ∧ port' = port := by
  simp [bytesOf]

/-- `to_bytes` raises on numbers that are too wide. -/
theorem returns_pack {width value : Nat} {bytes : List UInt8} :
    Returns (pack width value : HostScript P _) port bytes port' ↔
      value < 256 ^ width ∧ bytes = toLe width value ∧ port' = port := by
  simp [pack]

/-- A payload that fits makes a frame. -/
theorem returns_frame {command : UInt8} {sequence : Nat} {payload bytes : List UInt8}
    (h : payload.length ≤ maxPayload) :
    Returns (frame command sequence payload : HostScript P _) port bytes port' ↔
      sequence < 256 ∧
        bytes = (⟨command, UInt8.ofNat sequence, 0, payload, h⟩ : Frame).bytes ∧ port' = port := by
  have hlen : payload.length < 256 := Nat.lt_of_le_of_lt h (by decide)
  have hcommand : command.toNat < 256 := command.toNat_lt
  simp only [frame, returns_bind, returns_bytesOf, returns_pure, Frame.bytes]
  constructor
  · rintro ⟨header, _, ⟨hbounds, rfl, rfl⟩, rfl, rfl⟩
    refine ⟨hbounds sequence (by simp), ?_, rfl⟩
    simp
  · rintro ⟨hsequence, rfl, rfl⟩
    have hmagic : magic.toNat < 256 := magic.toNat_lt
    exact ⟨_, _, ⟨by simp [hlen, hcommand, hsequence, hmagic], rfl, rfl⟩, by simp, rfl⟩

end values

section calls

variable {P I : Type} [SerialPort P I] [I2cMaster I] [AnswerTime I] [LawfulSerialPort P I]
  {port port' : P}

/-- A read of the port takes what has arrived, as far as it asks. -/
theorem returns_readPort {count : Nat} {bytes : List UInt8} :
    Returns (readPort count) port bytes port' ↔
      bytes = (SerialPort.unread port).take (min count (SerialPort.arrived port)) ∧
        port' = (SerialPort.read port count).2 := by
  have htakes := LawfulSerialPort.read_takes (I := I) port count
  rw [readPort, returns_modifyGet, ← htakes, Prod.ext_iff]
  exact and_congr eq_comm eq_comm

/-- Of an answer that comes late the header is short, or the payload is. -/
theorem not_returns_readFrame {reply : Frame} (hunread : SerialPort.unread port = reply.bytes)
    (hlate : SerialPort.arrived port < reply.bytes.length) {bytes : List UInt8} :
    ¬ Returns (readFrame : HostScript P _) port bytes port' := by
  intro h
  rw [readFrame, returns_bind] at h
  obtain ⟨header, port₁, hread, h⟩ := h
  obtain ⟨hheader, rfl⟩ := returns_readPort.mp hread
  rw [hunread] at hheader
  have hlen : (UInt8.ofNat reply.payload.length).toNat = reply.payload.length :=
    UInt8.toNat_ofNat_of_lt' (Nat.lt_of_le_of_lt reply.payload_le (by decide))
  by_cases hfive : 5 ≤ SerialPort.arrived port
  · -- the header is whole, so the payload is not
    obtain ⟨-, hrest, hleft⟩ := LawfulSerialPort.read_leaves hfive
    rw [Nat.min_eq_left hfive] at hheader
    rw [hunread] at hrest
    simp only [Frame.bytes, List.take_succ_cons, List.take_zero, List.drop_succ_cons,
      List.drop_zero] at hheader hrest
    subst hheader
    simp only [returns_bind, returns_readPort] at h
    obtain ⟨payload, port₂, ⟨hpayload, -⟩, h⟩ := h
    rw [hrest, hleft, hlen] at hpayload
    simp only [throw_bind, returns_raise, not_not] at h
    rw [Frame.length_bytes] at hlate
    have hshort : payload.length < reply.payload.length := by
      rw [hpayload, List.length_take]
      show min (min _ _) _ < _
      simp only [headerLen] at hlate
      omega
    omega
  · have hshort : header.length < 5 := by
      rw [hheader, List.length_take]
      omega
    match header, hshort with
    | [], _ | [_], _ | [_, _], _ | [_, _, _], _ | [_, _, _, _], _ => exact returns_throw h

/-- An answer that has arrived is read whole. -/
theorem returns_readFrame {reply : Frame} (hunread : SerialPort.unread port = reply.bytes)
    (harrived : SerialPort.arrived port = reply.bytes.length) :
    ∃ after : P, SerialPort.bridge after = SerialPort.bridge port ∧
      SerialPort.unread after = [] ∧ ∀ bytes port',
        Returns (readFrame : HostScript P _) port bytes port' ↔
          bytes = reply.bytes ∧ port' = after := by
  have hlen : (UInt8.ofNat reply.payload.length).toNat = reply.payload.length :=
    UInt8.toNat_ofNat_of_lt' (Nat.lt_of_le_of_lt reply.payload_le (by decide))
  have hlength : SerialPort.arrived port = 5 + reply.payload.length :=
    harrived.trans reply.length_bytes
  have hfive : 5 ≤ SerialPort.arrived port := by omega
  have hheader : (SerialPort.unread port).take (min 5 (SerialPort.arrived port)) =
      [magic, reply.command, UInt8.ofNat reply.payload.length, reply.sequence, reply.flags] := by
    rw [Nat.min_eq_left hfive, hunread]
    simp [Frame.bytes]
  obtain ⟨hbridge, hrest, hleft⟩ := LawfulSerialPort.read_leaves hfive
  have hpayload : SerialPort.unread (SerialPort.read port 5).2 = reply.payload := by
    rw [hrest, hunread]
    simp [Frame.bytes]
  have hall : SerialPort.arrived (SerialPort.read port 5).2 = reply.payload.length := by
    omega
  obtain ⟨hbridge', hrest', -⟩ := LawfulSerialPort.read_leaves hall.ge
  have hempty := hrest'.trans (by rw [hpayload, List.drop_length])
  refine ⟨_, hbridge'.trans hbridge, hempty, fun bytes port' => ?_⟩
  simp only [readFrame, returns_bind, returns_readPort, hheader]
  constructor
  · rintro ⟨_, _, ⟨rfl, rfl⟩, h⟩
    simp only [returns_bind, returns_readPort, hpayload, hall, hlen, min_self,
      List.take_length] at h
    obtain ⟨_, _, ⟨rfl, rfl⟩, h⟩ := h
    simpa [hlen, Frame.bytes] using h
  · rintro ⟨rfl, rfl⟩
    refine ⟨_, _, ⟨rfl, rfl⟩, ?_⟩
    simp only [returns_bind, returns_readPort, hpayload, hall, hlen, min_self, List.take_length]
    refine ⟨_, _, ⟨rfl, rfl⟩, ?_⟩
    simp [Frame.bytes]

/-- A call of the bridge comes to what the exchange comes to, in time. -/
theorem returns_bridge {i2c : I} (hidle : Idle port i2c) {command : UInt8} {payload : List UInt8}
    (h : payload.length ≤ maxPayload) (sequence : Nat) (operations : List Action) (reply : Frame)
    {i2c' : I} (hoperations : operations.flatMap Action.sent = [])
    (hreply : reply.sequence = UInt8.ofNat sequence)
    (hexchange : exchange i2c (⟨command, UInt8.ofNat sequence, 0, payload, h⟩ : Frame).request =
      (operations ++ [.writePacket reply.bytes], i2c')) :
    ∃ idle : P, (AnswerTime.inTime i2c = true → Idle idle i2c') ∧ ∀ response port',
      Returns (bridge command sequence payload) port response port' ↔
        sequence < 256 ∧ AnswerTime.inTime i2c = true ∧ reply.command = statusOk ∧
          response = reply.payload ∧ port' = idle := by
  have hasked := hidle.write ⟨command, UInt8.ofNat sequence, 0, payload, h⟩
  rw [hexchange] at hasked
  simp only [List.flatMap_append, hoperations, List.flatMap_singleton, Action.sent,
    List.nil_append] at hasked
  simp only [bridge, returns_bind, returns_frame h, returns_modify]
  cases htime : AnswerTime.inTime i2c with
  | false =>
      have hlate := hasked.late htime (by simp [Frame.bytes])
      refine ⟨port, by simp, fun response port' => ?_⟩
      simp only [Bool.false_eq_true, false_and, and_false, iff_false]
      rintro ⟨_, _, ⟨-, rfl, rfl⟩, _, _, rfl, _, _, hread, -⟩
      exact not_returns_readFrame hasked.unread hlate hread
  | true =>
      obtain ⟨after, hsame, hdone, hread⟩ := returns_readFrame hasked.unread (hasked.inTime htime)
      refine ⟨after, fun _ => hasked.idle after hsame hdone, fun response port' => ?_⟩
      constructor
      · rintro ⟨_, _, ⟨hsequence, rfl, rfl⟩, _, _, rfl, _, _, hframe, hrest⟩
        obtain ⟨rfl, rfl⟩ := (hread _ _).mp hframe
        simp [Frame.bytes] at hrest
        exact ⟨hsequence, rfl, hrest.1.1, hrest.2⟩
      · rintro ⟨hsequence, -, hok, rfl, rfl⟩
        have hframe := (hread reply.bytes _).mpr ⟨rfl, rfl⟩
        refine ⟨_, _, ⟨hsequence, rfl, rfl⟩, ⟨⟩, _, rfl, _, _, hframe, ?_⟩
        simp [Frame.bytes, hok, hreply, hsequence]

theorem resultStatus_eq_ok {result : Except Unit Unit} :
    resultStatus result = statusOk ↔ result = .ok () := by
  cases result with
  | ok => exact ⟨fun _ => rfl, fun _ => rfl⟩
  | error =>
      have hne : statusBadCommand ≠ statusOk := by decide
      simp [resultStatus, hne]

/-- A write returns when the transaction succeeds and is answered in time. -/
theorem returns_targetWrite {i2c : I} (hidle : Idle port i2c) {bytes : List UInt8}
    (h : (targetAddress :: bytes).length ≤ maxPayload) (sequence : Nat) :
    let written := I2cMaster.write i2c targetAddress bytes
    ∃ idle : P, (AnswerTime.inTime i2c = true → Idle idle written.2) ∧ ∀ port',
      Returns (targetWrite sequence bytes) port () port' ↔
        sequence < 256 ∧ AnswerTime.inTime i2c = true ∧ written.1 = .ok () ∧ port' = idle := by
  intro written
  obtain ⟨idle, hafter, hbridge⟩ := returns_bridge hidle h sequence
    [.i2cWrite targetAddress bytes]
    (statusFrame (resultStatus written.1) (UInt8.ofNat sequence)) rfl rfl (exchange_write i2c _ h)
  refine ⟨idle, hafter, fun port' => ?_⟩
  simp only [targetWrite, returns_bind, hbridge, returns_pure]
  constructor
  · rintro ⟨_, _, ⟨hsequence, htime, hok, -, rfl⟩, -, rfl⟩
    exact ⟨hsequence, htime, resultStatus_eq_ok.mp hok, rfl⟩
  · rintro ⟨hsequence, htime, hok, rfl⟩
    exact ⟨_, _, ⟨hsequence, htime, resultStatus_eq_ok.mpr hok, rfl, rfl⟩, trivial, rfl⟩

/-- A read returns when the transaction succeeds and is answered in time, with the
bytes read. -/
theorem returns_targetRead {i2c : I} (hidle : Idle port i2c) {count : Nat}
    (hcount : count ≤ maxPayload) (sequence : Nat) :
    let result := I2cMaster.read i2c targetAddress count
    ∃ idle : P, (AnswerTime.inTime i2c = true → Idle idle result.2.2) ∧ ∀ response port',
      Returns (bridge cmdI2cRead sequence [targetAddress, UInt8.ofNat count]) port response port' ↔
        sequence < 256 ∧ AnswerTime.inTime i2c = true ∧ result.1 = .ok () ∧
          response = result.2.1.toList ∧ port' = idle := by
  intro result
  have hpayload : [targetAddress, UInt8.ofNat count].length ≤ maxPayload := by
    simp [maxPayload]
  have hexchange := exchange_read i2c (UInt8.ofNat sequence) hcount hpayload
  have hreply : (OptiBridge.readFrame (UInt8.ofNat sequence) result.1 result.2.1).sequence =
      UInt8.ofNat sequence := by
    cases result.1 <;> simp [OptiBridge.readFrame, statusFrame, hcount]
  obtain ⟨idle, hafter, hbridge⟩ := returns_bridge hidle hpayload sequence
    [.i2cRead targetAddress count]
    (OptiBridge.readFrame (UInt8.ofNat sequence) result.1 result.2.1) rfl hreply hexchange
  refine ⟨idle, hafter, fun response port' => ?_⟩
  rw [hbridge]
  cases result.1 with
  | ok => simp [OptiBridge.readFrame, hcount]
  | error =>
      have hne : statusBadCommand ≠ statusOk := by decide
      simp [OptiBridge.readFrame, statusFrame, hne]

end calls

end Host

end OptiBridge
