import OptiBridge.Answers
import OptiBridge.HostPort
import OptiBridge.Target

/-!
# OptiBridge.Requests

A request of a script, end to end: through the port, the bridge and the bus to
the firmware and back.  What the host takes for the answer is the packet the
firmware queued for that very request, whatever the target does in between.

A request is two transactions: the first hands it to the firmware, whose answer
is queued, and the second reads the queue.  What comes between them is the
background of the second, in which a reboot would drop the queue; that is the
one thing the answer depends on besides the two outcomes.

* `captured_receive`, the first transaction leaves the answer queued;
* `Captured.heard`, the second gets it, or something that no script takes for
  an answer;
* `returns_targetRequest`, the script's call, in terms of both;
* `target_request_exact`, exactly when it returns, and with what.
-/

namespace OptiBridge

open Bytes Script

/-! ## the target on its own -/

/- Up to a transaction the firmware has run through its background, and the
queue is what it was, unless there was a reboot. -/

namespace Bus

variable {F S : Type} [BpfFlash F] [I2cSlave S]

/-- The firmware events of the turn before the next transaction. -/
def passing (bus : Bus F S) (k : Nat) : List FirmwareEvent :=
  (bus.turns k).before.map Background.event

/-- No reboot among them. -/
abbrev Unbroken (f : Firmware F) (es : List FirmwareEvent) : Prop :=
  Machine.Along Firmware.step (fun f e => ¬ f.Reboots e) f es

/-- The firmware runs through the background, one event each. -/
theorem firmware_background (bus : Bus F S) (bs : List Background) :
    (Machine.run background bus bs).firmware = bus.firmware.run (bs.map Background.event) := by
  induction bs generalizing bus with
  | nil => rfl
  | cons b bs ih => exact ih (bus.background b)

/-- The slot stays as it is, unless the target reboots. -/
theorem slave_background (bus : Bus F S) (bs : List Background) :
    (Unbroken bus.firmware (bs.map Background.event) ∧
        (Machine.run background bus bs).slave = bus.slave) ∨
      (¬ Unbroken bus.firmware (bs.map Background.event) ∧
        (Machine.run background bus bs).slave = I2cSlave.init) := by
  induction bs generalizing bus with
  | nil => exact .inl ⟨trivial, rfl⟩
  | cons b bs ih =>
      have hrest := ih (bus.background b)
      by_cases hreboots : bus.firmware.Reboots b.event
      · have hslave : (bus.background b).slave = I2cSlave.init := if_pos hreboots
        have hbroken : ¬ Unbroken bus.firmware ((b :: bs).map Background.event) :=
          fun h => h.1 hreboots
        cases hrest with
        | inl h => exact .inr ⟨hbroken, h.2.trans hslave⟩
        | inr h => exact .inr ⟨hbroken, h.2⟩
      · have hslave : (bus.background b).slave = bus.slave := if_neg hreboots
        cases hrest with
        | inl h => exact .inl ⟨⟨hreboots, h.1⟩, h.2.trans hslave⟩
        | inr h => exact .inr ⟨fun hunbroken => h.1 hunbroken.2, h.2⟩

/-- It has, when the transaction reaches it. -/
theorem firmware_reach (bus : Bus F S) :
    bus.reach.firmware = bus.firmware.run (bus.passing 0) :=
  bus.firmware_background _

/-- So a target on some run from a boot is on a longer one then. -/
theorem reach_boot {bus : Bus F S} {flash : F} {now : Nat} {history : History}
    {es : List FirmwareEvent} (h : bus.firmware = (Firmware.boot flash now history).run es) :
    bus.reach.firmware = (Firmware.boot flash now history).run (es ++ bus.passing 0) := by
  rw [firmware_reach, h, Firmware.run, Firmware.run, Firmware.run, Machine.run_append]

end Bus

/-! ## one write and one read -/

/- `Captured` is the state of affairs between the two transactions. -/

namespace Bus

variable {F S : Type} [BpfFlash F] [I2cSlave S]

/-- What the firmware makes of a request written next. -/
def asked (bus : Bus F S) (request : Frame) : Option (List UInt8) × Firmware F :=
  bus.reach.firmware.onI2cPacket request.bytes false (bus.turns 0).invocation

/-- A request that is captured whole is what the firmware is asked. -/
theorem firmware_receive (bus : Bus F S) (request : Frame) :
    (bus.reach.receive request.bytes (bus.turns 0).invocation).firmware =
      (bus.asked request).2 := by
  have hfits : request.bytes.length ≤ maxFrame := by
    rw [Frame.length_bytes]
    exact Nat.add_le_add_left request.payload_le headerLen
  rw [receive, List.take_of_length_le hfits, decide_eq_false (Nat.not_lt.mpr hfits), asked]

/-- The bus once a request has been written and answered. -/
structure Captured (bus after : Bus F S) (request reply : Frame) : Prop where
  firmware : after.firmware = (bus.asked request).2
  slave : after.slave = I2cSlave.queue bus.reach.slave reply.bytes
  turns : after.turns = fun k => bus.turns (k + 1)

/-- A request that is answered leaves its answer queued. -/
theorem captured_receive {bus : Bus F S} {request reply : Frame}
    (hreply : (bus.asked request).1 = some reply.bytes) :
    bus.Captured (bus.reach.receive request.bytes (bus.turns 0).invocation) request reply := by
  have hfits : request.bytes.length ≤ maxFrame := by
    rw [Frame.length_bytes]
    exact Nat.add_le_add_left request.payload_le headerLen
  have hreceived : bus.reach.firmware.onI2cPacket (request.bytes.take maxFrame)
      (maxFrame < request.bytes.length) (bus.turns 0).invocation = bus.asked request := by
    rw [List.take_of_length_le hfits, decide_eq_false (Nat.not_lt.mpr hfits), asked]
  constructor
  · simp only [receive, hreceived]
  · simp only [receive, hreceived, hreply]
  · rfl

variable [LawfulI2cSlave S]

/-- What the host reads next is the answer, or zeros if the target rebooted. -/
theorem Captured.transmitted {bus after : Bus F S} {request reply : Frame}
    (h : bus.Captured after request reply) (count : Nat) :
    (Unbroken (bus.asked request).2 (bus.passing 1) ∧
        (I2cSlave.transmit after.reach.slave count).1.toList.take reply.bytes.length =
          reply.bytes.take count) ∨
      (¬ Unbroken (bus.asked request).2 (bus.passing 1) ∧
        (I2cSlave.transmit after.reach.slave count).1.toList = List.replicate count 0) := by
  have hpassing : (after.turns 0).before.map Background.event = bus.passing 1 := by
    rw [h.turns, passing]
  have hslave := after.slave_background (after.turns 0).before
  rw [hpassing, h.firmware] at hslave
  cases hslave with
  | inl hstay =>
      have hreached : after.reach.slave = I2cSlave.queue bus.reach.slave reply.bytes :=
        hstay.2.trans h.slave
      have hlen : reply.bytes.length ≤ 32 := by
        have hfits : reply.payload.length ≤ 16 := reply.payload_le
        rw [Frame.length_bytes]
        show 5 + reply.payload.length ≤ 32
        omega
      rw [hreached]
      exact .inl ⟨hstay.1, LawfulI2cSlave.transmit_queue _ _ _ hlen⟩
  | inr hreboot =>
      have hreached : after.reach.slave = I2cSlave.init := hreboot.2
      rw [hreached, LawfulI2cSlave.transmit_init]
      exact .inr ⟨hreboot.1, Vector.toList_replicate⟩

/-- A request has been answered and this many bytes of the answer read: the bus
after it, and what the host heard. -/
structure Heard (bus after : Bus F S) (request reply : Frame) (count : Nat)
    (heard : List UInt8) : Prop where
  firmware : after.firmware = (bus.asked request).2.run (bus.passing 1)
  turns : after.turns = fun k => bus.turns (k + 2)
  length : heard.length = count
  answer : Unbroken (bus.asked request).2 (bus.passing 1) →
    heard.take reply.bytes.length = reply.bytes.take count
  filler : ¬ Unbroken (bus.asked request).2 (bus.passing 1) → heard = List.replicate count 0

/-- A request's transactions succeed and are answered in time, with no reboot
between them. -/
structure Replied (bus : Bus F S) (request : Frame) : Prop where
  write : (bus.turns 0).Answered
  read : (bus.turns 1).Answered
  unbroken : Unbroken (bus.asked request).2 (bus.passing 1)

/-- The bus once they have. -/
structure Follows (bus after : Bus F S) (request : Frame) : Prop where
  firmware : after.firmware = (bus.asked request).2.run (bus.passing 1)
  turns : after.turns = fun k => bus.turns (k + 2)

/-- A read then gives the answer, filled up with zeros. -/
theorem Captured.heard {bus after : Bus F S} {request reply : Frame}
    (h : bus.Captured after request reply) (count : Nat) :
    let transmitted := I2cSlave.transmit after.reach.slave count
    bus.Heard { after.reach with slave := transmitted.2 } request reply count
      transmitted.1.toList := by
  intro transmitted
  have hpassing : after.passing 0 = bus.passing 1 := by
    rw [passing, h.turns, passing]
  have hfirmware : after.reach.firmware = (bus.asked request).2.run (bus.passing 1) := by
    rw [firmware_reach, hpassing, h.firmware]
  have hturns : after.reach.turns = fun k => bus.turns (k + 2) := by
    show (fun k => after.turns (k + 1)) = _
    rw [h.turns]
  have hlength : transmitted.1.toList.length = count := transmitted.1.length_toList
  cases h.transmitted count with
  | inl hstay => exact ⟨hfirmware, hturns, hlength, fun _ => hstay.2, fun hno => absurd hstay.1 hno⟩
  | inr hreboot =>
      exact ⟨hfirmware, hturns, hlength, fun hyes => absurd hyes hreboot.1, fun _ => hreboot.2⟩

end Bus

/-! ## answers -/

/- A response is told by its bytes, and bytes filled up with zeros still tell
it. -/

/-- No frame is the beginning of another. -/
theorem Frame.eq_of_begins {f g : Frame} (h : f.bytes <+: g.bytes) : f = g := by
  obtain ⟨rest, hrest⟩ := h
  have hframes := congrArg framesOf hrest
  rw [framesOf_frame, ← List.append_nil g.bytes, framesOf_frame] at hframes
  exact (List.cons.inj hframes).1

/-- A frame is told by its bytes. -/
theorem Frame.bytes_inj {f g : Frame} : f.bytes = g.bytes ↔ f = g :=
  ⟨fun h => eq_of_begins (h ▸ List.prefix_rfl), congrArg _⟩

/-- A frame that agrees with another as far as either goes is that frame. -/
theorem Frame.eq_of_agree {f g : Frame} (h : f.bytes.take g.bytes.length =
    g.bytes.take f.bytes.length) : f = g := by
  cases Nat.le_total f.bytes.length g.bytes.length with
  | inl hle =>
      rw [List.take_of_length_le hle] at h
      exact eq_of_begins (h ▸ List.take_prefix ..)
  | inr hle =>
      rw [List.take_of_length_le hle] at h
      exact (eq_of_begins (h ▸ List.take_prefix ..)).symm

/-- A frame is parsed as the request it spells. -/
theorem parsePacket_frame (f : Frame) : parsePacket f.bytes false = some f.request :=
  parsePacket_eq_some.mpr ⟨[], f, (List.append_nil _).symm, rfl⟩

/-- Every request but a reset is answered with one frame. -/
theorem Firmware.exists_reply {F : Type} (f : Firmware F) (request : Frame)
    (h : request.command ≠ cmdReset) (invocation : Invocation) :
    ∃ reply : Frame, (f.onI2cPacket request.bytes false invocation).1 = some reply.bytes ∧
      f.Answers request reply := by
  have hparse := parsePacket_frame request
  by_cases hbusy : f.Refuses request.request
  · obtain ⟨output, hqueued⟩ := queued_refused hparse hbusy invocation
    exact ⟨_, congrArg Prod.fst hqueued, answers_of_fits (.nil _) fun _ _ => rfl⟩
  · have hstep := answer_step (startExecutor invocation) f.toDispatchState request.request
    generalize hdispatch : dispatchWithBpfAndExecutor request.request (startExecutor invocation)
      f.toDispatchState = answered at hstep
    cases hstep with
    | reset hreset => exact absurd hreset.2.1 h
    | answered hnot hfits =>
        obtain ⟨output, hqueued⟩ := queued_respond hparse hbusy hdispatch hfits.length
        refine ⟨_, congrArg Prod.fst hqueued, answers_of_fits hfits fun hactive hcommand => ?_⟩
        exact absurd ⟨hactive, hcommand⟩ hbusy

/-! ## requests -/

/- `returns_targetRequest` says when a request returns and with what; the
theorem says the same with every constant spelt out. -/

namespace Host

variable {P F S : Type} [BpfFlash F] [I2cSlave S] [LawfulI2cSlave S] [I2cMaster (Bus F S)]
  [LawfulI2cBus F S] [SerialPort P (Bus F S)] [LawfulSerialPort P (Bus F S)] {port : P}
  {bus : Bus F S}

omit [LawfulI2cSlave S] [SerialPort P (Bus F S)] [LawfulSerialPort P (Bus F S)] in
/-- A write that succeeds and is answered in time. -/
theorem answered_of_write {bytes : List UInt8} (htime : AnswerTime.inTime bus = true)
    (h : (I2cMaster.write bus targetAddress bytes).1 = .ok ()) : (bus.turns 0).Answered := by
  refine ⟨Bool.eq_true_of_not_eq_false fun hfails => ?_, htime⟩
  have hfailed := (LawfulI2cBus.write_failed bus bytes hfails).symm.trans h
  contradiction

omit [LawfulI2cSlave S] [SerialPort P (Bus F S)] [LawfulSerialPort P (Bus F S)] in
/-- A read that succeeds and is answered in time. -/
theorem answered_of_read {count : Nat} (htime : AnswerTime.inTime bus = true)
    (h : (I2cMaster.read bus targetAddress count).1 = .ok ()) : (bus.turns 0).Answered := by
  refine ⟨Bool.eq_true_of_not_eq_false fun hfails => ?_, htime⟩
  have hfailed := (LawfulI2cBus.read_failed bus count hfails).symm.trans h
  contradiction

/-- A request written and its answer read, over an idle port. -/
theorem returns_exchange (hidle : Idle port bus) {request reply : Frame}
    (hshort : request.payload.length ≤ 10) (hreply : (bus.asked request).1 = some reply.bytes)
    {count : Nat} (hcount : count ≤ maxPayload) (sequence sequence' : Nat) :
    ∃ (idle : P) (after : Bus F S) (heard : List UInt8), Idle idle after ∧
      ((bus.turns 0).Answered → (bus.turns 1).Answered →
        bus.Heard after request reply count heard) ∧
      ∀ response port', (∃ port₁, Returns (targetWrite sequence request.bytes) port () port₁ ∧
          Returns (bridge cmdI2cRead sequence' [targetAddress, UInt8.ofNat count]) port₁ response
            port') ↔
        sequence < 256 ∧ sequence' < 256 ∧ (bus.turns 0).Answered ∧ (bus.turns 1).Answered ∧
          response = heard ∧ port' = idle := by
  have hfits : (targetAddress :: request.bytes).length ≤ maxPayload := by
    rw [List.length_cons, Frame.length_bytes]
    show 5 + request.payload.length + 1 ≤ 16
    omega
  obtain ⟨written, hwritten, hwrite⟩ := returns_targetWrite hidle hfits sequence
  by_cases hok : (bus.turns 0).Answered
  · have hdone := LawfulI2cBus.write_ok bus request.bytes hok.succeeds
    have hidle' := hwritten hok.inTime
    simp only [hdone] at hidle' hwrite
    have hcaptured := Bus.captured_receive hreply
    have hheard := hcaptured.heard count
    generalize bus.reach.receive request.bytes (bus.turns 0).invocation = captured at *
    have hturn : captured.turns 0 = bus.turns 1 := by rw [hcaptured.turns]
    obtain ⟨idle, hafter, hread⟩ := returns_targetRead hidle' hcount sequence'
    by_cases hok' : (bus.turns 1).Answered
    · have htime : AnswerTime.inTime captured = true :=
        (congrArg Transaction.inTime hturn).trans hok'.inTime
      have hgot := LawfulI2cBus.read_ok captured count (hturn ▸ hok'.succeeds)
      have hidle'' := hafter htime
      simp only [hgot] at hidle'' hread
      refine ⟨idle, _, _, hidle'', fun _ _ => hheard, fun response port' => ?_⟩
      constructor
      · rintro ⟨port₁, hw, hr⟩
        obtain ⟨hsequence, -, -, rfl⟩ := (hwrite port₁).mp hw
        obtain ⟨hsequence', -, -, hresponse, hport⟩ := (hread response port').mp hr
        exact ⟨hsequence, hsequence', hok, hok', hresponse, hport⟩
      · rintro ⟨hsequence, hsequence', -, -, hresponse, hport⟩
        exact ⟨written, (hwrite _).mpr ⟨hsequence, hok.inTime, trivial, rfl⟩,
          (hread _ _).mpr ⟨hsequence', htime, trivial, hresponse, hport⟩⟩
    · refine ⟨port, bus, [], hidle, fun _ h => absurd h hok', fun response port' => ?_⟩
      constructor
      · rintro ⟨port₁, hw, hr⟩
        obtain ⟨-, -, -, rfl⟩ := (hwrite port₁).mp hw
        obtain ⟨-, htime, hgot, -, -⟩ := (hread response port').mp hr
        exact absurd (hturn ▸ answered_of_read htime hgot) hok'
      · rintro ⟨-, -, -, h, -⟩
        exact absurd h hok'
  · refine ⟨port, bus, [], hidle, fun h => absurd h hok, fun response port' => ?_⟩
    constructor
    · rintro ⟨port₁, hw, -⟩
      obtain ⟨-, htime, hdone, -⟩ := (hwrite port₁).mp hw
      exact absurd (answered_of_write htime hdone) hok
    · rintro ⟨-, -, h, -⟩
      exact absurd h hok

omit [BpfFlash F] [I2cSlave S] [LawfulI2cSlave S] in
/-- The checks let exactly the frames of the right length through that answer
this request. -/
theorem returns_checkResponse {sequence count : Nat} (hcount : count ≤ maxPayload)
    {heard : List UInt8} (hheard : heard.length = count) {response : List UInt8} {next : Nat}
    {port' : P} :
    Returns (checkResponse sequence count heard) port (response, next) port' ↔
      (∃ f : Frame, heard = f.bytes ∧ f.flags = 0 ∧ f.sequence.toNat = sequence) ∧
        response = heard ∧ next = (sequence + 2) % 256 ∧ port' = port := by
  subst hheard
  unfold checkResponse
  match heard, hcount with
  | start :: status :: length :: echoed :: flags :: rest, hcount =>
      have hrest : rest.length ≤ maxPayload := by
        simp only [List.length_cons] at hcount
        omega
      have hlen : (UInt8.ofNat rest.length).toNat = rest.length :=
        UInt8.toNat_ofNat_of_lt' (Nat.lt_of_le_of_lt hrest (by decide))
      simp
      constructor
      · rintro ⟨⟨rfl, hsequence, rfl⟩, hlength, ⟨rfl, rfl⟩, rfl⟩
        refine ⟨⟨⟨status, echoed, 0, rest, hrest⟩, ?_, rfl, hsequence⟩, rfl, rfl, rfl⟩
        simp [Frame.bytes, hlength]
      · rintro ⟨⟨f, hbytes, hflags, hsequence⟩, rfl, rfl, rfl⟩
        simp only [Frame.bytes, List.cons.injEq] at hbytes
        obtain ⟨rfl, rfl, rfl, rfl, rfl, rfl⟩ := hbytes
        exact ⟨⟨rfl, hsequence, hflags⟩, hlen.symm, ⟨rfl, rfl⟩, rfl⟩
  | [], _ | [_], _ | [_, _], _ | [_, _, _], _ | [_, _, _, _], _ =>
      simp [Frame.bytes]

omit [BpfFlash F] [I2cSlave S] [LawfulI2cSlave S] in
/-- The frame of a request. -/
def requestFrame (command : UInt8) (sequence : Nat) (payload : List UInt8)
    (h : payload.length ≤ 10) : Frame :=
  ⟨command, UInt8.ofNat sequence, 0, payload, Nat.le_trans h (by decide)⟩

omit [BpfFlash F] [I2cSlave S] [LawfulI2cSlave S] in
/-- What a script takes for an acceptance was answered `STATUS_OK`. -/
theorem command_of_accepted {reply : Frame} {next : Nat}
    (h : reply.bytes.drop 1 = acceptance next) : reply.command = statusOk := by
  simp only [Frame.bytes, acceptance, List.drop_succ_cons, List.drop_zero,
    List.cons.injEq] at h
  exact h.1

omit [BpfFlash F] [I2cSlave S] [LawfulI2cSlave S] in
/-- And it takes that answer for one. -/
theorem accepted_statusOk {sequence : Nat} (h : sequence < 256) :
    (statusFrame statusOk (UInt8.ofNat sequence)).bytes.drop 1 =
      acceptance ((sequence + 2) % 256) := by
  have hback : ((sequence + 2) % 256 + 254) % 256 = sequence := by omega
  simp [Frame.bytes, statusFrame, acceptance, hback]

/-- **Requests.** A request returns exactly when both transactions succeed and are
answered in time, the target does not reboot between them and its answer is as
long as the host expects; then it returns that answer. -/
theorem returns_targetRequest (hidle : Idle port bus) {command : UInt8} {payload : List UInt8}
    (h : payload.length ≤ 10) (sequence : Nat) {count : Nat} (hcount : count ≤ maxPayload)
    {reply : Frame}
    (hreply : (bus.asked (requestFrame command sequence payload h)).1 = some reply.bytes)
    (hanswers : bus.reach.firmware.Answers (requestFrame command sequence payload h) reply) :
    ∃ (idle : P) (after : Bus F S), Idle idle after ∧
      (bus.Replied (requestFrame command sequence payload h) →
        bus.Follows after (requestFrame command sequence payload h)) ∧
      ∀ response next port',
        Returns (targetRequest sequence command payload count) port (response, next) port' ↔
          sequence < 256 ∧ bus.Replied (requestFrame command sequence payload h) ∧
            reply.bytes.length = count ∧ response = reply.bytes ∧ next = (sequence + 2) % 256 ∧
            port' = idle := by
  generalize hrequest : requestFrame command sequence payload h = request at *
  have hbytes : request.payload = payload := by rw [← hrequest]; rfl
  obtain ⟨idle, after, heard, hafter, hheard, hexchange⟩ :=
    returns_exchange hidle (hbytes ▸ h) hreply hcount sequence ((sequence + 1) % 256)
  have hnext : (sequence + 1) % 256 < 256 := Nat.mod_lt _ (by decide)
  have hframe : ∀ bytes port₀, Returns (frame command sequence payload) port bytes port₀ ↔
      sequence < 256 ∧ bytes = request.bytes ∧ port₀ = port := fun bytes port₀ => by
    rw [returns_frame (Nat.le_trans h (by decide)), ← hrequest]
    rfl
  have hasked : ∀ port₀ : P, ∀ bytes port₁,
      Returns (bytesOf [targetAddress.toNat, count]) port₀ bytes port₁ ↔
        bytes = [targetAddress, UInt8.ofNat count] ∧ port₁ = port₀ := fun port₀ bytes port₁ => by
    have haddress : targetAddress.toNat < 256 := targetAddress.toNat_lt
    have hbyte : count < 256 := Nat.lt_of_le_of_lt hcount (by decide)
    simp [returns_bytesOf, haddress, hbyte]
  have hfollows : bus.Replied request → bus.Follows after request := fun hreplied => by
    have hheard := hheard hreplied.write hreplied.read
    exact ⟨hheard.firmware, hheard.turns⟩
  refine ⟨idle, after, hafter, hfollows, fun response next port' => ?_⟩
  simp only [targetRequest, returns_bind, hframe, hasked]
  constructor
  · rintro ⟨_, _, ⟨hsequence, rfl, rfl⟩, _, port₁, hwrite, _, _, ⟨rfl, rfl⟩, heard', port₂, hread,
      hchecked⟩
    -- both calls of the bridge returned, so both transactions succeeded in time
    obtain ⟨-, -, hok, hok', rfl, rfl⟩ := (hexchange heard' port₂).mp ⟨_, hwrite, hread⟩
    have hheard := hheard hok hok'
    obtain ⟨⟨f, hf, -⟩, rfl, rfl, rfl⟩ := (returns_checkResponse hcount hheard.length).mp hchecked
    have hlength : f.bytes.length = count := hf ▸ hheard.length
    -- zeros would not have passed for a frame
    have hunbroken : Bus.Unbroken (bus.asked request).2 (bus.passing 1) := by
      by_contra hbroken
      have hzeros := hf.symm.trans (hheard.filler hbroken)
      rw [← hlength, Frame.length_bytes] at hzeros
      simp [Frame.bytes, headerLen, List.replicate_succ, Nat.add_comm] at hzeros
      exact absurd hzeros.1 (by decide)
    have hanswer := hheard.answer hunbroken
    rw [hf, ← hlength] at hanswer
    obtain rfl := Frame.eq_of_agree hanswer
    exact ⟨hsequence, ⟨hok, hok', hunbroken⟩, hlength, hf, rfl, rfl⟩
  · rintro ⟨hsequence, hreplied, hlength, hresponse, hsucc, hport⟩
    obtain ⟨port₁, hwrite, hread⟩ := (hexchange heard idle).mpr
      ⟨hsequence, hnext, hreplied.write, hreplied.read, rfl, rfl⟩
    have hheard := hheard hreplied.write hreplied.read
    have hsame : heard = reply.bytes := by
      have hanswer := hheard.answer hreplied.unbroken
      rw [hlength, ← hheard.length, List.take_length] at hanswer
      rw [hanswer, hheard.length, ← hlength, List.take_length]
    have hsequence' : reply.sequence.toNat = sequence := by
      rw [hanswers.sequence, ← hrequest]
      exact UInt8.toNat_ofNat_of_lt' hsequence
    have hchecked := (returns_checkResponse hcount hheard.length).mpr
      ⟨⟨reply, hsame, hanswers.flags, hsequence'⟩, hresponse.trans hsame.symm, hsucc, hport⟩
    exact ⟨_, _, ⟨hsequence, rfl, rfl⟩, ⟨⟩, port₁, hwrite, _, _, ⟨rfl, rfl⟩, _, _, hread, hchecked⟩

/-- What a script waits for with more than a header is no refusal: the answer to a
request that is not served has no payload. -/
theorem targetRequest_served (hidle : Idle port bus) {command : UInt8}
    (hcommand : command ≠ cmdReset) {payload : List UInt8} (h : payload.length ≤ 10)
    {sequence count : Nat} (hlong : 5 < count) (hcount : count ≤ maxPayload)
    {response : List UInt8} {next : Nat} {port' : P}
    (hreturns :
      Returns (targetRequest sequence command payload count) port (response, next) port') :
    response[1]? = some statusOk := by
  obtain ⟨reply, hreply, hanswers⟩ := bus.reach.firmware.exists_reply
    (requestFrame command sequence payload h) hcommand (bus.turns 0).invocation
  obtain ⟨idle, after, -, -, hrequest⟩ :=
    returns_targetRequest hidle h sequence hcount hreply hanswers
  obtain ⟨-, -, hlength, rfl, -⟩ := (hrequest _ _ _).mp hreturns
  have hok : reply.command = statusOk := by
    by_contra hne
    rw [Frame.length_bytes, hanswers.error hne, List.length_nil] at hlength
    simp only [headerLen] at hlength
    omega
  simp [Frame.bytes, hok]

/-- **Requests are exact.** Over any port, bus and slave that keep to what the
scripts and the firmware rely on, and whatever the target is doing: it answers a
request that is not a reset with one frame; and the host's call returns exactly
when both transactions succeed, the bridge's answer to each comes before the
port's timeout, the target does not reboot between them and that frame is as long
as expected.  Then it returns that frame, the port is idle, and the target has
done nothing but take the request and go on. -/
theorem target_request_exact (hidle : Idle port bus) {command : UInt8}
    (hcommand : command ≠ cmdReset) {payload : List UInt8} (h : payload.length ≤ 10)
    (sequence : Nat) {count : Nat} (hcount : count ≤ maxPayload) :
    let request := requestFrame command sequence payload h
    ∃ reply : Frame, (bus.asked request).1 = some reply.bytes ∧
      bus.reach.firmware.Answers request reply ∧
      ∃ (idle : P) (after : Bus F S), Idle idle after ∧
        (bus.Replied request → bus.Follows after request) ∧
        ∀ response next port',
          Returns (targetRequest sequence command payload count) port (response, next) port' ↔
            sequence < 256 ∧ bus.Replied request ∧ reply.bytes.length = count ∧
              response = reply.bytes ∧ next = (sequence + 2) % 256 ∧ port' = idle := by
  intro request
  obtain ⟨reply, hreply, hanswers⟩ :=
    bus.reach.firmware.exists_reply request hcommand (bus.turns 0).invocation
  exact ⟨reply, hreply, hanswers,
    returns_targetRequest hidle h sequence hcount hreply hanswers⟩

theorem length_noPayload : ([] : List UInt8).length ≤ 10 := Nat.zero_le _

/-- A request for the status message of a target that has just booted comes back
with `ready`. -/
theorem target_request_exact_status : ∃ port' : Port (Bus Nor.Chip ResponseSlot),
    Returns (targetRequest 1 cmdReadStatus [] 10) (opened Bus.erased)
      ([magic, statusOk, 5, 1, 0, 114, 101, 97, 100, 121], 3) port' := by
  have hnotReset : cmdReadStatus ≠ cmdReset := by decide
  obtain ⟨reply, hreply, -, idle, -, -, -, hreturns⟩ :=
    target_request_exact (idle_opened Bus.erased) hnotReset length_noPayload 1
      (show 10 ≤ maxPayload by decide)
  have hready : (Bus.erased.asked (requestFrame cmdReadStatus 1 [] length_noPayload)).1 =
      some [magic, statusOk, 5, 1, 0, 114, 101, 97, 100, 121] := by decide +kernel
  have hbytes := Option.some.inj (hready.symm.trans hreply)
  have hreplied : Bus.erased.Replied (requestFrame cmdReadStatus 1 [] length_noPayload) :=
    { write := ⟨rfl, rfl⟩
      read := ⟨rfl, rfl⟩
      unbroken := ⟨fun hreboots => absurd hreboots.2 (by decide +kernel), trivial⟩ }
  rw [hbytes]
  exact ⟨idle, (hreturns _ _ _).mpr ⟨by decide, hreplied, hbytes ▸ rfl, rfl, rfl, rfl⟩⟩

end Host

end OptiBridge
