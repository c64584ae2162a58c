import OptiBridge.Requests

/-!
# OptiBridge.Polling

The polling loop: a target that is busy is queried again.  What it answers in
the end is what its loader holds at that moment, and no query changes anything.

What the background may do between two queries is bounded by a condition of the
caller's choice (`Steady`): any condition that the target keeps on its own,
under which it does not reboot.  A transfer takes "the loader holds what I have
written so far" for it, a page transfer "the maps hold this".

* `packet_query`, one query: the answer is the loader's, and only the response
  buffer changes;
* `returns_query`, one call of the script;
* `waitReadyFrom_polled`, the loop: it ends with an answer that is not busy,
  given by a target on which the condition held all along.
-/

namespace OptiBridge

open Bytes Script

/-! ## what a query is answered with -/

/- A query has no payload, and its answer has either the four bytes of a CRC or
none. -/

theorem length_toLe_four_le (n : Nat) : (toLe 4 n).length ≤ maxPayload := by
  simp [maxPayload]

/-- What a loader answers a query with. -/
def BpfLoader.queryReply (l : BpfLoader) (sequence : UInt8) : Frame :=
  match l.query with
  | .ok crc => ⟨statusOk, sequence, 0, toLe 4 crc.toNat, length_toLe_four_le _⟩
  | .error status => statusFrame status sequence

/-- An image that can be queried is answered with its CRC. -/
theorem BpfLoader.queryReply_ok {l : BpfLoader} {crc : UInt32} (h : l.query = .ok crc)
    (sequence : UInt8) : l.queryReply sequence =
      ⟨statusOk, sequence, 0, toLe 4 crc.toNat, length_toLe_four_le _⟩ := by
  simp only [queryReply, h]

/-- Anything else is answered with a bare status. -/
theorem BpfLoader.queryReply_error {l : BpfLoader} {status : UInt8} (h : l.query = .error status)
    (sequence : UInt8) : l.queryReply sequence = statusFrame status sequence := by
  simp only [queryReply, h]

/-- The answer is short enough for the nine bytes the host reads. -/
theorem BpfLoader.length_queryReply (l : BpfLoader) (sequence : UInt8) :
    (l.queryReply sequence).bytes.length ≤ 9 := by
  unfold queryReply
  cases l.query <;> simp [Frame.length_bytes, headerLen, statusFrame]

namespace Firmware

variable {F : Type}

/-- What the firmware answers a query with. -/
def queryReply (f : Firmware F) (sequence : UInt8) : Frame :=
  if f.captured.bpfExecutionActive then statusFrame statusBusy sequence
  else f.loader.queryReply sequence

theorem length_queryReply (f : Firmware F) (sequence : UInt8) :
    (f.queryReply sequence).bytes.length ≤ 9 := by
  unfold queryReply
  split_ifs
  · simp [Frame.length_bytes, headerLen, statusFrame]
  · exact f.loader.length_queryReply sequence

/-- A query is answered and changes nothing but the response buffer. -/
theorem packet_query (f : Firmware F) (request : Frame) (hflags : request.flags = 0)
    (hcommand : request.command = cmdQueryBpfCrc) (hpayload : request.payload = [])
    (invocation : Invocation) :
    ∃ output, f.onI2cPacket request.bytes false invocation =
      (some (f.queryReply request.sequence).bytes, { f with output := output }) := by
  have hparse := parsePacket_frame request
  by_cases hbusy : f.Refuses request.request
  · obtain ⟨output, hqueued⟩ := queued_refused hparse hbusy invocation
    exact ⟨output, by rw [hqueued, queryReply, if_pos hbusy.1]; rfl⟩
  · have hidle : ¬ f.captured.bpfExecutionActive = true := fun hactive =>
      hbusy ⟨hactive, by rw [show request.request.command = _ from hcommand]; decide⟩
    have hlen : request.request.payloadLen = 0 := by
      have hnat := payloadLen_request request
      rw [hpayload] at hnat
      exact UInt8.toNat_inj.mp hnat
    have hdispatch := dispatch_query (startExecutor invocation) f.toDispatchState
      (show request.request.flags = 0 from hflags)
      (show request.request.command = cmdQueryBpfCrc from hcommand)
    rw [dispatchQuery, if_neg (not_not.mpr hlen)] at hdispatch
    rw [queryReply, if_neg hidle, BpfLoader.queryReply]
    cases hquery : f.loader.query with
    | ok crc =>
        rw [hquery] at hdispatch
        exact queued_respond hparse hbusy hdispatch (length_toLe_four_le _)
    | error status =>
        rw [hquery] at hdispatch
        exact queued_respond hparse hbusy hdispatch (Nat.zero_le _)

end Firmware

/-! ## what stays true while the target is polled -/

/- The three fields say what a caller has to show; the rest is the induction
over the background, done once. -/

/-- A condition on the firmware that survives whatever the target does on its
own, with no reset requested, and the answers it queues. -/
structure Steady {F : Type} [BpfFlash F] (I : Firmware F → Prop) : Prop where
  reset : ∀ f, I f → f.resetPending = false
  background : ∀ f (b : Background), I f → I (f.step b.event)
  output : ∀ f output, I f → I { f with output := output }

namespace Steady

variable {F : Type} [BpfFlash F] {I : Firmware F → Prop}

/-- No step reboots the target, for a reboot takes a reset that has been asked
for. -/
theorem not_reboots (hI : Steady I) {f : Firmware F} (h : I f) (e : FirmwareEvent) :
    ¬ f.Reboots e := by
  cases e with
  | main busIdle =>
      rintro ⟨-, hreset⟩
      rw [hI.reset f h] at hreset
      contradiction
  | activity | packet | tick => exact id

/-- The condition survives the background. -/
theorem run (hI : Steady I) {f : Firmware F} (h : I f) (bs : List Background) :
    I (f.run (bs.map Background.event)) := by
  induction bs generalizing f with
  | nil => exact h
  | cons b bs ih => exact ih (hI.background f b h)

/-- It still holds when the next transaction gets to the target. -/
theorem reach {S : Type} [I2cSlave S] (hI : Steady I) {bus : Bus F S} (h : I bus.firmware) :
    I bus.reach.firmware :=
  bus.firmware_reach ▸ hI.run h _

/-- The background before a transaction does not reboot the target. -/
theorem unbroken (hI : Steady I) {f : Firmware F} (h : I f) (bs : List Background) :
    Bus.Unbroken f (bs.map Background.event) := by
  induction bs generalizing f with
  | nil => trivial
  | cons b bs ih => exact ⟨hI.not_reboots h _, ih (hI.background f b h)⟩

end Steady

/-! ## polling -/

/- One query first, then the loop of `wait_ready`, which goes on for as long as
the answer is `busy` and attempts are left. -/

namespace Host

variable {P F S : Type} [BpfFlash F] [I2cSlave S] [LawfulI2cSlave S] [I2cMaster (Bus F S)]
  [LawfulI2cBus F S] [SerialPort P (Bus F S)] [LawfulSerialPort P (Bus F S)] {port : P}
  {bus : Bus F S}

omit [BpfFlash F] [I2cSlave S] [LawfulI2cSlave S] in
/-- The frame a query is sent in. -/
def queryFrame (sequence : Nat) : Frame :=
  requestFrame cmdQueryBpfCrc sequence [] length_noPayload

/-- A query returns exactly when both its transactions succeed. -/
theorem returns_query (hidle : Idle port bus) (sequence : Nat) :
    ∃ (idle : P) (after : Bus F S) (heard : List UInt8), Idle idle after ∧
      ((bus.turns 0).Answered → (bus.turns 1).Answered →
        bus.Heard after (queryFrame sequence)
          (bus.reach.firmware.queryReply (UInt8.ofNat sequence)) 9 heard) ∧
      ∀ response port', Returns (query sequence) port response port' ↔
        sequence < 256 ∧ (bus.turns 0).Answered ∧ (bus.turns 1).Answered ∧
          response = heard ∧ port' = idle := by
  obtain ⟨output, hasked⟩ := bus.reach.firmware.packet_query (queryFrame sequence) rfl rfl rfl
    (bus.turns 0).invocation
  have hreply : (bus.asked (queryFrame sequence)).1 =
      some (bus.reach.firmware.queryReply (UInt8.ofNat sequence)).bytes :=
    congrArg Prod.fst hasked
  obtain ⟨idle, after, heard, hafter, hheard, hexchange⟩ :=
    returns_exchange hidle (Nat.zero_le _) hreply (show 9 ≤ maxPayload by decide) sequence
      ((sequence + 1) % 256)
  have hnext : (sequence + 1) % 256 < 256 := Nat.mod_lt _ (by decide)
  have hframe : ∀ bytes port₀, Returns (frame cmdQueryBpfCrc sequence []) port bytes port₀ ↔
      sequence < 256 ∧ bytes = (queryFrame sequence).bytes ∧ port₀ = port := fun bytes port₀ =>
    returns_frame (Nat.zero_le _)
  refine ⟨idle, after, heard, hafter, hheard, fun response port' => ?_⟩
  simp only [query, returns_bind, hframe]
  constructor
  · rintro ⟨_, _, ⟨hsequence, rfl, rfl⟩, _, port₁, hwrite, hread⟩
    obtain ⟨-, -, hrest⟩ := (hexchange response port').mp ⟨port₁, hwrite, hread⟩
    exact ⟨hsequence, hrest⟩
  · rintro ⟨hsequence, hrest⟩
    obtain ⟨port₁, hwrite, hread⟩ := (hexchange response port').mpr ⟨hsequence, hnext, hrest⟩
    exact ⟨_, _, ⟨hsequence, rfl, rfl⟩, ⟨⟩, port₁, hwrite, hread⟩

/-- The firmware that answered, and the bus since then. -/
structure Polled (f : Firmware F) (after : Bus F S) (response : List UInt8) : Prop where
  idle : f.captured.bpfExecutionActive = false
  answer : ∃ sequence, (f.loader.queryReply sequence).bytes <+: response ∧
    (f.loader.queryReply sequence).command ≠ statusBusy
  since : ∃ output, ∃ bs : List Background, after.firmware =
    ({ f with output := output } : Firmware F).run (bs.map Background.event)

omit [LawfulI2cSlave S] [I2cMaster (Bus F S)] [LawfulI2cBus F S] in
/-- What the host hears begins with the answer. -/
theorem heard_answer {I : Firmware F → Prop} (hI : Steady I) (hbus : I bus.reach.firmware)
    {after : Bus F S} {sequence : Nat} {heard : List UInt8}
    (hheard : bus.Heard after (queryFrame sequence)
      (bus.reach.firmware.queryReply (UInt8.ofNat sequence)) 9 heard) :
    (bus.reach.firmware.queryReply (UInt8.ofNat sequence)).bytes <+: heard ∧ I after.firmware ∧
      ∃ output, after.firmware =
        ({ bus.reach.firmware with output := output } : Firmware F).run (bus.passing 1) := by
  obtain ⟨output, hasked⟩ := bus.reach.firmware.packet_query (queryFrame sequence) rfl rfl rfl
    (bus.turns 0).invocation
  have hstate : (bus.asked (queryFrame sequence)).2 =
      { bus.reach.firmware with output := output } := congrArg Prod.snd hasked
  have hfirmware := hheard.firmware
  have hanswer := hheard.answer
  rw [hstate] at hfirmware hanswer
  have hkept := hI.output _ output hbus
  have hbegins := hanswer (hI.unbroken hkept _)
  rw [List.take_of_length_le (bus.reach.firmware.length_queryReply _)] at hbegins
  exact ⟨hbegins ▸ List.take_prefix .., hfirmware ▸ hI.run hkept _, output, hfirmware⟩

omit [LawfulI2cSlave S] [I2cMaster (Bus F S)] [LawfulI2cBus F S] in
/-- What it says, if not that the target is busy. -/
theorem heard_polled {I : Firmware F → Prop} (hI : Steady I) (hbus : I bus.reach.firmware)
    {after : Bus F S} {sequence : Nat} {heard : List UInt8}
    (hheard : bus.Heard after (queryFrame sequence)
      (bus.reach.firmware.queryReply (UInt8.ofNat sequence)) 9 heard)
    (hfree : heard[1]? ≠ some statusBusy) : Polled bus.reach.firmware after heard := by
  obtain ⟨hbegins, -, output, hfirmware⟩ := heard_answer hI hbus hheard
  have hstatus : (bus.reach.firmware.queryReply (UInt8.ofNat sequence)).command ≠ statusBusy := by
    rintro hbusy
    obtain ⟨rest, rfl⟩ := hbegins
    simp [Frame.bytes, hbusy] at hfree
  unfold Firmware.queryReply at hbegins hstatus
  split_ifs at hbegins hstatus with hactive
  · exact absurd rfl hstatus
  · exact ⟨by simpa using hactive, ⟨_, hbegins, hstatus⟩, output, _, hfirmware⟩

/-- **Polling.** When the loop ends, the target has been found free, with
nothing pending, and has answered with what its loader held. -/
theorem waitReadyFrom_polled {I : Firmware F → Prop} (hI : Steady I) {left : Nat}
    (hidle : Idle port bus) (hbus : I bus.firmware) {sequence next : Nat} {response : List UInt8}
    {port' : P}
    (h : Returns (waitReadyFrom left sequence) port (response, next) port') :
    ∃ (f : Firmware F) (after : Bus F S), Idle port' after ∧ I f ∧ Polled f after response := by
  induction left generalizing port bus sequence with
  | zero => exact absurd h returns_throw
  | succ left ih =>
      obtain ⟨idle, after, heard, hafter, hheard, hquery⟩ := returns_query hidle sequence
      rw [waitReadyFrom, returns_bind] at h
      obtain ⟨_, _, hasked, hrest⟩ := h
      obtain ⟨-, hok, hok', rfl, rfl⟩ := (hquery _ _).mp hasked
      have hreached := hI.reach hbus
      obtain ⟨-, hkept, -⟩ := heard_answer hI hreached (hheard hok hok')
      simp only [returns_ite, returns_pure] at hrest
      rcases hrest with ⟨⟨-, hfree⟩, hsame, rfl⟩ | ⟨-, hagain⟩
      · cases hsame
        exact ⟨_, after, hafter, hreached, heard_polled hI hreached (hheard hok hok') hfree⟩
      · exact ih hafter hkept hagain

end Host

end OptiBridge
