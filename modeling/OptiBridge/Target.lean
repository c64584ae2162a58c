import OptiBridge.Host
import OptiBridge.Refinement

/-!
# OptiBridge.Target

The target as the bridge's I2C master sees it: the firmware behind its address,
with a response slot in front of it.  Before each transaction the target may do
anything it does on its own, and the transaction may fail.

The I2C peripherals and their drivers are not part of the repository: the slot is
any that keeps to what the firmware relies on, and so is the master on the other
side.

Time passes here by the events of the background: every transaction comes with
the list of what the target does before it, and with whether it succeeds and is
answered in time.  So a statement over all buses is a statement over all
interleavings of host and target.
-/

namespace OptiBridge

open Bytes

/-! ## the response slot -/

/- The peripheral holds at most one packet for the master to read. -/

/-- The slave's response slot: as its driver leaves it at start-up, queueing a
packet for the master, and what a read takes from it. -/
class I2cSlave (S : Type) where
  init : S
  queue : S → List UInt8 → S
  transmit : S → (count : Nat) → Vector UInt8 count × S

/-- One overwrite slot of 32 bytes: a read begins with the packet queued last,
and yields zeros if there has been none. -/
class LawfulI2cSlave (S : Type) [I2cSlave S] : Prop where
  transmit_queue : ∀ (slave : S) (packet : List UInt8) (count : Nat), packet.length ≤ 32 →
    (I2cSlave.transmit (I2cSlave.queue slave packet) count).1.toList.take packet.length =
      packet.take count
  transmit_init : ∀ count,
    (I2cSlave.transmit (I2cSlave.init : S) count).1 = Vector.replicate count 0

/-- A slot that keeps to it: the packet queued last, until it is read. -/
structure ResponseSlot where
  packet : List UInt8

instance : I2cSlave ResponseSlot where
  init := ⟨[]⟩
  queue _ packet := ⟨packet⟩
  transmit slot _ := (Vector.ofFn fun i => slot.packet.getD i.val 0, ⟨[]⟩)

instance : LawfulI2cSlave ResponseSlot where
  transmit_queue slot packet count _ := by
    apply List.ext_getElem
    · simp [I2cSlave.transmit, I2cSlave.queue, Nat.min_comm]
    · intro i hi hi'
      simp [I2cSlave.transmit, I2cSlave.queue] at hi hi' ⊢
      rw [List.getElem?_eq_getElem hi'.2]
      rfl
  transmit_init count := by
    apply Vector.ext
    intro i hi
    simp [I2cSlave.transmit, I2cSlave.init]

/-! ## what goes on around a transaction -/

/- `Bus` is the state the host's side sees: a firmware, a slot, and all
transactions to come. -/

/-- One thing the target does on its own. -/
inductive Background where
  | main (busIdle : Bool)
  | activity (activity : Activity)
  | tick (ticks : Nat)

/-- What the target does on its own, as an event of the firmware. -/
def Background.event : Background → FirmwareEvent
  | .main busIdle => .main busIdle
  | .activity performed => .activity performed
  | .tick ticks => .tick ticks

/-- A transaction's surroundings: what the target does until it, what a program
it starts would do, whether it succeeds, and whether it is over in time for its
answer to reach the host.  Of a write that fails, the target may have captured a
part. -/
structure Transaction where
  before : List Background
  invocation : Invocation
  succeeds : Bool
  captured : Option Nat
  inTime : Bool

/-- A transaction that serves the host: it succeeds, and the host is told so
before its reads time out. -/
structure Transaction.Answered (turn : Transaction) : Prop where
  succeeds : turn.succeeds = true
  inTime : turn.inTime = true

/-- The bus: the target on it, and the turns of the transactions to come. -/
structure Bus (F S : Type) where
  firmware : Firmware F
  slave : S
  turns : Nat → Transaction

namespace Firmware

variable {F : Type} [BpfFlash F]

instance decidableReboots (f : Firmware F) : (e : FirmwareEvent) → Decidable (f.Reboots e)
  | .main _ => inferInstanceAs (Decidable (_ ∧ _))
  | .activity _ | .packet .. | .tick _ => .isFalse id

end Firmware

namespace Bus

variable {F S : Type} [BpfFlash F] [I2cSlave S]

/-- A reboot starts the slave anew. -/
def background (bus : Bus F S) (b : Background) : Bus F S :=
  { bus with
    firmware := bus.firmware.step b.event
    slave := if bus.firmware.Reboots b.event then I2cSlave.init else bus.slave }

/-- The target up to the next transaction. -/
def reach (bus : Bus F S) : Bus F S :=
  { Machine.run background bus (bus.turns 0).before with turns := fun k => bus.turns (k + 1) }

omit [BpfFlash F] in
/-- The capture of a write, cut at the receive buffer, and the packet it queues. -/
def receive (bus : Bus F S) (bytes : List UInt8) (invocation : Invocation) : Bus F S :=
  let out := bus.firmware.onI2cPacket (bytes.take maxFrame) (maxFrame < bytes.length) invocation
  { bus with
    firmware := out.2
    slave := match out.1 with
      | some packet => I2cSlave.queue bus.slave packet
      | none => bus.slave }

end Bus

/-- The own address the firmware sets. -/
abbrev ownAddress : UInt8 := 0x42

/-- The turn of the next transaction says whether its answer comes in time. -/
instance busAnswerTime {F S : Type} : AnswerTime (Bus F S) where
  inTime bus := (bus.turns 0).inTime

/-- What the bridge relies on of its I2C master: a write that is reported to have
succeeded has been captured whole, a read that is has got what the slave
transmits, and a transaction that fails is reported to. -/
class LawfulI2cBus (F S : Type) [BpfFlash F] [I2cSlave S] [I2cMaster (Bus F S)] : Prop where
  write_ok : ∀ (bus : Bus F S) (bytes : List UInt8), (bus.turns 0).succeeds = true →
    I2cMaster.write bus ownAddress bytes =
      (.ok (), bus.reach.receive bytes (bus.turns 0).invocation)
  write_failed : ∀ (bus : Bus F S) (bytes : List UInt8), (bus.turns 0).succeeds = false →
    (I2cMaster.write bus ownAddress bytes).1 = .error ()
  read_ok : ∀ (bus : Bus F S) (count : Nat), (bus.turns 0).succeeds = true →
    I2cMaster.read bus ownAddress count =
      (.ok (), (I2cSlave.transmit bus.reach.slave count).1,
        { bus.reach with slave := (I2cSlave.transmit bus.reach.slave count).2 })
  read_failed : ∀ (bus : Bus F S) (count : Nat), (bus.turns 0).succeeds = false →
    (I2cMaster.read bus ownAddress count).1 = .error ()

/-- A master that keeps to it; no one acknowledges another address. -/
instance busMaster {F S : Type} [BpfFlash F] [I2cSlave S] : I2cMaster (Bus F S) where
  write bus address bytes :=
    let turn := bus.turns 0
    let reached := bus.reach
    if address ≠ ownAddress then (.error (), reached)
    else if turn.succeeds then (.ok (), reached.receive bytes turn.invocation)
    -- the target may act on what it has captured, although the master sees a failure
    else (.error (), match turn.captured with
      | some count => reached.receive (bytes.take count) turn.invocation
      | none => reached)
  read bus address count :=
    let turn := bus.turns 0
    let reached := bus.reach
    let transmitted := I2cSlave.transmit reached.slave count
    if address ≠ ownAddress ∨ ¬ turn.succeeds then (.error (), Vector.replicate count 0, reached)
    else (.ok (), transmitted.1, { reached with slave := transmitted.2 })

instance {F S : Type} [BpfFlash F] [I2cSlave S] : LawfulI2cBus F S where
  write_ok bus bytes h := by simp [I2cMaster.write, h]
  write_failed bus bytes h := by simp [I2cMaster.write, h]
  read_ok bus count h := by simp [I2cMaster.read, h]
  read_failed bus count h := by simp [I2cMaster.read, h]

/-! ## a target to ask -/

/- For examples: a bus on which everything goes well. -/

/-- A transaction that succeeds in time, after one statement of the main loop. -/
def Transaction.plain : Transaction := ⟨[.main true], ⟨[], .ok 0⟩, true, none, true⟩

/-- A target that has just booted over an erased flash. -/
def Bus.erased : Bus Nor.Chip ResponseSlot where
  firmware := Firmware.boot Firmware.erasedFlash 0 []
  slave := I2cSlave.init
  turns := fun _ => .plain

end OptiBridge
