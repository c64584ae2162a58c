import OptiBridge.Bridge
import OptiBridge.Crc32
import OptiBridge.Lib.Script

/-!
# OptiBridge.Host

The host side: the scripts that drive a target through the USB bridge.  A script
holds a serial port and raises where the source raises, with the same text.

Neither the port nor its driver is part of the repository.  A port is anything
that keeps to what the scripts rely on; whether an answer of the bridge comes
before a read times out is left open, for the scripts open their port with a
timeout and a program may hold the bus for longer.

The definitions follow the three Python scripts under the source's names:
`test_bpf_loader.py` has the transport and the map accesses,
`test_bpf_map_helpers.py` and `test_bpf_timer.py` import these and add the
loading of an image and the reset.  Integers of the scripts are unbounded, so
packing one into a byte may raise.
-/

namespace OptiBridge

open Bytes

/-- The exceptions a script ends with. -/
inductive HostError where
  | runtimeError (text : String)
  | valueError (text : String)
  | structError
  | indexError
deriving DecidableEq

/-! ## the port -/

/- The operations of a serial port and what a script relies on, as two classes:
a port may be any type that has the first and satisfies the second.  `Port` is
one such type, for examples. -/

/-- What an action puts on the serial line. -/
def Action.sent : Action → List UInt8
  | .writePacket bytes => bytes
  | .i2cWrite .. | .i2cRead .. | .reset | .panic => []

/-- A serial port with the bridge at its other end.  A script writes and reads.
What else there is to say of a port: the bridge, unless it has panicked; the bytes
it has sent that the host has not read; and how many of these the host's next reads
get before one of them times out. -/
class SerialPort (P : Type) (I : outParam Type) where
  write : P → List UInt8 → P
  read : P → (count : Nat) → List UInt8 × P
  bridge : P → Option (Session I)
  unread : P → List UInt8
  arrived : P → Nat

/-- Whether the answer to the next transaction reaches the host before its reads
time out.  An answer takes as long as the transaction, and that as long as the
target holds the bus. -/
class AnswerTime (I : Type) where
  inTime : I → Bool

/-- What the scripts rely on, with DTR up as they set it.  On a port with nothing
unread a frame reaches the bridge whole, however it is cut into packets; what the
bridge sends waits for the host, and comes before the reads time out if the
transaction was short enough; and a read takes what has arrived, as far as it
asks. -/
class LawfulSerialPort (P I : Type) [SerialPort P I] [I2cMaster I] [AnswerTime I] : Prop where
  write_delivers : ∀ {port : P} {session served : Session I} {bytes : List UInt8}
    {actions : List Action}, SerialPort.bridge port = some session →
    SerialPort.unread port = [] → bytes.length ≤ maxFrame →
    session.pushBytes bytes = (some served, actions) →
      SerialPort.bridge (SerialPort.write port bytes) = some served ∧
        SerialPort.unread (SerialPort.write port bytes) = actions.flatMap Action.sent
  write_inTime : ∀ {port : P} {session : Session I} (bytes : List UInt8),
    SerialPort.bridge port = some session → SerialPort.unread port = [] →
    AnswerTime.inTime session.i2c = true →
      SerialPort.arrived (SerialPort.write port bytes) =
        (SerialPort.unread (SerialPort.write port bytes)).length
  write_late : ∀ {port : P} {session : Session I} (bytes : List UInt8),
    SerialPort.bridge port = some session → SerialPort.unread port = [] →
    AnswerTime.inTime session.i2c = false →
    SerialPort.unread (SerialPort.write port bytes) ≠ [] →
      SerialPort.arrived (SerialPort.write port bytes) <
        (SerialPort.unread (SerialPort.write port bytes)).length
  read_takes : ∀ (port : P) (count : Nat),
    (SerialPort.read port count).1 =
      (SerialPort.unread port).take (min count (SerialPort.arrived port))
  read_leaves : ∀ {port : P} {count : Nat}, count ≤ SerialPort.arrived port →
    SerialPort.bridge (SerialPort.read port count).2 = SerialPort.bridge port ∧
      SerialPort.unread (SerialPort.read port count).2 = (SerialPort.unread port).drop count ∧
      SerialPort.arrived (SerialPort.read port count).2 = SerialPort.arrived port - count

/-- A port that keeps to it: a line on which an answer either arrives at once or
not before the reads time out. -/
structure Port (I : Type) where
  bridge : Option (Session I)
  unread : List UInt8
  arrived : Nat

namespace Port

variable {I : Type} [I2cMaster I] [AnswerTime I]

/-- Hand bytes to the bridge. -/
def write (port : Port I) (bytes : List UInt8) : Port I :=
  match port.bridge with
  | none => port
  | some session =>
      let served := session.pushBytes bytes
      let unread := port.unread ++ served.2.flatMap Action.sent
      ⟨served.1, unread, if AnswerTime.inTime session.i2c then unread.length else 0⟩

/-- Take up to so many bytes that have arrived. -/
def read (port : Port I) (count : Nat) : List UInt8 × Port I :=
  let taken := min count port.arrived
  (port.unread.take taken,
    { port with unread := port.unread.drop taken, arrived := port.arrived - taken })

instance : SerialPort (Port I) I where
  write := write
  read := read
  bridge := bridge
  unread := unread
  arrived := arrived

instance : LawfulSerialPort (Port I) I where
  write_delivers {port session served bytes actions} hbridge hunread _ hpush := by
    have hbridge' : port.bridge = some session := hbridge
    have hunread' : port.unread = [] := hunread
    simp only [SerialPort.write, SerialPort.bridge, SerialPort.unread, write, hbridge', hpush,
      hunread', List.nil_append, and_self]
  write_inTime {port session} bytes hbridge _ hinTime := by
    have hbridge' : port.bridge = some session := hbridge
    simp only [SerialPort.write, SerialPort.arrived, SerialPort.unread, write, hbridge', hinTime,
      if_true]
  write_late {port session} bytes hbridge _ hlate hsent := by
    have hbridge' : port.bridge = some session := hbridge
    have hpos := List.length_pos_iff.mpr hsent
    simp only [SerialPort.write, SerialPort.arrived, SerialPort.unread, write, hbridge', hlate]
      at hpos ⊢
    exact hpos
  read_takes _ _ := rfl
  read_leaves {port count} harrived := by
    have htaken : min count port.arrived = count := Nat.min_eq_left harrived
    simp only [SerialPort.read, SerialPort.bridge, SerialPort.unread, SerialPort.arrived, read,
      htaken, and_self]

end Port

/-- A script on a serial port. -/
abbrev HostScript (P : Type) := Script HostError P

namespace Host

/-! ## constants -/

/- As the scripts have them. -/

/-- Where the target answers on the bus. -/
abbrev targetAddress : UInt8 := 0x42

/-- How often a busy target is asked again. -/
abbrev attempts : Nat := 100

/-! ## bytes -/

/- Packing and formatting. -/

/-- `bytes.hex(' ')`. -/
def hex (bytes : List UInt8) : String :=
  " ".intercalate (bytes.map fun byte =>
    String.ofList [Nat.digitChar (byte.toNat / 16), Nat.digitChar (byte.toNat % 16)])

/-- `{crc:08X}`. -/
def crcText (crc : Nat) : String :=
  String.ofList (((Nat.toDigits 16 crc).map Char.toUpper).leftpad 8 '0')

section scripts

variable {P : Type}

/-- `bytes(values)`. -/
def bytesOf (values : List Nat) : HostScript P (List UInt8) := do
  if values.any (256 ≤ ·) then throw (.valueError "bytes must be in range(0, 256)")
  return values.map UInt8.ofNat

/-- `struct.pack` of one little-endian field. -/
def pack (width value : Nat) : HostScript P (List UInt8) := do
  if 256 ^ width ≤ value then throw .structError
  return toLe width value

/-- A request frame. -/
def frame (command : UInt8) (sequence : Nat) (payload : List UInt8) :
    HostScript P (List UInt8) := do
  let header ← bytesOf [magic.toNat, command.toNat, payload.length, sequence, 0]
  return header ++ payload

/-! ## responses -/

/- The checks on a response, each with its text. -/

/-- The checks of `target_request`: the response, and the sequence number to go
on with. -/
def checkResponse (sequence responseLength : Nat) (response : List UInt8) :
    HostScript P (List UInt8 × Nat) := do
  -- a header alone is let through here, if it says busy
  if response.length ≠ responseLength ∧
      ¬ (response.length = 5 ∧ response[1]? = some statusBusy) then
    throw (.runtimeError ("short target response: " ++ hex response))
  match response with
  | start :: _ :: length :: echoed :: flags :: rest =>
      if start ≠ magic ∨ echoed.toNat ≠ sequence ∨ flags ≠ 0 then
        throw (.runtimeError ("invalid target response: " ++ hex response))
      if rest.length ≠ length.toNat then
        throw (.runtimeError ("invalid target response length: " ++ hex response))
      return (response, (sequence + 2) % 256)
  | _ =>
      -- of a shorter response the script reads no further than its checks let it
      if response.take 1 ≠ [magic] ∨ response[3]?.any (·.toNat ≠ sequence) then
        throw (.runtimeError ("invalid target response: " ++ hex response))
      throw .indexError

/-! ## the bridge -/

/- One call of the bridge: write a frame, read its header, read the rest. -/

section port

variable {I : Type} [SerialPort P I]

/-- `port.read`. -/
def readPort (count : Nat) : HostScript P (List UInt8) :=
  modifyGet fun port => SerialPort.read port count

/-- Read a frame of the bridge: five bytes of header, then as many as it says. -/
def readFrame : HostScript P (List UInt8) := do
  let header ← readPort 5
  match header with
  | [_, _, length, _, _] =>
      let payload ← readPort length.toNat
      if payload.length ≠ length.toNat then
        throw (.runtimeError ("short bridge payload: " ++ hex header ++ " " ++ hex payload))
      return header ++ payload
  | _ => throw (.runtimeError ("short bridge header: " ++ hex header))

/-- One command to the bridge, and its payload if the status is ok. -/
def bridge (command : UInt8) (sequence : Nat) (payload : List UInt8) :
    HostScript P (List UInt8) := do
  let request ← frame command sequence payload
  modify fun port => SerialPort.write port request
  let response ← readFrame
  if response.take 2 ≠ [magic, 0] ∨ response[3]?.map UInt8.toNat ≠ some sequence then
    throw (.runtimeError ("bridge error: " ++ hex response))
  return response.drop 5

/-! ## the target -/

/- A request to the target is two calls of the bridge: write it, then read the
response. -/

/-- Send a request to the target. -/
def targetWrite (sequence : Nat) (request : List UInt8) : HostScript P Unit := do
  let _ ← bridge cmdI2cWrite sequence (targetAddress :: request)

/-- Send a request to the target and read its response. -/
def targetRequest (sequence : Nat) (command : UInt8) (payload : List UInt8)
    (responseLength : Nat) : HostScript P (List UInt8 × Nat) := do
  let request ← frame command sequence payload
  targetWrite sequence request
  let asked ← bytesOf [targetAddress.toNat, responseLength]
  let response ← bridge cmdI2cRead ((sequence + 1) % 256) asked
  checkResponse sequence responseLength response

/-- Ask for the CRC of the committed image. -/
def query (sequence : Nat) : HostScript P (List UInt8) := do
  let request ← frame cmdQueryBpfCrc sequence []
  targetWrite sequence request
  bridge cmdI2cRead ((sequence + 1) % 256) [targetAddress, 9]

/-- The loop of `wait_ready`, with this many attempts left. -/
def waitReadyFrom : Nat → Nat → HostScript P (List UInt8 × Nat)
  | 0, _ => throw (.runtimeError "target remained busy")
  | left + 1, sequence => do
      let response ← query sequence
      let sequence := (sequence + 2) % 256
      if 5 ≤ response.length ∧ response[1]? ≠ some statusBusy then return (response, sequence)
      waitReadyFrom left sequence

/-- Ask until the target is no longer busy. -/
def waitReady (sequence : Nat) : HostScript P (List UInt8 × Nat) := waitReadyFrom attempts sequence

/-! ## maps -/

/- Host access to maps, and the pages that are written and read in turn. -/

/-- What a command without payload in its answer is answered with, after the
magic byte; `sequence` is the one to go on with. -/
def acceptance (sequence : Nat) : List UInt8 :=
  [statusOk, 0, UInt8.ofNat ((sequence + 254) % 256), 0]

/-- Write a range of a map. -/
def writeMap (sequence mapId byteOffset : Nat) (data : List UInt8) : HostScript P Nat := do
  if ¬ (1 ≤ data.length ∧ data.length ≤ 8) then
    throw (.valueError "bridge map-write pages must contain one through eight bytes")
  let mapLocation := (mapId <<< 10) ||| byteOffset
  let location ← pack 2 mapLocation
  let (response, sequence) ← targetRequest sequence cmdWriteBpfMap (location ++ data) 5
  if response.drop 1 ≠ acceptance sequence then
    throw (.runtimeError ("map write failed: " ++ hex response))
  return sequence

/-- The loop of `read_map`, with this many attempts left. -/
def readMapFrom (payload : List UInt8) (byteLength : Nat) :
    Nat → Nat → HostScript P (List UInt8 × Nat)
  | 0, _ => throw (.runtimeError "target remained busy during map read")
  | left + 1, sequence => do
      let (response, sequence) ← targetRequest sequence cmdReadBpfMap payload (5 + byteLength)
      -- a request that is repeated has the next sequence number
      if response[1]? = some statusBusy then readMapFrom payload byteLength left sequence
      else
        if response[1]? ≠ some statusOk ∨ response[2]?.map UInt8.toNat ≠ some byteLength then
          throw (.runtimeError ("map read failed: " ++ hex response))
        return (response.drop 5, sequence)

/-- Read a range of a map, asking again while the target is busy. -/
def readMap (sequence mapId byteOffset byteLength : Nat) : HostScript P (List UInt8 × Nat) := do
  if ¬ (1 ≤ byteLength ∧ byteLength ≤ 11) then
    throw (.valueError "bridge map-read pages must contain one through 11 bytes")
  let map ← bytesOf [mapId]
  let offset ← pack 2 byteOffset
  let length ← pack 1 byteLength
  readMapFrom (map ++ (offset ++ length)) byteLength attempts sequence

/-- `range(0, length, 8)`. -/
def pageOffsets (length : Nat) : List Nat := List.range' 0 ((length + 7) / 8) 8

/-- The loop that writes the pages of a map, those at `offsets`. -/
def writePages (expected : List UInt8) : List Nat → Nat → HostScript P Nat
  | [], sequence => return sequence
  | offset :: offsets, sequence => do
      let sequence ← writeMap sequence 0 offset ((expected.drop offset).take 8)
      writePages expected offsets sequence

/-- The loop that reads them back. -/
def readPages : List Nat → Nat → HostScript P (List UInt8 × Nat)
  | [], sequence => return ([], sequence)
  | offset :: offsets, sequence => do
      let (page, sequence) ← readMap sequence 0 offset 8
      let (pages, sequence) ← readPages offsets sequence
      return (page ++ pages, sequence)

/-- The part of `main` that writes a map and reads it back. -/
def checkPages (expected : List UInt8) (sequence : Nat) : HostScript P Nat := do
  let sequence ← writePages expected (pageOffsets expected.length) sequence
  let (actual, sequence) ← readPages (pageOffsets expected.length) sequence
  if actual ≠ expected then
    throw (.runtimeError ("map readback mismatch: expected " ++ hex expected ++ ", got " ++
      hex actual))
  return sequence

/-- The part of `main` that resets the target and reads the map again. -/
def checkReset (expected : List UInt8) (sequence : Nat) : HostScript P Nat := do
  let request ← frame cmdReset sequence []
  targetWrite sequence request
  let sequence := (sequence + 1) % 256
  let (reset, sequence) ← readPages (pageOffsets expected.length) sequence
  if reset ≠ List.replicate expected.length 0 then
    throw (.runtimeError ("map backing was not reset: " ++ hex reset))
  return sequence

/-! ## images -/

/- Loading an image, and resetting the target. -/

def submitLoadStep (sequence : Nat) (payload : List UInt8) (expectedQueryStatus : UInt8) :
    HostScript P (List UInt8 × Nat) := do
  let (response, sequence) ← targetRequest sequence cmdLoadBpf payload 5
  if response.drop 1 ≠ acceptance sequence then
    throw (.runtimeError ("load command failed: " ++ hex response))
  let (response, sequence) ← waitReady sequence
  if response.length < 5 ∨ response[1]? ≠ some expectedQueryStatus then
    throw (.runtimeError ("load completion failed: " ++ hex response))
  return (response, sequence)

/-- One array map of a single four-byte value. -/
def mapDescriptor : List UInt8 := toLe 4 1 ++ toLe 4 4 ++ toLe 4 4 ++ toLe 4 1

/-- The loop of `load_image` over the fragments at `offsets`. -/
def loadFragments (image : List UInt8) : List Nat → Nat → HostScript P Nat
  | [], sequence => return sequence
  | offset :: offsets, sequence => do
      let fragment := (image.drop offset).take 6
      let position ← pack 2 offset
      let (_, sequence) ← submitLoadStep sequence (1 :: (position ++ fragment)) statusNoProgram
      loadFragments image offsets sequence

/-- `range(0, length, 6)`. -/
def fragmentOffsets (length : Nat) : List Nat := List.range' 0 ((length + 5) / 6) 6

/-- Load an image: a Begin, its bytes in fragments, and a Finalize, with a query
after each. -/
def loadImage (sequence : Nat) (bytecode : List UInt8) : HostScript P Nat := do
  let image := bytecode ++ mapDescriptor
  let crc := crc32IsoHdlc image
  let length ← pack 2 bytecode.length
  let begin := 0 :: (length ++ [1] ++ toLe 4 crc.toNat)
  let (_, sequence) ← submitLoadStep sequence begin statusNoProgram
  let sequence ← loadFragments image (fragmentOffsets image.length) sequence
  let (response, sequence) ← submitLoadStep sequence [2] statusOk
  if response[1]? ≠ some statusOk ∨ response[2]? ≠ some 4 then
    throw (.runtimeError ("image finalize failed: " ++ hex response))
  let actualCrc := (response.drop 5).take 4
  if actualCrc.length ≠ 4 then throw .structError
  if ofLe actualCrc ≠ crc.toNat then
    throw (.runtimeError ("CRC mismatch: expected " ++ crcText crc.toNat ++
      ", got " ++ crcText (ofLe actualCrc)))
  return sequence

/-- Ask for a reset and wait for the target to come back. -/
def resetTarget (sequence : Nat) : HostScript P Nat := do
  let request ← frame cmdReset sequence []
  targetWrite sequence request
  return (sequence + 1) % 256

end port

end scripts

end Host

end OptiBridge
