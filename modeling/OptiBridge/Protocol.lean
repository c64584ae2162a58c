import OptiBridge.Lib.Bytes

/-!
# OptiBridge.Protocol

The frame protocol both firmwares share: commands and statuses, requests, the
incremental parser, the response encoder and the capture parser.

Two fields of the source carry an unwritten bound; here the bound is a field:
a request's payload length is at most 16, and a parser has buffered at most one
frame.

The module goes from the wire inwards:
* the constants, under the source's names;
* `Request` and `StatusQueue`, what a parsed frame and the dispatcher's queue
  hold;
* `Parser.push`, one byte at a time, as the bridge feeds it;
* `encodeResponse`, the only writer of response frames;
* `parsePacket`, a whole I2C capture at once, as the target's callback sees
  it.
-/

namespace OptiBridge

open Bytes

/-! ## constants -/

/-- The first byte of every frame, in both directions. -/
abbrev magic : UInt8 := 0xa5
/-- The magic byte, the command or status, the payload length, the sequence
number and the flags. -/
abbrev headerLen : Nat := 5
/-- The most payload bytes a frame may declare. -/
abbrev maxPayload : Nat := 16
/-- The longest frame, and the size of every frame buffer. -/
abbrev maxFrame : Nat := headerLen + maxPayload

/-- Restart the target once the main loop comes round.  It has no answer. -/
abbrev cmdReset : UInt8 := 0x01
/-- One step of loading an image: begin, data or finalize, told apart by the
first payload byte. -/
abbrev cmdLoadBpf : UInt8 := 0x02
/-- Run the committed image once, from the callback. -/
abbrev cmdStartBpf : UInt8 := 0x03
/-- Read a range of one map of the committed image. -/
abbrev cmdReadBpfMap : UInt8 := 0x04
/-- Write a range of one map of the committed image. -/
abbrev cmdWriteBpfMap : UInt8 := 0x05
/-- Take the newest message out of the status queue. -/
abbrev cmdReadStatus : UInt8 := 0x06
/-- Ask for the CRC of the committed image, or for what is wrong with it. -/
abbrev cmdQueryBpfCrc : UInt8 := 0x07
/-- Have the bridge write to an I2C address. -/
abbrev cmdI2cWrite : UInt8 := 0x10
/-- Have the bridge read from an I2C address. -/
abbrev cmdI2cRead : UInt8 := 0x11

abbrev statusOk : UInt8 := 0x00
/-- The command is none of those the dispatcher serves, or names a map there is
none of, or the program of a Start has not returned zero. -/
abbrev statusBadCommand : UInt8 := 0x01
/-- A payload of the wrong length, or a range that does not fit. -/
abbrev statusBadLength : UInt8 := 0x02
/-- The flags of a request are all reserved. -/
abbrev statusBadFlags : UInt8 := 0x03
/-- The command is known, and this build does not serve it. -/
abbrev statusNotImplemented : UInt8 := 0x04
/-- The loader or the execution flag is taken; the host asks again. -/
abbrev statusBusy : UInt8 := 0x05
/-- The loader is in a state that does not allow the request. -/
abbrev statusBadState : UInt8 := 0x06
/-- The image that was loaded has another CRC than the host announced. -/
abbrev statusBadCrc : UInt8 := 0x07
/-- A flash operation of the last load step failed. -/
abbrev statusFlashError : UInt8 := 0x08
/-- There is no committed image. -/
abbrev statusNoProgram : UInt8 := 0x09

/-! ## requests -/

/- A request is what the parser produces and the dispatcher consumes.  Both
firmwares work on the whole 16-byte payload buffer and on its length; `bytes` is
the part that counts. -/

/-- A request frame, as the parser leaves it.  The source's `payload_len` is a
plain `u8` that every reader trusts to be at most 16; here the trust is a field. -/
structure Request where
  command : UInt8
  sequence : UInt8
  flags : UInt8
  payload : Vector UInt8 maxPayload
  payloadLen : UInt8
  payloadLen_le : payloadLen.toNat ≤ maxPayload
deriving DecidableEq

namespace Request

/-- The request of a parser that has not completed one: all zeros. -/
def empty : Request where
  command := 0
  sequence := 0
  flags := 0
  payload := Vector.replicate _ 0
  payloadLen := 0
  payloadLen_le := by decide

/-- `&request.payload[..request.payload_len]`. -/
def bytes (request : Request) : List UInt8 := request.payload.toList.take request.payloadLen.toNat

/-- A request with zero flags and a given payload, cut at 16 bytes. -/
def ofPayload (command sequence : UInt8) (payload : List UInt8) : Request where
  command := command
  sequence := sequence
  flags := 0
  payload := copySlice (Vector.replicate _ 0) 0 payload
  payloadLen := UInt8.ofNat (min payload.length maxPayload)
  payloadLen_le := by
    have h : min payload.length maxPayload ≤ maxPayload := Nat.min_le_right ..
    rwa [UInt8.toNat_ofNat_of_lt' (Nat.lt_of_le_of_lt h (by decide))]

/-- The bytes of a request are as many as its length field says, for the field
is bounded by the buffer. -/
@[simp] theorem length_bytes (request : Request) :
    request.bytes.length = request.payloadLen.toNat := by
  have h := request.payloadLen_le
  simpa [bytes] using h

end Request

/-! ## the status queue -/

/- The queue holds one message, of which the newest wins; nothing but the
power-on text is ever put into it by the protocol crate. -/

/-- A fixed-capacity, single-entry status queue. -/
structure StatusQueue where
  newest : Vector UInt8 maxPayload
  newestLen : UInt8
  newestLen_le : newestLen.toNat ≤ maxPayload
deriving DecidableEq

namespace StatusQueue

/-- The queue at power-on holds the ASCII text `ready`. -/
def ready : StatusQueue where
  newest := #v[0x72, 0x65, 0x61, 0x64, 0x79, 0, 0, 0, 0, 0, 0, 0, 0, 0, 0, 0]
  newestLen := 5
  newestLen_le := by decide

/-- Hand the newest message over and leave the queue empty. -/
def pop (self : StatusQueue) : List UInt8 × StatusQueue :=
  (self.newest.toList.take self.newestLen.toNat,
    { self with newestLen := 0, newestLen_le := by decide })

end StatusQueue

/-! ## the parser -/

/-- Why a byte is refused.  The parser starts over after the second and the
third; after the first there is nothing to start over. -/
inductive ParseError where
  | badMagic
  | frameTooLong
  | badLength
deriving DecidableEq

/-- The bytes of a frame so far.  `push` never leaves more than one frame in the
buffer, which is what keeps its own indexing in bounds. -/
structure Parser where
  frame : Vector UInt8 maxFrame
  length : Nat
  length_le : length ≤ maxFrame
deriving DecidableEq

namespace Parser

/-- A parser between two frames. -/
def new : Parser := ⟨Vector.replicate _ 0, 0, Nat.zero_le _⟩

/-- A frame that ends within the buffer has a payload that fits its field. -/
theorem payloadLen_le_of_frame {length payloadLen : Nat} (hlength : length ≤ maxFrame)
    (h : length = headerLen + payloadLen) : payloadLen ≤ maxPayload := by
  rw [h] at hlength
  exact Nat.le_of_add_le_add_left hlength

/-- Forget what is buffered.  The buffer keeps its bytes; only `length` says how
many of them count. -/
def reset (self : Parser) : Parser := { self with length := 0, length_le := Nat.zero_le _ }

/-- Feed one byte: an error, a completed request, or neither yet.  The checks
come in the source's order: a first byte that is not the magic one is refused
before it is stored, a full buffer before it is written past, and a payload
length as soon as the header is complete. -/
def push (self : Parser) (byte : UInt8) : Except ParseError (Option Request) × Parser :=
  if self.length = 0 ∧ byte ≠ magic then (.error .badMagic, self)
  else if hfull : self.length = maxFrame then (.error .frameTooLong, self.reset)
  else
    have hlt : self.length < maxFrame := Nat.lt_of_le_of_ne self.length_le hfull
    let frame := self.frame.set self.length byte hlt
    let length := self.length + 1
    if length = headerLen ∧ maxPayload < frame[2].toNat then
      (.error .badLength, { self with frame := frame }.reset)
    else if hdone : headerLen ≤ length ∧ length = headerLen + frame[2].toNat then
      (.ok (some
        { command := frame[1]
          sequence := frame[3]
          flags := frame[4]
          payload := copySlice (Vector.replicate _ 0) 0 ((frame.toList.take length).drop headerLen)
          payloadLen := frame[2]
          payloadLen_le := payloadLen_le_of_frame hlt hdone.2 }),
        { self with frame := frame }.reset)
    else (.ok none, ⟨frame, length, hlt⟩)

end Parser

/-! ## responses -/

/- Responses have the layout of requests with the status in the place of the
command. -/

/-- Write a response frame to the front of `output` and give its length.  What
lies behind the frame stays as it was. -/
def encodeResponse (status sequence flags : UInt8) (payload : List UInt8)
    (output : Vector UInt8 maxFrame) : Except ParseError Nat × Vector UInt8 maxFrame :=
  if maxPayload < payload.length then (.error .badLength, output)
  else
    let output := output.set 0 magic
    let output := output.set 1 status
    let output := output.set 2 (UInt8.ofNat payload.length)
    let output := output.set 3 sequence
    let output := output.set 4 flags
    (.ok (headerLen + payload.length), copySlice output headerLen payload)

/-! ## bridge requests -/

/-- What the bridge asks of a request before it touches the bus: no flags, a
command it knows, at least the address byte, a seven-bit address, and for a read
exactly one count byte that fits a response. -/
def validateI2cRequest (request : Request) : Except UInt8 Unit :=
  if request.flags ≠ 0 then .error statusBadFlags
  else if request.command ≠ cmdI2cWrite ∧ request.command ≠ cmdI2cRead then
    .error statusBadCommand
  else if request.payloadLen.toNat = 0 ∨ maxPayload < request.payloadLen.toNat then
    .error statusBadLength
  else if byteAt request.payload 0 rfl &&& 0x80 ≠ 0 then .error statusBadCommand
  else if request.command = cmdI2cRead ∧
      (request.payloadLen.toNat ≠ 2 ∨
        maxPayload < (byteAt request.payload 1 rfl).toNat) then
    .error statusBadLength
  else .ok ()

/-! ## captures -/

/- The target does not see bytes but captures: everything a master wrote in one
transaction, cut at the receive buffer with a flag that says so. -/

/-- The byte loop of `parse_packet`; `none` is its early return on a parse error. -/
def parseBytes (parser : Parser) (request : Option Request) :
    List UInt8 → Option (Parser × Option Request)
  | [] => some (parser, request)
  | byte :: packet =>
      match parser.push byte with
      -- a capture may hold several requests, and the last one wins
      | (.ok (some value), parser) => parseBytes parser (some value) packet
      | (.ok none, parser) => parseBytes parser request packet
      | (.error _, _) => none

/-- One I2C receive capture: its final complete frame, if it is nothing but
complete frames. -/
def parsePacket (packet : List UInt8) (truncated : Bool) : Option Request :=
  if truncated then none
  else
    match parseBytes Parser.new none packet with
    | none => none
    -- a frame that has begun must have ended
    | some (parser, request) => if parser.length ≠ 0 then none else request

end OptiBridge
