import OptiBridge.Dispatch
import OptiBridge.Lib.Checked

/-!
# OptiBridge.RawProtocol

The frame protocol once more, on the data as the source declares it and with
every operation that may panic spelled out: a request's payload length, what the
parser has buffered and the length of a queued status are plain numbers here, and
nothing but the code keeps them in bounds.

On data that is in bounds each function gives what its model gives.

The lemmas are one for each function, under its name with `raw` in front, and a
caller's lemma uses its callees': what is shown of `push` is used for
`parseBytes`, and that for `parsePacket`.  None of them has a hypothesis about
lengths where the model's types carry the bound.
-/

namespace OptiBridge

open Bytes

namespace Raw

/-! ## data -/

/- The source's structures, with the fields it has and no more. -/

/-- A request whose length field is any byte. -/
structure Request where
  command : UInt8
  sequence : UInt8
  flags : UInt8
  payload : Vector UInt8 maxPayload
  payloadLen : UInt8

/-- A queue whose length field is any byte. -/
structure StatusQueue where
  newest : Vector UInt8 maxPayload
  newestLen : UInt8

/-- A parser whose length is any number. -/
structure Parser where
  frame : Vector UInt8 maxFrame
  length : Nat

end Raw

/-- Drop the bound. -/
abbrev Request.raw (self : Request) : Raw.Request where
  command := self.command
  sequence := self.sequence
  flags := self.flags
  payload := self.payload
  payloadLen := self.payloadLen

/-- Drop the bound of a queue. -/
abbrev StatusQueue.raw (self : StatusQueue) : Raw.StatusQueue where
  newest := self.newest
  newestLen := self.newestLen

/-- Drop the bound of a parser. -/
abbrev Parser.raw (self : Parser) : Raw.Parser where
  frame := self.frame
  length := self.length

namespace Raw

open Checked

/-! ## the parser -/

/- The parser of the source, statement by statement.  Its two tests on the length
byte index the buffer again each time, as the source does. -/

namespace Parser

/-- A parser between two frames. -/
def new : Parser := ⟨Vector.replicate _ 0, 0⟩

/-- Forget what is buffered. -/
def reset (self : Parser) : Parser := { self with length := 0 }

/-- Whether the header is complete and its length too long. -/
def tooLong (frame : Vector UInt8 maxFrame) (length : Nat) : Checked Bool :=
  if length = headerLen then do
    let payloadLen ← index frame 2
    pure (decide (maxPayload < payloadLen.toNat))
  else pure false

/-- Whether the frame is complete. -/
def complete (frame : Vector UInt8 maxFrame) (length : Nat) : Checked Bool :=
  if headerLen ≤ length then do
    let payloadLen ← index frame 2
    let total ← add 32 headerLen payloadLen.toNat
    pure (decide (length = total))
  else pure false

/-- The request of a complete frame. -/
def request (frame : Vector UInt8 maxFrame) (length : Nat) : Checked Request := do
  let payloadLen ← index frame 2
  let body ← slice frame.toList headerLen length
  let payload ← copyFromSlice (Vector.replicate maxPayload 0) 0 payloadLen.toNat body
  let command ← index frame 1
  let sequence ← index frame 3
  let flags ← index frame 4
  let payloadLen ← cast 8 payloadLen.toNat
  pure ⟨command, sequence, flags, payload, UInt8.ofNat payloadLen⟩

/-- Feed one byte. -/
def push (self : Parser) (byte : UInt8) :
    Checked (Except ParseError (Option Request) × Parser) :=
  if self.length = 0 ∧ byte ≠ magic then pure (.error .badMagic, self)
  else if self.length = maxFrame then pure (.error .frameTooLong, self.reset)
  else do
    let frame ← set self.frame self.length byte
    let length ← add 32 self.length 1
    if ← tooLong frame length then pure (.error .badLength, reset ⟨frame, length⟩)
    else if ← complete frame length then
      let request ← request frame length
      pure (.ok (some request), reset ⟨frame, length⟩)
    else pure (.ok none, ⟨frame, length⟩)

end Parser

/-- The byte loop of `parse_packet`. -/
def parseBytes (parser : Parser) (request : Option Request) :
    List UInt8 → Checked (Option (Parser × Option Request))
  | [] => pure (some (parser, request))
  | byte :: packet => do
      match ← parser.push byte with
      | (.ok (some value), parser) => parseBytes parser (some value) packet
      | (.ok none, parser) => parseBytes parser request packet
      | (.error _, _) => pure none

/-- One I2C capture. -/
def parsePacket (packet : List UInt8) (truncated : Bool) : Checked (Option Request) :=
  if truncated then pure none
  else do
    match ← parseBytes Parser.new none packet with
    | none => pure none
    | some (parser, request) => if parser.length ≠ 0 then pure none else pure request

/-! ## responses -/

/- The encoder computes the end of the frame twice, once to copy and once to
return it; both sums are checked. -/

/-- Hand the newest message over.  The slice is where a length above 16 would
panic. -/
def StatusQueue.pop (self : StatusQueue) : Checked (List UInt8 × StatusQueue) := do
  let newest ← slice self.newest.toList 0 self.newestLen.toNat
  pure (newest, { self with newestLen := 0 })

/-- Write a response frame.  The payload is checked first, so the copy and the
cast that follow it are safe. -/
def encodeResponse (status sequence flags : UInt8) (payload : List UInt8) (output : Output) :
    Checked (Except ParseError Nat × Output) :=
  if maxPayload < payload.length then pure (.error .badLength, output)
  else do
    let output ← set output 0 magic
    let output ← set output 1 status
    let len ← cast 8 payload.length
    let output ← set output 2 (UInt8.ofNat len)
    let output ← set output 3 sequence
    let output ← set output 4 flags
    let frameEnd ← add 32 headerLen payload.length
    let output ← copyFromSlice output headerLen frameEnd payload
    let length ← add 32 headerLen payload.length
    pure (.ok length, output)

/-- `response`.  That the encoder does not fail is an assertion here; the source
would answer with a bare header. -/
def response (status sequence : UInt8) (payload : List UInt8) (output : Output) :
    Checked (PacketOutcome × Output) := do
  match ← encodeResponse status sequence 0 payload output with
  | (.ok length, output) => pure (.response length, output)
  | (.error _, output) =>
      ensure False
      pure (.response headerLen, output)

end Raw

/-! ## in bounds, nothing panics -/

section bounds

open Checked

/-- The parser's answer, with the bounds dropped. -/
def rawAnswer (answer : Except ParseError (Option Request)) :
    Except ParseError (Option Raw.Request) := answer.map (Option.map Request.raw)

/-- A byte of the header. -/
theorem index_frame (frame : Vector UInt8 maxFrame) {i : Nat} (h : i < 21) :
    index frame i = .ok frame[i] := index_vector frame h

theorem tooLong_ok (frame : Vector UInt8 maxFrame) (length : Nat) :
    Raw.Parser.tooLong frame length =
      .ok (decide (length = headerLen ∧ maxPayload < frame[2].toNat)) := by
  unfold Raw.Parser.tooLong
  split_ifs with h
  · simp [h, index_frame]
  · simp [h]

/-- So does it when the frame may be complete, and the sum that is compared with
the length stays far below the width of `usize`. -/
theorem complete_ok (frame : Vector UInt8 maxFrame) (length : Nat) :
    Raw.Parser.complete frame length =
      .ok (decide (headerLen ≤ length ∧ length = headerLen + frame[2].toNat)) := by
  unfold Raw.Parser.complete
  split_ifs with h
  · have hlen : frame[2].toNat < 256 := frame[2].toNat_lt
    have hsum : headerLen + frame[2].toNat < 2 ^ 32 := by
      show 5 + _ < 2 ^ 32
      omega
    simp [h, index_frame, add_ok hsum]
  · simp [h]

/-- A complete frame that fits the buffer has a body that fits the payload: the
slice, the copy and the cast of its length all succeed. -/
theorem request_ok {frame : Vector UInt8 maxFrame} {length : Nat} (hlength : length ≤ maxFrame)
    (h : length = headerLen + frame[2].toNat) :
    Raw.Parser.request frame length =
      .ok ⟨frame[1], frame[3], frame[4],
        copySlice (Vector.replicate _ 0) 0 ((frame.toList.take length).drop headerLen),
        frame[2]⟩ := by
  have hlen : frame[2].toNat ≤ 16 := Parser.payloadLen_le_of_frame hlength h
  have hbody : slice frame.toList headerLen length =
      .ok ((frame.toList.take length).drop headerLen) :=
    slice_ok (by omega) (by simpa using hlength)
  have hcount : ((frame.toList.take length).drop headerLen).length = frame[2].toNat := by
    have hlength : length ≤ 21 := hlength
    simp
    omega
  have hcast : frame[2].toNat < 2 ^ 8 := by omega
  unfold Raw.Parser.request
  rw [index_frame _ (by decide), ok_bind, hbody, ok_bind,
    copyFromSlice_ok _ (by rw [hcount, Nat.zero_add]) hlen, ok_bind, index_frame _ (by decide),
    ok_bind, index_frame _ (by decide), ok_bind, index_frame _ (by decide), ok_bind,
    cast_ok hcast, ok_bind, UInt8.ofNat_toNat]
  rfl

/-- A byte is parsed as in the model, with an answer and a parser that forget
their bounds. -/
theorem raw_push (parser : Parser) (byte : UInt8) :
    parser.raw.push byte = .ok (rawAnswer (parser.push byte).1, (parser.push byte).2.raw) := by
  unfold Raw.Parser.push Parser.push
  by_cases hstart : parser.length = 0 ∧ byte ≠ magic
  · simp only [if_pos hstart]
    rfl
  simp only [if_neg hstart]
  by_cases hfull : parser.length = maxFrame
  · simp only [if_pos hfull, dif_pos hfull]
    rfl
  have hlt : parser.length < 21 := Nat.lt_of_le_of_ne parser.length_le hfull
  simp only [if_neg hfull, dif_neg hfull]
  rw [set_ok _ _ hlt, ok_bind, add_ok (by omega), ok_bind]
  simp only [tooLong_ok, complete_ok, ok_bind, decide_eq_true_eq]
  split_ifs with htooLong hdone
  · rfl
  · rw [request_ok hlt hdone.2, ok_bind]
    rfl
  · rfl

/-- What the byte loop holds, with the bounds dropped. -/
def rawParsed (parsed : Parser × Option Request) : Raw.Parser × Option Raw.Request :=
  (parsed.1.raw, parsed.2.map Request.raw)

/-- Whatever the bytes are, the loop goes through them without a panic. -/
theorem raw_parseBytes (parser : Parser) (request : Option Request) (packet : List UInt8) :
    Raw.parseBytes parser.raw (request.map Request.raw) packet =
      .ok ((parseBytes parser request packet).map rawParsed) := by
  induction packet generalizing parser request with
  | nil => rfl
  | cons byte packet ih =>
      unfold Raw.parseBytes parseBytes
      rw [raw_push, ok_bind]
      obtain ⟨answer, next⟩ := parser.push byte
      cases answer with
      | error error => rfl
      | ok answer =>
          cases answer with
          | none => exact ih next request
          | some value => exact ih next (some value)

/-- A capture of any bytes and any length is parsed without a panic. -/
theorem raw_parsePacket (packet : List UInt8) (truncated : Bool) :
    Raw.parsePacket packet truncated =
      .ok ((parsePacket packet truncated).map Request.raw) := by
  unfold Raw.parsePacket parsePacket
  split_ifs with htruncated
  · rfl
  · have hloop := raw_parseBytes Parser.new none packet
    have hnew : Raw.Parser.new = Parser.new.raw := rfl
    rw [hnew]
    simp only [Option.map_none] at hloop
    rw [hloop, ok_bind]
    cases parseBytes Parser.new none packet with
    | none => rfl
    | some parsed =>
        obtain ⟨parser, request⟩ := parsed
        simp only [Option.map_some, rawParsed]
        split_ifs <;> rfl

/-- A queue that keeps its bound is popped without a panic. -/
theorem raw_pop (statusQueue : StatusQueue) :
    statusQueue.raw.pop = .ok (statusQueue.pop.1, statusQueue.pop.2.raw) := by
  have hlen : statusQueue.newestLen.toNat ≤ statusQueue.newest.toList.length := by
    simpa using statusQueue.newestLen_le
  unfold Raw.StatusQueue.pop
  rw [slice_zero hlen]
  rfl

-- A length that no code keeps in bounds does panic.
example : Raw.StatusQueue.pop ⟨Vector.replicate _ 0, 17⟩ = .error .outOfBounds := rfl

/-- The encoder never panics: a payload that is too long is an error before
anything is written. -/
theorem raw_encodeResponse (status sequence flags : UInt8) (payload : List UInt8)
    (output : Output) :
    Raw.encodeResponse status sequence flags payload output =
      .ok (encodeResponse status sequence flags payload output) := by
  unfold Raw.encodeResponse encodeResponse
  split_ifs with hlong
  · rfl
  · have hlen : payload.length ≤ 16 := Nat.le_of_not_lt hlong
    have hend : headerLen + payload.length < 2 ^ 32 := by
      show 5 + _ < 2 ^ 32
      omega
    have hfits : headerLen + payload.length ≤ maxFrame := Nat.add_le_add_left hlen headerLen
    rw [set_ok _ _ (by decide), ok_bind, set_ok _ _ (by decide), ok_bind,
      cast_ok (by omega), ok_bind, set_ok _ _ (by decide), ok_bind, set_ok _ _ (by decide),
      ok_bind, set_ok _ _ (by decide), ok_bind, add_ok hend, ok_bind, copyFromSlice_ok _ rfl hfits,
      ok_bind, ok_bind]
    rfl

/-- A payload that fits is encoded: the response is never a bare header. -/
theorem raw_response (status sequence : UInt8) {payload : List UInt8} (output : Output)
    (h : payload.length ≤ maxPayload) :
    Raw.response status sequence payload output =
      .ok (response status sequence payload output) := by
  obtain ⟨output', hencode, -⟩ := encodeResponse_of_le status sequence 0 output h
  unfold Raw.response response
  rw [raw_encodeResponse, ok_bind, hencode]
  rfl

end bounds

end OptiBridge
