import OptiBridge.Stream

/-!
# OptiBridge.Bridge

The USB bridge: its session loop reads CDC packets into a frame-sized buffer,
feeds the parser, and answers each request after its I2C transaction.  The
session is modelled while DTR stays high and CDC writes succeed, over any I2C
master; `exchanges` says what it is for, one transaction and one response for
each frame of the stream.

What may go wrong is part of the model.  A packet that is longer than the buffer
makes the read fail, and the source then resets the microcontroller; `session`
ends there.  An encoder error would panic, and is shown never to happen.
-/

namespace OptiBridge

open Bytes

/-! ## the session loop -/

/- The loop of `main`, with the actions it takes written down in order. -/

/-- The I2C master: how a transaction ends, and what a read leaves in the slice
it was given. -/
class I2cMaster (I : Type) where
  write : I → UInt8 → List UInt8 → Except Unit Unit × I
  read : I → UInt8 → (count : Nat) → Except Unit Unit × Vector UInt8 count × I

/-- What the bridge is seen to do; `panic` is its `unreachable!()`. -/
inductive Action where
  | i2cWrite (address : UInt8) (bytes : List UInt8)
  | i2cRead (address : UInt8) (count : Nat)
  | writePacket (bytes : List UInt8)
  | reset
  | panic
deriving DecidableEq

/-- The arm of `handle_request` that serves a request. -/
inductive Arm where
  | rejected (status : UInt8)
  | write
  | read
  | badReadLength
  | unreachable

/-- What lives across packets. -/
structure Session (I : Type) where
  i2c : I
  parser : Parser
  readBuffer : Vector UInt8 16
  output : Vector UInt8 maxFrame

/-- The arm a request is handled by. -/
def armOf (request : Request) : Arm :=
  match validateI2cRequest request with
  | .error status => .rejected status
  | .ok _ =>
      if request.command = cmdI2cWrite then .write
      else if request.command = cmdI2cRead then
        if request.payloadLen.toNat = 2 ∧
            (byteAt request.payload 1 rfl).toNat ≤ 16 then .read
        else .badReadLength
      else .unreachable

/-- `if result.is_ok() { STATUS_OK } else { STATUS_BAD_COMMAND }`. -/
def resultStatus (result : Except Unit Unit) : UInt8 :=
  match result with
  | .ok _ => statusOk
  | .error _ => statusBadCommand

namespace Session

variable {I : Type}

/-- `encode_response(..).unwrap_or(5)`, with zero flags. -/
def encode (s : Session I) (status sequence : UInt8) (payload : List UInt8) : Nat × Session I :=
  match encodeResponse status sequence 0 payload s.output with
  | (.ok length, output) => (length, { s with output := output })
  | (.error _, output) => (5, { s with output := output })

variable [I2cMaster I]

/-- The response length, unless it panicked. -/
def handleRequest (s : Session I) (request : Request) :
    Option Nat × Session I × List Action :=
  let address := byteAt request.payload 0 rfl
  match armOf request with
  | .rejected status =>
      let encoded := s.encode status request.sequence []
      (some encoded.1, encoded.2, [])
  | .write =>
      let bytes := request.bytes.drop 1
      let written := I2cMaster.write s.i2c address bytes
      let encoded := { s with i2c := written.2 }.encode (resultStatus written.1) request.sequence []
      (some encoded.1, encoded.2, [.i2cWrite address bytes])
  | .read =>
      let count := (byteAt request.payload 1 rfl).toNat
      let result := I2cMaster.read s.i2c address count
      -- a read that fails may have written to the buffer too
      let readBuffer := copySlice s.readBuffer 0 result.2.1.toList
      let payload := match result.1 with
        | .ok _ => readBuffer.toList.take count
        | .error _ => []
      let encoded := { s with i2c := result.2.2, readBuffer := readBuffer }.encode
        (resultStatus result.1) request.sequence payload
      (some encoded.1, encoded.2, [.i2cRead address count])
  | .badReadLength =>
      let encoded := s.encode statusBadLength request.sequence []
      (some encoded.1, encoded.2, [])
  | .unreachable => (none, s, [.panic])

/-- The body of the byte loop; `none` once the bridge has panicked. -/
def pushByte (s : Session I) (byte : UInt8) : Option (Session I) × List Action :=
  match s.parser.push byte with
  | (.ok (some request), parser) =>
      match { s with parser := parser }.handleRequest request with
      | (some length, s, actions) =>
          (some s, actions ++ [.writePacket (s.output.toList.take length)])
      | (none, _, actions) => (none, actions)
  | (.ok none, parser) => (some { s with parser := parser }, [])
  -- what cannot be part of a frame is dropped, and the host is not told
  | (.error _, parser) => (some { s with parser := parser.reset }, [])

/-- `for byte in input[..received]`. -/
def pushBytes (s : Session I) : List UInt8 → Option (Session I) × List Action
  | [] => (some s, [])
  | byte :: bytes =>
      match s.pushByte byte with
      | (none, actions) => (none, actions)
      | (some s, actions) =>
          let rest := s.pushBytes bytes
          (rest.1, actions ++ rest.2)

/-- `cdc.read_packet(&mut input)`: a packet that does not fit the frame-sized
`input` is an error. -/
def readPacket (packet : List UInt8) : Except Unit (List UInt8) :=
  if packet.length ≤ maxFrame then .ok packet else .error ()

/-- The packet loop; a read error resets the bridge. -/
def serve (s : Session I) : List (List UInt8) → List Action
  | [] => []
  | packet :: packets =>
      match readPacket packet with
      -- the packets behind it are never read
      | .error _ => [.reset]
      | .ok bytes =>
          match s.pushBytes bytes with
          | (none, actions) => actions
          | (some s, actions) => actions ++ s.serve packets

/-- A session: the parser is reset, then packets are served. -/
def session (s : Session I) (packets : List (List UInt8)) : List Action :=
  { s with parser := s.parser.reset }.serve packets

end Session

/-! ## what a session is for -/

/- The abstract bridge: one transaction and one response for each valid frame,
one response for each invalid one, and nothing for anything else. -/

section exchanges

variable {I : Type} [I2cMaster I]

/-- One response with a status and no payload. -/
def statusFrame (status sequence : UInt8) : Frame := ⟨status, sequence, 0, [], Nat.zero_le _⟩

/-- The response to a read: the bytes read, if it succeeded. -/
def readFrame (sequence : UInt8) {count : Nat} (result : Except Unit Unit)
    (bytes : Vector UInt8 count) : Frame :=
  match result with
  | .ok _ =>
      if h : count ≤ maxPayload then ⟨statusOk, sequence, 0, bytes.toList, by simpa using h⟩
      else statusFrame statusBadLength sequence
  | .error _ => statusFrame statusBadCommand sequence

/-- One request, served on its own: its transaction, then its response. -/
def exchange (i2c : I) (request : Request) : List Action × I :=
  let address := byteAt request.payload 0 rfl
  match validateI2cRequest request with
  | .error status => ([.writePacket (statusFrame status request.sequence).bytes], i2c)
  | .ok _ =>
      if request.command = cmdI2cWrite then
        let bytes := request.bytes.drop 1
        let written := I2cMaster.write i2c address bytes
        ([.i2cWrite address bytes,
          .writePacket (statusFrame (resultStatus written.1) request.sequence).bytes], written.2)
      else
        let count := (byteAt request.payload 1 rfl).toNat
        let result := I2cMaster.read i2c address count
        ([.i2cRead address count,
          .writePacket (readFrame request.sequence result.1 result.2.1).bytes], result.2.2)

/-- Requests served one after another, one group of actions each. -/
def exchanges (i2c : I) : List Request → List (List Action)
  | [] => []
  | request :: requests =>
      let served := exchange i2c request
      served.1 :: exchanges served.2 requests

/-- The master after requests have been served. -/
def afterExchanges (i2c : I) (requests : List Request) : I :=
  requests.foldl (fun i2c request => (exchange i2c request).2) i2c

theorem exchanges_append (i2c : I) (xs ys : List Request) :
    exchanges i2c (xs ++ ys) = exchanges i2c xs ++ exchanges (afterExchanges i2c xs) ys := by
  induction xs generalizing i2c with
  | nil => rfl
  | cons x xs ih => exact congrArg _ (ih (exchange i2c x).2)

theorem afterExchanges_append (i2c : I) (xs ys : List Request) :
    afterExchanges i2c (xs ++ ys) = afterExchanges (afterExchanges i2c xs) ys := by
  simp [afterExchanges]

end exchanges

/-! ## one request -/

/- Handling a request is exchanging it. -/

/-- What a valid bridge request asks for. -/
theorem validateI2cRequest_ok {request : Request} (h : validateI2cRequest request = .ok ()) :
    request.command = cmdI2cWrite ∨
      (request.command = cmdI2cRead ∧ request.payloadLen.toNat = 2 ∧
        request.payload[1].toNat ≤ maxPayload) := by
  unfold validateI2cRequest at h
  split_ifs at h with hflags hcommand hlen haddress hread
  by_cases hwrite : request.command = cmdI2cWrite
  · exact .inl hwrite
  · have hcmd : request.command = cmdI2cRead := by_contra fun hne => hcommand ⟨hwrite, hne⟩
    simp only [hcmd, true_and, not_or, not_not, Nat.not_lt] at hread
    exact .inr ⟨hcmd, hread⟩

/-- Every way a request goes through the match of `handle_request`. -/
inductive ArmStep (request : Request) : Arm → Prop where
  | rejected {status : UInt8} (hvalid : validateI2cRequest request = .error status) :
      ArmStep request (.rejected status)
  | write (hvalid : validateI2cRequest request = .ok ()) (hwrite : request.command = cmdI2cWrite) :
      ArmStep request .write
  | read (hvalid : validateI2cRequest request = .ok ()) (hread : request.command ≠ cmdI2cWrite)
      (hcount : request.payload[1].toNat ≤ maxPayload) : ArmStep request .read

/-- **Arms.** The second read arm and the `unreachable!()` are never reached. -/
theorem arm_step (request : Request) : ArmStep request (armOf request) := by
  unfold armOf
  cases hvalid : validateI2cRequest request with
  | error status => exact .rejected hvalid
  | ok value =>
      cases validateI2cRequest_ok hvalid with
      | inl hwrite =>
          simp only [hwrite, if_true]
          exact .write hvalid hwrite
      | inr h =>
          obtain ⟨hread, hlen, hcount⟩ := h
          have hne : cmdI2cRead ≠ cmdI2cWrite := by decide
          have hfits : request.payload[1].toNat ≤ 16 := hcount
          simp only [hread, if_neg hne, if_true, hlen, hfits, and_self]
          exact .read hvalid (by rw [hread]; exact hne) hcount

namespace Session

variable {I : Type}

/-- The response buffer holds the frame it was given. -/
theorem encode_frame (s : Session I) (f : Frame) (hflags : f.flags = 0) :
    ∃ output, s.encode f.command f.sequence f.payload =
        (headerLen + f.payload.length, { s with output := output }) ∧
      output.toList.take (headerLen + f.payload.length) = f.bytes := by
  obtain ⟨output, hencode, hbytes⟩ := encodeResponse_frame f s.output
  refine ⟨output, ?_, hbytes⟩
  rw [encode, ← hflags, hencode]

variable [I2cMaster I]

/-- **Request step.** Handling a request is the exchange it asks for. -/
theorem handleRequest_exchange (s : Session I) (request : Request) :
    ∃ length s' actions, s.handleRequest request = (some length, s', actions) ∧
      s'.parser = s.parser ∧ s'.i2c = (exchange s.i2c request).2 ∧
      actions ++ [.writePacket (s'.output.toList.take length)] =
        (exchange s.i2c request).1 := by
  have hstep := arm_step request
  unfold handleRequest exchange
  generalize armOf request = arm at hstep ⊢
  cases hstep with
  | @rejected status hvalid =>
      obtain ⟨output, hencode, hbytes⟩ := s.encode_frame (statusFrame status request.sequence) rfl
      simp only [hvalid, show s.encode status request.sequence [] = _ from hencode]
      exact ⟨_, _, _, rfl, rfl, rfl, congrArg (fun bytes => [Action.writePacket bytes]) hbytes⟩
  | write hvalid hwrite =>
      simp only [hvalid, hwrite, if_true]
      generalize I2cMaster.write s.i2c request.payload[0] (request.bytes.drop 1) = written
      obtain ⟨output, hencode, hbytes⟩ := Session.encode_frame { s with i2c := written.2 }
        (statusFrame (resultStatus written.1) request.sequence) rfl
      simp only [statusFrame] at hencode
      simp only [hencode]
      exact ⟨_, _, _, rfl, rfl, rfl,
        congrArg (fun bytes => [Action.i2cWrite _ _, .writePacket bytes]) hbytes⟩
  | read hvalid hread hcount =>
      simp only [hvalid, if_neg hread]
      generalize I2cMaster.read s.i2c request.payload[0] request.payload[1].toNat = result
      obtain ⟨ended, bytes, i2c⟩ := result
      simp only
      have hfront : (copySlice s.readBuffer 0 bytes.toList).toList.take request.payload[1].toNat =
          bytes.toList := by
        have htake := take_copySlice_zero s.readBuffer bytes.toList (by simpa using hcount)
        rwa [Vector.length_toList] at htake
      have hframe : ∃ f, f = readFrame request.sequence ended bytes ∧
          f.command = resultStatus ended ∧
          f.sequence = request.sequence ∧ f.flags = 0 ∧
          f.payload = match ended with
            | .ok _ => (copySlice s.readBuffer 0 bytes.toList).toList.take
                request.payload[1].toNat
            | .error _ => [] := by
        cases ended with
        | error => exact ⟨_, rfl, rfl, rfl, rfl, rfl⟩
        | ok =>
            rw [hfront, readFrame, dif_pos hcount]
            exact ⟨_, rfl, rfl, rfl, rfl, rfl⟩
      obtain ⟨f, hf, hcommand, hsequence, hflags, hpayload⟩ := hframe
      rw [← hcommand, ← hsequence, ← hpayload, hsequence, ← hf]
      obtain ⟨output, hencode, hbytes⟩ := Session.encode_frame
        { s with i2c := i2c, readBuffer := copySlice s.readBuffer 0 bytes.toList } f hflags
      rw [hsequence] at hencode
      simp only [hencode]
      exact ⟨_, _, _, rfl, rfl, rfl,
        congrArg (fun bytes => [Action.i2cRead _ _, .writePacket bytes]) hbytes⟩

/-! ## bytes and packets -/

/- A session that is fed bytes serves the frames they complete, whatever it held
before. -/

/-- The session has served these frames, and holds what the stream goes on
with. -/
structure Served (s s' : Session I) (bytes : List UInt8) (frames : List Frame)
    (actions : List Action) : Prop where
  held : PartialFrame s'.parser.buffered
  i2c : s'.i2c = afterExchanges s.i2c (frames.map Frame.request)
  actions : actions = (exchanges s.i2c (frames.map Frame.request)).flatten
  stream : ∀ rest, framesOf (s.parser.buffered ++ (bytes ++ rest)) =
    frames ++ framesOf (s'.parser.buffered ++ rest)

theorem Served.trans {s s' s'' : Session I} {bytes bytes' : List UInt8}
    {frames frames' : List Frame} {actions actions' : List Action}
    (h : Served s s' bytes frames actions) (h' : Served s' s'' bytes' frames' actions') :
    Served s s'' (bytes ++ bytes') (frames ++ frames') (actions ++ actions') where
  held := h'.held
  i2c := by rw [h'.i2c, h.i2c, List.map_append, afterExchanges_append]
  actions := by
    rw [h.actions, h'.actions, h.i2c, List.map_append, exchanges_append, List.flatten_append]
  stream := fun rest => by
    rw [List.append_assoc, h.stream, h'.stream, List.append_assoc]

/-- Nothing served yet. -/
theorem Served.quiet {s s' : Session I} {bytes : List UInt8}
    (hheld : PartialFrame s'.parser.buffered) (hi2c : s'.i2c = s.i2c)
    (hstream : ∀ rest, framesOf (s.parser.buffered ++ (bytes ++ rest)) =
      framesOf (s'.parser.buffered ++ rest)) : Served s s' bytes [] [] :=
  ⟨hheld, hi2c, rfl, hstream⟩

/-- **Byte step.** One byte serves the frame it completes, if any. -/
theorem pushByte_served {s : Session I} (h : PartialFrame s.parser.buffered) (byte : UInt8) :
    ∃ s' frames actions, s.pushByte byte = (some s', actions) ∧
      Served s s' [byte] frames actions := by
  have hstep := Parser.push_step h byte
  unfold pushByte
  generalize s.parser.push byte = pushed at hstep ⊢
  cases hstep with
  | noise hempty hbyte =>
      refine ⟨_, [], [], rfl, .quiet .empty rfl fun rest => ?_⟩
      rw [hempty]
      exact framesOf_noise hbyte rest
  | malformed hheader hlen hnext =>
      refine ⟨_, [], [], rfl, .quiet .empty rfl fun rest => ?_⟩
      rw [← List.append_assoc, hheader]
      exact framesOf_malformed hlen rest
  | @complete next f hframe hnext =>
      obtain ⟨length, s', actions, hhandle, hparser, hi2c, hactions⟩ :=
        handleRequest_exchange { s with parser := next } f.request
      have hheld : s'.parser.buffered = [] := by rw [hparser, hnext]
      simp only [hhandle]
      refine ⟨s', [f], _, rfl, hheld ▸ .empty, hi2c, ?_, fun rest => ?_⟩
      · rw [hactions]
        simp [exchanges]
      · rw [← List.append_assoc, hframe, framesOf_frame, hheld]
        rfl
  | more hnext hunfinished =>
      refine ⟨_, [], [], rfl, .quiet hunfinished rfl fun rest => ?_⟩
      rw [← List.append_assoc, ← hnext]

/-- Any bytes are served. -/
theorem pushBytes_served {s : Session I} (h : PartialFrame s.parser.buffered)
    (bytes : List UInt8) :
    ∃ s' frames actions, s.pushBytes bytes = (some s', actions) ∧
      Served s s' bytes frames actions := by
  induction bytes generalizing s with
  | nil => exact ⟨s, [], [], rfl, .quiet h rfl fun _ => rfl⟩
  | cons byte bytes ih =>
      obtain ⟨s', frames, actions, hpush, hserved⟩ := pushByte_served h byte
      obtain ⟨s'', frames', actions', hpush', hserved'⟩ := ih hserved.held
      refine ⟨s'', frames ++ frames', actions ++ actions', ?_, hserved.trans hserved'⟩
      simp only [pushBytes, hpush, hpush']

/-- **Packets.** While every packet fits the buffer, the actions are the
exchanges of the frames of the stream. -/
theorem serve_fitting {s : Session I} (h : PartialFrame s.parser.buffered)
    {packets : List (List UInt8)} (hfit : ∀ packet ∈ packets, packet.length ≤ maxFrame) :
    s.serve packets =
      (exchanges s.i2c
        ((framesOf (s.parser.buffered ++ packets.flatten)).map Frame.request)).flatten := by
  induction packets generalizing s with
  | nil => simp [serve, framesOf_partialFrame h, exchanges]
  | cons packet packets ih =>
      obtain ⟨s', frames, actions, hpush, hserved⟩ := pushBytes_served h packet
      have hpacket : readPacket packet = .ok packet := if_pos (hfit packet (List.mem_cons_self ..))
      have hrest := ih hserved.held fun p hp => hfit p (List.mem_cons_of_mem _ hp)
      simp only [serve, hpacket, hpush]
      rw [hrest, hserved.actions, hserved.i2c, List.flatten_cons, hserved.stream, List.map_append,
        exchanges_append, List.flatten_append]

/-- A packet that does not fit resets the bridge. -/
theorem serve_overlong {s : Session I} (h : PartialFrame s.parser.buffered)
    {packets : List (List UInt8)} (hlong : ∃ packet ∈ packets, maxFrame < packet.length) :
    .reset ∈ s.serve packets := by
  induction packets generalizing s with
  | nil =>
      obtain ⟨packet, hpacket, -⟩ := hlong
      contradiction
  | cons packet packets ih =>
      by_cases hfit : packet.length ≤ maxFrame
      · obtain ⟨s', frames, actions, hpush, hserved⟩ := pushBytes_served h packet
        have hread : readPacket packet = .ok packet := if_pos hfit
        simp only [serve, hread, hpush, List.mem_append]
        obtain ⟨p, hp, hlt⟩ := hlong
        cases List.mem_cons.mp hp with
        | inl heq => exact absurd (heq ▸ hlt) (Nat.not_lt.mpr hfit)
        | inr hmem => exact .inr (ih hserved.held ⟨p, hmem, hlt⟩)
      · have hread : readPacket packet = .error () := if_neg hfit
        simp [serve, hread]

end Session

/-! ## the session theorem -/

/- A session answers each frame if and only if every packet fits its buffer. -/

/-- One frame's share of a session: at most one transaction, then its response,
which carries bytes only when a read has succeeded, and then as many as were
asked for. -/
def Answers (f : Frame) (group : List Action) : Prop :=
  ∃ (operation : Option Action) (response : Frame),
    group = operation.toList ++ [.writePacket response.bytes] ∧
      response.sequence = f.sequence ∧ response.flags = 0 ∧
      match operation with
      | none | some (.i2cWrite _ _) => response.payload = []
      | some (.i2cRead _ count) =>
          if response.command = statusOk then response.payload.length = count
          else response.payload = []
      | some (.writePacket _) | some .reset | some .panic => False

section

variable {I : Type} [I2cMaster I]

/-- **Exchange.** Serving a request is an answer to its sequence number. -/
theorem exchange_answers (i2c : I) {request : Request} {f : Frame}
    (hsequence : request.sequence = f.sequence) : Answers f (exchange i2c request).1 := by
  unfold exchange
  cases hvalid : validateI2cRequest request with
  | error status => exact ⟨none, statusFrame status request.sequence, rfl, hsequence, rfl, rfl⟩
  | ok value =>
      by_cases hwrite : request.command = cmdI2cWrite
      · simp only [hwrite, if_true]
        exact ⟨some (.i2cWrite _ _), statusFrame _ request.sequence, rfl, hsequence, rfl, rfl⟩
      · simp only [if_neg hwrite]
        have hcount : request.payload[1].toNat ≤ maxPayload := by
          cases validateI2cRequest_ok hvalid with
          | inl h => exact absurd h hwrite
          | inr h => exact h.2.2
        generalize I2cMaster.read i2c request.payload[0] request.payload[1].toNat = result
        obtain ⟨ended, bytes, i2c'⟩ := result
        refine ⟨some (.i2cRead request.payload[0] request.payload[1].toNat),
          readFrame request.sequence ended bytes, rfl, ?_⟩
        cases ended with
        | error =>
            have hne : ¬ statusBadCommand = statusOk := by decide
            simp only [readFrame, statusFrame, if_neg hne]
            exact ⟨hsequence, trivial, trivial⟩
        | ok =>
            simp only [readFrame, dif_pos hcount, if_true, Vector.length_toList]
            exact ⟨hsequence, trivial, trivial⟩

/-- Each frame is answered by its own group of actions. -/
theorem exchanges_answer (i2c : I) (frames : List Frame) :
    List.Forall₂ Answers frames (exchanges i2c (frames.map Frame.request)) := by
  induction frames generalizing i2c with
  | nil => exact .nil
  | cons f frames ih =>
      have hsequence : f.request.sequence = f.sequence := rfl
      exact .cons (exchange_answers i2c hsequence) (ih _)

/-- An answer neither resets nor panics. -/
theorem Answers.not_mem {f : Frame} {group : List Action} (h : Answers f group) :
    .reset ∉ group ∧ .panic ∉ group := by
  obtain ⟨operation, response, rfl, -, -, hshape⟩ := h
  cases operation with
  | none => simp
  | some action => cases action <;> simp_all

/-- Among the answers there is neither a reset nor a panic. -/
theorem answers_not_mem {frames : List Frame} {groups : List (List Action)}
    (h : List.Forall₂ Answers frames groups) :
    .reset ∉ groups.flatten ∧ .panic ∉ groups.flatten := by
  induction h with
  | nil => simp
  | cons hanswers _ ih =>
      obtain ⟨hreset, hpanic⟩ := hanswers.not_mem
      simp [hreset, hpanic, ih.1, ih.2]

/-- What a session owes its stream: it does not reset, no arm that should not be
reached is, and its actions are one answer for each frame of the stream, in
stream order, each finished before the next begins.  The answers are those of
the stream and the I2C outcomes alone, not of its packets. -/
structure SessionSound (s : Session I) (packets : List (List UInt8)) : Prop where
  noReset : .reset ∉ s.session packets
  noPanic : .panic ∉ s.session packets
  arms : ∀ f ∈ framesOf packets.flatten,
    armOf f.request ≠ .badReadLength ∧ armOf f.request ≠ .unreachable
  answers : ∃ groups, s.session packets = groups.flatten ∧
    groups = exchanges s.i2c ((framesOf packets.flatten).map Frame.request) ∧
    List.Forall₂ Answers (framesOf packets.flatten) groups

/-- **Sessions.** A session is sound exactly when every packet fits the
frame-sized receive buffer. -/
theorem session_sound_iff (s : Session I) (packets : List (List UInt8)) :
    SessionSound s packets ↔ ∀ packet ∈ packets, packet.length ≤ maxFrame := by
  constructor
  · intro h packet hpacket
    by_contra hlong
    have hheld : PartialFrame ({ s with parser := s.parser.reset } : Session I).parser.buffered :=
      .empty
    exact h.noReset (Session.serve_overlong hheld ⟨packet, hpacket, Nat.lt_of_not_le hlong⟩)
  · intro hfit
    have hserve : s.session packets =
        (exchanges s.i2c ((framesOf packets.flatten).map Frame.request)).flatten :=
      Session.serve_fitting (s := { s with parser := s.parser.reset }) PartialFrame.empty hfit
    have hanswers := exchanges_answer s.i2c (framesOf packets.flatten)
    refine ⟨?_, ?_, fun f _ => ?_, _, hserve, rfl, hanswers⟩
    · rw [hserve]
      exact (answers_not_mem hanswers).1
    · rw [hserve]
      exact (answers_not_mem hanswers).2
    · have hstep := arm_step f.request
      generalize armOf f.request = arm at hstep
      cases hstep <;> simp

end

/-- A bus on which every transaction succeeds and reads are zero. -/
instance quietBus : I2cMaster Unit where
  write := fun _ _ _ => (.ok (), ())
  read := fun _ _ count => (.ok (), Vector.replicate count 0, ())

/-- An eleven-byte request to write five bytes to device 0x72. -/
def writeFrame (sequence : UInt8) : Frame :=
  ⟨cmdI2cWrite, sequence, 0, [0x72, 1, 2, 3, 4, 5], by decide⟩

/-- A legal packet of two write requests resets the bridge. -/
theorem session_two_writes :
    let packet := (writeFrame 0).bytes ++ (writeFrame 1).bytes
    let s : Session Unit := ⟨(), Parser.new, Vector.replicate 16 0, Vector.replicate maxFrame 0⟩
    packet.length = 22 ∧ framesOf packet = [writeFrame 0, writeFrame 1] ∧
      ¬ SessionSound s [packet] := by
  intro packet s
  refine ⟨by decide, ?_, fun h => ?_⟩
  · rw [← List.append_nil packet, List.append_assoc, framesOf_frame, framesOf_frame, framesOf_nil]
  · have hheld :
        PartialFrame ({ s with parser := s.parser.reset } : Session Unit).parser.buffered :=
      .empty
    exact h.noReset (Session.serve_overlong hheld ⟨packet, List.mem_singleton_self _, by decide⟩)

end OptiBridge
