import OptiBridge.Protocol

/-!
# OptiBridge.Stream

What a byte stream says, stated on the stream as a whole: noise up to a magic
byte, a five-byte header whose length is too long, or a frame.  The parser, fed
byte by byte, holds a proper prefix of what it is reading and nothing else, and
so delivers exactly the frames of the stream, however the stream arrives.

Three definitions and the way between them:

* `framesOf`, the frames of a byte string, by recursion on the string as a
  whole;
* `PartialFrame`, a string that may still become a frame;
* `PushStep`, what `Parser.push` does, in terms of what is buffered.

`push_step` is the inversion lemma of the parser, and `encodeResponse_frame` the
only thing that has to be known of the encoder.
-/

namespace OptiBridge

open Bytes

/-! ## frames -/

/- What a frame is, and which ones a stream holds. -/

/-- A well-formed frame. -/
structure Frame where
  command : UInt8
  sequence : UInt8
  flags : UInt8
  payload : List UInt8
  payload_le : payload.length ≤ maxPayload

namespace Frame

/-- The bytes of a frame: header and payload. -/
def bytes (f : Frame) : List UInt8 :=
  magic :: f.command :: UInt8.ofNat f.payload.length :: f.sequence :: f.flags :: f.payload

/-- The request a frame carries, its payload padded with zeros. -/
def request (f : Frame) : Request :=
  { Request.ofPayload f.command f.sequence f.payload with flags := f.flags }

/-- A frame has five bytes of header and its payload. -/
@[simp] theorem length_bytes (f : Frame) : f.bytes.length = headerLen + f.payload.length := by
  simp only [bytes, List.length_cons]
  show _ = 5 + f.payload.length
  omega

end Frame

/-- The frames of a stream. -/
def framesOf : List UInt8 → List Frame
  | [] => []
  | byte :: rest =>
      if byte ≠ magic then framesOf rest
      else
        match rest with
        | command :: len :: sequence :: flags :: body =>
            if hlen : len.toNat ≤ maxPayload then
              if len.toNat ≤ body.length then
                ⟨command, sequence, flags, body.take len.toNat,
                  Nat.le_trans (List.length_take_le _ _) hlen⟩ ::
                  framesOf (body.drop len.toNat)
              else []
            -- of a header with a bad length nothing is read again
            else framesOf body
        | _ => []
termination_by stream => stream.length
decreasing_by
  all_goals simp only [List.length_cons, List.length_drop]
  all_goals omega

/-- No bytes, no frames. -/
@[simp] theorem framesOf_nil : framesOf [] = [] := by
  rw [framesOf]

/-- Bytes before a magic byte are noise. -/
theorem framesOf_noise {byte : UInt8} (h : byte ≠ magic) (rest : List UInt8) :
    framesOf (byte :: rest) = framesOf rest := by
  rw [framesOf.eq_def]
  exact if_pos h

/-- A header with a bad length is skipped. -/
theorem framesOf_malformed {command len sequence flags : UInt8} (h : maxPayload < len.toNat)
    (body : List UInt8) :
    framesOf (magic :: command :: len :: sequence :: flags :: body) = framesOf body := by
  rw [framesOf, if_neg (by simp), dif_neg (Nat.not_le.mpr h)]

/-- A frame is delivered, and the stream goes on after it. -/
theorem framesOf_frame (f : Frame) (rest : List UInt8) :
    framesOf (f.bytes ++ rest) = f :: framesOf rest := by
  obtain ⟨command, sequence, flags, payload, hpayload⟩ := f
  have hlen : (UInt8.ofNat payload.length).toNat = payload.length :=
    UInt8.toNat_ofNat_of_lt' (Nat.lt_of_le_of_lt hpayload (by decide))
  simp only [Frame.bytes, List.cons_append]
  rw [framesOf, if_neg (by simp), dif_pos (by rw [hlen]; exact hpayload),
    if_pos (by rw [hlen]; simp)]
  simp [hlen]

/-- A proper prefix of a frame. -/
inductive PartialFrame : List UInt8 → Prop where
  | empty : PartialFrame []
  | header {fields : List UInt8} (h : fields.length < 4) : PartialFrame (magic :: fields)
  | body {command len sequence flags : UInt8} {payload : List UInt8}
      (hlen : len.toNat ≤ maxPayload) (h : payload.length < len.toNat) :
      PartialFrame (magic :: command :: len :: sequence :: flags :: payload)

/-- It is shorter than any frame buffer. -/
theorem PartialFrame.length_lt {bytes : List UInt8} (h : PartialFrame bytes) :
    bytes.length < maxFrame := by
  cases h with
  | empty => decide
  | header h =>
      show _ < 21
      simp only [List.length_cons]
      omega
  | body hlen h =>
      have hlen : _ ≤ 16 := hlen
      show _ < 21
      simp only [List.length_cons]
      omega

/-- It delivers nothing yet. -/
theorem framesOf_partialFrame {bytes : List UInt8} (h : PartialFrame bytes) :
    framesOf bytes = [] := by
  cases h with
  | empty => exact framesOf_nil
  | @header fields h =>
      rw [framesOf.eq_def]
      match fields, h with
      | [], _ | [_], _ | [_, _], _ | [_, _, _], _ => rfl
  | body hlen h => rw [framesOf, if_neg (by simp), dif_pos hlen, if_neg (Nat.not_le.mpr h)]

/-! ## the parser, one byte at a time -/

/- What is buffered is the only state of the parser that matters; the bytes
behind it are leftovers. -/

namespace Parser

/-- What the parser has buffered. -/
def buffered (self : Parser) : List UInt8 := self.frame.toList.take self.length

@[simp] theorem length_buffered (self : Parser) : self.buffered.length = self.length := by
  simpa [buffered] using self.length_le

@[simp] theorem buffered_reset (self : Parser) : self.reset.buffered = [] := rfl

/-- One more byte in the buffer. -/
theorem buffered_set (self : Parser) (byte : UInt8) (h : self.length < maxFrame) :
    (self.frame.set self.length byte h).toList.take (self.length + 1) =
      self.buffered ++ [byte] := by
  rw [Vector.toList_set, List.take_add_one, List.take_set_of_le (Nat.le_refl _)]
  simp [buffered, h]

/-- Every way one byte goes. -/
inductive PushStep (self : Parser) (byte : UInt8) :
    Except ParseError (Option Request) × Parser → Prop where
  | noise (hempty : self.buffered = []) (hbyte : byte ≠ magic) :
      PushStep self byte (.error .badMagic, self)
  | malformed {next : Parser} {command len sequence flags : UInt8}
      (hheader : self.buffered ++ [byte] = [magic, command, len, sequence, flags])
      (hlen : maxPayload < len.toNat) (hnext : next.buffered = []) :
      PushStep self byte (.error .badLength, next)
  | complete {next : Parser} {f : Frame} (hframe : self.buffered ++ [byte] = f.bytes)
      (hnext : next.buffered = []) : PushStep self byte (.ok (some f.request), next)
  | more {next : Parser} (hnext : next.buffered = self.buffered ++ [byte])
      (hunfinished : PartialFrame next.buffered) : PushStep self byte (.ok none, next)

/-- A buffered byte, read back out of the frame. -/
theorem getElem_set_buffered (self : Parser) (byte : UInt8) (h : self.length < maxFrame) {i : Nat}
    (hi : i < maxFrame) {b : UInt8} (hb : (self.buffered ++ [byte])[i]? = some b) :
    (self.frame.set self.length byte h)[i] = b := by
  rw [← buffered_set self byte h, List.getElem?_take] at hb
  split at hb
  · simpa [hi] using hb
  · contradiction

/-- The request of a complete frame. -/
theorem request_eq {bytes : List UInt8} {command len sequence flags : UInt8}
    (hlen : len.toNat = bytes.length) (hle : len.toNat ≤ maxPayload) :
    ({ command := command
       sequence := sequence
       flags := flags
       payload := copySlice (Vector.replicate _ 0) 0 bytes
       payloadLen := len
       payloadLen_le := hle } : Request) =
      (⟨command, sequence, flags, bytes, hlen ▸ hle⟩ : Frame).request := by
  have hsame : len = UInt8.ofNat (min bytes.length maxPayload) := by
    rw [Nat.min_eq_left (hlen ▸ hle), ← hlen, UInt8.ofNat_toNat]
  simp only [Frame.request, Request.ofPayload, ← hsame]

/-- A byte that does not complete a header or a frame is kept. -/
theorem push_more {self : Parser} {byte : UInt8} (hstart : ¬ (self.length = 0 ∧ byte ≠ magic))
    (hunfinished : PartialFrame (self.buffered ++ [byte])) :
    PushStep self byte (self.push byte) := by
  have hlength : (self.buffered ++ [byte]).length = self.length + 1 := by simp
  have hroom : self.length + 1 < maxFrame := hlength ▸ hunfinished.length_lt
  have hget := fun i hi b => self.getElem_set_buffered byte (Nat.lt_of_succ_lt hroom) (i := i) hi
    (b := b)
  have hmore : ∃ next : Parser, self.push byte = (.ok none, next) ∧
      next.buffered = self.buffered ++ [byte] := by
    rw [push, if_neg hstart, dif_neg (Nat.ne_of_lt (Nat.lt_of_succ_lt hroom))]
    simp only
    generalize hbuf : self.buffered ++ [byte] = buf at hunfinished hlength hget
    cases hunfinished with
    | empty => simp at hbuf
    | @header fields h =>
        rw [List.length_cons] at hlength
        rw [if_neg (by show ¬ (_ = 5 ∧ _); omega), dif_neg (by show ¬ (5 ≤ _ ∧ _); omega)]
        exact ⟨_, rfl, hbuf ▸ self.buffered_set byte (Nat.lt_of_succ_lt hroom)⟩
    | @body command len sequence flags payload hlen h =>
        have hfield := hget 2 (by decide) len rfl
        simp only [List.length_cons] at hlength
        rw [if_neg (by rw [hfield]; exact fun h => absurd h.2 (Nat.not_lt.mpr hlen)),
          dif_neg (by rw [hfield]; show ¬ (5 ≤ _ ∧ _ = 5 + _); omega)]
        exact ⟨_, rfl, hbuf ▸ self.buffered_set byte (Nat.lt_of_succ_lt hroom)⟩
  obtain ⟨next, hpush, hnext⟩ := hmore
  rw [hpush]
  exact .more hnext (hnext ▸ hunfinished)

/-- The byte that completes a frame delivers it. -/
theorem push_complete {self : Parser} {byte : UInt8} {f : Frame}
    (hstart : ¬ (self.length = 0 ∧ byte ≠ magic)) (hframe : self.buffered ++ [byte] = f.bytes) :
    PushStep self byte (self.push byte) := by
  have hlength : self.length + 1 = headerLen + f.payload.length := by
    rw [← f.length_bytes, ← hframe]
    simp
  have hroom : self.length < maxFrame := by
    have hle := Nat.add_le_add_left f.payload_le headerLen
    rw [← hlength] at hle
    exact hle
  have hget := fun i hi b => self.getElem_set_buffered byte hroom (i := i) hi (b := b)
  have hbuffer := self.buffered_set byte hroom
  rw [hframe] at hget hbuffer
  have hlen : (UInt8.ofNat f.payload.length).toNat = f.payload.length :=
    UInt8.toNat_ofNat_of_lt' (Nat.lt_of_le_of_lt f.payload_le (by decide))
  have h₁ := hget 1 (by decide) _ rfl
  have h₂ := hget 2 (by decide) _ rfl
  have h₃ := hget 3 (by decide) _ rfl
  have h₄ := hget 4 (by decide) _ rfl
  have hpayload : f.bytes.drop headerLen = f.payload := rfl
  rw [push, if_neg hstart, dif_neg (Nat.ne_of_lt hroom)]
  simp only
  rw [if_neg (by rw [h₂, hlen]; exact fun h => absurd h.2 (Nat.not_lt.mpr f.payload_le)),
    dif_pos (by rw [h₂, hlen, hlength]; exact ⟨Nat.le_add_right _ _, rfl⟩)]
  simp only [h₁, h₂, h₃, h₄, hbuffer, hpayload]
  rw [request_eq hlen]
  exact .complete hframe rfl

/-- The byte that completes a bad header is reported. -/
theorem push_malformed {self : Parser} {byte command len sequence flags : UInt8}
    (hstart : ¬ (self.length = 0 ∧ byte ≠ magic))
    (hheader : self.buffered ++ [byte] = [magic, command, len, sequence, flags])
    (hlen : maxPayload < len.toNat) : PushStep self byte (self.push byte) := by
  have hlength : self.length = 4 := by
    have hcount := congrArg List.length hheader
    simpa using hcount
  have hroom : self.length < maxFrame := by rw [hlength]; decide
  have hfield := self.getElem_set_buffered byte hroom (i := 2) (by decide) (b := len)
    (by rw [hheader]; rfl)
  rw [push, if_neg hstart, dif_neg (Nat.ne_of_lt hroom)]
  simp only
  rw [if_pos (by rw [hfield, hlength]; exact ⟨rfl, hlen⟩)]
  exact .malformed hheader hlen rfl

/-- **Push step.** A parser that holds a partial frame never overflows. -/
theorem push_step {self : Parser} (h : PartialFrame self.buffered) (byte : UInt8) :
    PushStep self byte (self.push byte) := by
  have hlength := self.length_buffered
  by_cases hstart : self.length = 0 ∧ byte ≠ magic
  · rw [push, if_pos hstart]
    exact .noise (List.length_eq_zero_iff.mp (hlength.trans hstart.1)) hstart.2
  · generalize hbuf : self.buffered = buf at h
    cases h with
    | empty =>
        rw [hbuf] at hlength
        have hbyte : byte = magic := by_contra fun hne => hstart ⟨hlength.symm, hne⟩
        refine push_more hstart ?_
        rw [hbuf, hbyte]
        exact .header (by decide)
    | @header fields h =>
        match fields, h with
        | [], _ | [_], _ | [_, _], _ =>
            refine push_more hstart ?_
            rw [hbuf]
            exact .header (by simp)
        | [command, len, sequence], _ =>
            -- the byte completes the header
            by_cases hlen : len.toNat ≤ maxPayload
            · cases hzero : len.toNat with
              | zero =>
                  have hframe : self.buffered ++ [byte] =
                      (⟨command, sequence, byte, [], Nat.zero_le _⟩ : Frame).bytes := by
                    rw [hbuf, UInt8.toNat_inj.mp (show len.toNat = (0 : UInt8).toNat from hzero)]
                    rfl
                  exact push_complete hstart hframe
              | succ n =>
                  refine push_more hstart ?_
                  rw [hbuf]
                  exact .body hlen (by rw [hzero]; exact Nat.succ_pos n)
            · exact push_malformed hstart (by rw [hbuf]; rfl) (Nat.lt_of_not_le hlen)
    | @body command len sequence flags payload hlen h =>
        by_cases hdone : (payload ++ [byte]).length = len.toNat
        · have hframe : self.buffered ++ [byte] =
              (⟨command, sequence, flags, payload ++ [byte], hdone ▸ hlen⟩ : Frame).bytes := by
            rw [hbuf, Frame.bytes]
            simp only [hdone, UInt8.ofNat_toNat]
            rfl
          exact push_complete hstart hframe
        · refine push_more hstart ?_
          rw [hbuf]
          refine .body hlen ?_
          rw [List.length_append, List.length_singleton] at hdone
          show (payload ++ [byte]).length < len.toNat
          rw [List.length_append, List.length_singleton]
          omega

end Parser

/-! ## the encoder -/

/- The front of the response buffer is the frame, and the rest is as before. -/

/-- A response is a frame whose command is its status. -/
theorem encodeResponse_frame (f : Frame) (output : Vector UInt8 maxFrame) :
    ∃ output', encodeResponse f.command f.sequence f.flags f.payload output =
        (.ok (headerLen + f.payload.length), output') ∧
      output'.toList.take (headerLen + f.payload.length) = f.bytes := by
  obtain ⟨command, sequence, flags, payload, hpayload⟩ := f
  rw [encodeResponse, if_neg (Nat.not_lt.mpr hpayload)]
  refine ⟨_, rfl, ?_⟩
  have hfits : headerLen + payload.length ≤ maxFrame := Nat.add_le_add_left hpayload headerLen
  rw [toList_copySlice _ _ _ hfits]
  generalize hbuffer : (((output.set 0 magic).set 1 command).set 2
    (UInt8.ofNat payload.length)).set 3 sequence = buffer
  have hheader : (buffer.set 4 flags).toList.take headerLen =
      [magic, command, UInt8.ofNat payload.length, sequence, flags] := by
    apply List.ext_getElem
    · simp [headerLen, maxFrame]
    · intro i h₁ h₂
      subst hbuffer
      match i, h₂ with
      | 0, _ | 1, _ | 2, _ | 3, _ | 4, _ => simp
  have hlength : ([magic, command, UInt8.ofNat payload.length, sequence, flags] ++ payload).length =
      headerLen + payload.length := by
    rw [List.length_append]
    rfl
  rw [hheader, List.take_append_of_le_length (Nat.le_of_eq hlength.symm),
    List.take_of_length_le (Nat.le_of_eq hlength)]
  rfl

end OptiBridge
