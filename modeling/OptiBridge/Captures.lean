import OptiBridge.Items

/-!
# OptiBridge.Captures

What `parse_packet` accepts: one or more frames and nothing else.  The grammar is
stated on the capture as a whole; a capture that is anything but frames is some
frames followed by garbage, which is noise, a header whose length is too long or
a cut frame.

The grammar is read off the decomposition of `OptiBridge.Items`: a capture is
accepted if all its items are frames and nothing is left over.

* `parseBytes_eq`, the byte loop keeps the last request and stops at the first
  error;
* `parsePacket_eq_some`, so a capture is accepted if and only if it is one or
  more frames, and the request is the last one's;
* `parsePacket_garbage`, a capture that is not has one place where it stops
  being frames;
* `parsePacket_exact`, both, with the encoders of both sides.
-/

namespace OptiBridge

open Bytes

/-! ## the byte loop -/

/- The loop of the source over the bytes of one capture. -/

/-- The byte loop of `parse_packet`, by the answers of the parser: an error ends
it, and the last request stands. -/
theorem parseBytes_eq (parser : Parser) (request : Option Request) (packet : List UInt8) :
    parseBytes parser request packet =
      if (parser.answers packet).all Except.isOk then
        some (parser.fed packet, (requestsOf (parser.answers packet)).getLast?.or request)
      else none := by
  induction packet generalizing parser request with
  | nil => rfl
  | cons byte packet ih =>
      rw [Parser.answers_cons, Parser.fed_cons]
      unfold parseBytes Parser.feed
      obtain ⟨answer, next⟩ := parser.push byte
      cases answer with
      | error error => simp [Except.isOk, Except.toBool]
      | ok answer =>
          cases answer with
          | none =>
              simp only [ih]
              simp [requestsOf, Except.isOk, Except.toBool, Except.toOption]
          | some value =>
              simp only [ih]
              simp [requestsOf, Except.isOk, Except.toBool, Except.toOption, List.getLast?_cons]

/-- Only frames are answered without an error. -/
theorem exists_frames {items : List Item} (hne : ∀ item ∈ items, item.bytes ≠ [])
    (h : (items.flatMap Item.answers).all Except.isOk = true) :
    ∃ frames : List Frame, items = frames.map Item.frame := by
  induction items with
  | nil => exact ⟨[], rfl⟩
  | cons item items ih =>
      simp only [List.flatMap_cons, List.all_append, Bool.and_eq_true] at h
      simp only [List.forall_mem_cons] at hne
      obtain ⟨frames, rfl⟩ := ih hne.2 h.2
      cases item with
      | noise bytes =>
          cases bytes with
          | nil => exact absurd rfl hne.1
          | cons byte bytes => exact absurd h.1 (by simp [Item.answers, Except.isOk, Except.toBool])
      | malformed => exact absurd h.1 (by simp [Item.answers, Except.isOk, Except.toBool])
      | frame f => exact ⟨f :: frames, rfl⟩

/-- Frames, as items, have their own bytes. -/
theorem flatMap_frames (frames : List Frame) :
    (frames.map Item.frame).flatMap Item.bytes = frames.flatMap Frame.bytes := by
  rw [List.flatMap_map]
  rfl

/-- The frames among frames are all of them. -/
theorem filterMap_frames (frames : List Frame) :
    (frames.map Item.frame).filterMap Item.toFrame? = frames := by
  rw [List.filterMap_map]
  exact List.filterMap_some

/-- The captures that hold a request: frames, and at least one. -/
theorem parsePacket_eq_some {packet : List UInt8} {request : Request} :
    parsePacket packet false = some request ↔
      ∃ (frames : List Frame) (last : Frame),
        packet = (frames ++ [last]).flatMap Frame.bytes ∧ request = last.request := by
  simp only [parsePacket, Bool.false_eq_true, if_false, parseBytes_eq, Option.or_none]
  constructor
  · intro h
    have hself := decomposes_decompose packet
    generalize (decompose packet).1 = items at hself
    generalize (decompose packet).2 = tail at hself
    obtain ⟨hanswers, hfed⟩ := Parser.answers_items Parser.buffered_new hself.wellFormed
    have htail : PartialFrame ((Parser.new.fed (items.flatMap Item.bytes)).buffered ++ tail) := by
      rw [hfed]
      exact hself.tail
    obtain ⟨hunfinished, hheld⟩ := Parser.answers_partialFrame htail
    rw [hfed, List.nil_append] at hheld
    rw [← hself.bytes, Parser.answers_append, Parser.fed_append, hanswers, hunfinished] at h
    split_ifs at h with hall
    simp only at h
    split_ifs at h with hlength
    -- what is buffered at the end is the tail, and it has to be empty
    have hnil : tail = [] := by
      rw [← hheld, ← List.length_eq_zero_iff, Parser.length_buffered]
      exact not_not.mp hlength
    subst hnil
    simp only [List.length_nil, List.replicate_zero, List.append_nil] at hall h
    obtain ⟨frames, rfl⟩ := exists_frames hself.nonempty hall
    rw [requestsOf_items, filterMap_frames, List.getLast?_map, Option.map_eq_some_iff] at h
    obtain ⟨last, hlast, rfl⟩ := h
    obtain ⟨before, rfl⟩ := List.getLast?_eq_some_iff.mp hlast
    refine ⟨before, last, ?_, rfl⟩
    rw [← hself.bytes, List.append_nil, flatMap_frames]
  · rintro ⟨frames, last, rfl, rfl⟩
    have hitems : ∀ item ∈ (frames ++ [last]).map Item.frame, item.WellFormed := by
      intro item hitem
      obtain ⟨f, -, rfl⟩ := List.mem_map.mp hitem
      trivial
    obtain ⟨hanswers, hfed⟩ := Parser.answers_items Parser.buffered_new hitems
    rw [flatMap_frames] at hanswers hfed
    have hlength : (Parser.new.fed ((frames ++ [last]).flatMap Frame.bytes)).length = 0 := by
      rw [← Parser.length_buffered, hfed]
      rfl
    have hall : ((((frames ++ [last]).map Item.frame).flatMap Item.answers).all Except.isOk) =
        true := by
      rw [List.all_flatMap, List.all_map]
      simp [Item.answers, Except.isOk, Except.toBool]
    rw [hanswers, if_pos hall, requestsOf_items, filterMap_frames]
    simp only [hlength, ne_eq, not_true_eq_false, if_false]
    rw [List.map_append, List.map_singleton, List.getLast?_concat]

/-! ## frames and garbage -/

/- What comes first that is no frame decides which error a capture dies of. -/

/-- What is left of a capture where its frames end, unless it ends there too. -/
inductive Garbage : List UInt8 → Prop where
  | noise {byte : UInt8} (h : byte ≠ magic) (rest : List UInt8) : Garbage (byte :: rest)
  | malformed {command len sequence flags : UInt8} (h : maxPayload < len.toNat)
      (rest : List UInt8) : Garbage (magic :: command :: len :: sequence :: flags :: rest)
  | unfinished {bytes : List UInt8} (hne : bytes ≠ []) (h : PartialFrame bytes) : Garbage bytes

/-- Frames are read off the front, one by one. -/
theorem decompose_frames (frames : List Frame) (rest : List UInt8) :
    decompose (frames.flatMap Frame.bytes ++ rest) =
      (frames.map Item.frame ++ (decompose rest).1, (decompose rest).2) := by
  induction frames with
  | nil => rfl
  | cons f frames ih =>
      rw [List.flatMap_cons, List.append_assoc, decompose_frame, ih]
      rfl

/-- Frames are in one way a byte string. -/
theorem flatMap_bytes_injective {frames frames' : List Frame}
    (h : frames.flatMap Frame.bytes = frames'.flatMap Frame.bytes) : frames = frames' := by
  have hitems := congrArg (fun bytes => (decompose bytes).1) h
  have hall : ∀ frames : List Frame,
      (decompose (frames.flatMap Frame.bytes)).1 = frames.map Item.frame := by
    intro frames
    have hframes := decompose_frames frames []
    rw [List.append_nil, decompose_partialFrame .empty, List.append_nil] at hframes
    rw [hframes]
  simp only [hall] at hitems
  exact (List.map_injective_iff.mpr fun _ _ => Item.frame.inj) hitems

/-- Garbage is never the start of more frames. -/
theorem Garbage.decompose_ne {bytes : List UInt8} (h : Garbage bytes) (frames : List Frame) :
    decompose bytes ≠ (frames.map Item.frame, []) := by
  intro heq
  cases h with
  | @noise byte hbyte rest =>
      rw [decompose.eq_def] at heq
      simp only [if_pos hbyte] at heq
      cases frames <;> simp at heq
  | @malformed command len sequence flags hlen rest =>
      have hitem : decompose ((Item.malformed command len sequence flags).bytes ++ rest) = _ :=
        decompose_malformed hlen rest
      simp only [Item.bytes, List.cons_append, List.nil_append] at hitem
      rw [hitem] at heq
      cases frames <;> simp at heq
  | unfinished hne h =>
      rw [decompose_partialFrame h] at heq
      exact hne (Prod.mk.inj heq).2

/-- Any byte string is some frames, and then nothing or garbage. -/
theorem exists_frames_garbage (packet : List UInt8) :
    ∃ (frames : List Frame) (rest : List UInt8),
      packet = frames.flatMap Frame.bytes ++ rest ∧ (rest = [] ∨ Garbage rest) := by
  have hself := decomposes_decompose packet
  rw [← hself.bytes]
  have hwell := hself.wellFormed
  have hne := hself.nonempty
  have htail := hself.tail
  clear hself
  generalize (decompose packet).2 = tail at htail ⊢
  generalize (decompose packet).1 = items at hwell hne ⊢
  -- the first item that is no frame is where the garbage begins
  induction items with
  | nil =>
      refine ⟨[], tail, rfl, ?_⟩
      by_cases hnil : tail = []
      · exact .inl hnil
      · exact .inr (.unfinished hnil htail)
  | cons item items ih =>
      simp only [List.forall_mem_cons] at hwell hne
      rw [List.flatMap_cons, List.append_assoc]
      cases item with
      | noise bytes =>
          cases bytes with
          | nil => exact absurd rfl hne.1
          | cons byte bytes =>
              have hbyte : byte ≠ magic := fun h => hwell.1 (by simp [h])
              exact ⟨[], _, rfl, .inr (.noise hbyte _)⟩
      | malformed command len sequence flags =>
          exact ⟨[], _, rfl, .inr (.malformed hwell.1 _)⟩
      | frame f =>
          obtain ⟨frames, rest, hpacket, hrest⟩ := ih hwell.2 hne.2
          refine ⟨f :: frames, rest, ?_, hrest⟩
          rw [hpacket, List.flatMap_cons, List.append_assoc]
          rfl

/-- A capture with garbage in it is rejected. -/
theorem parsePacket_garbage (frames : List Frame) {rest : List UInt8} (h : Garbage rest) :
    parsePacket (frames.flatMap Frame.bytes ++ rest) false = none := by
  refine Option.eq_none_iff_forall_ne_some.mpr fun request hrequest => ?_
  obtain ⟨before, last, hpacket, -⟩ := parsePacket_eq_some.mp hrequest
  have hread := congrArg decompose hpacket
  have hframes := decompose_frames (before ++ [last]) []
  rw [List.append_nil] at hframes
  rw [decompose_frames, hframes, decompose_partialFrame .empty, List.append_nil,
    Prod.mk.injEq] at hread
  -- the frames in front are the first of the others
  obtain ⟨front, back, hsplit, -, hback⟩ := List.map_eq_append_iff.mp hread.1.symm
  exact h.decompose_ne back (Prod.ext hback.symm hread.2)

/-! ## encoding and parsing -/

/- What either side encodes, the other parses. -/

/-- A frame's request has its payload. -/
theorem bytes_request (f : Frame) : f.request.bytes = f.payload := by
  obtain ⟨-, -, -, hlen, hpayload⟩ := request_fields f
  rw [Request.bytes, hlen, hpayload, List.take_append_of_le_length (Nat.le_refl _),
    List.take_length]

/-- **The captures.** A truncated capture holds no request.  Another one holds one
iff it is one or more frames, which it is in one way, and then the request is that
of its last frame, its payload padded with zeros; every other capture is empty or
is some frames followed by garbage.  What the encoder writes parses to the fields
it was given, and a parsed request, encoded again, is the last frame. -/
theorem parsePacket_exact (packet : List UInt8) :
    parsePacket packet true = none ∧
    (∀ request, parsePacket packet false = some request ↔
      ∃ (frames : List Frame) (last : Frame),
        packet = (frames ++ [last]).flatMap Frame.bytes ∧ request = last.request) ∧
    (∀ f : Frame, f.request.command = f.command ∧ f.request.sequence = f.sequence ∧
      f.request.flags = f.flags ∧ f.request.payloadLen.toNat = f.payload.length ∧
      f.request.payload.toList =
        f.payload ++ List.replicate (maxPayload - f.payload.length) 0) ∧
    (∀ frames frames' : List Frame, packet = frames.flatMap Frame.bytes →
      packet = frames'.flatMap Frame.bytes → frames = frames') ∧
    (packet = [] → parsePacket packet false = none) ∧
    (∀ (frames : List Frame) (rest : List UInt8), packet = frames.flatMap Frame.bytes ++ rest →
      Garbage rest → parsePacket packet false = none) ∧
    (∃ (frames : List Frame) (rest : List UInt8),
      packet = frames.flatMap Frame.bytes ++ rest ∧ (rest = [] ∨ Garbage rest)) ∧
    (∀ (status sequence flags : UInt8) (payload : List UInt8) (buffer : Vector UInt8 maxFrame),
      payload.length ≤ maxPayload → ∃ n output request,
        encodeResponse status sequence flags payload buffer = (.ok n, output) ∧
        parsePacket (output.toList.take n) false = some request ∧
        request.command = status ∧ request.sequence = sequence ∧ request.flags = flags ∧
        request.payloadLen.toNat = payload.length ∧
        request.payload.toList =
          payload ++ List.replicate (maxPayload - payload.length) 0) ∧
    ∀ (request : Request) (frames : List Frame) (last : Frame) (buffer : Vector UInt8 maxFrame),
      parsePacket packet false = some request →
      packet = (frames ++ [last]).flatMap Frame.bytes → ∃ n output,
        encodeResponse request.command request.sequence request.flags request.bytes buffer =
          (.ok n, output) ∧
        output.toList.take n = last.bytes := by
  refine ⟨rfl, fun _ => parsePacket_eq_some, request_fields, ?_, ?_, ?_,
    exists_frames_garbage packet, ?_, ?_⟩
  · rintro frames frames' rfl h
    exact flatMap_bytes_injective h
  · rintro rfl
    rfl
  · rintro frames rest rfl h
    exact parsePacket_garbage frames h
  · intro status sequence flags payload buffer hpayload
    obtain ⟨output, hencode, hbytes⟩ :=
      encodeResponse_frame ⟨status, sequence, flags, payload, hpayload⟩ buffer
    refine ⟨_, output, _, hencode, ?_, request_fields ⟨status, sequence, flags, payload, hpayload⟩⟩
    rw [hbytes]
    exact parsePacket_eq_some.mpr ⟨[], _, (List.append_nil _).symm, rfl⟩
  · intro request frames last buffer hparse hpacket
    obtain ⟨before, last', hpacket', rfl⟩ := parsePacket_eq_some.mp hparse
    have hlast : last' = last := by
      have hframes := flatMap_bytes_injective (hpacket'.symm.trans hpacket)
      exact List.singleton_inj.mp (List.append_inj' hframes rfl).2
    obtain ⟨output, hencode, hbytes⟩ := encodeResponse_frame last buffer
    refine ⟨_, output, ?_, hbytes⟩
    rw [hlast, bytes_request]
    exact hencode

end OptiBridge
