import OptiBridge.Lib.Machine
import OptiBridge.Stream

/-!
# OptiBridge.Items

A byte string is in exactly one way a sequence of items (noise runs that cannot
be extended, malformed headers, frames) followed by a proper prefix of a header
or frame.  The parser, fed one byte at a time, answers each item as a whole, so
its answers to a stream are the answers to the stream's items.

The argument has two halves that meet in `answers_items`.  On the side of
strings, `decompose` finds the items and shows that there is no other way to
find them.  On the side of the parser, each kind of item gets a lemma on what
feeding it answers, from an empty buffer back to an empty buffer.  A parser in
the middle of a frame is one that has been fed a proper prefix (`PartialFrame`),
so nothing has to be assumed about where a stream begins.
-/

namespace OptiBridge

open Bytes

/-! ## items -/

/- What a stream is made of.  A noise run must not be followed by another, or one
could be cut in two. -/

/-- A piece of a stream: bytes none of which starts a frame, a header that
declares too long a payload, or a frame. -/
inductive Item where
  | noise (bytes : List UInt8)
  | malformed (command len sequence flags : UInt8)
  | frame (f : Frame)

namespace Item

/-- The bytes of an item. -/
def bytes : Item → List UInt8
  | .noise bytes => bytes
  | .malformed command len sequence flags => [magic, command, len, sequence, flags]
  | .frame f => f.bytes

/-- Noise holds no magic byte, a malformed header a length that is too long. -/
def WellFormed : Item → Prop
  | .noise bytes => magic ∉ bytes
  | .malformed _ len _ _ => maxPayload < len.toNat
  | .frame _ => True

/-- The item is a noise run. -/
def IsNoise : Item → Prop
  | .noise _ => True
  | .malformed .. | .frame _ => False

/-- The frame of an item that is one. -/
def toFrame? : Item → Option Frame
  | .frame f => some f
  | .noise _ | .malformed .. => none

/-- Whatever is not noise starts with a magic byte. -/
theorem head?_bytes {item : Item} (h : ¬ item.IsNoise) : item.bytes.head? = some magic := by
  cases item with
  | noise bytes => exact absurd trivial h
  | malformed => rfl
  | frame f => rfl

end Item

/-- The items of a stream, and the proper prefix left at its end. -/
structure Decomposes (stream : List UInt8) (items : List Item) (tail : List UInt8) : Prop where
  bytes : items.flatMap Item.bytes ++ tail = stream
  wellFormed : ∀ item ∈ items, item.WellFormed
  nonempty : ∀ item ∈ items, item.bytes ≠ []
  maximal : items.IsChain fun item next => ¬ (item.IsNoise ∧ next.IsNoise)
  tail : PartialFrame tail

/-! ## one decomposition -/

/- The decomposition is computed, and any other is equal to it. -/

/-- The decomposition, read off the stream. -/
def decompose : List UInt8 → List Item × List UInt8
  | [] => ([], [])
  | byte :: rest =>
      if byte ≠ magic then
        let after := decompose (rest.dropWhile (· ≠ magic))
        (.noise (byte :: rest.takeWhile (· ≠ magic)) :: after.1, after.2)
      else
        match rest with
        | command :: len :: sequence :: flags :: body =>
            if hlen : len.toNat ≤ maxPayload then
              if len.toNat ≤ body.length then
                let after := decompose (body.drop len.toNat)
                (.frame ⟨command, sequence, flags, body.take len.toNat,
                  Nat.le_trans (List.length_take_le _ _) hlen⟩ :: after.1, after.2)
              else ([], byte :: command :: len :: sequence :: flags :: body)
            else
              let after := decompose body
              (.malformed command len sequence flags :: after.1, after.2)
        | _ => ([], byte :: rest)
termination_by stream => stream.length
decreasing_by
  · have hdrop := (List.dropWhile_suffix (l := rest) (· ≠ magic)).length_le
    simp only [List.length_cons]
    omega
  · simp only [List.length_cons, List.length_drop]
    omega
  · simp only [List.length_cons]
    omega

/-- What follows a noise run that cannot be extended. -/
def Bounded (rest : List UInt8) : Prop := rest = [] ∨ rest.head? = some magic

/-- A noise run is what comes before the next magic byte. -/
theorem takeWhile_noise {bytes rest : List UInt8} (hbytes : magic ∉ bytes) (hrest : Bounded rest) :
    (bytes ++ rest).takeWhile (· ≠ magic) = bytes ∧
      (bytes ++ rest).dropWhile (· ≠ magic) = rest := by
  have hinside : ∀ byte ∈ bytes, decide (byte ≠ magic) = true := fun byte hbyte => by
    simpa using fun h : byte = magic => hbytes (h ▸ hbyte)
  have hboundary : rest.takeWhile (· ≠ magic) = [] ∧ rest.dropWhile (· ≠ magic) = rest := by
    cases rest with
    | nil => exact ⟨rfl, rfl⟩
    | cons byte rest =>
        have hbyte : byte = magic := by simpa [Bounded] using hrest
        simp [hbyte]
  rw [List.takeWhile_append_of_pos hinside, List.dropWhile_append_of_pos hinside, hboundary.1,
    hboundary.2, List.append_nil]
  exact ⟨rfl, rfl⟩

/-- A noise run is found. -/
theorem decompose_noise {bytes rest : List UInt8} (hne : bytes ≠ []) (hbytes : magic ∉ bytes)
    (hrest : Bounded rest) :
    decompose (bytes ++ rest) = (.noise bytes :: (decompose rest).1, (decompose rest).2) := by
  cases bytes with
  | nil => exact absurd rfl hne
  | cons byte bytes =>
      simp only [List.mem_cons, not_or] at hbytes
      obtain ⟨htake, hdrop⟩ := takeWhile_noise hbytes.2 hrest
      rw [List.cons_append, decompose.eq_def]
      simp only [if_pos (Ne.symm hbytes.1), htake, hdrop]

/-- A malformed header is found. -/
theorem decompose_malformed {command len sequence flags : UInt8} (h : maxPayload < len.toNat)
    (rest : List UInt8) :
    decompose ((Item.malformed command len sequence flags).bytes ++ rest) =
      (.malformed command len sequence flags :: (decompose rest).1, (decompose rest).2) := by
  simp only [Item.bytes, List.cons_append, List.nil_append]
  rw [decompose, if_neg (by simp), dif_neg (Nat.not_le.mpr h)]

/-- A frame is found. -/
theorem decompose_frame (f : Frame) (rest : List UInt8) :
    decompose (f.bytes ++ rest) = (.frame f :: (decompose rest).1, (decompose rest).2) := by
  obtain ⟨command, sequence, flags, payload, hpayload⟩ := f
  have hlen : (UInt8.ofNat payload.length).toNat = payload.length :=
    UInt8.toNat_ofNat_of_lt' (Nat.lt_of_le_of_lt hpayload (by decide))
  simp only [Frame.bytes, List.cons_append]
  rw [decompose, if_neg (by simp), dif_pos (by rw [hlen]; exact hpayload),
    if_pos (by rw [hlen]; simp)]
  simp [hlen]

/-- What is no item yet is left over. -/
theorem decompose_partialFrame {bytes : List UInt8} (h : PartialFrame bytes) :
    decompose bytes = ([], bytes) := by
  cases h with
  | empty => rw [decompose]
  | @header fields h =>
      rw [decompose.eq_def]
      match fields, h with
      | [], _ | [_], _ | [_, _], _ | [_, _, _], _ => rfl
  | body hlen h => rw [decompose, if_neg (by simp), dif_pos hlen, if_neg (Nat.not_le.mpr h)]

/-- What is left of a decomposition starts with a magic byte or is empty, unless
noise comes first. -/
theorem bounded_of_items {items : List Item} {tail : List UInt8}
    (hfirst : ∀ item ∈ items.head?, ¬ item.IsNoise) (htail : PartialFrame tail) :
    Bounded (items.flatMap Item.bytes ++ tail) := by
  cases items with
  | nil =>
      cases htail with
      | empty => exact .inl rfl
      | header => exact .inr rfl
      | body => exact .inr rfl
  | cons item items =>
      have hmagic := Item.head?_bytes (hfirst item rfl)
      right
      rw [List.flatMap_cons, List.append_assoc, List.head?_append, hmagic]
      rfl

/-- **Uniqueness.** Any decomposition is the one that is read off the stream. -/
theorem Decomposes.eq {stream : List UInt8} {items : List Item} {tail : List UInt8}
    (h : Decomposes stream items tail) : decompose stream = (items, tail) := by
  induction items generalizing stream with
  | nil =>
      rw [← h.bytes]
      exact decompose_partialFrame h.tail
  | cons item items ih =>
      have hrest : Decomposes (items.flatMap Item.bytes ++ tail) items tail :=
        { bytes := rfl
          wellFormed := fun item hitem => h.wellFormed item (List.mem_cons_of_mem _ hitem)
          nonempty := fun item hitem => h.nonempty item (List.mem_cons_of_mem _ hitem)
          maximal := h.maximal.tail
          tail := h.tail }
      have hafter := ih hrest
      have hitem := h.wellFormed item (List.mem_cons_self ..)
      rw [← h.bytes, List.flatMap_cons, List.append_assoc]
      cases item with
      | noise bytes =>
          have hfirst : ∀ next ∈ items.head?, ¬ next.IsNoise := by
            intro next hnext hnoise
            have hchain := h.maximal
            cases items with
            | nil => contradiction
            | cons first rest =>
                obtain rfl := Option.some.inj hnext
                exact (List.isChain_cons_cons.mp hchain).1 ⟨trivial, hnoise⟩
          have hne : bytes ≠ [] := h.nonempty (.noise bytes) (List.mem_cons_self ..)
          rw [Item.bytes, decompose_noise hne hitem (bounded_of_items hfirst h.tail), hafter]
      | malformed command len sequence flags => rw [decompose_malformed hitem, hafter]
      | frame f => rw [Item.bytes, decompose_frame, hafter]

/-- What follows a noise run does not start with noise. -/
theorem Bounded.head?_decompose {rest : List UInt8} (h : Bounded rest) :
    ∀ item ∈ (decompose rest).1.head?, ¬ item.IsNoise := by
  cases rest with
  | nil =>
      rw [decompose]
      simp
  | cons byte rest =>
      have hbyte : byte = magic := by simpa [Bounded] using h
      rw [decompose.eq_def]
      simp only [hbyte, ne_eq, not_true_eq_false, if_false]
      split
      · split_ifs <;> simp [Item.IsNoise]
      · simp

/-- What follows a noise run does not begin with noise. -/
theorem bounded_dropWhile (rest : List UInt8) : Bounded (rest.dropWhile (· ≠ magic)) := by
  induction rest with
  | nil => exact .inl rfl
  | cons byte rest ih =>
      by_cases hbyte : byte = magic
      · right
        simp [hbyte]
      · simpa [hbyte] using ih

/-- A noise run contains no magic byte. -/
theorem magic_notMem_takeWhile (rest : List UInt8) : magic ∉ rest.takeWhile (· ≠ magic) :=
  fun hmem => by simpa using List.mem_takeWhile_imp hmem

/-- One more item in front. -/
theorem Decomposes.cons {rest : List UInt8} {items : List Item} {tail : List UInt8} {item : Item}
    (h : Decomposes rest items tail) (hitem : item.WellFormed) (hne : item.bytes ≠ [])
    (hnoise : item.IsNoise → ∀ next ∈ items.head?, ¬ next.IsNoise) :
    Decomposes (item.bytes ++ rest) (item :: items) tail where
  bytes := by rw [List.flatMap_cons, List.append_assoc, h.bytes]
  wellFormed := by simpa using ⟨hitem, h.wellFormed⟩
  nonempty := by simpa using ⟨hne, h.nonempty⟩
  maximal := by
    cases items with
    | nil => exact List.isChain_singleton _
    | cons next items =>
        exact List.isChain_cons_cons.mpr
          ⟨fun hboth => hnoise hboth.1 next rfl hboth.2, h.maximal⟩
  tail := h.tail

/-- What the rest of a header cannot be taken from is shorter than it. -/
theorem length_lt_four {rest : List UInt8}
    (h : ∀ command len sequence flags body,
      rest = command :: len :: sequence :: flags :: body → False) : rest.length < 4 := by
  match rest, h with
  | [], _ | [_], _ | [_, _], _ | [_, _, _], _ => simp
  | _ :: _ :: _ :: _ :: _, h => exact absurd rfl (h _ _ _ _ _)

/-- **Existence.** -/
theorem decomposes_decompose (stream : List UInt8) :
    Decomposes stream (decompose stream).1 (decompose stream).2 := by
  fun_induction decompose stream with
  | case1 => exact ⟨rfl, by simp, by simp, List.isChain_nil, .empty⟩
  -- noise runs up to the next magic byte, so no noise follows it
  | case2 byte rest hbyte after ih =>
      have hstream : byte :: rest =
          (Item.noise (byte :: rest.takeWhile (· ≠ magic))).bytes ++
            rest.dropWhile (· ≠ magic) := by
        rw [Item.bytes, List.cons_append, List.takeWhile_append_dropWhile]
      rw [hstream]
      refine ih.cons ?_ (List.cons_ne_nil _ _) fun _ => (bounded_dropWhile rest).head?_decompose
      simpa only [Item.WellFormed, List.mem_cons, not_or] using
        ⟨Ne.symm hbyte, magic_notMem_takeWhile rest⟩
  | case3 byte hbyte command len sequence flags body hlen hfits after ih =>
      obtain rfl : byte = magic := not_not.mp hbyte
      have hstream : magic :: command :: len :: sequence :: flags :: body =
          (Item.frame ⟨command, sequence, flags, body.take len.toNat,
            Nat.le_trans (List.length_take_le _ _) hlen⟩).bytes ++ body.drop len.toNat := by
        simp [Item.bytes, Frame.bytes, Nat.min_eq_left hfits]
      rw [hstream]
      exact ih.cons trivial (List.cons_ne_nil _ _) fun h => h.elim
  -- the stream ends within the payload of a frame
  | case4 byte hbyte command len sequence flags body hlen hshort =>
      obtain rfl : byte = magic := not_not.mp hbyte
      exact ⟨rfl, by simp, by simp, List.isChain_nil, .body hlen (Nat.lt_of_not_le hshort)⟩
  | case5 byte hbyte command len sequence flags body hlong after ih =>
      obtain rfl : byte = magic := not_not.mp hbyte
      have hitem : (Item.malformed command len sequence flags).WellFormed := Nat.lt_of_not_le hlong
      exact ih.cons hitem (List.cons_ne_nil _ _) fun h => h.elim
  | case6 byte =>
      rename_i hshort
      obtain rfl : byte = magic := not_not.mp (by assumption)
      exact ⟨rfl, by simp, by simp, List.isChain_nil, .header (length_lt_four hshort)⟩

/-! ## prefixes -/

/- What the parser may hold between two bytes: bytes that are no whole item yet
and may still become one. -/

/-- A proper prefix of a header or a frame is a partial frame. -/
theorem partialFrame_of_prefix {item : Item} {bytes : List UInt8} (hnoise : ¬ item.IsNoise)
    (hitem : item.WellFormed) (hcut : bytes <+: item.bytes) (hne : bytes ≠ item.bytes) :
    PartialFrame bytes := by
  match bytes with
  | [] => exact .empty
  | [b₀] | [b₀, _] | [b₀, _, _] | [b₀, _, _, _] =>
      have hmagic := Item.head?_bytes hnoise
      have hfirst : b₀ = magic := by
        obtain ⟨rest, hrest⟩ := hcut
        rw [← hrest] at hmagic
        exact Option.some.inj hmagic
      rw [hfirst]
      exact .header (by simp)
  | b₀ :: b₁ :: b₂ :: b₃ :: b₄ :: payload =>
      cases item with
      | noise => exact absurd trivial hnoise
      | malformed command len sequence flags =>
          refine absurd (hcut.eq_of_length_le ?_) hne
          simp [Item.bytes]
      | frame f =>
          simp only [Item.bytes, Frame.bytes, List.cons_prefix_cons] at hcut
          obtain ⟨rfl, rfl, rfl, rfl, rfl, hpayload⟩ := hcut
          have hlen : (UInt8.ofNat f.payload.length).toNat = f.payload.length :=
            UInt8.toNat_ofNat_of_lt' (Nat.lt_of_le_of_lt f.payload_le (by decide))
          refine .body (by rw [hlen]; exact f.payload_le) ?_
          rw [hlen]
          refine Nat.lt_of_le_of_ne hpayload.length_le fun hlength => hne ?_
          rw [hpayload.eq_of_length hlength]
          rfl

/-- And every partial frame is one. -/
theorem PartialFrame.exists_item {bytes : List UInt8} (h : PartialFrame bytes) :
    ∃ item : Item, ¬ item.IsNoise ∧ item.WellFormed ∧ bytes <+: item.bytes ∧
      bytes ≠ item.bytes := by
  -- a header that breaks off can be completed to a frame or to a bad length
  have hheader : ∀ command len sequence : UInt8, ∃ item : Item, ¬ item.IsNoise ∧
      item.WellFormed ∧ [magic, command, len, sequence] <+: item.bytes ∧
      4 < item.bytes.length := by
    intro command len sequence
    by_cases hlen : len.toNat ≤ maxPayload
    · refine ⟨.frame ⟨command, sequence, 0, List.replicate len.toNat 0, by simpa using hlen⟩, id,
        trivial, ⟨0 :: List.replicate len.toNat 0, ?_⟩, ?_⟩
      · simp [Item.bytes, Frame.bytes]
      · simp [Item.bytes, Frame.bytes]
    · exact ⟨.malformed command len sequence 0, id, Nat.lt_of_not_le hlen, ⟨[0], rfl⟩, by
        simp [Item.bytes]⟩
  cases h with
  | empty => exact ⟨.malformed 0 0xff 0 0, id, (by decide : 16 < 255), List.nil_prefix, by
      simp [Item.bytes]⟩
  | @header fields h =>
      obtain ⟨command, len, sequence, hfields⟩ : ∃ command len sequence,
          fields <+: [command, len, sequence] := by
        rcases fields with _ | ⟨a, _ | ⟨b, _ | ⟨c, fields⟩⟩⟩
        · exact ⟨0, 0, 0, List.nil_prefix⟩
        · exact ⟨a, 0, 0, [0, 0], rfl⟩
        · exact ⟨a, b, 0, [0], rfl⟩
        · have hnil : fields = [] := by
            simp only [List.length_cons] at h
            exact List.length_eq_zero_iff.mp (by omega)
          exact ⟨a, b, c, [], by rw [hnil]; rfl⟩
      obtain ⟨item, hnoise, hitem, hcut, hlonger⟩ := hheader command len sequence
      have hcons := (List.cons_prefix_cons.mpr ⟨rfl, hfields⟩).trans hcut
      refine ⟨item, hnoise, hitem, hcons, fun heq => ?_⟩
      rw [← heq, List.length_cons] at hlonger
      omega
  | @body command len sequence flags payload hlen h =>
      have hpad :
          (payload ++ List.replicate (len.toNat - payload.length) 0).length = len.toNat := by
        simp
        omega
      refine ⟨.frame ⟨command, sequence, flags,
        payload ++ List.replicate (len.toNat - payload.length) 0, hpad ▸ hlen⟩, id, trivial,
        ⟨List.replicate (len.toNat - payload.length) 0, ?_⟩, fun heq => ?_⟩
      · simp [Item.bytes, Frame.bytes, hpad]
      · have hlength := congrArg List.length heq
        simp only [Item.bytes, Frame.bytes, List.length_cons, hpad] at hlength
        omega

/-- What comes before a partial frame's end is one too. -/
theorem PartialFrame.of_prefix {bytes bytes' : List UInt8} (h : PartialFrame bytes)
    (hcut : bytes' <+: bytes) : PartialFrame bytes' := by
  obtain ⟨item, hnoise, hitem, hbytes, hne⟩ := h.exists_item
  refine partialFrame_of_prefix hnoise hitem (hcut.trans hbytes) fun heq => hne ?_
  exact hbytes.eq_of_length_le (heq ▸ hcut.length_le)

/-! ## the parser on a stream -/

/- `feed` is one call of `push`; `answers` lists what the calls return and `fed`
is the parser they leave. -/

namespace Parser

/-- One turn of the session loop's parser: an error resets it. -/
def feed (self : Parser) (byte : UInt8) : Except ParseError (Option Request) × Parser :=
  match self.push byte with
  | (.error error, next) => (.error error, next.reset)
  | (.ok request, next) => (.ok request, next)

/-- The parser's answer to each byte of a stream. -/
def answers (self : Parser) (stream : List UInt8) : List (Except ParseError (Option Request)) :=
  Machine.trace (fun parser byte => (parser.feed byte).2)
    (fun parser byte => [(parser.feed byte).1]) self stream

/-- The parser after a stream. -/
def fed (self : Parser) (stream : List UInt8) : Parser :=
  Machine.run (fun parser byte => (parser.feed byte).2) self stream

theorem answers_append (self : Parser) (xs ys : List UInt8) :
    self.answers (xs ++ ys) = self.answers xs ++ (self.fed xs).answers ys :=
  Machine.trace_append _ _ self xs ys

theorem fed_append (self : Parser) (xs ys : List UInt8) :
    self.fed (xs ++ ys) = (self.fed xs).fed ys := Machine.run_append _ self xs ys

variable {self : Parser} {byte : UInt8}

/-- Within a header or a frame there is nothing to say yet. -/
theorem feed_partialFrame (h : PartialFrame (self.buffered ++ [byte])) :
    (self.feed byte).1 = .ok none ∧ (self.feed byte).2.buffered = self.buffered ++ [byte] := by
  have hself : PartialFrame self.buffered := h.of_prefix (List.prefix_append _ _)
  have hstep := push_step hself byte
  unfold feed
  generalize self.push byte = out at hstep ⊢
  cases hstep with
  | noise hempty hbyte =>
      rw [hempty] at h
      cases h with
      | header => exact absurd rfl hbyte
  | malformed hheader hlen =>
      rw [hheader] at h
      cases h with
      | header h => exact absurd h (by simp)
      | body hle => exact absurd hle (Nat.not_le.mpr hlen)
  | @complete next f hframe =>
      have hnone := framesOf_partialFrame h
      rw [hframe, ← List.append_nil f.bytes, framesOf_frame] at hnone
      contradiction
  | more hnext => exact ⟨rfl, hnext⟩

/-- The last byte of a frame delivers it. -/
theorem feed_frame {f : Frame} (hself : PartialFrame self.buffered)
    (hframe : self.buffered ++ [byte] = f.bytes) :
    (self.feed byte).1 = .ok (some f.request) ∧ (self.feed byte).2.buffered = [] := by
  have hstep := push_step hself byte
  have hframes := framesOf_frame f []
  rw [List.append_nil, ← hframe] at hframes
  unfold feed
  generalize self.push byte = out at hstep ⊢
  cases hstep with
  | noise hempty hbyte =>
      rw [hempty, List.nil_append, framesOf_noise hbyte, framesOf_nil] at hframes
      contradiction
  | malformed hheader hlen =>
      rw [hheader, framesOf_malformed hlen, framesOf_nil] at hframes
      contradiction
  | @complete next f' hframe' hnext =>
      rw [hframe', ← List.append_nil f'.bytes, framesOf_frame] at hframes
      rw [(List.cons.inj hframes).1]
      exact ⟨rfl, hnext⟩
  | more hnext hunfinished =>
      rw [hnext] at hunfinished
      rw [framesOf_partialFrame hunfinished] at hframes
      contradiction

/-- The fifth byte of a malformed header is an error. -/
theorem feed_malformed {command len sequence flags : UInt8} (hself : PartialFrame self.buffered)
    (hheader : self.buffered ++ [byte] = [magic, command, len, sequence, flags])
    (hlen : maxPayload < len.toNat) :
    (self.feed byte).1 = .error .badLength ∧ (self.feed byte).2.buffered = [] := by
  have hstep := push_step hself byte
  unfold feed
  generalize self.push byte = out at hstep ⊢
  cases hstep with
  | noise hempty hbyte =>
      rw [hempty] at hheader
      exact absurd (congrArg List.length hheader) (by simp)
  | malformed => exact ⟨rfl, rfl⟩
  | @complete next f hframe =>
      have hframes := framesOf_frame f []
      rw [List.append_nil, ← hframe, hheader, framesOf_malformed hlen, framesOf_nil] at hframes
      contradiction
  | more hnext hunfinished =>
      rw [hnext, hheader] at hunfinished
      cases hunfinished with
      | header h => exact absurd h (by simp)
      | body hle => exact absurd hle (Nat.not_le.mpr hlen)

/-- Noise is an error each time. -/
theorem feed_noise (hself : self.buffered = []) (hbyte : byte ≠ magic) :
    (self.feed byte).1 = .error .badMagic ∧ (self.feed byte).2.buffered = [] := by
  have hlength : self.length = 0 := by rw [← self.length_buffered, hself]; rfl
  have hpush : self.push byte = (.error .badMagic, self) := by
    rw [push, if_pos ⟨hlength, hbyte⟩]
  unfold feed
  rw [hpush]
  exact ⟨rfl, rfl⟩

/-! ## whole items -/

/- A noise run is refused byte by byte, a malformed header at its last byte,
and a frame is completed by its last one. -/

theorem answers_cons (self : Parser) (byte : UInt8) (stream : List UInt8) :
    self.answers (byte :: stream) = (self.feed byte).1 :: (self.feed byte).2.answers stream := rfl

theorem fed_cons (self : Parser) (byte : UInt8) (stream : List UInt8) :
    self.fed (byte :: stream) = (self.feed byte).2.fed stream := rfl

/-- Bytes that do not complete a frame are answered with nothing, and held. -/
theorem answers_partialFrame {bytes : List UInt8} (h : PartialFrame (self.buffered ++ bytes)) :
    self.answers bytes = List.replicate bytes.length (.ok none) ∧
      (self.fed bytes).buffered = self.buffered ++ bytes := by
  induction bytes generalizing self with
  | nil => exact ⟨rfl, (List.append_nil _).symm⟩
  | cons byte bytes ih =>
      have hsplit : self.buffered ++ byte :: bytes = self.buffered ++ [byte] ++ bytes := by simp
      rw [hsplit] at h
      obtain ⟨hanswer, hbuffered⟩ := feed_partialFrame (h.of_prefix (List.prefix_append _ _))
      rw [← hbuffered] at h
      obtain ⟨hanswers, hfed⟩ := ih h
      constructor
      · rw [answers_cons, hanswer, hanswers]
        rfl
      · rw [hsplit, ← hbuffered]
        exact hfed

/-- Each byte of a noise run is a bad magic byte, and none is held. -/
theorem answers_noise {bytes : List UInt8} (hself : self.buffered = []) (h : magic ∉ bytes) :
    self.answers bytes = bytes.map (fun _ => .error .badMagic) ∧
      (self.fed bytes).buffered = [] := by
  induction bytes generalizing self with
  | nil => exact ⟨rfl, hself⟩
  | cons byte bytes ih =>
      simp only [List.mem_cons, not_or] at h
      obtain ⟨hanswer, hbuffered⟩ := feed_noise hself (Ne.symm h.1)
      obtain ⟨hanswers, hfed⟩ := ih hbuffered h.2
      constructor
      · rw [answers_cons, hanswer, hanswers]
        rfl
      · exact hfed

end Parser

/-- The parser's answers to an item. -/
def Item.answers : Item → List (Except ParseError (Option Request))
  | .noise bytes => bytes.map fun _ => .error .badMagic
  | .malformed .. => List.replicate 4 (.ok none) ++ [.error .badLength]
  | .frame f => List.replicate (f.bytes.length - 1) (.ok none) ++ [.ok (some f.request)]

namespace Parser

variable {self : Parser}

/-- All but the last byte of a header or a frame, and then the last. -/
theorem answers_last {item : Item} {bytes : List UInt8} {last : UInt8}
    {answer : Except ParseError (Option Request)} (hself : self.buffered = [])
    (hnoise : ¬ item.IsNoise) (hitem : item.WellFormed) (hbytes : item.bytes = bytes ++ [last])
    (hlast : ∀ parser : Parser, PartialFrame parser.buffered → parser.buffered = bytes →
      (parser.feed last).1 = answer ∧ (parser.feed last).2.buffered = []) :
    self.answers item.bytes = List.replicate (item.bytes.length - 1) (.ok none) ++ [answer] ∧
      (self.fed item.bytes).buffered = [] := by
  have hunfinished : PartialFrame bytes := by
    refine partialFrame_of_prefix hnoise hitem (hbytes ▸ List.prefix_append _ _) fun heq => ?_
    have hlength := congrArg List.length (heq.trans hbytes)
    simp at hlength
  have hstart : PartialFrame (self.buffered ++ bytes) := by rw [hself]; exact hunfinished
  obtain ⟨hanswers, hfed⟩ := answers_partialFrame hstart
  rw [hself, List.nil_append] at hfed
  obtain ⟨hanswer, hdone⟩ := hlast (self.fed bytes) (by rw [hfed]; exact hunfinished) hfed
  rw [hbytes, answers_append, fed_append, hanswers]
  refine ⟨?_, hdone⟩
  rw [List.length_append, List.length_singleton, Nat.add_sub_cancel]
  exact congrArg _ (congrArg (· :: []) hanswer)

/-- **One item.** -/
theorem answers_item {item : Item} (hself : self.buffered = []) (hitem : item.WellFormed) :
    self.answers item.bytes = item.answers ∧ (self.fed item.bytes).buffered = [] := by
  cases item with
  | noise bytes => exact answers_noise hself hitem
  | malformed command len sequence flags =>
      have hsplit : (Item.malformed command len sequence flags).bytes =
          [magic, command, len, sequence] ++ [flags] := rfl
      exact answers_last hself id hitem hsplit
        fun parser hunfinished hbuffered =>
          feed_malformed hunfinished (by rw [hbuffered]; rfl) hitem
  | frame f =>
      have hne : f.bytes ≠ [] := List.cons_ne_nil _ _
      have hsplit := (List.dropLast_append_getLast hne).symm
      exact answers_last hself id hitem hsplit
        fun parser hunfinished hbuffered =>
          feed_frame hunfinished (by rw [hbuffered]; exact hsplit.symm)

/-- **A stream of items.** -/
theorem answers_items {items : List Item} (hself : self.buffered = [])
    (hitems : ∀ item ∈ items, item.WellFormed) :
    self.answers (items.flatMap Item.bytes) = items.flatMap Item.answers ∧
      (self.fed (items.flatMap Item.bytes)).buffered = [] := by
  induction items generalizing self with
  | nil => exact ⟨rfl, hself⟩
  | cons item items ih =>
      simp only [List.forall_mem_cons] at hitems
      obtain ⟨hanswers, hfed⟩ := answers_item hself hitems.1
      obtain ⟨hrest, hdone⟩ := ih hfed hitems.2
      rw [List.flatMap_cons, answers_append, fed_append, hanswers, hrest]
      exact ⟨rfl, hdone⟩

/-- A new parser holds nothing. -/
@[simp] theorem buffered_new : Parser.new.buffered = [] := rfl

end Parser

/-! ## the stream theorem -/

/- The answers to a stream, and the requests among them. -/

/-- The requests among the parser's answers. -/
def requestsOf (answers : List (Except ParseError (Option Request))) : List Request :=
  answers.filterMap fun answer => answer.toOption.join

/-- `bytes` is how an item comes over the wire; a frame comes out of `encode_response`. -/
inductive Sent : Item → List UInt8 → Prop where
  | noise {bytes : List UInt8} (h : magic ∉ bytes) : Sent (.noise bytes) bytes
  | malformed {command len sequence flags : UInt8} (h : maxPayload < len.toNat) :
      Sent (.malformed command len sequence flags) [magic, command, len, sequence, flags]
  | frame {f : Frame} {n : Nat} {buffer output : Vector UInt8 maxFrame}
      (h : encodeResponse f.command f.sequence f.flags f.payload buffer = (.ok n, output)) :
      Sent (.frame f) (output.toList.take n)

/-- What a host sends is well formed, and its bytes are the item's. -/
theorem Sent.item {item : Item} {bytes : List UInt8} (h : Sent item bytes) :
    item.WellFormed ∧ bytes = item.bytes := by
  cases h with
  | noise h => exact ⟨h, rfl⟩
  | malformed h => exact ⟨h, rfl⟩
  | @frame f n buffer output h =>
      obtain ⟨output', hencode, hbytes⟩ := encodeResponse_frame f buffer
      rw [h, Prod.mk.injEq, Except.ok.injEq] at hencode
      obtain ⟨rfl, rfl⟩ := hencode
      exact ⟨trivial, hbytes⟩

/-- Only a frame is answered with a request, and with its own. -/
theorem requestsOf_answers (item : Item) :
    requestsOf item.answers = item.toFrame?.toList.map Frame.request := by
  cases item with
  | noise bytes => simp [requestsOf, Item.answers, Item.toFrame?, Except.toOption]
  | malformed => rfl
  | frame f =>
      simp [requestsOf, Item.answers, Item.toFrame?, Except.toOption, List.filterMap_append]

/-- So the requests of a stream are those of its frames, in order. -/
theorem requestsOf_items (items : List Item) :
    requestsOf (items.flatMap Item.answers) =
      (items.filterMap Item.toFrame?).map Frame.request := by
  induction items with
  | nil => rfl
  | cons item items ih =>
      have happend : requestsOf (item.answers ++ items.flatMap Item.answers) =
          requestsOf item.answers ++ requestsOf (items.flatMap Item.answers) :=
        List.filterMap_append
      rw [List.flatMap_cons, happend, ih, requestsOf_answers]
      cases hframe : item.toFrame? with
      | none => rw [List.filterMap_cons_none hframe]; rfl
      | some f => rw [List.filterMap_cons_some hframe]; rfl

/-- The fields of a frame's request. -/
theorem request_fields (f : Frame) :
    f.request.command = f.command ∧ f.request.sequence = f.sequence ∧
      f.request.flags = f.flags ∧ f.request.payloadLen.toNat = f.payload.length ∧
      f.request.payload.toList =
        f.payload ++ List.replicate (maxPayload - f.payload.length) 0 := by
  have hmin : min f.payload.length maxPayload = f.payload.length := Nat.min_eq_left f.payload_le
  refine ⟨rfl, rfl, rfl, ?_, ?_⟩
  · simp only [Frame.request, Request.ofPayload, hmin]
    exact UInt8.toNat_ofNat_of_lt' (Nat.lt_of_le_of_lt f.payload_le (by decide))
  · simp only [Frame.request, Request.ofPayload]
    rw [toList_copySlice _ _ _ (by rw [Nat.zero_add]; exact f.payload_le)]
    simp

/-- No item is answered with `FrameTooLong`. -/
theorem frameTooLong_notMem (item : Item) : .error .frameTooLong ∉ item.answers := by
  cases item <;> simp [Item.answers]

/-- **The parser recovers exactly the frames of any stream.** A stream has one
decomposition, and the parser answers it item by item: noise with `BadMagic`, the
end of a malformed header with `BadLength`, the end of a frame with its request,
everything else with nothing.  Whatever was sent comes back. -/
theorem parser_exact :
    (∀ stream, ∃ items tail, Decomposes stream items tail ∧
      (∀ items' tail', Decomposes stream items' tail' → items' = items ∧ tail' = tail) ∧
      Parser.new.answers stream =
        items.flatMap Item.answers ++ List.replicate tail.length (.ok none) ∧
      .error .frameTooLong ∉ Parser.new.answers stream) ∧
    (∀ items chunks, List.Forall₂ Sent items chunks →
      requestsOf (Parser.new.answers chunks.flatten) =
        (items.filterMap Item.toFrame?).map Frame.request) ∧
    ∀ f : Frame, f.request.command = f.command ∧ f.request.sequence = f.sequence ∧
      f.request.flags = f.flags ∧ f.request.payloadLen.toNat = f.payload.length ∧
      f.request.payload.toList =
        f.payload ++ List.replicate (maxPayload - f.payload.length) 0 := by
  refine ⟨fun stream => ?_, fun items chunks hsent => ?_, request_fields⟩
  · have hself := decomposes_decompose stream
    refine ⟨_, _, hself, fun items' tail' h => ?_, ?_⟩
    · have heq := h.eq
      rw [heq]
      exact ⟨rfl, rfl⟩
    · generalize (decompose stream).1 = items at hself
      generalize (decompose stream).2 = tail at hself
      obtain ⟨hanswers, hfed⟩ := Parser.answers_items Parser.buffered_new hself.wellFormed
      have htail : PartialFrame ((Parser.new.fed (items.flatMap Item.bytes)).buffered ++ tail) := by
        rw [hfed]
        exact hself.tail
      have hall : Parser.new.answers stream =
          items.flatMap Item.answers ++ List.replicate tail.length (.ok none) := by
        rw [← hself.bytes, Parser.answers_append, hanswers, (Parser.answers_partialFrame htail).1]
      refine ⟨hall, ?_⟩
      rw [hall]
      simp [frameTooLong_notMem]
  · have hitems :
        (∀ item ∈ items, item.WellFormed) ∧ chunks.flatten = items.flatMap Item.bytes := by
      induction hsent with
      | nil => exact ⟨by simp, rfl⟩
      | cons hhead _ ih =>
          obtain ⟨hitem, rfl⟩ := hhead.item
          exact ⟨by simpa using ⟨hitem, ih.1⟩, by rw [List.flatten_cons, ih.2, List.flatMap_cons]⟩
    rw [hitems.2, (Parser.answers_items Parser.buffered_new hitems.1).1, requestsOf_items]

end OptiBridge
