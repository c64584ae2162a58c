import OptiBridge.Loader

/-!
# OptiBridge.LoaderSteps

What each loader operation can do, said once: `acceptsLoad` by what it has
checked (`Accepts`) and what the request spells (`encodedOperation`), the
deferred operations by one constructor for every way they end.  Everything
proved about runs goes through these, never through the definitions.

The constructors of a step type carry the conditions of their branch as
hypotheses and the result as their index, so that a case split on one yields
both at once.  They are stated over any flash; what a chip makes of them is in
`OptiBridge.FlashSteps`.
-/

namespace OptiBridge

open Bytes

/-! ## what a Load request spells -/

/- The three kinds of Load as predicates on the payload, and the operation each
stands for. -/

/-- The operation a Load payload encodes: an operation byte, then the fields of
Begin, an offset and an even fragment of 2 to 12 bytes, or nothing. -/
def encodedOperation (request : Request) : Option LoadOperation :=
  match request.bytes with
  | [] => none
  | operation :: fields =>
      if operation = 0 then
        match fields with
        | [l₀, l₁, mapCount, c₀, c₁, c₂, c₃] =>
            some (.begin (u16FromLeBytes l₀ l₁) mapCount (u32FromLeBytes c₀ c₁ c₂ c₃))
        | _ => none
      else if operation = 1 then
        match fields with
        | o₀ :: o₁ :: fragment =>
            if (2 ≤ fragment.length ∧ fragment.length ≤ 12) ∧ fragment.length % 2 = 0 then
              some (.data (u16FromLeBytes o₀ o₁) (copySlice (Vector.replicate _ 0) 0 fragment)
                (UInt8.ofNat fragment.length))
            else none
        | _ => none
      else if operation = 2 then
        match fields with
        | [] => some .finalize
        | _ => none
      else none

/-- The guard of the Begin arm. -/
abbrev Request.IsBegin (request : Request) : Prop :=
  request.bytes.head? = some 0 ∧ request.payloadLen.toNat = 8

/-- The guard of the Data arm. -/
abbrev Request.IsData (request : Request) : Prop :=
  request.bytes.head? = some 1 ∧ (5 ≤ request.payloadLen.toNat ∧ request.payloadLen.toNat ≤ 15) ∧
    (request.payloadLen.toNat - 3) % 2 = 0

/-- The guard of the Finalize arm. -/
abbrev Request.IsFinalize (request : Request) : Prop :=
  request.bytes.head? = some 2 ∧ request.payloadLen.toNat = 1

/-- A payload byte below the declared length is a byte of the slice. -/
theorem Request.payload_eq_of_bytes (request : Request) {i : Nat} {b : UInt8}
    (h : request.bytes[i]? = some b) (hi : i < maxPayload) : request.payload[i] = b := by
  rw [Request.bytes, List.getElem?_take] at h
  split at h
  · simpa [hi] using h
  · contradiction

/-! ## acceptance -/

/- `loadOperation_ok` and its converse: a Load is accepted when it spells an
operation that the loader accepts. -/

/-- An image length always fits `usize`. -/
theorem imageLen_eq (bytecodeLen : UInt16) (mapCount : UInt8) :
    imageLen bytecodeLen mapCount = some (bytecodeLen.toNat + 16 * mapCount.toNat) := by
  have hbytecode : bytecodeLen.toNat < 2 ^ 16 := bytecodeLen.toNat_lt
  have hmaps : mapCount.toNat < 2 ^ 8 := mapCount.toNat_lt
  have hdescriptors : mapCount.toNat * bpfMapDescriptorSize < 2 ^ 32 := by
    show mapCount.toNat * 16 < 2 ^ 32
    omega
  have hsum : bytecodeLen.toNat + mapCount.toNat * bpfMapDescriptorSize < 2 ^ 32 := by
    show bytecodeLen.toNat + mapCount.toNat * 16 < 2 ^ 32
    omega
  rw [imageLen, checkedUsize, if_pos hdescriptors]
  simp only [checkedUsize, if_pos hsum]
  rw [Nat.mul_comm]

namespace BpfLoader

/-- What the loader has checked about an operation it accepts.  It keeps
holding until the operation runs. -/
def Accepts (self : BpfLoader) : LoadOperation → Prop
  | .begin bytecodeLen mapCount _ =>
      ∃ n, OptiBridge.imageLen bytecodeLen mapCount = some n ∧ ¬ BadBounds bytecodeLen mapCount n
  | .data offset _ len =>
      self.state = .receiving ∧ offset = self.nextOffset ∧
        (2 ≤ len.toNat ∧ len.toNat ≤ 12) ∧ len.toNat % 2 = 0 ∧
        offset.toNat + len.toNat ≤ self.imageLen.toNat
  | .finalize => self.state = .receiving ∧ self.nextOffset = self.imageLen

/-- The Begin arm of a free loader. -/
theorem loadOperation_begin {self : BpfLoader} {request : Request} (hpending : self.pending = none)
    (hrunning : self.state.isRunning = false) (hbegin : request.IsBegin) :
    self.loadOperation request =
      if BadBounds (u16FromLeBytes request.payload[1] request.payload[2]) request.payload[3]
          ((u16FromLeBytes request.payload[1] request.payload[2]).toNat +
            16 * request.payload[3].toNat) then .error statusBadLength
      else .ok (.begin (u16FromLeBytes request.payload[1] request.payload[2]) request.payload[3]
        (u32FromLeBytes request.payload[4] request.payload[5] request.payload[6]
          request.payload[7])) := by
  simp only [loadOperation, hpending, hrunning, imageLen_eq]
  rw [if_neg (by simp), if_neg (by simp), if_pos hbegin]

/-- The Data arm. -/
theorem loadOperation_data {self : BpfLoader} {request : Request} (hpending : self.pending = none)
    (hrunning : self.state.isRunning = false) (hdata : request.IsData) :
    self.loadOperation request =
      if self.state ≠ .receiving then .error statusBadState
      else if u16FromLeBytes request.payload[1] request.payload[2] ≠ self.nextOffset then
        .error statusBadState
      else if self.imageLen.toNat < (u16FromLeBytes request.payload[1] request.payload[2]).toNat +
          (request.payloadLen.toNat - 3) then .error statusBadLength
      else .ok (.data (u16FromLeBytes request.payload[1] request.payload[2])
        (copySlice (Vector.replicate _ 0) 0 (request.bytes.drop 3))
        (UInt8.ofNat (request.payloadLen.toNat - 3))) := by
  simp only [loadOperation, hpending, hrunning]
  rw [if_neg (by simp), if_neg (by simp), if_neg (by simp [hdata.1]), if_pos hdata]

/-- The other arms, none of which reads the payload past its first byte. -/
theorem loadOperation_rest {self : BpfLoader} {request : Request} (hpending : self.pending = none)
    (hrunning : self.state.isRunning = false) (hbegin : ¬ request.IsBegin)
    (hdata : ¬ request.IsData) :
    self.loadOperation request =
      if request.IsFinalize then
        if self.state ≠ .receiving then .error statusBadState
        else if self.nextOffset ≠ self.imageLen then .error statusBadState
        else .ok .finalize
      else if request.bytes.head? = some 0 ∨ request.bytes.head? = some 1 ∨
          request.bytes.head? = some 2 then .error statusBadLength
      else .error statusBadCommand := by
  simp only [loadOperation, hpending, hrunning]
  rw [if_neg (by simp), if_neg (by simp), if_neg hbegin, if_neg hdata]

/-- The length of a fragment fits its byte. -/
theorem toNat_fragmentLen {request : Request} (hdata : request.IsData) :
    (UInt8.ofNat (request.payloadLen.toNat - 3)).toNat = request.payloadLen.toNat - 3 := by
  obtain ⟨-, hlen, -⟩ := hdata
  apply UInt8.toNat_ofNat_of_lt'
  show request.payloadLen.toNat - 3 < 256
  omega

/-- A Begin is what its eight payload bytes spell. -/
private theorem encoded_begin {request : Request} (hbegin : request.IsBegin) :
    encodedOperation request =
      some (.begin (u16FromLeBytes request.payload[1] request.payload[2]) request.payload[3]
        (u32FromLeBytes request.payload[4] request.payload[5] request.payload[6]
          request.payload[7])) := by
  obtain ⟨hfirst, hlen⟩ := hbegin
  have hlength := request.length_bytes
  rw [hlen] at hlength
  match hb : request.bytes with
  | [b₀, b₁, b₂, b₃, b₄, b₅, b₆, b₇] =>
      have h₀ : b₀ = 0 := by simpa [hb] using hfirst
      have h₁ := request.payload_eq_of_bytes (i := 1) (b := b₁) (by simp [hb]) (by decide)
      have h₂ := request.payload_eq_of_bytes (i := 2) (b := b₂) (by simp [hb]) (by decide)
      have h₃ := request.payload_eq_of_bytes (i := 3) (b := b₃) (by simp [hb]) (by decide)
      have h₄ := request.payload_eq_of_bytes (i := 4) (b := b₄) (by simp [hb]) (by decide)
      have h₅ := request.payload_eq_of_bytes (i := 5) (b := b₅) (by simp [hb]) (by decide)
      have h₆ := request.payload_eq_of_bytes (i := 6) (b := b₆) (by simp [hb]) (by decide)
      have h₇ := request.payload_eq_of_bytes (i := 7) (b := b₇) (by simp [hb]) (by decide)
      simp only [encodedOperation, hb, h₀, if_true, h₁, h₂, h₃, h₄, h₅, h₆, h₇]
  | [] | [_] | [_, _] | [_, _, _] | [_, _, _, _] | [_, _, _, _, _] | [_, _, _, _, _, _]
  | [_, _, _, _, _, _, _] => simp [hb] at hlength
  | _ :: _ :: _ :: _ :: _ :: _ :: _ :: _ :: _ :: _ => simp [hb] at hlength

/-- A Data is its offset bytes and the fragment after them. -/
private theorem encoded_data {request : Request} (hdata : request.IsData) :
    encodedOperation request =
      some (.data (u16FromLeBytes request.payload[1] request.payload[2])
        (copySlice (Vector.replicate _ 0) 0 (request.bytes.drop 3))
        (UInt8.ofNat (request.payloadLen.toNat - 3))) := by
  obtain ⟨hfirst, hlen, heven⟩ := hdata
  have hlength := request.length_bytes
  match hb : request.bytes with
  | b₀ :: b₁ :: b₂ :: fragment =>
      have h₀ : b₀ = 1 := by simpa [hb] using hfirst
      have h₁ := request.payload_eq_of_bytes (i := 1) (b := b₁) (by simp [hb]) (by decide)
      have h₂ := request.payload_eq_of_bytes (i := 2) (b := b₂) (by simp [hb]) (by decide)
      have hfragment : fragment.length = request.payloadLen.toNat - 3 := by
        rw [hb] at hlength
        simp only [List.length_cons] at hlength
        omega
      have hfits : (2 ≤ fragment.length ∧ fragment.length ≤ 12) ∧ fragment.length % 2 = 0 := by
        omega
      have h₁₀ : ¬ (1 : UInt8) = 0 := by decide
      simp only [encodedOperation, hb, h₀, h₁₀, if_false, if_true, hfits, and_self, h₁, h₂,
        ← hfragment, List.drop_succ_cons, List.drop_zero]
  | [] | [_] | [_, _] =>
      simp only [hb, List.length_cons, List.length_nil] at hlength
      omega

/-- A Finalize spells a Finalize. -/
private theorem encoded_finalize {request : Request} (hfinal : request.IsFinalize) :
    encodedOperation request = some .finalize := by
  obtain ⟨hfirst, hlen⟩ := hfinal
  have hlength := request.length_bytes
  rw [hlen] at hlength
  match hb : request.bytes with
  | [b₀] =>
      have h₀ : b₀ = 2 := by simpa [hb] using hfirst
      simp [encodedOperation, hb, h₀]
  | [] => simp [hb] at hlength
  | _ :: _ :: _ => simp [hb] at hlength

/-- **Acceptance.** An accepted request spells the operation, nothing was
pending, the loader is not locked, and the operation has been checked. -/
theorem loadOperation_ok {self : BpfLoader} {request : Request} {operation : LoadOperation}
    (h : self.loadOperation request = .ok operation) :
    self.pending = none ∧ self.state.isRunning = false ∧ self.Accepts operation ∧
      encodedOperation request = some operation := by
  unfold loadOperation at h
  simp only at h
  split_ifs at h with hpending hrunning hbegin hdata hstate hoffset hfit hfinal hstate hdone hknown
  · -- Begin
    refine ⟨by simpa using hpending, by simpa using hrunning, ?_⟩
    split at h
    · contradiction
    · next n hn =>
        split_ifs at h with hbad
        injection h with h
        subst h
        exact ⟨⟨n, hn, hbad⟩, encoded_begin hbegin⟩
  · -- Data
    have hlen := toNat_fragmentLen hdata
    have hencoded := encoded_data hdata
    obtain ⟨-, hlen', heven⟩ := hdata
    injection h with h
    subst h
    refine ⟨by simpa using hpending, by simpa using hrunning,
      ⟨not_not.mp hstate, not_not.mp hoffset, ?_⟩, hencoded⟩
    rw [hlen]
    omega
  · -- Finalize
    injection h with h
    subst h
    exact ⟨by simpa using hpending, by simpa using hrunning,
      ⟨not_not.mp hstate, not_not.mp hdone⟩, encoded_finalize hfinal⟩

/-- What a request that encodes an operation looks like. -/
private theorem encoded_cases {request : Request} {operation : LoadOperation}
    (h : encodedOperation request = some operation) :
    request.IsBegin ∨ request.IsData ∨ request.IsFinalize := by
  unfold Request.IsBegin Request.IsData Request.IsFinalize
  rw [← request.length_bytes]
  unfold encodedOperation at h
  split at h
  · contradiction
  · next b fields hb =>
      split_ifs at h with h₀ h₁ h₂
      · subst h₀
        split at h
        · exact .inl ⟨by rw [hb]; rfl, by rw [hb]; rfl⟩
        · contradiction
      · subst h₁
        split at h
        · next fragment =>
            split_ifs at h with hfits
            simp only [hb, List.length_cons]
            exact .inr (.inl ⟨rfl, by omega, by omega⟩)
        · contradiction
      · subst h₂
        split at h
        · exact .inr (.inr ⟨by rw [hb]; rfl, by rw [hb]; rfl⟩)
        · contradiction

/-- **Completeness.** A request that spells an operation the free loader accepts
is accepted as that operation. -/
theorem loadOperation_of_encoded {self : BpfLoader} {request : Request}
    {operation : LoadOperation} (hpending : self.pending = none)
    (hrunning : self.state.isRunning = false) (haccepts : self.Accepts operation)
    (hencoded : encodedOperation request = some operation) :
    self.loadOperation request = .ok operation := by
  rcases encoded_cases hencoded with hbegin | hdata | hfinal
  · rw [encoded_begin hbegin, Option.some.injEq] at hencoded
    subst hencoded
    obtain ⟨n, hn, hbounds⟩ := haccepts
    rw [imageLen_eq, Option.some.injEq] at hn
    subst hn
    rw [loadOperation_begin hpending hrunning hbegin, if_neg hbounds]
  · rw [encoded_data hdata, Option.some.injEq] at hencoded
    subst hencoded
    obtain ⟨hstate, hoffset, -, -, hfit⟩ := haccepts
    rw [toNat_fragmentLen hdata] at hfit
    rw [loadOperation_data hpending hrunning hdata, if_neg (not_not.mpr hstate),
      if_neg (not_not.mpr hoffset), if_neg (Nat.not_lt.mpr hfit)]
  · rw [encoded_finalize hfinal, Option.some.injEq] at hencoded
    subst hencoded
    obtain ⟨hstate, hdone⟩ := haccepts
    have hbegin : ¬ request.IsBegin := by simp [hfinal.1]
    have hdata : ¬ request.IsData := by simp [hfinal.1]
    rw [loadOperation_rest hpending hrunning hbegin hdata, if_pos hfinal,
      if_neg (not_not.mpr hstate), if_neg (not_not.mpr hdone)]

/-- While an operation is pending every Load is busy. -/
theorem loadOperation_pending {self : BpfLoader} (request : Request)
    (h : self.pending.isSome) : self.loadOperation request = .error statusBusy := by
  simp [loadOperation, h]

/-- While a program is running every Load is in the wrong state. -/
theorem loadOperation_running {self : BpfLoader} (request : Request)
    (hpending : self.pending = none) (h : self.state.isRunning) :
    self.loadOperation request = .error statusBadState := by
  simp [loadOperation, hpending, h]

/-- The reasons a loader rejects a Load for. -/
theorem loadOperation_error {self : BpfLoader} {request : Request} {status : UInt8}
    (h : self.loadOperation request = .error status) :
    (status = statusBusy ∧ self.pending.isSome) ∨ status = statusBadState ∨
      status = statusBadLength ∨ status = statusBadCommand := by
  unfold loadOperation at h
  simp only at h
  split_ifs at h with hpending
  · exact .inl ⟨(Except.error.inj h).symm, hpending⟩
  all_goals
    right
    try
      injection h with h
      subst h
      decide
  -- what is left is the Begin arm, whose length or bounds may still be wrong
  split at h
  · injection h with h
    subst h
    decide
  · split_ifs at h
    injection h with h
    subst h
    decide

/-- A loader never rejects with success. -/
theorem loadOperation_error_ne_ok {self : BpfLoader} {request : Request} {status : UInt8}
    (h : self.loadOperation request = .error status) : status ≠ statusOk := by
  rcases loadOperation_error h with ⟨rfl, -⟩ | rfl | rfl | rfl <;> decide

/-! ## the deferred operations -/

/- Four step types, one for each function the main loop or a boot calls. -/

section flash

variable {F : Type} [BpfFlash F]

/-- Every way `begin` ends. -/
inductive BeginStep (self : BpfLoader) (flash : F) (bytecodeLen : UInt16) (mapCount : UInt8)
    (expectedCrc : UInt32) : BpfLoader × F → Prop where
  | tooLong (hlen : OptiBridge.imageLen bytecodeLen mapCount = none) :
      BeginStep self flash bytecodeLen mapCount expectedCrc
        ({ self.clearMapLayouts with state := .failed statusFlashError }, flash)
  | eraseFailed {n : Nat} {flash₁ : F}
      (hlen : OptiBridge.imageLen bytecodeLen mapCount = some n)
      (herase : BpfFlash.erase flash bpfFlashOffset (eraseEnd n) = (.error (), flash₁)) :
      BeginStep self flash bytecodeLen mapCount expectedCrc
        ({ self.clearMapLayouts with state := .failed statusFlashError }, flash₁)
  | headerFailed {n : Nat} {flash₁ flash₂ : F}
      (hlen : OptiBridge.imageLen bytecodeLen mapCount = some n)
      (herase : BpfFlash.erase flash bpfFlashOffset (eraseEnd n) = (.ok (), flash₁))
      (hwrite : BpfFlash.write flash₁ bpfFlashOffset
        (beginHeader bytecodeLen mapCount expectedCrc).toList = (.error (), flash₂)) :
      BeginStep self flash bytecodeLen mapCount expectedCrc
        ({ self.clearMapLayouts with state := .failed statusFlashError }, flash₂)
  | received {n : Nat} {flash₁ flash₂ : F}
      (hlen : OptiBridge.imageLen bytecodeLen mapCount = some n)
      (herase : BpfFlash.erase flash bpfFlashOffset (eraseEnd n) = (.ok (), flash₁))
      (hwrite : BpfFlash.write flash₁ bpfFlashOffset
        (beginHeader bytecodeLen mapCount expectedCrc).toList = (.ok (), flash₂)) :
      BeginStep self flash bytecodeLen mapCount expectedCrc
        ({ self.clearMapLayouts with
            state := .receiving
            bytecodeLen := bytecodeLen
            mapCount := mapCount
            imageLen := UInt16.ofNat n
            nextOffset := 0
            expectedCrc := expectedCrc
            crc := 0xffffffff }, flash₂)

/-- A Begin ends in one of these ways. -/
theorem begin_step (self : BpfLoader) (flash : F) (bytecodeLen : UInt16) (mapCount : UInt8)
    (expectedCrc : UInt32) :
    BeginStep self flash bytecodeLen mapCount expectedCrc
      (self.begin flash bytecodeLen mapCount expectedCrc) := by
  unfold begin
  simp only
  split
  · next hlen => exact .tooLong hlen
  · next n hlen =>
      split
      · next herase => exact .eraseFailed hlen herase
      · next flash₁ herase =>
          split
          · next hwrite => exact .headerFailed hlen herase hwrite
          · next hwrite => exact .received hlen herase hwrite

/-- Every way the `Data` arm ends. -/
inductive DataStep (self : BpfLoader) (flash : F) (offset : UInt16) (bytes : Vector UInt8 12)
    (len : UInt8) : BpfLoader × F → Prop where
  | writeFailed {flash₁ : F}
      (hwrite : BpfFlash.write flash
        (bpfFlashOffset + UInt32.ofNat bpfHeaderSize + offset.toUInt32)
        (bytes.toList.take len.toNat) = (.error (), flash₁)) :
      DataStep self flash offset bytes len
        ({ self with state := .failed statusFlashError }, flash₁)
  | stored {flash₁ : F}
      (hwrite : BpfFlash.write flash
        (bpfFlashOffset + UInt32.ofNat bpfHeaderSize + offset.toUInt32)
        (bytes.toList.take len.toNat) = (.ok (), flash₁)) :
      DataStep self flash offset bytes len
        ({ self with
            crc := crc32Update self.crc (bytes.toList.take len.toNat)
            nextOffset := self.nextOffset + len.toUInt16 }, flash₁)

/-- A Data does. -/
theorem data_step (self : BpfLoader) (flash : F) (offset : UInt16) (bytes : Vector UInt8 12)
    (len : UInt8) : DataStep self flash offset bytes len (self.data flash offset bytes len) := by
  unfold data
  simp only
  split
  · next hwrite => exact .writeFailed hwrite
  · next hwrite => exact .stored hwrite

/-- Every way `finalize` ends. -/
inductive FinalizeStep (self : BpfLoader) (flash : F) : BpfLoader × F → Prop where
  | badCrc (hcrc : crc32Finish self.crc ≠ self.expectedCrc) :
      FinalizeStep self flash ({ self with state := .failed statusBadCrc }, flash)
  | badMaps {flash₁ : F} (hcrc : crc32Finish self.crc = self.expectedCrc)
      (hmaps : OptiBridge.mapLayouts flash self.bytecodeLen self.mapCount = (none, flash₁)) :
      FinalizeStep self flash ({ self with state := .failed statusBadState }, flash₁)
  | markerFailed {flash₁ flash₂ : F} {layouts : Vector MapLayout bpfMaxMaps} {count : UInt8}
      (hcrc : crc32Finish self.crc = self.expectedCrc)
      (hmaps : OptiBridge.mapLayouts flash self.bytecodeLen self.mapCount =
        (some (layouts, count), flash₁))
      (hwrite : BpfFlash.write flash₁ (bpfFlashOffset + 12) [0, 0] = (.error (), flash₂)) :
      FinalizeStep self flash ({ self with state := .failed statusFlashError }, flash₂)
  | committed {flash₁ flash₂ : F} {layouts : Vector MapLayout bpfMaxMaps} {count : UInt8}
      (hcrc : crc32Finish self.crc = self.expectedCrc)
      (hmaps : OptiBridge.mapLayouts flash self.bytecodeLen self.mapCount =
        (some (layouts, count), flash₁))
      (hwrite : BpfFlash.write flash₁ (bpfFlashOffset + 12) [0, 0] = (.ok (), flash₂)) :
      FinalizeStep self flash
        ({ self with
            state := .committed self.expectedCrc
            mapLayouts := layouts
            committedMapCount := count }, flash₂)

/-- A Finalize does. -/
theorem finalize_step (self : BpfLoader) (flash : F) :
    FinalizeStep self flash (self.finalize flash) := by
  unfold finalize
  split_ifs with hcrc
  · exact .badCrc hcrc
  · have hcrc := not_not.mp hcrc
    split
    · next hmaps => exact .badMaps hcrc hmaps
    · next hmaps =>
        split
        · next hwrite => exact .markerFailed hcrc hmaps hwrite
        · next hwrite => exact .committed hcrc hmaps hwrite

/-- Every way `validate_committed` ends. -/
inductive ValidateStep (self : BpfLoader) (flash : F) : BpfLoader × F → Prop where
  | headerUnread {flash₁ : F}
      (hread : BpfFlash.read flash bpfFlashOffset bpfHeaderSize = (.error (), flash₁)) :
      ValidateStep self flash
        ({ self.clearMapLayouts with state := .failed statusFlashError }, flash₁)
  | badHeader {flash₁ : F} {header : Vector UInt8 bpfHeaderSize}
      (hread : BpfFlash.read flash bpfFlashOffset bpfHeaderSize = (.ok header, flash₁))
      (hheader : acceptedHeader header = none) :
      ValidateStep self flash ({ self.clearMapLayouts with state := .empty }, flash₁)
  | imageUnread {flash₁ flash₂ : F} {header : Vector UInt8 bpfHeaderSize} {bytecodeLen : UInt16}
      {mapCount : UInt8} {n : Nat}
      (hread : BpfFlash.read flash bpfFlashOffset bpfHeaderSize = (.ok header, flash₁))
      (hheader : acceptedHeader header = some (bytecodeLen, mapCount, n))
      (himage : imageCrcFrom flash₁ n 0 0xffffffff = (.error (), flash₂)) :
      ValidateStep self flash
        ({ self.clearMapLayouts with state := .failed statusFlashError }, flash₂)
  | badMaps {flash₁ flash₂ flash₃ : F} {header : Vector UInt8 bpfHeaderSize}
      {bytecodeLen : UInt16} {mapCount : UInt8} {n : Nat} {crc : UInt32}
      (hread : BpfFlash.read flash bpfFlashOffset bpfHeaderSize = (.ok header, flash₁))
      (hheader : acceptedHeader header = some (bytecodeLen, mapCount, n))
      (himage : imageCrcFrom flash₁ n 0 0xffffffff = (.ok crc, flash₂))
      (hmaps : OptiBridge.mapLayouts flash₂ bytecodeLen mapCount = (none, flash₃)) :
      ValidateStep self flash ({ self.clearMapLayouts with state := .empty }, flash₃)
  | badCrc {flash₁ flash₂ flash₃ : F} {header : Vector UInt8 bpfHeaderSize}
      {bytecodeLen : UInt16} {mapCount : UInt8} {n : Nat} {crc : UInt32}
      {layouts : Vector MapLayout bpfMaxMaps} {count : UInt8}
      (hread : BpfFlash.read flash bpfFlashOffset bpfHeaderSize = (.ok header, flash₁))
      (hheader : acceptedHeader header = some (bytecodeLen, mapCount, n))
      (himage : imageCrcFrom flash₁ n 0 0xffffffff = (.ok crc, flash₂))
      (hmaps : OptiBridge.mapLayouts flash₂ bytecodeLen mapCount =
        (some (layouts, count), flash₃))
      (hcrc : crc32Finish crc ≠ headerCrc header) :
      ValidateStep self flash ({ self.clearMapLayouts with state := .empty }, flash₃)
  | committed {flash₁ flash₂ flash₃ : F} {header : Vector UInt8 bpfHeaderSize}
      {bytecodeLen : UInt16} {mapCount : UInt8} {n : Nat} {crc : UInt32}
      {layouts : Vector MapLayout bpfMaxMaps} {count : UInt8}
      (hread : BpfFlash.read flash bpfFlashOffset bpfHeaderSize = (.ok header, flash₁))
      (hheader : acceptedHeader header = some (bytecodeLen, mapCount, n))
      (himage : imageCrcFrom flash₁ n 0 0xffffffff = (.ok crc, flash₂))
      (hmaps : OptiBridge.mapLayouts flash₂ bytecodeLen mapCount =
        (some (layouts, count), flash₃))
      (hcrc : crc32Finish crc = headerCrc header) :
      ValidateStep self flash
        ({ self.clearMapLayouts with
            state := .committed (headerCrc header)
            bytecodeLen := bytecodeLen
            mapCount := mapCount
            mapLayouts := layouts
            committedMapCount := count }, flash₃)

/-- A boot does. -/
theorem validate_step (self : BpfLoader) (flash : F) :
    ValidateStep self flash (self.validateCommitted flash) := by
  unfold validateCommitted
  simp only
  split
  · next hread => exact .headerUnread hread
  · next header flash₁ hread =>
      split_ifs with hmagic
      · exact .badHeader hread (by rw [acceptedHeader, if_pos hmagic])
      · split
        · next hlen =>
            exact .badHeader hread (by rw [acceptedHeader, if_neg hmagic]; simp only [hlen])
        · next n hlen =>
            split_ifs with hbounds
            · exact .badHeader hread (by
                rw [acceptedHeader, if_neg hmagic]; simp only [hlen, if_pos hbounds])
            · have hheader : acceptedHeader header =
                  some (u16FromLeBytes header[6] header[7], header[5], n) := by
                rw [acceptedHeader, if_neg hmagic]
                simp only [hlen, if_neg hbounds]
              split
              · next himage => exact .imageUnread hread hheader himage
              · next crc flash₂ himage =>
                  split
                  · next hmaps => exact .badMaps hread hheader himage hmaps
                  · next layouts count flash₃ hmaps =>
                      split_ifs with hcrc
                      · exact .badCrc hread hheader himage hmaps hcrc
                      · exact .committed hread hheader himage hmaps (not_not.mp hcrc)

end flash

end BpfLoader

/-! ## map ranges -/

/- The range of a map access in numbers. -/

/-- The checked sum of 16-bit numbers, in numbers. -/
theorem checkedAdd16_eq {a : UInt16} {n : Nat} (hn : n < 2 ^ 16) :
    checkedAdd16 a (UInt16.ofNat n) =
      if a.toNat + n < 2 ^ 16 then some (UInt16.ofNat (a.toNat + n)) else none := by
  have hof : (UInt16.ofNat n).toNat = n := UInt16.toNat_ofNat_of_lt' hn
  rw [checkedAdd16, hof]
  split_ifs with h
  · congr 1
    apply UInt16.toNat_inj.mp
    rw [UInt16.toNat_add, hof, UInt16.toNat_ofNat']
  · rfl

/-- A range that is accepted lies within the layout of its map, and in the backing. -/
theorem BpfLoader.mapRange_ok {l : BpfLoader} {mapId : UInt8} {byteOffset : UInt16}
    {len start : Nat} (hlen : len < 2 ^ 16) (h : l.mapRange mapId byteOffset len = .ok start) :
    ∃ layout, l.mapLayouts[mapId.toNat]? = some layout ∧
      mapId.toNat < l.committedMapCount.toNat ∧
      byteOffset.toNat + len ≤ layout.len.toNat ∧
      start = layout.offset.toNat + byteOffset.toNat ∧ start + len ≤ bpfMaxMapBytes := by
  unfold mapRange at h
  split at h
  · contradiction
  · split at h
    · contradiction
    · next layout hlayout =>
        split at h
        · contradiction
        · next hid =>
            split at h
            · contradiction
            · next mapEnd hend =>
                rw [checkedAdd16_eq hlen] at hend
                split_ifs at hend with hsmall
                obtain rfl := Option.some.inj hend
                have hend : (UInt16.ofNat (byteOffset.toNat + len)).toNat =
                    byteOffset.toNat + len := UInt16.toNat_ofNat_of_lt' hsmall
                split_ifs at h with hover
                simp only at h
                split_ifs at h with hfits
                obtain rfl := Except.ok.inj h
                rw [UInt16.lt_iff_toNat_lt, hend] at hover
                rw [UInt8.le_iff_toNat_le] at hid
                exact ⟨layout, hlayout, Nat.lt_of_not_le hid, Nat.le_of_not_lt hover, rfl, hfits⟩

end OptiBridge
