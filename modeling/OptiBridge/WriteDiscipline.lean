import OptiBridge.Commit

/-!
# OptiBridge.WriteDiscipline

What the loader does to the medium over a whole run, whatever fails: it stays
in its two pages, programs even ranges only, erases once for each Begin, and
writes an attempt in one order: the header, the image from front to back, the
marker.  So a byte other than the marker is programmed at most once between
two erases.

Two things are kept along a run.  `Disciplined` is about one operation at a time
and needs no memory; `Wears` ties the wear of the medium to the loader's state,
which is what says where the next write will be: while an attempt is open,
everything from its next offset on is erased and not yet programmed.
-/

namespace OptiBridge

open Nor

/-! ## an attempt -/

/- What a host's attempt at an image writes: the header at its Begin, each
fragment at the sum of the lengths before it, and the marker. -/

/-- Fragments programmed one after another, from `address` on. -/
def placed (address : Nat) : List (List UInt8) → List Op
  | [] => []
  | fragment :: fragments =>
      .program address fragment :: placed (address + fragment.length) fragments

/-- One more fragment goes where the ones before it end. -/
theorem placed_concat (address : Nat) (fragments : List (List UInt8)) (fragment : List UInt8) :
    placed address (fragments ++ [fragment]) =
      placed address fragments ++ [.program (address + fragments.flatten.length) fragment] := by
  induction fragments generalizing address with
  | nil => simp [placed]
  | cons head fragments ih => simp [placed, ih, Nat.add_assoc]

/-- The writes of an attempt that has stored these fragments. -/
def attemptWrites (t : Transfer) (fragments : List (List UInt8)) (marker : List Op) : List Op :=
  .program headerAddress (headerBytes t.bytecodeLen t.mapCount t.expectedCrc [0xff, 0xff]) ::
    (placed imageAddress fragments ++ marker)

/-- Writes in the order of one attempt: none, or the header, then fragments that
stay in the image, then at most the marker. -/
def Attempt : Option Transfer → List Op → Prop
  | none, writes => writes = []
  | some t, writes => writes = [] ∨
      ∃ fragments marker, writes = attemptWrites t fragments marker ∧
        (∀ fragment ∈ fragments, fragment ≠ []) ∧
        fragments.flatten.length ≤ t.bytecodeLen.toNat + 16 * t.mapCount.toNat ∧
        (marker = [] ∨ marker = [.program markerAddress [0, 0]])

/-- An operation where the loader may put one. -/
structure Disciplined (op : Op) : Prop where
  start : headerAddress ≤ op.start
  stop : op.stop ≤ 0x8000
  even : ∀ offset bytes, op = .program offset bytes →
    offset % 2 = 0 ∧ bytes.length % 2 = 0 ∧ bytes ≠ []

/-- Reads within the last 8 KiB are in order. -/
theorem disciplined_read {p : Op × Outcome} {start stop : Nat} (h : ReadWithin start stop p)
    (hstart : headerAddress ≤ start) (hstop : stop ≤ 0x8000) : Disciplined p.1 := by
  obtain ⟨op, outcome⟩ := p
  obtain ⟨offset, len, rfl, hlo, hhi⟩ := h
  exact ⟨hstart.trans hlo, hhi.trans hstop, fun _ _ h' => by contradiction⟩

/-- So is the erase of a Begin: it starts at a page and ends at one. -/
theorem disciplined_erase (bytecodeLen : UInt16) (mapCount : UInt8) :
    Disciplined (.erase headerAddress (eraseStop bytecodeLen mapCount)) :=
  ⟨Nat.le_refl _, eraseStop_le .., fun _ _ h => by contradiction⟩

/-- So is the header: sixteen bytes at an even address. -/
theorem disciplined_header (bytecodeLen : UInt16) (mapCount : UInt8) (crc : UInt32) :
    Disciplined (.program headerAddress (headerBytes bytecodeLen mapCount crc [0xff, 0xff])) where
  start := Nat.le_refl _
  stop := by
    show headerAddress + (headerBytes bytecodeLen mapCount crc [0xff, 0xff]).length ≤ 0x8000
    rw [length_headerBytes]
    decide
  even := fun offset bytes h => by
    injection h with hoffset hbytes
    rw [← hoffset, ← hbytes, length_headerBytes]
    exact ⟨by decide, by decide, fun hnil => by
      have hlength := congrArg List.length hnil
      rw [length_headerBytes] at hlength
      contradiction⟩

/-- So is the marker: two bytes within the header. -/
theorem disciplined_marker : Disciplined (.program markerAddress [0, 0]) where
  start := by decide
  stop := by decide
  even := fun offset bytes h => by
    injection h with hoffset hbytes
    subst hoffset hbytes
    decide

/-! ## the invariant -/

/- An open attempt determines what has been written since the erase, and so does
its absence. -/

/-- An attempt that is still open: its writes so far, and no wear where the
next fragments go. -/
structure OpenAttempt (l : BpfLoader) (t : Transfer) (fragments : List (List UInt8))
    (w : Wear) : Prop where
  bytecodeLen : t.bytecodeLen = l.bytecodeLen
  mapCount : t.mapCount = l.mapCount
  writes : w.writes = attemptWrites t fragments []
  nonempty : ∀ fragment ∈ fragments, fragment ≠ []
  length : fragments.flatten.length = l.nextOffset.toNat
  even : l.nextOffset.toNat % 2 = 0
  erased : w.erased = some (headerAddress, eraseStop l.bytecodeLen l.mapCount)
  unworn : ∀ x, imageAddress + l.nextOffset.toNat ≤ x → x < imageAddress + l.imageLen.toNat →
    w.times x = 0

/-- The medium is worn as attempts wear it; `t` is the most recent transfer. -/
structure Wears (l : BpfLoader) (t : Option Transfer) (w : Wear) : Prop where
  attempt : Attempt t w.writes
  times : ∀ x, x ≠ markerAddress → x ≠ markerAddress + 1 → w.times x ≤ 1
  receiving : l.state = .receiving →
    ∃ transfer fragments, t = some transfer ∧ OpenAttempt l transfer fragments w

/-- What is pending has not touched the medium yet. -/
theorem Wears.withPending {l : BpfLoader} {t : Option Transfer} {w : Wear} (h : Wears l t w)
    (pending : Option LoadOperation) : Wears { l with pending := pending } t w where
  attempt := h.attempt
  times := h.times
  receiving := fun hstate => by
    obtain ⟨transfer, fragments, ht, h⟩ := h.receiving hstate
    exact ⟨transfer, fragments, ht, h.bytecodeLen, h.mapCount, h.writes, h.nonempty, h.length,
      h.even, h.erased, h.unworn⟩

section wear

variable {w : Wear}

/-- Begin's erase and header write leave the header worn once and the image not
at all. -/
theorem times_begin (htimes : ∀ x, x ≠ markerAddress → x ≠ markerAddress + 1 → w.times x ≤ 1)
    {stop : Nat} (hstop : imageAddress ≤ stop) {header : List UInt8} (hlength : header.length = 16)
    (o : Outcome) :
    let w' := w.after [(.erase headerAddress stop, .done), (.program headerAddress header, o)]
    (∀ x, x ≠ markerAddress → x ≠ markerAddress + 1 → w'.times x ≤ 1) ∧
      ∀ x, imageAddress ≤ x → x < stop → w'.times x = 0 := by
  intro w'
  have hw' : ∀ x, w'.times x =
      if headerAddress ≤ x ∧ x < headerAddress + header.length then
        (if headerAddress ≤ x ∧ x < stop then 0 else w.times x) + 1
      else if headerAddress ≤ x ∧ x < stop then 0 else w.times x := fun _ => rfl
  simp only [hw', hlength]
  have himage : imageAddress = headerAddress + 16 := rfl
  constructor
  · intro x hx hx'
    have hle := htimes x hx hx'
    split_ifs <;> omega
  · intro x hlo hhi
    rw [if_neg (by omega), if_pos ⟨by omega, hhi⟩]

/-- A fragment wears the next bytes of the image once. -/
theorem times_fragment
    (htimes : ∀ x, x ≠ markerAddress → x ≠ markerAddress + 1 → w.times x ≤ 1)
    {offset imageLen : Nat}
    (hunworn : ∀ x, imageAddress + offset ≤ x → x < imageAddress + imageLen → w.times x = 0)
    (fragment : List UInt8)
    (hfit : offset + fragment.length ≤ imageLen) (o : Outcome) :
    let w' := w.after [(.program (imageAddress + offset) fragment, o)]
    (∀ x, x ≠ markerAddress → x ≠ markerAddress + 1 → w'.times x ≤ 1) ∧
      ∀ x, imageAddress + (offset + fragment.length) ≤ x → x < imageAddress + imageLen →
        w'.times x = 0 := by
  intro w'
  have hw' : ∀ x, w'.times x =
      if imageAddress + offset ≤ x ∧ x < imageAddress + offset + fragment.length then
        w.times x + 1
      else w.times x := fun _ => rfl
  simp only [hw']
  constructor
  · intro x hx hx'
    split_ifs with hin
    · rw [hunworn x hin.1 (by omega)]
    · exact htimes x hx hx'
  · intro x hlo hhi
    rw [if_neg (by omega)]
    exact hunworn x (by omega) hhi

/-- The marker write wears the marker only. -/
theorem times_marker
    (htimes : ∀ x, x ≠ markerAddress → x ≠ markerAddress + 1 → w.times x ≤ 1) (o : Outcome) :
    let w' := w.after [(.program markerAddress [0, 0], o)]
    ∀ x, x ≠ markerAddress → x ≠ markerAddress + 1 → w'.times x ≤ 1 := by
  intro w' x hx hx'
  have hw' : w'.times x =
      if markerAddress ≤ x ∧ x < markerAddress + 2 then w.times x + 1 else w.times x := rfl
  rw [hw', if_neg (by omega)]
  exact htimes x hx hx'

end wear

/-! ## one deferred operation -/

/- Each kind of operation keeps the invariant whatever the chip makes of it: a
write that fails may have programmed its range, and counts as having done so. -/

namespace Wears

variable {self l : BpfLoader} {t : Option Transfer} {w : Wear}

/-- Begin opens an attempt, as far as it gets. -/
theorem begin_writes (bytecodeLen : UInt16) (mapCount : UInt8) (expectedCrc : UInt32)
    (image : List UInt8) {writes : List Op}
    (h : writes = [.program headerAddress (headerBytes bytecodeLen mapCount expectedCrc
      [0xff, 0xff])]) :
    Attempt (some ⟨bytecodeLen, mapCount, expectedCrc, image⟩) writes :=
  .inr ⟨[], [], h, by simp, Nat.zero_le _, .inl rfl⟩

/-- A fragment extends an open attempt, whether or not it is stored. -/
theorem fragment_writes {transfer : Transfer} {fragments : List (List UInt8)}
    {offset : UInt16} {bytes : Vector UInt8 12} {len : UInt8} (hsane : self.Sane)
    (h : OpenAttempt self transfer fragments w)
    (haccepts : self.Accepts (.data offset bytes len)) (o : Outcome) :
    let fragment := bytes.toList.take len.toNat
    let w' := w.after [(.program (imageAddress + offset.toNat) fragment, o)]
    fragment.length = len.toNat ∧
      w'.writes = attemptWrites transfer (fragments ++ [fragment]) [] ∧
      (∀ f ∈ fragments ++ [fragment], f ≠ []) ∧
      (fragments ++ [fragment]).flatten.length = self.nextOffset.toNat + len.toNat ∧
      (fragments ++ [fragment]).flatten.length ≤
        transfer.bytecodeLen.toNat + 16 * transfer.mapCount.toNat := by
  intro fragment w'
  obtain ⟨hstate, rfl, ⟨hmin, hmax⟩, -, hfit⟩ := haccepts
  obtain ⟨-, himage, -⟩ := hsane.transfer hstate
  have hfragment : fragment.length = len.toNat := by simpa [fragment] using hmax
  have hflatten : (fragments ++ [fragment]).flatten.length =
      self.nextOffset.toNat + len.toNat := by
    simp only [List.flatten_append, List.length_append, h.length]
    simp [hfragment]
  refine ⟨hfragment, ?_, ?_, hflatten, ?_⟩
  · show w.writes ++ [.program (imageAddress + self.nextOffset.toNat) fragment] = _
    rw [h.writes, attemptWrites, attemptWrites, placed_concat, h.length]
    simp
  · intro f hf
    cases List.mem_append.mp hf with
    | inl hold => exact h.nonempty f hold
    | inr hnew =>
        rw [List.mem_singleton] at hnew
        subst hnew
        exact List.ne_nil_of_length_pos (by omega)
  · rw [hflatten, h.bytecodeLen, h.mapCount, ← himage]
    exact hfit

/-- The marker ends an attempt. -/
theorem marker_writes {transfer : Transfer} {fragments : List (List UInt8)} (hsane : self.Sane)
    (h : OpenAttempt self transfer fragments w) (haccepts : self.Accepts .finalize) :
    Attempt (some transfer) (w.writes ++ [.program markerAddress [0, 0]]) := by
  obtain ⟨hstate, hdone⟩ := haccepts
  obtain ⟨-, himage, -⟩ := hsane.transfer hstate
  refine .inr ⟨fragments, [.program markerAddress [0, 0]], ?_, h.nonempty, ?_, .inr rfl⟩
  · rw [h.writes]
    simp [attemptWrites]
  · rw [h.length, h.bytecodeLen, h.mapCount, ← himage, hdone]

/-- A loader that neither receives nor will, after a transfer in good order. -/
theorem of_idle (hattempt : Attempt t w.writes)
    (htimes : ∀ x, x ≠ markerAddress → x ≠ markerAddress + 1 → w.times x ≤ 1)
    (hstate : l.state ≠ .receiving) : Wears l t w :=
  ⟨hattempt, htimes, fun h => absurd h hstate⟩

/-- What one deferred operation has to keep. -/
structure Keeps (l : BpfLoader) (t : Option Transfer) (w : Wear) (ops : List (Op × Outcome)) :
    Prop where
  wears : Wears l t (w.after ops)
  covers : w.Covers ops
  disciplined : ∀ p ∈ ops, Disciplined p.1

/-- Reads before the rest change nothing. -/
theorem keeps_reads {reads ops : List (Op × Outcome)} {n : Nat} (hn : n ≤ 7808)
    (hreads : ∀ p ∈ reads, ReadWithin imageAddress (imageAddress + n) p)
    (h : Keeps l t w ops) : Keeps l t w (reads ++ ops) := by
  have hidle := w.after_reads fun p hp => by
    obtain ⟨offset, len, hop, -⟩ := hreads p hp
    exact ⟨offset, len, hop⟩
  refine ⟨?_, Wear.covers_append hidle.2 (hidle.1.symm ▸ h.covers), fun p hp => ?_⟩
  · rw [Wear.after_append, hidle.1]
    exact h.wears
  · cases List.mem_append.mp hp with
    | inl hread =>
        refine disciplined_read (hreads p hread) (by decide) ?_
        show 0x6010 + n ≤ 0x8000
        omega
    | inr hop => exact h.disciplined p hop

theorem keeps_nil (h : Wears l t w) : Keeps l t w [] := ⟨h, trivial, by simp⟩

/-- The marker is programmed over its erased place, once. -/
theorem keeps_marker {transfer : Transfer} {fragments : List (List UInt8)} (hsane : self.Sane)
    (h : Wears self (some transfer) w) (hopen : OpenAttempt self transfer fragments w)
    (haccepts : self.Accepts .finalize) (hstate : l.state ≠ .receiving) (o : Outcome) :
    Keeps l (some transfer) w [(.program markerAddress [0, 0], o)] := by
  refine ⟨of_idle (marker_writes hsane hopen haccepts) (times_marker h.times o) hstate, ?_, ?_⟩
  · refine ⟨⟨_, _, hopen.erased, by decide, ?_⟩, trivial⟩
    have hstop := (hsane.transfer haccepts.1).1.image_le_eraseStop
    exact Nat.le_trans (Nat.le_trans (by decide) (Nat.le_add_right imageAddress _)) hstop
  · simp only [List.mem_singleton, forall_eq]
    exact disciplined_marker

/-- A fragment is even in place and length, and ends within the last page. -/
theorem disciplined_fragment {offset : UInt16} {bytes : Vector UInt8 12} {len : UInt8}
    (hsane : self.Sane) (haccepts : self.Accepts (.data offset bytes len))
    (heven : self.nextOffset.toNat % 2 = 0)
    (hlength : (bytes.toList.take len.toNat).length = len.toNat) :
    Disciplined (.program (imageAddress + offset.toNat) (bytes.toList.take len.toNat)) := by
  obtain ⟨hstate, rfl, ⟨hmin, -⟩, hlen, hfit⟩ := haccepts
  obtain ⟨hbounds, himage, -⟩ := hsane.transfer hstate
  have hle := hbounds.imageLen_le
  refine ⟨Nat.le_trans (by decide) (Nat.le_add_right imageAddress _), ?_, fun o b h => ?_⟩
  · show 0x6010 + self.nextOffset.toNat + (bytes.toList.take len.toNat).length ≤ 0x8000
    omega
  · injection h with ho hb
    subst ho hb
    refine ⟨?_, by omega, List.ne_nil_of_length_pos (by omega)⟩
    show (0x6010 + self.nextOffset.toNat) % 2 = 0
    omega

/-- A fragment is programmed where nothing has been since the erase. -/
theorem covers_fragment {transfer : Transfer} {fragments : List (List UInt8)} {offset : UInt16}
    {bytes : Vector UInt8 12} {len : UInt8} (hsane : self.Sane)
    (hopen : OpenAttempt self transfer fragments w)
    (haccepts : self.Accepts (.data offset bytes len))
    (hlength : (bytes.toList.take len.toNat).length = len.toNat) (o : Outcome) :
    w.Covers [(.program (imageAddress + offset.toNat) (bytes.toList.take len.toNat), o)] := by
  obtain ⟨hstate, rfl, -, -, hfit⟩ := haccepts
  obtain ⟨hbounds, himage, -⟩ := hsane.transfer hstate
  refine ⟨⟨_, _, hopen.erased, Nat.le_trans (by decide) (Nat.le_add_right imageAddress _), ?_⟩,
    trivial⟩
  refine Nat.le_trans ?_ hbounds.image_le_eraseStop
  show 0x6010 + self.nextOffset.toNat + (bytes.toList.take len.toNat).length ≤
    0x6010 + (self.bytecodeLen.toNat + 16 * self.mapCount.toNat)
  omega

/-- The header is programmed over the page that has just been erased. -/
theorem covers_begin (w : Wear) {stop : Nat} (hstop : imageAddress ≤ stop) {header : List UInt8}
    (hlength : header.length = 16) (o : Outcome) :
    w.Covers [(.erase headerAddress stop, .done), (.program headerAddress header, o)] := by
  refine ⟨trivial, ⟨_, _, rfl, Nat.le_refl _, ?_⟩, trivial⟩
  rw [hlength]
  exact hstop

/-- What Begin erases and programs, whether or not the header is stored. -/
theorem keeps_begin (h : Wears self t w) {bytecodeLen : UInt16} {mapCount : UInt8}
    {expectedCrc : UInt32} (hbounds : GoodBounds bytecodeLen mapCount) (o : Outcome)
    (hopen : l.state = .receiving → l.bytecodeLen = bytecodeLen ∧ l.mapCount = mapCount ∧
      l.nextOffset = 0 ∧ l.imageLen.toNat ≤ bytecodeLen.toNat + 16 * mapCount.toNat) :
    Keeps l (Transfer.after t (.begin bytecodeLen mapCount expectedCrc)) w
      [(.erase headerAddress (eraseStop bytecodeLen mapCount), .done),
        (.program headerAddress (headerBytes bytecodeLen mapCount expectedCrc [0xff, 0xff]),
          o)] := by
  have himage := hbounds.image_le_eraseStop
  have hstop := Nat.le_trans (Nat.le_add_right _ _) himage
  have hlength := length_headerBytes bytecodeLen mapCount expectedCrc 0xff 0xff
  obtain ⟨htimes, hunworn⟩ := times_begin h.times hstop hlength o
  refine ⟨⟨begin_writes _ _ _ [] rfl, htimes, fun hstate => ⟨_, [], rfl, ?_⟩⟩,
    covers_begin w hstop hlength _, ?_⟩
  · obtain ⟨rfl, rfl, hnext, hle⟩ := hopen hstate
    refine ⟨rfl, rfl, rfl, by simp, by rw [hnext]; rfl, by rw [hnext]; rfl, rfl,
      fun x hlo hhi => hunworn x (Nat.le_trans (Nat.le_add_right _ _) hlo) ?_⟩
    omega
  · simp only [List.mem_cons, List.not_mem_nil, or_false, forall_eq_or_imp, forall_eq]
    exact ⟨disciplined_erase .., disciplined_header ..⟩

/-- What Data programs, whether or not the fragment is stored. -/
theorem keeps_fragment {transfer : Transfer} {fragments : List (List UInt8)} {offset : UInt16}
    {bytes : Vector UInt8 12} {len : UInt8} (hsane : self.Sane) (h : Wears self (some transfer) w)
    (hopen : OpenAttempt self transfer fragments w)
    (haccepts : self.Accepts (.data offset bytes len)) (o : Outcome)
    (hnext : l.state = .receiving → l.bytecodeLen = self.bytecodeLen ∧
      l.mapCount = self.mapCount ∧ l.imageLen = self.imageLen ∧
      l.nextOffset = self.nextOffset + len.toUInt16) :
    Keeps l (Transfer.after (some transfer) (.data offset bytes len)) w
      [(.program (imageAddress + offset.toNat) (bytes.toList.take len.toNat), o)] := by
  obtain ⟨hlength, hwrites, hnonempty, hflatten, hfit⟩ := fragment_writes hsane hopen haccepts o
  obtain rfl : offset = self.nextOffset := haccepts.2.1
  have heven := haccepts.2.2.2.1
  have hroom := haccepts.2.2.2.2
  obtain ⟨htimes, hunworn⟩ :=
    times_fragment h.times hopen.unworn (bytes.toList.take len.toNat) (by omega) o
  refine ⟨⟨.inr ⟨_, [], hwrites, hnonempty, hfit, .inl rfl⟩, htimes, fun hstate =>
    ⟨_, fragments ++ [bytes.toList.take len.toNat], rfl, ?_⟩⟩,
    covers_fragment hsane hopen haccepts hlength _, ?_⟩
  · obtain ⟨hbytecode, hmaps, himage, hoffset⟩ := hnext hstate
    have hsum : l.nextOffset.toNat = self.nextOffset.toNat + len.toNat := by
      have hlt := self.imageLen.toNat_lt
      rw [hoffset, UInt16.toNat_add, UInt8.toNat_toUInt16]
      exact Nat.mod_eq_of_lt (by omega)
    have hwas := hopen.even
    refine ⟨hbytecode ▸ hopen.bytecodeLen, hmaps ▸ hopen.mapCount, hwrites, hnonempty,
      hflatten.trans hsum.symm, by omega, ?_, fun x hlo hhi => hunworn x ?_ ?_⟩
    · rw [hbytecode, hmaps]
      exact hopen.erased
    · rwa [hlength, ← hsum]
    · rwa [← himage]
  · simp only [List.mem_singleton, forall_eq]
    exact disciplined_fragment hsane haccepts hopen.even hlength

/-- **Discipline step.** A deferred operation keeps the medium worn as attempts
wear it. -/
theorem executed {operation : LoadOperation} {c : Contents} {ops : List (Op × Outcome)}
    (h : Wears self t w) (hsane : self.Sane) (haccepts : self.Accepts operation)
    (hexecuted : self.Executed c operation l ops) :
    Keeps l (Transfer.after t operation) w ops := by
  cases hexecuted with
  -- an erase that fails leaves the loader failed, and no attempt open
  | eraseFailed =>
      refine ⟨of_idle (.inl rfl) h.times (by simp), ⟨trivial, trivial⟩, ?_⟩
      simp only [List.mem_singleton, forall_eq]
      exact disciplined_erase ..
  | headerFailed hbounds => exact keeps_begin h hbounds _ (by simp)
  | @received bytecodeLen mapCount expectedCrc hbounds =>
      refine keeps_begin h hbounds _ fun _ => ⟨rfl, rfl, rfl, ?_⟩
      show (UInt16.ofNat (bytecodeLen.toNat + 16 * mapCount.toNat)).toNat ≤ _
      rw [UInt16.toNat_ofNat']
      exact Nat.mod_le _ _
  | writeFailed =>
      obtain ⟨transfer, fragments, rfl, hopen⟩ := h.receiving haccepts.1
      exact keeps_fragment hsane h hopen haccepts _ (by simp)
  | stored =>
      obtain ⟨transfer, fragments, rfl, hopen⟩ := h.receiving haccepts.1
      exact keeps_fragment hsane h hopen haccepts _ fun _ => ⟨rfl, rfl, rfl, rfl⟩
  -- a wrong CRC is noticed before anything is issued
  | badCrc => exact keeps_nil (of_idle h.attempt h.times (by simp))
  | badMaps _ hreads =>
      rw [← List.append_nil ops]
      exact keeps_reads (hsane.transfer haccepts.1).1.imageLen_le hreads
        (keeps_nil (of_idle h.attempt h.times (by simp)))
  | @markerFailed reads residue _ hreads =>
      obtain ⟨transfer, fragments, rfl, hopen⟩ := h.receiving haccepts.1
      exact keeps_reads (hsane.transfer haccepts.1).1.imageLen_le hreads
        (keeps_marker hsane h hopen haccepts (by simp) (.failed residue))
  | @committed reads _ hreads =>
      obtain ⟨transfer, fragments, rfl, hopen⟩ := h.receiving haccepts.1
      exact keeps_reads (hsane.transfer haccepts.1).1.imageLen_le hreads
        (keeps_marker hsane h hopen haccepts (by simp) .done)

end Wears

/-! ## whole runs -/

/- The erases of a run are those of its Begins, one each, and the rest of the
log admits nothing twice. -/

/-- Erases are the operations of this form. -/
def isErase : Op → Bool
  | .erase _ _ => true
  | .read _ _ | .program _ _ => false

/-- The erase an operation has to issue: Begin's. -/
def eraseOf : LoadOperation → Option Op
  | .begin bytecodeLen mapCount _ => some (.erase headerAddress (eraseStop bytecodeLen mapCount))
  | .data _ _ _ | .finalize => none

/-- Reads are no erases. -/
theorem filter_isErase_reads {reads : List (Op × Outcome)} {start stop : Nat}
    (hreads : ∀ p ∈ reads, ReadWithin start stop p) :
    (reads.map Prod.fst).filter isErase = [] := by
  simp only [List.filter_eq_nil_iff, List.mem_map, forall_exists_index, and_imp,
    forall_apply_eq_imp_iff₂]
  intro p hp
  obtain ⟨offset, len, hop, -⟩ := hreads p hp
  simp [hop, isErase]

/-- A deferred operation issues the erase it has to, and no other. -/
theorem erases_executed {self l : BpfLoader} {operation : LoadOperation} {c : Contents}
    {ops : List (Op × Outcome)} (hexecuted : self.Executed c operation l ops) :
    (ops.map Prod.fst).filter isErase = (eraseOf operation).toList := by
  cases hexecuted with
  | eraseFailed | headerFailed | received | writeFailed | stored | badCrc => rfl
  | badMaps _ hreads => exact filter_isErase_reads hreads
  | markerFailed _ hreads =>
      rw [List.map_append, List.filter_append, filter_isErase_reads hreads]
      rfl
  | committed _ hreads =>
      rw [List.map_append, List.filter_append, filter_isErase_reads hreads]
      rfl

/-- An executed Begin has good bounds. -/
theorem bounds_executed {self : BpfLoader} (hsane : self.Sane) {bytecodeLen : UInt16}
    {mapCount : UInt8} {expectedCrc : UInt32}
    (hpending : self.pending = some (.begin bytecodeLen mapCount expectedCrc)) :
    GoodBounds bytecodeLen mapCount := by
  obtain ⟨-, n, -, hbounds⟩ := hsane.pending _ hpending
  exact goodBounds_of_not_bad hbounds

/-- An erase ends at a page. -/
theorem eraseStop_aligned (bytecodeLen : UInt16) (mapCount : UInt8) :
    eraseStop bytecodeLen mapCount % 4096 = 0 := by
  unfold eraseStop
  split_ifs <;> rfl

namespace Device

/-- What the write discipline keeps along a run; `log` is all that was issued
since power-on. -/
structure WellWorn (d : Device Chip) (operations : List LoadOperation) : Prop where
  sane : d.loader.Sane
  keeps : Wears.Keeps d.loader (Transfer.last operations) .zero d.flash.log

/-- Every event keeps the medium well worn, with what it executes added to the
operations. -/
theorem wellWorn_step {d : Device Chip} {operations : List LoadOperation} (e : Event)
    (h : d.WellWorn operations) : (d.step e).WellWorn (operations ++ d.executes e) := by
  refine ⟨sane_step h.sane e, ?_⟩
  rw [(issued_step h.sane e).log, Transfer.last, List.foldl_append]
  have hnew : Wears.Keeps (d.step e).loader
      ((d.executes e).foldl Transfer.after (Transfer.last operations))
      (Wear.zero.after d.flash.log) (d.issues e) := by
    have hwears := h.keeps.wears
    cases e with
    | request request execute =>
        rw [issues_of_issued (d.issued_request request execute)]
        refine Wears.keeps_nil ?_
        show Wears (d.dispatched request execute).2.loader (Transfer.last operations) _
        cases loader_step request (recording execute) d.toDispatchState with
        | kept hloader => exact (hloader : (d.dispatched request execute).2.loader = _) ▸ hwears
        | accepted _ _ _ hloader =>
            rw [show (d.dispatched request execute).2.loader = _ from hloader]
            exact hwears.withPending _
        | started _ _ _ _ hloader =>
            rw [show (d.dispatched request execute).2.loader = _ from hloader]
            exact Wears.of_idle hwears.attempt hwears.times (by simp)
    | executePending =>
        cases hpending : d.loader.pending with
        | none =>
            rw [issues_of_none hpending,
              show d.step .executePending = d from executePending_of_none hpending]
            simpa [hpending] using Wears.keeps_nil hwears
        | some operation =>
            obtain ⟨ops, hissued, hexecuted⟩ := executePending_chip h.sane hpending
            rw [issues_of_issued (e := .executePending) hissued, executes_executePending, hpending]
            exact (hwears.withPending none).executed h.sane.withoutPending
              (accepts_withPending (h.sane.pending operation hpending).2 none) hexecuted
  refine ⟨?_, Wear.covers_append h.keeps.covers hnew.covers, fun p hp => ?_⟩
  · rw [Wear.after_append]
    exact hnew.wears
  · cases List.mem_append.mp hp with
    | inl hold => exact h.keeps.disciplined p hold
    | inr hissued => exact hnew.disciplined p hissued

/-- Boot only reads. -/
theorem boot_log_reads (statusQueue : StatusQueue) (mapBacking : MapBacking) (output : Output)
    (c : Contents) (outcomes : Nat → Outcome) :
    ∀ p ∈ (boot statusQueue mapBacking output (Chip.fresh c outcomes)).flash.log,
      ReadWithin headerAddress 0x8000 p := by
  obtain ⟨reads, hissued, hreads, -⟩ :=
    BpfLoader.new.validateCommitted_chip (Chip.fresh c outcomes)
  have hlog : (boot statusQueue mapBacking output (Chip.fresh c outcomes)).flash.log = reads :=
    hissued.log
  rw [hlog]
  exact fun p hp => (hreads p hp).within

/-- A boot only reads. -/
theorem wellWorn_boot (statusQueue : StatusQueue) (mapBacking : MapBacking) (output : Output)
    (c : Contents) (outcomes : Nat → Outcome) :
    (boot statusQueue mapBacking output (Chip.fresh c outcomes)).WellWorn [] := by
  have hreads := boot_log_reads statusQueue mapBacking output c outcomes
  have hidle := Wear.zero.after_reads fun p hp => by
    obtain ⟨offset, len, hop, -⟩ := hreads p hp
    exact ⟨offset, len, hop⟩
  refine ⟨sane_boot .., ?_, hidle.2, fun p hp => disciplined_read (hreads p hp) (Nat.le_refl _)
    (Nat.le_refl _)⟩
  rw [hidle.1]
  refine ⟨rfl, fun _ _ _ => Nat.zero_le 1, fun hstate => ?_⟩
  have hmirrors := (PowerOn.boot statusQueue mapBacking output (Chip.fresh c outcomes)).mirrors
  obtain ⟨image, hnone, -⟩ := hmirrors.receiving hstate
  contradiction

/-- So does every run. -/
theorem wellWorn_run {d : Device Chip} (h : d.WellWorn []) (es : List Event) :
    (d.run es).WellWorn (d.executed es) :=
  Machine.invariant_trace (P := fun _ => True) (I := WellWorn)
    (fun _ _ e _ hd => wellWorn_step e hd) h fun _ _ => trivial

/-- **Write discipline.** From boot, over any contents, however the operations
fail: every operation stays in `[0x6000, 0x8000)` and every program is even and
nonempty; boot only reads, a Begin that is due erases once, whole pages from the
header to the end of its image, and nothing else erases; the writes since the
last erase are those of one attempt, in order; no byte but the marker is
programmed twice between erases, and none outside what the attempt has erased. -/
theorem write_discipline (statusQueue : StatusQueue) (mapBacking : MapBacking) (output : Output)
    (c : Contents) (outcomes : Nat → Outcome) (es : List Event) :
    let start := boot statusQueue mapBacking output (Chip.fresh c outcomes)
    let d := start.run es
    let wear := Wear.zero.after d.flash.log
    (∀ p ∈ d.flash.log, Disciplined p.1) ∧
      (∀ p ∈ start.flash.log, ∃ offset len, p.1 = .read offset len) ∧
      (∀ e, ((d.issues e).map Prod.fst).filter isErase = (d.due e).filterMap eraseOf) ∧
      (∀ bytecodeLen mapCount expectedCrc,
        .begin bytecodeLen mapCount expectedCrc ∈ d.due .executePending →
          headerAddress % 4096 = 0 ∧ eraseStop bytecodeLen mapCount % 4096 = 0 ∧
            imageAddress + (bytecodeLen.toNat + 16 * mapCount.toNat) ≤
              eraseStop bytecodeLen mapCount) ∧
      Attempt (Transfer.last (start.executed es)) wear.writes ∧
      (∀ x, x ≠ markerAddress → x ≠ markerAddress + 1 → wear.times x ≤ 1) ∧
      Wear.zero.Covers d.flash.log := by
  intro start d wear
  have hboot := wellWorn_boot statusQueue mapBacking output c outcomes
  obtain ⟨hsane, hwears, hcovers, hdisciplined⟩ := wellWorn_run hboot es
  refine ⟨hdisciplined, fun p hp => ?_, fun e => ?_, fun bytecodeLen mapCount crc hbegin => ?_,
    hwears.attempt, hwears.times, hcovers⟩
  · obtain ⟨offset, len, hop, -⟩ := boot_log_reads statusQueue mapBacking output c outcomes p hp
    exact ⟨offset, len, hop⟩
  · -- only an executed Begin erases
    cases e with
    | request request execute =>
        rw [issues_of_issued (d.issued_request request execute)]
        rfl
    | executePending =>
        cases hpending : d.loader.pending with
        | none =>
            rw [issues_of_none hpending, due, hpending]
            rfl
        | some operation =>
            obtain ⟨ops, hissued, hexecuted⟩ := executePending_chip hsane hpending
            rw [issues_of_issued (e := .executePending) hissued, due, hpending,
              erases_executed hexecuted]
            cases operation <;> rfl
  · have hpending : d.loader.pending = some (.begin bytecodeLen mapCount crc) := by
      simpa [due] using hbegin
    exact ⟨rfl, eraseStop_aligned .., (bounds_executed hsane hpending).image_le_eraseStop⟩

end Device

end OptiBridge
