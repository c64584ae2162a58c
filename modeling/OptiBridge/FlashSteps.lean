import OptiBridge.Flash

/-!
# OptiBridge.FlashSteps

What the loader issues to a chip: one constructor for every way a deferred
operation ends, with the operations it logged, and the same for the boot
validator.  Contents, commits and the write discipline are all read off these.

The constructors of `Executed` are the branches of the source, with everything a
later proof wants to know of a branch in its premises: the loader that is left
is written out, and so is each logged operation with its outcome.  Nothing above
this module unfolds `begin` or `finalize` again.

* `executePending_chip`, one deferred operation: how it ended, and what it
  issued;
* `issued_step` and `issued_run`, the log along a run.
-/

namespace OptiBridge

open Nor

/-- Where the erase of an image ends. -/
def eraseStop (bytecodeLen : UInt16) (mapCount : UInt8) : Nat :=
  if bytecodeLen.toNat + 16 * mapCount.toNat ≤ 4080 then 0x7000 else 0x8000

/-- Everything an image needs is erased. -/
theorem GoodBounds.image_le_eraseStop {bytecodeLen : UInt16} {mapCount : UInt8}
    (h : GoodBounds bytecodeLen mapCount) :
    imageAddress + (bytecodeLen.toNat + 16 * mapCount.toNat) ≤
      eraseStop bytecodeLen mapCount := by
  obtain ⟨-, hbytecode, -, hmaps⟩ := h
  unfold eraseStop
  show 0x6010 + (bytecodeLen.toNat + 16 * mapCount.toNat) ≤ _
  split_ifs <;> omega

/-- The erase stays within the last 8 KiB of flash. -/
theorem eraseStop_le (bytecodeLen : UInt16) (mapCount : UInt8) :
    eraseStop bytecodeLen mapCount ≤ 0x8000 := by
  unfold eraseStop
  split_ifs <;> omega

/-- An image within its limits has at most 7680 bytes of bytecode and 128 of
descriptors. -/
theorem GoodBounds.imageLen_le {bytecodeLen : UInt16} {mapCount : UInt8}
    (h : GoodBounds bytecodeLen mapCount) :
    bytecodeLen.toNat + 16 * mapCount.toNat ≤ 7808 := by
  obtain ⟨-, hbytecode, -, hmaps⟩ := h
  omega

/-! ## deferred operations -/

/- One lemma for each kind of operation shows that it ends in one of the ways
`Executed` lists; `executePending_chip` puts them together. -/

namespace BpfLoader

/-- Every way a deferred operation ends on a chip that holds `c`: the loader it
leaves, and what it issued. -/
inductive Executed (self : BpfLoader) (c : Contents) :
    LoadOperation → BpfLoader → List (Op × Outcome) → Prop where
  | eraseFailed {bytecodeLen : UInt16} {mapCount : UInt8} {expectedCrc : UInt32}
      {residue : Nat → UInt8 → UInt8} (hbounds : GoodBounds bytecodeLen mapCount) :
      Executed self c (.begin bytecodeLen mapCount expectedCrc)
        { self.clearMapLayouts with state := .failed statusFlashError }
        [(.erase headerAddress (eraseStop bytecodeLen mapCount), .failed residue)]
  | headerFailed {bytecodeLen : UInt16} {mapCount : UInt8} {expectedCrc : UInt32}
      {residue : Nat → UInt8 → UInt8} (hbounds : GoodBounds bytecodeLen mapCount) :
      Executed self c (.begin bytecodeLen mapCount expectedCrc)
        { self.clearMapLayouts with state := .failed statusFlashError }
        [(.erase headerAddress (eraseStop bytecodeLen mapCount), .done),
          (.program headerAddress (headerBytes bytecodeLen mapCount expectedCrc [0xff, 0xff]),
            .failed residue)]
  | received {bytecodeLen : UInt16} {mapCount : UInt8} {expectedCrc : UInt32}
      (hbounds : GoodBounds bytecodeLen mapCount) :
      Executed self c (.begin bytecodeLen mapCount expectedCrc)
        { self.clearMapLayouts with
            state := .receiving
            bytecodeLen := bytecodeLen
            mapCount := mapCount
            imageLen := UInt16.ofNat (bytecodeLen.toNat + 16 * mapCount.toNat)
            nextOffset := 0
            expectedCrc := expectedCrc
            crc := 0xffffffff }
        [(.erase headerAddress (eraseStop bytecodeLen mapCount), .done),
          (.program headerAddress (headerBytes bytecodeLen mapCount expectedCrc [0xff, 0xff]),
            .done)]
  | writeFailed {offset : UInt16} {bytes : Vector UInt8 12} {len : UInt8}
      {residue : Nat → UInt8 → UInt8} :
      Executed self c (.data offset bytes len)
        { self with state := .failed statusFlashError }
        [(.program (imageAddress + offset.toNat) (bytes.toList.take len.toNat), .failed residue)]
  | stored {offset : UInt16} {bytes : Vector UInt8 12} {len : UInt8} :
      Executed self c (.data offset bytes len)
        { self with
            crc := crc32Update self.crc (bytes.toList.take len.toNat)
            nextOffset := self.nextOffset + len.toUInt16 }
        [(.program (imageAddress + offset.toNat) (bytes.toList.take len.toNat), .done)]
  | badCrc (hcrc : crc32Finish self.crc ≠ self.expectedCrc) :
      Executed self c .finalize { self with state := .failed statusBadCrc } []
  | badMaps {reads : List (Op × Outcome)} (hcrc : crc32Finish self.crc = self.expectedCrc)
      (hreads : ∀ p ∈ reads, ReadWithin imageAddress
        (imageAddress + (self.bytecodeLen.toNat + 16 * self.mapCount.toNat)) p)
      (hbad : (∃ p ∈ reads, p.2 ≠ .done) ∨
        ¬ ValidDescriptors (descriptorsAt c self.bytecodeLen self.mapCount)) :
      Executed self c .finalize { self with state := .failed statusBadState } reads
  | markerFailed {reads : List (Op × Outcome)} {residue : Nat → UInt8 → UInt8}
      (hcrc : crc32Finish self.crc = self.expectedCrc)
      (hreads : ∀ p ∈ reads, ReadWithin imageAddress
        (imageAddress + (self.bytecodeLen.toNat + 16 * self.mapCount.toNat)) p)
      (hdone : ∀ p ∈ reads, p.2 = .done)
      (hvalid : ValidDescriptors (descriptorsAt c self.bytecodeLen self.mapCount)) :
      Executed self c .finalize { self with state := .failed statusFlashError }
        (reads ++ [(.program markerAddress [0, 0], .failed residue)])
  | committed {reads : List (Op × Outcome)} (hcrc : crc32Finish self.crc = self.expectedCrc)
      (hreads : ∀ p ∈ reads, ReadWithin imageAddress
        (imageAddress + (self.bytecodeLen.toNat + 16 * self.mapCount.toNat)) p)
      (hdone : ∀ p ∈ reads, p.2 = .done)
      (hvalid : ValidDescriptors (descriptorsAt c self.bytecodeLen self.mapCount)) :
      Executed self c .finalize
        { self with
            state := .committed self.expectedCrc
            mapLayouts := layoutVector (descriptorsAt c self.bytecodeLen self.mapCount)
            committedMapCount := self.mapCount }
        (reads ++ [(.program markerAddress [0, 0], .done)])

variable {self : BpfLoader} (f : Chip)

/-- A Begin fails at the erase or at the header, or receives. -/
theorem begin_chip {bytecodeLen : UInt16} {mapCount : UInt8} {expectedCrc : UInt32}
    (hbounds : GoodBounds bytecodeLen mapCount) :
    ∃ ops, f.Issued (self.begin f bytecodeLen mapCount expectedCrc).2 ops ∧
      Executed self f.contents (.begin bytecodeLen mapCount expectedCrc)
        (self.begin f bytecodeLen mapCount expectedCrc).1 ops := by
  have hstop : (eraseEnd (bytecodeLen.toNat + 16 * mapCount.toNat)).toNat =
      eraseStop bytecodeLen mapCount := by
    have hlen := hbounds.imageLen_le
    rw [toNat_eraseEnd (by omega), eraseStop]
  have hstep := self.begin_step f bytecodeLen mapCount expectedCrc
  generalize self.begin f bytecodeLen mapCount expectedCrc = out at hstep ⊢
  cases hstep with
  | tooLong hlen =>
      rw [imageLen_eq] at hlen
      contradiction
  | eraseFailed hlen herase =>
      rw [imageLen_eq] at hlen
      obtain rfl := Option.some.inj hlen
      obtain ⟨⟨residue, hnext⟩, rfl⟩ := erase_eq_error herase
      rw [hstop]
      exact ⟨_, f.issued_push _, hnext ▸ .eraseFailed hbounds⟩
  | headerFailed hlen herase hwrite =>
      rw [imageLen_eq] at hlen
      obtain rfl := Option.some.inj hlen
      obtain ⟨hnext, rfl⟩ := erase_eq_ok herase
      obtain ⟨⟨residue, hnext'⟩, rfl⟩ := write_eq_error hwrite
      rw [hstop, toList_beginHeader] at *
      refine ⟨_, (f.issued_push _).trans (Chip.issued_push _ _), ?_⟩
      rw [hnext, hnext']
      exact .headerFailed hbounds
  | received hlen herase hwrite =>
      rw [imageLen_eq] at hlen
      obtain rfl := Option.some.inj hlen
      obtain ⟨hnext, rfl⟩ := erase_eq_ok herase
      obtain ⟨hnext', rfl⟩ := write_eq_ok hwrite
      rw [hstop, toList_beginHeader] at *
      refine ⟨_, (f.issued_push _).trans (Chip.issued_push _ _), ?_⟩
      rw [hnext, hnext']
      exact .received hbounds

/-- A Data writes its bytes behind those before, or fails to. -/
theorem data_chip (offset : UInt16) (bytes : Vector UInt8 12) (len : UInt8) :
    ∃ ops, f.Issued (self.data f offset bytes len).2 ops ∧
      Executed self f.contents (.data offset bytes len) (self.data f offset bytes len).1 ops := by
  have hstep := self.data_step f offset bytes len
  generalize self.data f offset bytes len = out at hstep ⊢
  cases hstep with
  | writeFailed hwrite =>
      obtain ⟨⟨residue, hnext⟩, rfl⟩ := write_eq_error hwrite
      rw [toNat_dataOffset]
      exact ⟨_, f.issued_push _, hnext ▸ .writeFailed⟩
  | stored hwrite =>
      obtain ⟨hnext, rfl⟩ := write_eq_ok hwrite
      rw [toNat_dataOffset]
      exact ⟨_, f.issued_push _, hnext ▸ .stored⟩

/-- What the descriptor loop of a finalize that goes on has read. -/
theorem mapLayouts_chip {f f₁ : Chip} {bytecodeLen : UInt16} {mapCount count : UInt8}
    {layouts : Vector MapLayout bpfMaxMaps}
    (hmaps : OptiBridge.mapLayouts f bytecodeLen mapCount = (some (layouts, count), f₁)) :
    ∃ reads, f.Issued f₁ reads ∧
      (∀ p ∈ reads, ReadWithin imageAddress
        (imageAddress + (bytecodeLen.toNat + 16 * mapCount.toNat)) p) ∧
      (∀ p ∈ reads, p.2 = .done) ∧ f₁.contents = f.contents ∧
      ValidDescriptors (descriptorsAt f.contents bytecodeLen mapCount) ∧
      layouts = layoutVector (descriptorsAt f.contents bytecodeLen mapCount) ∧
      count = mapCount := by
  obtain ⟨reads, hloop⟩ := mapLayouts_spec f bytecodeLen mapCount
  rw [hmaps] at hloop
  have hdone := hloop.done_of_ne (by simp)
  have hvalue := hloop.ok hdone
  rw [layoutsOf] at hvalue
  split_ifs at hvalue with hvalid
  injection hvalue with hvalue
  injection hvalue with hlayouts hcount
  exact ⟨reads, hloop.issued, hloop.within, hdone, hloop.contents hdone, hvalid, hlayouts, hcount⟩

/-- What the descriptor loop of a finalize that gives up has read. -/
theorem mapLayouts_chip_none {f f₁ : Chip} {bytecodeLen : UInt16} {mapCount : UInt8}
    (hmaps : OptiBridge.mapLayouts f bytecodeLen mapCount = (none, f₁)) :
    ∃ reads, f.Issued f₁ reads ∧
      (∀ p ∈ reads, ReadWithin imageAddress
        (imageAddress + (bytecodeLen.toNat + 16 * mapCount.toNat)) p) ∧
      ((∃ p ∈ reads, p.2 ≠ .done) ∨
        ¬ ValidDescriptors (descriptorsAt f.contents bytecodeLen mapCount)) := by
  obtain ⟨reads, hloop⟩ := mapLayouts_spec f bytecodeLen mapCount
  rw [hmaps] at hloop
  refine ⟨reads, hloop.issued, hloop.within, ?_⟩
  by_cases hfailed : ∃ p ∈ reads, p.2 ≠ .done
  · exact .inl hfailed
  · right
    intro hvalid
    have hvalue := hloop.ok fun p hp => by_contra fun hne => hfailed ⟨p, hp, hne⟩
    rw [layoutsOf, if_pos hvalid] at hvalue
    contradiction

/-- A Finalize stops at the CRC, at the descriptors or at the marker, or
commits. -/
theorem finalize_chip :
    ∃ ops, f.Issued (self.finalize f).2 ops ∧
      Executed self f.contents .finalize (self.finalize f).1 ops := by
  have hmarker : (bpfFlashOffset + 12).toNat = markerAddress := rfl
  have hstep := self.finalize_step f
  generalize self.finalize f = out at hstep ⊢
  cases hstep with
  | badCrc hcrc => exact ⟨[], .refl f, .badCrc hcrc⟩
  | badMaps hcrc hmaps =>
      obtain ⟨reads, hissued, hreads, hbad⟩ := mapLayouts_chip_none hmaps
      exact ⟨reads, hissued, .badMaps hcrc hreads hbad⟩
  | markerFailed hcrc hmaps hwrite =>
      obtain ⟨reads, hissued, hreads, hdone, -, hvalid, -, -⟩ := mapLayouts_chip hmaps
      obtain ⟨⟨residue, hnext⟩, rfl⟩ := write_eq_error hwrite
      rw [hmarker]
      refine ⟨_, hissued.trans (Chip.issued_push _ _), ?_⟩
      rw [hnext]
      exact .markerFailed hcrc hreads hdone hvalid
  | committed hcrc hmaps hwrite =>
      obtain ⟨reads, hissued, hreads, hdone, -, hvalid, rfl, rfl⟩ := mapLayouts_chip hmaps
      obtain ⟨hnext, rfl⟩ := write_eq_ok hwrite
      rw [hmarker]
      refine ⟨_, hissued.trans (Chip.issued_push _ _), ?_⟩
      rw [hnext]
      exact .committed hcrc hreads hdone hvalid

/-- **Deferred step.** What executing the pending operation of a sane loader
does to the loader and issues to the chip. -/
theorem executePending_chip (hsane : self.Sane) {operation : LoadOperation}
    (hpending : self.pending = some operation) :
    ∃ ops, f.Issued (self.executePending f).2 ops ∧
      Executed { self with pending := none } f.contents operation (self.executePending f).1
        ops := by
  have haccepts := (hsane.pending operation hpending).2
  unfold executePending
  rw [hpending]
  cases operation with
  | begin bytecodeLen mapCount expectedCrc =>
      obtain ⟨n, -, hbounds⟩ := haccepts
      exact begin_chip f (goodBounds_of_not_bad hbounds)
  | data offset bytes len => exact data_chip f offset bytes len
  | finalize => exact finalize_chip f

end BpfLoader

/-! ## what a run issues -/

/- The log of a chip only grows, so what an event issues is what the log has
after it and did not have before. -/

namespace Device

/-- The deferred step of a device. -/
theorem executePending_chip {d : Device Chip} (hsane : d.loader.Sane) {operation : LoadOperation}
    (hpending : d.loader.pending = some operation) :
    ∃ ops, d.flash.Issued d.executePending.flash ops ∧
      BpfLoader.Executed { d.loader with pending := none } d.flash.contents operation
        d.executePending.loader ops :=
  BpfLoader.executePending_chip d.flash hsane hpending

/-- An accepted operation, seen by the loader that executes it. -/
theorem accepts_withPending {l : BpfLoader} {operation : LoadOperation} (h : l.Accepts operation)
    (pending : Option LoadOperation) :
    ({ l with pending := pending } : BpfLoader).Accepts operation := by
  cases operation <;> exact h

/-- With nothing pending the main loop leaves a device alone. -/
theorem executePending_of_none {F : Type} [BpfFlash F] {d : Device F}
    (hpending : d.loader.pending = none) : d.executePending = d := by
  rw [Device.executePending, BpfLoader.executePending_rests hpending]

/-- The flash operations an event issues. -/
def issues (d : Device Chip) (e : Event) : List (Op × Outcome) :=
  (d.step e).flash.log.drop d.flash.log.length

/-- If the log grew by `ops`, then `ops` were issued. -/
theorem issues_of_issued {d : Device Chip} {e : Event} {ops : List (Op × Outcome)}
    (h : d.flash.Issued (d.step e).flash ops) : d.issues e = ops := by
  rw [issues, h.log, List.drop_left]

/-- A request issues nothing: the callback does not touch flash. -/
theorem issued_request (d : Device Chip) (request : Request) (execute : HostExecutor) :
    d.flash.Issued (d.step (.request request execute)).flash [] := .refl d.flash

/-- With nothing pending the main loop issues nothing. -/
theorem issued_of_none {d : Device Chip} (hpending : d.loader.pending = none) :
    d.flash.Issued (d.step .executePending).flash [] := by
  rw [show d.step .executePending = d from executePending_of_none hpending]
  exact .refl d.flash

/-- So it issues nothing. -/
theorem issues_of_none {d : Device Chip} (hpending : d.loader.pending = none) :
    d.issues .executePending = [] :=
  issues_of_issued (issued_of_none hpending)

/-- Every event extends the log by what it issues. -/
theorem issued_step {d : Device Chip} (hsane : d.loader.Sane) (e : Event) :
    d.flash.Issued (d.step e).flash (d.issues e) := by
  cases e with
  | request request execute =>
      rw [issues_of_issued (d.issued_request request execute)]
      exact d.issued_request request execute
  | executePending =>
      cases hpending : d.loader.pending with
      | none =>
          rw [issues_of_none hpending]
          exact issued_of_none hpending
      | some operation =>
          obtain ⟨ops, hissued, -⟩ := executePending_chip hsane hpending
          have hstep : d.flash.Issued (d.step .executePending).flash ops := hissued
          rw [issues_of_issued hstep]
          exact hstep

/-- Every flash operation issued along a run, in order. -/
def issued (d : Device Chip) (es : List Event) : List (Op × Outcome) :=
  Machine.trace step issues d es

/-- What a run issues is what its events issue, in a row. -/
theorem issued_run {d : Device Chip} (hsane : d.loader.Sane) (es : List Event) :
    d.flash.Issued (d.run es).flash (d.issued es) := by
  induction es using List.reverseRecOn with
  | nil => exact .refl d.flash
  | append_singleton es e ih =>
      rw [run_concat, issued, Machine.trace_concat]
      exact ih.trans (issued_step (sane_run hsane es) e)

end Device

end OptiBridge
