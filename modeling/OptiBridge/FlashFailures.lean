import OptiBridge.Flash
import OptiBridge.Recording

/-!
# OptiBridge.FlashFailures

A flash operation that fails leaves the loader failed with
`STATUS_FLASH_ERROR`, and the CRC query says so until a Begin is accepted.  One
error takes another way: `map_layouts` answers a descriptor it could not read as
it answers an invalid one, so `finalize` reports `STATUS_BAD_STATE` and boot
finds no program.

A failure is noticed by recording (`OptiBridge.Recording`): the loader is run
over a flash that remembers whether an operation failed, and that run gives the
same loader.  So "some operation failed" is a property of the flash the loader
was run over, and the statements are about any flash whatsoever.

* `executePending_reports`, after a failure of the main loop's call the loader
  has failed with `STATUS_FLASH_ERROR`, unless the failure was the reading of
  a descriptor;
* `validateCommitted_reports`, the same for boot;
* `reportsFailures_iff`, the exact condition, over whole runs.
-/

namespace OptiBridge

open Recorded

section calls

variable {F : Type} [BpfFlash F]

/-! ## what fails -/

/- The two reads that are not reported, as conditions on the state before the
call. -/

/-- The descriptor loop of `map_layouts` stops at a descriptor it cannot read. -/
def descriptorUnread (flash : F) (bytecodeLen : UInt16) (mapCount index : Nat)
    (total : UInt32) : Bool :=
  if index < mapCount then
    let offset := bpfFlashOffset + UInt32.ofNat bpfHeaderSize + bytecodeLen.toUInt32 +
      UInt32.ofNat (index * bpfMapDescriptorSize)
    match BpfFlash.read flash offset bpfMapDescriptorSize with
    | (.error _, _) => true
    | (.ok descriptor, flash) =>
        match mapLayout total descriptor with
        | none => false
        | some (_, nextTotal) => descriptorUnread flash bytecodeLen mapCount (index + 1) nextTotal
  else false
termination_by mapCount - index
decreasing_by omega

namespace BpfLoader

/-- Some flash operation of `execute_pending` fails. -/
def executeFails (self : BpfLoader) (flash : F) : Bool :=
  (self.executePending (Recorded.new flash)).2.failed

/-- Some flash operation of `validate_committed` fails. -/
def validateFails (self : BpfLoader) (flash : F) : Bool :=
  (self.validateCommitted (Recorded.new flash)).2.failed

/-- `execute_pending` finalizes and cannot read a descriptor. -/
def ExecuteUnread (self : BpfLoader) (flash : F) : Prop :=
  self.pending = some .finalize ∧ crc32Finish self.crc = self.expectedCrc ∧
    descriptorUnread flash self.bytecodeLen self.mapCount.toNat 0 0 = true

instance (self : BpfLoader) (flash : F) : Decidable (self.ExecuteUnread flash) :=
  inferInstanceAs (Decidable (_ ∧ _ ∧ _))

end BpfLoader

/-- `validate_committed` reads the header and the image but not a descriptor. -/
def validateUnread (flash : F) : Bool :=
  match BpfFlash.read flash bpfFlashOffset bpfHeaderSize with
  | (.error _, _) => false
  | (.ok header, flash) =>
      match BpfLoader.acceptedHeader header with
      | none => false
      | some (bytecodeLen, mapCount, n) =>
          match imageCrcFrom flash n 0 0xffffffff with
          | (.error _, _) => false
          | (.ok _, flash) => descriptorUnread flash bytecodeLen mapCount.toNat 0 0

/-! ## the loops -/

/- Which of the reads of a loop fails is told by what the loop returns. -/

/-- The descriptor loop fails exactly when it stops at an unread descriptor, and
then it has no layouts. -/
theorem mapLayoutsFrom_failed {w : Recorded F} (bytecodeLen : UInt16) (mapCount index : Nat)
    (total : UInt32) (layouts : Vector MapLayout bpfMaxMaps) :
    (mapLayoutsFrom w bytecodeLen mapCount index total layouts).2.failed =
        (w.failed || descriptorUnread w.flash bytecodeLen mapCount index total) ∧
      (descriptorUnread w.flash bytecodeLen mapCount index total = true →
        (mapLayoutsFrom w bytecodeLen mapCount index total layouts).1 = none) := by
  fun_induction mapLayoutsFrom w bytecodeLen mapCount index total layouts with
  | case1 w index total layouts hlt offset error w' hread =>
      obtain ⟨f', hread', -⟩ := ((alike F).read rfl _ _).eq hread
      rw [descriptorUnread, if_pos hlt]
      simp only [offset] at hread'
      simp only [hread']
      exact ⟨failed_read hread, fun _ => trivial⟩
  | case2 w index total layouts hlt offset descriptor w' hread hbad =>
      obtain ⟨f', hread', -⟩ := ((alike F).read rfl _ _).eq hread
      rw [descriptorUnread, if_pos hlt]
      simp only [offset] at hread'
      simp only [hread', hbad]
      exact ⟨failed_read hread, fun _ => trivial⟩
  | case3 w index total layouts hlt offset descriptor w' hread layout nextTotal hgood ih =>
      obtain ⟨f', hread', rfl⟩ := ((alike F).read rfl _ _).eq hread
      rw [descriptorUnread, if_pos hlt]
      simp only [offset] at hread'
      simp only [hread', hgood]
      have hkept : w'.failed = w.failed := by
        simpa [Except.isOk, Except.toBool] using failed_read hread
      rw [hkept] at ih
      exact ih
  | case4 w index total layouts hge =>
      rw [descriptorUnread, if_neg hge]
      simp

/-- The descriptor loop notes a failure exactly where it stops at a read, and
then there are no layouts. -/
theorem mapLayouts_failed {w w' : Recorded F} {bytecodeLen : UInt16} {mapCount : UInt8}
    {result : Option (Vector MapLayout bpfMaxMaps × UInt8)}
    (h : mapLayouts w bytecodeLen mapCount = (result, w')) :
    w'.failed = (w.failed || descriptorUnread w.flash bytecodeLen mapCount.toNat 0 0) ∧
      (result.isSome → descriptorUnread w.flash bytecodeLen mapCount.toNat 0 0 = false) := by
  obtain ⟨hfailed, hnone⟩ := mapLayoutsFrom_failed (w := w) bytecodeLen mapCount.toNat 0 0
    (Vector.replicate _ .EMPTY)
  unfold mapLayouts at h
  generalize mapLayoutsFrom w bytecodeLen mapCount.toNat 0 0 (Vector.replicate _ .EMPTY) = out
    at h hfailed hnone
  obtain ⟨layouts, w''⟩ := out
  cases layouts with
  | none =>
      obtain ⟨rfl, rfl⟩ := Prod.mk.inj h
      exact ⟨hfailed, by simp⟩
  | some layouts =>
      obtain ⟨rfl, rfl⟩ := Prod.mk.inj h
      exact ⟨hfailed, fun _ => by simpa using hnone⟩

/-- The image loop fails exactly when it has no CRC. -/
theorem imageCrcFrom_failed {w : Recorded F} (n offset : Nat) (crc : UInt32) :
    (imageCrcFrom w n offset crc).2.failed =
      (w.failed || !(imageCrcFrom w n offset crc).1.isOk) := by
  fun_induction imageCrcFrom w n offset crc with
  | case1 w offset crc hlt length error w' hread => exact failed_read hread
  | case2 w offset crc hlt length chunk w' hread ih =>
      have hkept : w'.failed = w.failed := by
        simpa [Except.isOk, Except.toBool] using failed_read hread
      rw [hkept] at ih
      exact ih
  | case3 w offset crc hge => simp [Except.isOk, Except.toBool]

/-! ## the two calls -/

/- Each call, by whether something failed in it. -/

namespace BpfLoader

/-- The main loop's flash work over a recorded flash. -/
theorem executePending_recorded (self : BpfLoader) (flash : F) :
    (self.executePending (Recorded.new flash)).1 = (self.executePending flash).1 :=
  ((alike F).executePending rfl self).1

/-- Recording does not change what boot makes of a flash. -/
theorem validateCommitted_recorded (self : BpfLoader) (flash : F) :
    (self.validateCommitted (Recorded.new flash)).1 = (self.validateCommitted flash).1 :=
  ((alike F).validateCommitted rfl self).1

/-- **One execution.** A failure is reported as one, unless it is a descriptor
that `finalize` cannot read. -/
theorem executePending_reports (self : BpfLoader) (flash : F) :
    (self.executeFails flash = true →
        (self.executePending flash).1.state = .failed statusFlashError) ↔
      ¬ self.ExecuteUnread flash := by
  rw [executeFails, ← executePending_recorded, executePending]
  unfold ExecuteUnread
  cases hpending : self.pending with
  | none => simp
  | some operation =>
      cases operation with
      | begin bytecodeLen mapCount expectedCrc =>
          have hstep := BpfLoader.begin_step { self with pending := none } (Recorded.new flash)
            bytecodeLen mapCount expectedCrc
          simp only
          generalize BpfLoader.begin { self with pending := none } (Recorded.new flash)
            bytecodeLen mapCount expectedCrc = out at hstep ⊢
          cases hstep with
          | received _ herase hwrite =>
              simp [failed_write hwrite, failed_erase herase, Except.isOk, Except.toBool]
          | _ => simp
      | data offset bytes len =>
          have hstep := BpfLoader.data_step { self with pending := none } (Recorded.new flash)
            offset bytes len
          simp only
          generalize BpfLoader.data { self with pending := none } (Recorded.new flash) offset
            bytes len = out at hstep ⊢
          cases hstep with
          | stored hwrite => simp [failed_write hwrite, Except.isOk, Except.toBool]
          | writeFailed => simp
      | finalize =>
          have hstep := BpfLoader.finalize_step { self with pending := none } (Recorded.new flash)
          simp only
          generalize BpfLoader.finalize { self with pending := none } (Recorded.new flash) = out
            at hstep ⊢
          cases hstep with
          | badCrc hcrc =>
              have hcrc : ¬ crc32Finish self.crc = self.expectedCrc := hcrc
              simp [hcrc]
          -- the status says nothing of flash here, so a read that failed goes unreported
          | badMaps hcrc hmaps =>
              have hcrc : crc32Finish self.crc = self.expectedCrc := hcrc
              obtain ⟨hfailed, -⟩ := mapLayouts_failed hmaps
              simp [hcrc, hfailed, statusBadState, statusFlashError]
          | markerFailed hcrc hmaps =>
              have hread := (mapLayouts_failed hmaps).2 rfl
              simpa using fun _ => hread
          | committed hcrc hmaps hwrite =>
              obtain ⟨hfailed, hread⟩ := mapLayouts_failed hmaps
              have hall :
                  descriptorUnread flash self.bytecodeLen self.mapCount.toNat 0 0 = false :=
                hread rfl
              simp [hfailed, hall, failed_write hwrite, Except.isOk, Except.toBool]

/-- Once the image has been read, what is left are the descriptors. -/
theorem validateUnread_of_read {flash : F} {w₁ w₂ : Recorded F}
    {header : Vector UInt8 bpfHeaderSize} {bytecodeLen : UInt16} {mapCount : UInt8} {n : Nat}
    {crc : UInt32}
    (hread : BpfFlash.read (Recorded.new flash) bpfFlashOffset bpfHeaderSize = (.ok header, w₁))
    (hheader : acceptedHeader header = some (bytecodeLen, mapCount, n))
    (himage : imageCrcFrom w₁ n 0 0xffffffff = (.ok crc, w₂)) :
    validateUnread flash = descriptorUnread w₂.flash bytecodeLen mapCount.toNat 0 0 ∧
      w₂.failed = false := by
  obtain ⟨f₁, hread', rfl⟩ := ((alike F).read rfl _ _).eq hread
  obtain ⟨f₂, himage', rfl⟩ := ((alike F).imageCrcFrom rfl _ _ _).eq himage
  rw [flash_new] at hread'
  have hheld : w₁.failed = false := by simp [failed_read hread, Except.isOk, Except.toBool]
  have hfailed := imageCrcFrom_failed (w := w₁) n 0 0xffffffff
  rw [himage] at hfailed
  constructor
  · simp only [validateUnread, hread', hheader, himage']
  · simpa [hheld, Except.isOk, Except.toBool] using hfailed

/-- **One boot.** A failure is reported as one, unless it is a descriptor that
the validator cannot read. -/
theorem validateCommitted_reports (self : BpfLoader) (flash : F) :
    (self.validateFails flash = true →
        (self.validateCommitted flash).1.state = .failed statusFlashError) ↔
      validateUnread flash = false := by
  rw [validateFails, ← validateCommitted_recorded]
  have hstep := self.validate_step (Recorded.new flash)
  generalize self.validateCommitted (Recorded.new flash) = out at hstep ⊢
  cases hstep with
  | headerUnread hread =>
      obtain ⟨f₁, hread', -⟩ := ((alike F).read rfl _ _).eq hread
      rw [flash_new] at hread'
      simp [validateUnread, hread']
  | badHeader hread hheader =>
      obtain ⟨f₁, hread', -⟩ := ((alike F).read rfl _ _).eq hread
      rw [flash_new] at hread'
      simp [validateUnread, hread', hheader, failed_read hread, Except.isOk, Except.toBool]
  | imageUnread hread hheader himage =>
      obtain ⟨f₁, hread', hflash⟩ := ((alike F).read rfl _ _).eq hread
      obtain ⟨f₂, himage', -⟩ := ((alike F).imageCrcFrom hflash _ _ _).eq himage
      rw [flash_new] at hread'
      simp [validateUnread, hread', hheader, himage']
  -- the loader is empty here, as without an image
  | badMaps hread hheader himage hmaps =>
      obtain ⟨hunread, hheld⟩ := validateUnread_of_read hread hheader himage
      simp [hunread, (mapLayouts_failed hmaps).1, hheld]
  | badCrc hread hheader himage hmaps =>
      obtain ⟨hunread, hheld⟩ := validateUnread_of_read hread hheader himage
      obtain ⟨hfailed, hdescriptors⟩ := mapLayouts_failed hmaps
      simp [hunread, hfailed, hheld, hdescriptors rfl]
  | committed hread hheader himage hmaps =>
      obtain ⟨hunread, hheld⟩ := validateUnread_of_read hread hheader himage
      obtain ⟨hfailed, hdescriptors⟩ := mapLayouts_failed hmaps
      simp [hunread, hfailed, hheld, hdescriptors rfl]

end BpfLoader

end calls

/-! ## whole runs -/

/- A failed loader says so until a Begin is accepted. -/

/-- The operation is a Begin. -/
def LoadOperation.IsBegin (operation : LoadOperation) : Prop :=
  ∃ bytecodeLen mapCount expectedCrc, operation = .begin bytecodeLen mapCount expectedCrc

/-- A CRC query as the protocol defines it: zero flags and no payload. -/
def Request.IsCrcQuery (request : Request) : Prop :=
  request.flags = 0 ∧ request.command = cmdQueryBpfCrc ∧ request.payloadLen = 0

/-- The loader has failed with `STATUS_FLASH_ERROR` and has nothing to do. -/
def BpfLoader.Broken (self : BpfLoader) : Prop :=
  self.state = .failed statusFlashError ∧ self.pending = none

/-- A broken loader accepts nothing but a Begin. -/
theorem BpfLoader.Broken.isBegin {self : BpfLoader} (h : self.Broken) {request : Request}
    {operation : LoadOperation} (hop : self.loadOperation request = .ok operation) :
    operation.IsBegin := by
  obtain ⟨-, -, haccepts, -⟩ := loadOperation_ok hop
  cases operation with
  | begin bytecodeLen mapCount expectedCrc => exact ⟨_, _, _, rfl⟩
  | data offset bytes len =>
      have hstate := haccepts.1
      rw [h.1] at hstate
      contradiction
  | finalize =>
      have hstate := haccepts.1
      rw [h.1] at hstate
      contradiction

namespace Device

variable {F : Type} [BpfFlash F]

/-- The device reports a flash failure, and goes on doing so until it accepts a
Begin. -/
structure ReportsFailure (d : Device F) : Prop where
  state : d.loader.state = .failed statusFlashError
  answers : ∀ es, (∀ operation ∈ d.acknowledged es, ¬ operation.IsBegin) →
    ∀ request execute, request.IsCrcQuery →
      (d.run es).status request execute = some statusFlashError

/-- **Broken step.** Only a Begin gets the loader out of the failed state. -/
theorem broken_step {d : Device F} (h : d.loader.Broken) (e : Event)
    (hbegin : ∀ operation ∈ d.acknowledges e, ¬ operation.IsBegin) :
    (d.step e).loader.Broken := by
  cases e with
  | executePending =>
      have hkept : (d.step .executePending).loader = d.loader := by
        show (d.loader.executePending d.flash).1 = d.loader
        rw [BpfLoader.executePending_rests h.2]
      rw [hkept]
      exact h
  | request request execute =>
      cases loader_step request (recording execute) d.toDispatchState with
      | kept hloader =>
          have hkept : (d.step (.request request execute)).loader = d.loader := hloader
          rw [hkept]
          exact h
      | accepted hflags hcommand hop hloader =>
          have hstatus : d.status request execute = some statusOk := by
            rw [d.status_load execute hflags hcommand, hop]
          have hencoded := (BpfLoader.loadOperation_ok hop).2.2.2
          refine absurd (h.isBegin hop) (hbegin _ ?_)
          simp [acknowledges, hcommand, hstatus, hencoded]
      | started _ _ _ hstate =>
          rw [h.1] at hstate
          contradiction

/-- **Broken run.** -/
theorem broken_run {d : Device F} (h : d.loader.Broken) {es : List Event}
    (hbegin : ∀ operation ∈ d.acknowledged es, ¬ operation.IsBegin) :
    (d.run es).loader.Broken := by
  induction es generalizing d with
  | nil => exact h
  | cons e es ih =>
      rw [acknowledged, Machine.trace_cons] at hbegin
      have hhere : (d.step e).loader.Broken :=
        broken_step h e fun operation hop => hbegin operation (List.mem_append_left _ hop)
      exact ih hhere fun operation hop => hbegin operation (List.mem_append_right _ hop)

/-- With nothing pending, a query reports a failure if the loader has one. -/
theorem reportsFailure_iff {d : Device F} (hpending : d.loader.pending = none) :
    d.ReportsFailure ↔ d.loader.state = .failed statusFlashError := by
  refine ⟨ReportsFailure.state, fun hstate => ⟨hstate, fun es hbegin request execute hquery => ?_⟩⟩
  obtain ⟨hstate', hpending'⟩ := broken_run ⟨hstate, hpending⟩ hbegin
  obtain ⟨hflags, hcommand, hlen⟩ := hquery
  rw [status, reply_query _ execute hflags hcommand hlen, BpfLoader.query, hpending', hstate']
  rfl

/-- Every failure of a run is reported: the boot's, and each execution's. -/
def ReportsFailures (statusQueue : StatusQueue) (mapBacking : MapBacking) (output : Output)
    (flash : F) (es : List Event) : Prop :=
  let start := boot statusQueue mapBacking output flash
  (BpfLoader.new.validateFails flash = true → start.ReportsFailure) ∧
    ∀ before after, es = before ++ .executePending :: after →
      (start.run before).loader.executeFails (start.run before).flash = true →
      (start.run (before ++ [.executePending])).ReportsFailure

/-- **Flash failures.** Over any flash, a run reports every failure of a flash
operation exactly when neither its boot nor one of its executions stops at a
descriptor it cannot read. -/
theorem reportsFailures_iff (statusQueue : StatusQueue) (mapBacking : MapBacking)
    (output : Output) (flash : F) (es : List Event) :
    ReportsFailures statusQueue mapBacking output flash es ↔
      validateUnread flash = false ∧
        ∀ before after, es = before ++ .executePending :: after →
          ¬ ((boot statusQueue mapBacking output flash).run before).loader.ExecuteUnread
            ((boot statusQueue mapBacking output flash).run before).flash := by
  have hboot : (boot statusQueue mapBacking output flash).ReportsFailure ↔
      (BpfLoader.new.validateCommitted flash).1.state = .failed statusFlashError :=
    reportsFailure_iff BpfLoader.validateCommitted_pending
  have hexecute : ∀ d : Device F, (d.step .executePending).ReportsFailure ↔
      (d.loader.executePending d.flash).1.state = .failed statusFlashError := fun d =>
    reportsFailure_iff BpfLoader.executePending_pending
  simp only [ReportsFailures, hboot, run_concat, hexecute,
    BpfLoader.validateCommitted_reports, BpfLoader.executePending_reports]

/-- An erased chip on which the `n`-th operation fails. -/
def failingAt (n : Nat) : Nor.Chip :=
  .fresh (fun _ => 0xff) fun i => if i = n then .failed fun _ byte => byte else .done

/-- `finalize` cannot read the descriptor, and reports `STATUS_BAD_STATE`. -/
theorem descriptor_failure_unreported :
    ¬ ∀ (flash : Nor.Chip) (es : List Event),
      ReportsFailures .ready (Vector.replicate _ 0) (Vector.replicate _ 0) flash es := by
  intro h
  have hrun : ∀ d, d = (boot .ready (Vector.replicate _ 0) (Vector.replicate _ 0)
        (failingAt 5)).run (transfer 1 arrayImage).dropLast →
      d.loader.executeFails d.flash = true ∧
        (d.step .executePending).loader.state = .failed statusBadState := by
    rintro d rfl
    decide +kernel
  obtain ⟨hfails, hstate⟩ := hrun _ rfl
  obtain ⟨-, hreports⟩ := h (failingAt 5) ((transfer 1 arrayImage).dropLast ++ [.executePending])
  have hreported := (hreports _ [] rfl hfails).state
  rw [run_concat, hstate] at hreported
  exact absurd hreported (by decide)

end Device

end OptiBridge
