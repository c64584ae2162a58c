import OptiBridge.Device

/-!
# OptiBridge.LoaderInvariant

The loader invariant that needs no flash model: a pending operation is still
one the loader accepts, a failure is one of three, the map layouts are exposed
by a committed program only, and a transfer stays within its declared image.
It holds from boot on, over any flash.

`Sane` is what later modules mean by a loader that may be reached.  Its pending
field is the one that makes acceptance worth something: between the answer to a
Load and its execution, nothing the host or the main loop can do makes the
accepted operation unacceptable.

* `sane_begin`, `sane_data`, `sane_finalize`, the deferred operations;
* `Sane.accept`, acceptance;
* `kept_sane`, all of it as one pattern, from which the runs of devices and of
  firmware follow.
-/

namespace OptiBridge

/-! ## image bounds -/

/- The limits a Begin is checked against, as inequalities of numbers. -/

/-- The bounds an accepted image satisfies. -/
structure GoodBounds (bytecodeLen : UInt16) (mapCount : UInt8) : Prop where
  nonempty : 0 < bytecodeLen.toNat
  bytecode : bytecodeLen.toNat ≤ 7680
  aligned : bytecodeLen.toNat % 8 = 0
  maps : mapCount.toNat ≤ 8

/-- Bounds that pass the check of the source are good ones, in numbers. -/
theorem goodBounds_of_not_bad {bytecodeLen : UInt16} {mapCount : UInt8} {n : Nat}
    (h : ¬ BadBounds bytecodeLen mapCount n) : GoodBounds bytecodeLen mapCount := by
  simp only [BadBounds, not_or, Nat.not_lt] at h
  obtain ⟨hzero, hbytecode, haligned, hmaps, -⟩ := h
  refine ⟨?_, hbytecode, not_not.mp haligned, hmaps⟩
  rcases Nat.eq_zero_or_pos bytecodeLen.toNat with h0 | hpos
  · exact absurd (UInt16.toNat_inj.mp h0) hzero
  · exact hpos

/-- Conversely, good bounds are not rejected: the image always fits the
reserved pages. -/
theorem not_bad_of_goodBounds {bytecodeLen : UInt16} {mapCount : UInt8}
    (h : GoodBounds bytecodeLen mapCount) :
    ¬ BadBounds bytecodeLen mapCount (bytecodeLen.toNat + 16 * mapCount.toNat) := by
  obtain ⟨hpos, hbytecode, haligned, hmaps⟩ := h
  simp only [BadBounds, not_or, Nat.not_lt]
  refine ⟨fun h0 => ?_, hbytecode, not_not.mpr haligned, hmaps, ?_⟩
  · rw [h0] at hpos
    exact absurd hpos (by decide)
  · show bytecodeLen.toNat + 16 * mapCount.toNat + 16 ≤ 8192
    omega

namespace BpfLoader

/-! ## the invariant -/

/- What is true of a loader between any two steps. -/

/-- The invariant, field by field. -/
structure Sane (l : BpfLoader) : Prop where
  /-- A pending operation is one the unlocked loader accepts. -/
  pending : ∀ operation, l.pending = some operation →
    l.state.isRunning = false ∧ l.Accepts operation
  /-- The only failures there are. -/
  failed : ∀ status, l.state = .failed status →
    status = statusFlashError ∨ status = statusBadCrc ∨ status = statusBadState
  /-- Without a program there are no maps. -/
  cleared : l.state.hasProgram = false →
    l.mapLayouts = Vector.replicate _ .EMPTY ∧ l.committedMapCount = 0
  /-- A transfer has good bounds and never passes its image. -/
  transfer : l.state = .receiving →
    GoodBounds l.bytecodeLen l.mapCount ∧
      l.imageLen.toNat = l.bytecodeLen.toNat + 16 * l.mapCount.toNat ∧
      l.nextOffset.toNat ≤ l.imageLen.toNat

/-- A loader that has not booted yet is empty. -/
theorem sane_new : BpfLoader.new.Sane where
  pending := fun _ h => absurd h (by simp [BpfLoader.new])
  failed := fun _ h => absurd h (by simp [BpfLoader.new])
  cleared := fun _ => ⟨rfl, rfl⟩
  transfer := fun h => absurd h (by simp [BpfLoader.new])

/-- A loader that has just failed or been emptied is sane. -/
theorem sane_of_idle {self : BpfLoader} (hpending : self.pending = none)
    (hstate : self.state = .empty ∨ self.state = .failed statusFlashError ∨
      self.state = .failed statusBadCrc ∨ self.state = .failed statusBadState)
    (hmaps : self.mapLayouts = Vector.replicate _ .EMPTY) (hcount : self.committedMapCount = 0) :
    self.Sane where
  pending := fun _ h => absurd (hpending ▸ h) (by simp)
  failed := fun status h => by
    rcases hstate with h' | h' | h' | h' <;> rw [h] at h'
    · contradiction
    · exact .inl (by injection h')
    · exact .inr (.inl (by injection h'))
    · exact .inr (.inr (by injection h'))
  cleared := fun _ => ⟨hmaps, hcount⟩
  transfer := fun h => by
    rcases hstate with h' | h' | h' | h' <;> rw [h] at h' <;> contradiction

/-- A loader with a program and nothing pending is sane. -/
theorem sane_of_hasProgram {self : BpfLoader} (hpending : self.pending = none)
    (hstate : self.state.hasProgram = true) : self.Sane where
  pending := fun _ h => absurd (hpending ▸ h) (by simp)
  failed := fun status h => by rw [h] at hstate; contradiction
  cleared := fun h => by rw [hstate] at h; contradiction
  transfer := fun h => by rw [h] at hstate; contradiction

/-- A running loader has nothing pending. -/
theorem Sane.pending_of_running {l : BpfLoader} (h : l.Sane) {crc : UInt32}
    (hstate : l.state = .running crc) : l.pending = none := by
  cases hpending : l.pending with
  | none => rfl
  | some operation =>
      have hrunning := (h.pending operation hpending).1
      rw [hstate] at hrunning
      contradiction

/-- The reasons a sane loader has not to hand its program out. -/
theorem Sane.executionMetadata_error {l : BpfLoader} (h : l.Sane) {status : UInt8}
    (hmeta : l.executionMetadata = .error status) :
    (status = statusBusy ∧ l.pending.isSome) ∨ status = statusBadState ∨
      status = statusNoProgram ∨ status = statusFlashError ∨ status = statusBadCrc := by
  unfold executionMetadata at hmeta
  split_ifs at hmeta with hpending
  · exact .inl ⟨(Except.error.inj hmeta).symm, hpending⟩
  · right
    cases hstate : l.state with
    | committed crc => rw [hstate] at hmeta; contradiction
    | failed failure =>
        rw [hstate] at hmeta
        rw [← Except.error.inj hmeta]
        rcases h.failed failure hstate with rfl | rfl | rfl <;> decide
    | empty | receiving | running crc =>
        rw [hstate] at hmeta
        rw [← Except.error.inj hmeta]
        decide

/-! ## what keeps it -/

/- One lemma for each function that changes a loader. -/

/-- A Load that is accepted puts an operation into the slot that the loader
accepts. -/
theorem Sane.accept {self : BpfLoader} (h : self.Sane) {request : Request}
    {operation : LoadOperation} (hop : self.loadOperation request = .ok operation) :
    ({ self with pending := some operation } : BpfLoader).Sane := by
  obtain ⟨-, hrunning, haccepts, -⟩ := loadOperation_ok hop
  refine ⟨fun op' h' => ?_, h.failed, h.cleared, h.transfer⟩
  injection h' with h'
  subst h'
  exact ⟨hrunning, by cases operation <;> exact haccepts⟩

/-- Taking the pending operation out keeps it. -/
theorem Sane.withoutPending {self : BpfLoader} (h : self.Sane) :
    ({ self with pending := none } : BpfLoader).Sane :=
  ⟨fun _ h' => by contradiction, h.failed, h.cleared, h.transfer⟩

section flash

variable {F : Type} [BpfFlash F] {self : BpfLoader} {flash : F}

/-- After a Begin the loader receives an image within its bounds, or has failed. -/
theorem sane_begin {bytecodeLen : UInt16} {mapCount : UInt8} {expectedCrc : UInt32}
    (hpending : self.pending = none) (hbounds : GoodBounds bytecodeLen mapCount) :
    (self.begin flash bytecodeLen mapCount expectedCrc).1.Sane := by
  have hfailed : ({ self.clearMapLayouts with state := .failed statusFlashError } :
      BpfLoader).Sane := sane_of_idle hpending (.inr (.inl rfl)) rfl rfl
  have hstep := self.begin_step flash bytecodeLen mapCount expectedCrc
  generalize self.begin flash bytecodeLen mapCount expectedCrc = out at hstep ⊢
  cases hstep with
  | tooLong => exact hfailed
  | eraseFailed => exact hfailed
  | headerFailed => exact hfailed
  | @received n _ _ hlen herase hwrite =>
      have hn : n = bytecodeLen.toNat + 16 * mapCount.toNat := by
        rw [imageLen_eq] at hlen
        exact (Option.some.inj hlen).symm
      have htoNat : (UInt16.ofNat n).toNat = n := UInt16.toNat_ofNat_of_lt' (by
        have h₁ := hbounds.bytecode
        have h₂ := hbounds.maps
        show n < 65536
        omega)
      refine ⟨fun _ h => absurd (hpending ▸ h) (by simp), fun _ h => by contradiction,
        fun _ => ⟨rfl, rfl⟩, fun _ => ⟨hbounds, ?_, ?_⟩⟩
      · rw [htoNat, hn]
      · exact Nat.zero_le _

/-- A Data moves the offset on by its length, which was checked against the
image. -/
theorem sane_data {offset : UInt16} {bytes : Vector UInt8 12} {len : UInt8} (h : self.Sane)
    (hpending : self.pending = none) (haccepts : self.Accepts (.data offset bytes len)) :
    (self.data flash offset bytes len).1.Sane := by
  obtain ⟨hstate, hoffset, -, -, hfit⟩ := haccepts
  have hcleared := h.cleared (by rw [hstate]; rfl)
  have hstep := self.data_step flash offset bytes len
  generalize self.data flash offset bytes len = out at hstep ⊢
  cases hstep with
  | writeFailed =>
      exact sane_of_idle hpending (.inr (.inl rfl)) hcleared.1 hcleared.2
  | stored hwrite =>
      obtain ⟨hbounds, himage, -⟩ := h.transfer hstate
      have hlt := self.imageLen.toNat_lt
      have hnext : (self.nextOffset + len.toUInt16).toNat = self.nextOffset.toNat + len.toNat := by
        rw [hoffset] at hfit
        rw [UInt16.toNat_add, UInt8.toNat_toUInt16]
        exact Nat.mod_eq_of_lt (by omega)
      refine ⟨fun _ h' => absurd (hpending ▸ h') (by simp), h.failed, fun _ => hcleared,
        fun _ => ⟨hbounds, himage, ?_⟩⟩
      show (self.nextOffset + len.toUInt16).toNat ≤ self.imageLen.toNat
      rw [hnext, ← hoffset]
      exact hfit

/-- A Finalize ends the transfer one way or another. -/
theorem sane_finalize (h : self.Sane) (hpending : self.pending = none)
    (hstate : self.state = .receiving) : (self.finalize flash).1.Sane := by
  have hcleared := h.cleared (by rw [hstate]; rfl)
  have hstep := self.finalize_step flash
  generalize self.finalize flash = out at hstep ⊢
  cases hstep with
  | badCrc => exact sane_of_idle hpending (.inr (.inr (.inl rfl))) hcleared.1 hcleared.2
  | badMaps => exact sane_of_idle hpending (.inr (.inr (.inr rfl))) hcleared.1 hcleared.2
  | markerFailed => exact sane_of_idle hpending (.inr (.inl rfl)) hcleared.1 hcleared.2
  | committed => exact sane_of_hasProgram hpending rfl

/-- A Begin does not touch the slot. -/
theorem begin_pending (bytecodeLen : UInt16) (mapCount : UInt8) (expectedCrc : UInt32) :
    (self.begin flash bytecodeLen mapCount expectedCrc).1.pending = self.pending := by
  have hstep := self.begin_step flash bytecodeLen mapCount expectedCrc
  generalize self.begin flash bytecodeLen mapCount expectedCrc = out at hstep ⊢
  cases hstep <;> rfl

/-- Nor does a Data. -/
theorem data_pending (offset : UInt16) (bytes : Vector UInt8 12) (len : UInt8) :
    (self.data flash offset bytes len).1.pending = self.pending := by
  have hstep := self.data_step flash offset bytes len
  generalize self.data flash offset bytes len = out at hstep ⊢
  cases hstep <;> rfl

/-- Nor does a Finalize. -/
theorem finalize_pending : (self.finalize flash).1.pending = self.pending := by
  have hstep := self.finalize_step flash
  generalize self.finalize flash = out at hstep ⊢
  cases hstep <;> rfl

/-- Nothing that was pending still is. -/
theorem executePending_pending : (self.executePending flash).1.pending = none := by
  unfold executePending
  cases hpending : self.pending with
  | none => exact hpending
  | some operation =>
      cases operation with
      | begin bytecodeLen mapCount expectedCrc => exact begin_pending ..
      | data offset bytes len => exact data_pending ..
      | finalize => exact finalize_pending

/-- Whatever was pending, executing it leaves a sane loader: it was pending only
because it was accepted. -/
theorem Sane.executePending (h : self.Sane) : (self.executePending flash).1.Sane := by
  unfold BpfLoader.executePending
  cases hpending : self.pending with
  | none => exact h
  | some operation =>
      have haccepts := (h.pending operation hpending).2
      cases operation with
      | begin bytecodeLen mapCount expectedCrc =>
          obtain ⟨n, -, hbounds⟩ := haccepts
          exact sane_begin rfl (goodBounds_of_not_bad hbounds)
      | data offset bytes len => exact sane_data h.withoutPending rfl haccepts
      | finalize => exact sane_finalize h.withoutPending rfl haccepts.1

/-- Boot validation leaves the pending slot alone. -/
theorem validateCommitted_pending :
    (self.validateCommitted flash).1.pending = self.pending := by
  have hstep := self.validate_step flash
  generalize self.validateCommitted flash = out at hstep ⊢
  cases hstep <;> rfl

/-- Boot validation leaves a sane loader, whatever it started from. -/
theorem sane_validateCommitted (hpending : self.pending = none) :
    (self.validateCommitted flash).1.Sane := by
  have hempty : ({ self.clearMapLayouts with state := .empty } : BpfLoader).Sane :=
    sane_of_idle hpending (.inl rfl) rfl rfl
  have hfailed : ({ self.clearMapLayouts with state := .failed statusFlashError } :
      BpfLoader).Sane := sane_of_idle hpending (.inr (.inl rfl)) rfl rfl
  have hstep := self.validate_step flash
  generalize self.validateCommitted flash = out at hstep ⊢
  cases hstep with
  | headerUnread => exact hfailed
  | badHeader => exact hempty
  | imageUnread => exact hfailed
  | badMaps => exact hempty
  | badCrc => exact hempty
  | committed => exact sane_of_hasProgram hpending rfl

end flash

end BpfLoader

/-! ## over runs -/

/- `Kept` is the pattern all loader invariants share; its lemmas are proved
once, for devices here and for firmware in `OptiBridge.FirmwareSteps`. -/

/-- What boot establishes and every step of a loader preserves, over one kind of
flash. -/
structure Kept (F : Type) [BpfFlash F] (P : BpfLoader → Prop) : Prop where
  validate : ∀ flash : F, P (BpfLoader.new.validateCommitted flash).1
  execute : ∀ (l : BpfLoader) (flash : F), P l → P (l.executePending flash).1
  accept : ∀ (l : BpfLoader) (request : Request) (operation : LoadOperation), P l →
    l.loadOperation request = .ok operation → P { l with pending := some operation }
  start : ∀ (l : BpfLoader) (crc : UInt32), P l → l.pending = none → l.state = .committed crc →
    P { l with state := .running crc }

/-- A dispatch preserves it. -/
theorem Kept.dispatch {F σ : Type} [BpfFlash F] {P : BpfLoader → Prop} (h : Kept F P)
    (request : Request) (execute : Executor σ) {s : DispatchState σ} (hs : P s.loader) :
    P (dispatchWithBpfAndExecutor request execute s).2.loader := by
  cases loader_step request execute s with
  | kept hloader => exact hloader ▸ hs
  | accepted _ _ hop hloader => exact hloader ▸ h.accept _ _ _ hs hop
  | started _ _ hpending hstate hloader => exact hloader ▸ h.start _ _ hs hpending hstate

/-- A predicate that acceptance, execution and a Start keep is kept by every
step of a device. -/
theorem Kept.device_step {F : Type} [BpfFlash F] {P : BpfLoader → Prop} (h : Kept F P)
    {d : Device F} (hd : P d.loader) (e : Event) : P (d.step e).loader := by
  cases e with
  | request request execute =>
      exact h.dispatch request (recording execute) (s := d.toDispatchState) hd
  | executePending => exact h.execute _ _ hd

/-- And therefore by every run from a boot. -/
theorem Kept.device_run {F : Type} [BpfFlash F] {P : BpfLoader → Prop} (h : Kept F P)
    (statusQueue : StatusQueue) (mapBacking : MapBacking) (output : Output) (flash : F)
    (es : List Event) : P ((Device.boot statusQueue mapBacking output flash).run es).loader :=
  Machine.invariant_run (P := fun _ => True) (I := fun d : Device F => P d.loader)
    (fun _ e _ hd => h.device_step hd e) (h.validate flash) fun _ _ => trivial

/-- Sanity is kept. -/
theorem kept_sane (F : Type) [BpfFlash F] : Kept F BpfLoader.Sane where
  validate := fun _ => BpfLoader.sane_validateCommitted rfl
  execute := fun _ _ hl => hl.executePending
  accept := fun _ _ _ hl hop => hl.accept hop
  start := fun _ _ _ hpending _ => BpfLoader.sane_of_hasProgram hpending rfl

namespace Device

variable {F : Type} [BpfFlash F]

/-- A step keeps the loader sane. -/
theorem sane_step {d : Device F} (h : d.loader.Sane) (e : Event) : (d.step e).loader.Sane :=
  (kept_sane F).device_step h e

/-- A run keeps the loader sane. -/
theorem sane_run {d : Device F} (h : d.loader.Sane) (es : List Event) : (d.run es).loader.Sane :=
  Machine.invariant_run (P := fun _ => True) (I := fun d : Device F => d.loader.Sane)
    (fun _ e _ hd => sane_step hd e) h fun _ _ => trivial

/-- A boot over any flash leaves a sane loader. -/
theorem sane_boot (statusQueue : StatusQueue) (mapBacking : MapBacking) (output : Output)
    (flash : F) : (boot statusQueue mapBacking output flash).loader.Sane :=
  BpfLoader.sane_validateCommitted rfl

end Device

end OptiBridge
