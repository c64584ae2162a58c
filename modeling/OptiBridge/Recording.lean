import OptiBridge.LoaderSteps

/-!
# OptiBridge.Recording

A flash that records what the loader asks of it.  Two flashes that answer alike
leave the loader alike (`Alike`), so recording changes nothing the loader does:
what the recorded flash shows of a call is what the call does to the flash that
is recorded.

It is what ties a statement about what the flash answered to the loader that
answers: a function over any flash cannot tell the recorded flash from the one
inside it, so one run over the recorded flash shows both the loader's fields and
whether an operation failed.
-/

namespace OptiBridge

/-! ## flashes that answer alike -/

/- The relation `R` is any relation of two flashes that the three operations
preserve; `Together R` says of two calls that their results are equal and the
flashes they leave related. -/

/-- The same result, over related flashes. -/
def Together {α F G : Type} (R : F → G → Prop) (x : α × F) (y : α × G) : Prop :=
  x.1 = y.1 ∧ R x.2 y.2

/-- Related flashes give the same answers and stay related. -/
structure Alike {F G : Type} [BpfFlash F] [BpfFlash G] (R : F → G → Prop) : Prop where
  read : ∀ {f g}, R f g → ∀ offset len,
    Together R (BpfFlash.read f offset len) (BpfFlash.read g offset len)
  write : ∀ {f g}, R f g → ∀ offset bytes,
    Together R (BpfFlash.write f offset bytes) (BpfFlash.write g offset bytes)
  erase : ∀ {f g}, R f g → ∀ start stop,
    Together R (BpfFlash.erase f start stop) (BpfFlash.erase g start stop)

/-- Where one of two related calls has its answer, the other has the same. -/
theorem Together.eq {α F G : Type} {R : F → G → Prop} {x : α × F} {y : α × G} {a : α} {f : F}
    (h : Together R x y) (hx : x = (a, f)) : ∃ g, y = (a, g) ∧ R f g := by
  subst hx
  obtain ⟨b, g⟩ := y
  obtain ⟨rfl, hR⟩ := h
  exact ⟨g, rfl, hR⟩

namespace Alike

variable {F G : Type} [BpfFlash F] [BpfFlash G] {R : F → G → Prop} {f : F} {g : G}

/-- The descriptor loop asks both flashes for the same reads and stops at the
same answer. -/
theorem mapLayoutsFrom (h : Alike R) (hfg : R f g) (bytecodeLen : UInt16)
    (mapCount index : Nat) (total : UInt32) (layouts : Vector MapLayout bpfMaxMaps) :
    Together R (OptiBridge.mapLayoutsFrom f bytecodeLen mapCount index total layouts)
      (OptiBridge.mapLayoutsFrom g bytecodeLen mapCount index total layouts) := by
  fun_induction OptiBridge.mapLayoutsFrom f bytecodeLen mapCount index total layouts
    generalizing g with
  | case1 f index total layouts hlt offset error f' =>
      rename_i hread
      obtain ⟨g', hread', hR⟩ := (h.read hfg _ _).eq hread
      rw [OptiBridge.mapLayoutsFrom.eq_def g, if_pos hlt]
      simp only [offset] at hread'
      simp only [hread']
      exact ⟨rfl, hR⟩
  | case2 f index total layouts hlt offset descriptor f' hread =>
      rename_i hbad
      obtain ⟨g', hread', hR⟩ := (h.read hfg _ _).eq hread
      rw [OptiBridge.mapLayoutsFrom.eq_def g, if_pos hlt]
      simp only [offset] at hread'
      simp only [hread', hbad]
      exact ⟨rfl, hR⟩
  | case3 f index total layouts hlt offset descriptor f' hread layout nextTotal hgood =>
      rename_i ih
      obtain ⟨g', hread', hR⟩ := (h.read hfg _ _).eq hread
      rw [OptiBridge.mapLayoutsFrom.eq_def g, if_pos hlt]
      simp only [offset] at hread'
      simp only [hread', hgood]
      exact ih hR
  | case4 f index total layouts hge =>
      rw [OptiBridge.mapLayoutsFrom.eq_def g, if_neg hge]
      exact ⟨rfl, hfg⟩

/-- The layouts read from flashes that answer alike are the same. -/
theorem mapLayouts (h : Alike R) (hfg : R f g) (bytecodeLen : UInt16) (mapCount : UInt8) :
    Together R (OptiBridge.mapLayouts f bytecodeLen mapCount)
      (OptiBridge.mapLayouts g bytecodeLen mapCount) := by
  have hfrom := h.mapLayoutsFrom hfg bytecodeLen mapCount.toNat 0 0 (Vector.replicate _ .EMPTY)
  unfold OptiBridge.mapLayouts
  generalize hout : OptiBridge.mapLayoutsFrom f bytecodeLen mapCount.toNat 0 0
    (Vector.replicate _ .EMPTY) = out at hfrom ⊢
  obtain ⟨result, f'⟩ := out
  obtain ⟨g', hsame, hR⟩ := hfrom.eq rfl
  simp only [hsame]
  cases result with
  | none => exact ⟨rfl, hR⟩
  | some layouts => exact ⟨rfl, hR⟩

/-- The image loop computes the same CRC, or stops at the same read. -/
theorem imageCrcFrom (h : Alike R) (hfg : R f g) (n offset : Nat) (crc : UInt32) :
    Together R (OptiBridge.imageCrcFrom f n offset crc)
      (OptiBridge.imageCrcFrom g n offset crc) := by
  fun_induction OptiBridge.imageCrcFrom f n offset crc generalizing g with
  | case1 f offset crc hlt length error f' =>
      rename_i hread
      obtain ⟨g', hread', hR⟩ := (h.read hfg _ _).eq hread
      rw [OptiBridge.imageCrcFrom.eq_def g, if_pos hlt]
      simp only [length] at hread'
      simp only [hread']
      exact ⟨rfl, hR⟩
  | case2 f offset crc hlt length chunk f' hread =>
      rename_i ih
      obtain ⟨g', hread', hR⟩ := (h.read hfg _ _).eq hread
      rw [OptiBridge.imageCrcFrom.eq_def g, if_pos hlt]
      simp only [length] at hread'
      simp only [hread']
      exact ih hR
  | case3 f offset crc hge =>
      rw [OptiBridge.imageCrcFrom.eq_def g, if_neg hge]
      exact ⟨rfl, hfg⟩

/-- A Begin erases and writes at the same places. -/
theorem begin (h : Alike R) (hfg : R f g) (l : BpfLoader) (bytecodeLen : UInt16)
    (mapCount : UInt8) (expectedCrc : UInt32) :
    Together R (l.begin f bytecodeLen mapCount expectedCrc)
      (l.begin g bytecodeLen mapCount expectedCrc) := by
  have hstep := l.begin_step f bytecodeLen mapCount expectedCrc
  generalize l.begin f bytecodeLen mapCount expectedCrc = out at hstep ⊢
  unfold BpfLoader.begin
  cases hstep with
  | tooLong hlen =>
      simp only [hlen]
      exact ⟨rfl, hfg⟩
  | eraseFailed hlen herase =>
      obtain ⟨g₁, herase', hR⟩ := (h.erase hfg _ _).eq herase
      simp only [hlen, herase']
      exact ⟨rfl, hR⟩
  | headerFailed hlen herase hwrite =>
      obtain ⟨g₁, herase', hR⟩ := (h.erase hfg _ _).eq herase
      obtain ⟨g₂, hwrite', hR⟩ := (h.write hR _ _).eq hwrite
      simp only [hlen, herase', hwrite']
      exact ⟨rfl, hR⟩
  | received hlen herase hwrite =>
      obtain ⟨g₁, herase', hR⟩ := (h.erase hfg _ _).eq herase
      obtain ⟨g₂, hwrite', hR⟩ := (h.write hR _ _).eq hwrite
      simp only [hlen, herase', hwrite']
      exact ⟨rfl, hR⟩

/-- A Data writes the same bytes. -/
theorem data (h : Alike R) (hfg : R f g) (l : BpfLoader) (offset : UInt16)
    (bytes : Vector UInt8 12) (len : UInt8) :
    Together R (l.data f offset bytes len) (l.data g offset bytes len) := by
  have hstep := l.data_step f offset bytes len
  generalize l.data f offset bytes len = out at hstep ⊢
  unfold BpfLoader.data
  cases hstep with
  | writeFailed hwrite =>
      obtain ⟨g₁, hwrite', hR⟩ := (h.write hfg _ _).eq hwrite
      simp only [hwrite']
      exact ⟨rfl, hR⟩
  | stored hwrite =>
      obtain ⟨g₁, hwrite', hR⟩ := (h.write hfg _ _).eq hwrite
      simp only [hwrite']
      exact ⟨rfl, hR⟩

/-- A Finalize reads the same descriptors and writes the same marker. -/
theorem finalize (h : Alike R) (hfg : R f g) (l : BpfLoader) :
    Together R (l.finalize f) (l.finalize g) := by
  have hstep := l.finalize_step f
  generalize l.finalize f = out at hstep ⊢
  unfold BpfLoader.finalize
  cases hstep with
  | badCrc hcrc =>
      rw [if_pos hcrc]
      exact ⟨rfl, hfg⟩
  | badMaps hcrc hmaps =>
      obtain ⟨g₁, hmaps', hR⟩ := (h.mapLayouts hfg _ _).eq hmaps
      rw [if_neg (not_not.mpr hcrc)]
      simp only [hmaps']
      exact ⟨rfl, hR⟩
  | markerFailed hcrc hmaps hwrite =>
      obtain ⟨g₁, hmaps', hR⟩ := (h.mapLayouts hfg _ _).eq hmaps
      obtain ⟨g₂, hwrite', hR⟩ := (h.write hR _ _).eq hwrite
      rw [if_neg (not_not.mpr hcrc)]
      simp only [hmaps', hwrite']
      exact ⟨rfl, hR⟩
  | committed hcrc hmaps hwrite =>
      obtain ⟨g₁, hmaps', hR⟩ := (h.mapLayouts hfg _ _).eq hmaps
      obtain ⟨g₂, hwrite', hR⟩ := (h.write hR _ _).eq hwrite
      rw [if_neg (not_not.mpr hcrc)]
      simp only [hmaps', hwrite']
      exact ⟨rfl, hR⟩

/-- **Alike.** The main loop's flash work is the same over flashes that answer alike. -/
theorem executePending (h : Alike R) (hfg : R f g) (l : BpfLoader) :
    Together R (l.executePending f) (l.executePending g) := by
  unfold BpfLoader.executePending
  cases hpending : l.pending with
  | none => exact ⟨rfl, hfg⟩
  | some operation =>
      cases operation with
      | begin bytecodeLen mapCount expectedCrc =>
          exact h.begin hfg _ bytecodeLen mapCount expectedCrc
      | data offset bytes len => exact h.data hfg _ offset bytes len
      | finalize => exact h.finalize hfg _

/-- And so is boot. -/
theorem validateCommitted (h : Alike R) (hfg : R f g) (l : BpfLoader) :
    Together R (l.validateCommitted f) (l.validateCommitted g) := by
  unfold BpfLoader.validateCommitted
  have hheader := h.read hfg bpfFlashOffset bpfHeaderSize
  generalize hout : BpfFlash.read f bpfFlashOffset bpfHeaderSize = out at hheader ⊢
  obtain ⟨result, f₁⟩ := out
  obtain ⟨g₁, hread', hR⟩ := hheader.eq rfl
  simp only [hread']
  cases result with
  | error => exact ⟨rfl, hR⟩
  | ok header =>
      simp only
      by_cases hmagic : header.toList.take 4 ≠ imageMagic ∨ header[4] ≠ 1 ∨
          u16FromLeBytes header[12] header[13] ≠ 0 ∨ header.toList.drop 14 ≠ [0xff, 0xff]
      · simp only [if_pos hmagic]
        exact ⟨rfl, hR⟩
      simp only [if_neg hmagic]
      cases imageLen (u16FromLeBytes header[6] header[7]) header[5] with
      | none => exact ⟨rfl, hR⟩
      | some n =>
          simp only
          by_cases hbad : BadBounds (u16FromLeBytes header[6] header[7]) header[5] n
          · simp only [if_pos hbad]
            exact ⟨rfl, hR⟩
          simp only [if_neg hbad]
          have himage := h.imageCrcFrom hR n 0 0xffffffff
          generalize OptiBridge.imageCrcFrom f₁ n 0 0xffffffff = image at himage ⊢
          obtain ⟨crc, f₂⟩ := image
          obtain ⟨g₂, himage', hR⟩ := himage.eq rfl
          simp only [himage']
          cases crc with
          | error => exact ⟨rfl, hR⟩
          | ok crc =>
              simp only
              have hmaps := h.mapLayouts hR (u16FromLeBytes header[6] header[7]) header[5]
              generalize OptiBridge.mapLayouts f₂ (u16FromLeBytes header[6] header[7])
                header[5] = maps at hmaps ⊢
              obtain ⟨layouts, f₃⟩ := maps
              obtain ⟨g₃, hmaps', hR⟩ := hmaps.eq rfl
              simp only [hmaps']
              cases layouts with
              | none => exact ⟨rfl, hR⟩
              | some layouts =>
                  simp only
                  split_ifs <;> exact ⟨rfl, hR⟩

end Alike

/-! ## recording -/

/- The record holds the operations and one flag.  Its `BpfFlash` instance passes
every call on. -/

/-- What a loader may ask of a flash, with its arguments. -/
inductive FlashOp where
  | read (offset : UInt32) (len : Nat)
  | write (offset : UInt32) (bytes : List UInt8)
  | erase (start stop : UInt32)
deriving DecidableEq

/-- A flash, and the operations it was asked for with whether each succeeded. -/
structure Recorded (F : Type) where
  flash : F
  trace : List (FlashOp × Bool)

namespace Recorded

variable {F : Type}

/-- Nothing recorded yet. -/
def new (flash : F) : Recorded F := ⟨flash, []⟩

/-- Append an operation, and note whether it failed. -/
def record {α : Type} (w : Recorded F) (op : FlashOp) (answer : Except Unit α × F) :
    Except Unit α × Recorded F :=
  (answer.1, ⟨answer.2, w.trace ++ [(op, answer.1.isOk)]⟩)

instance [BpfFlash F] : BpfFlash (Recorded F) where
  read w offset len := w.record (.read offset len) (BpfFlash.read w.flash offset len)
  write w offset bytes := w.record (.write offset bytes) (BpfFlash.write w.flash offset bytes)
  erase w start stop := w.record (.erase start stop) (BpfFlash.erase w.flash start stop)

/-- **Recording is transparent.** -/
theorem alike (F : Type) [BpfFlash F] : Alike fun (w : Recorded F) (f : F) => w.flash = f where
  read := by rintro w _ rfl offset len; exact ⟨rfl, rfl⟩
  write := by rintro w _ rfl offset bytes; exact ⟨rfl, rfl⟩
  erase := by rintro w _ rfl start stop; exact ⟨rfl, rfl⟩

/-- Some operation failed. -/
def failed (w : Recorded F) : Bool := w.trace.any fun entry => !entry.2

/-- A fresh record is over the flash it was made of. -/
@[simp] theorem flash_new (flash : F) : (new flash).flash = flash := rfl

/-- Nothing has failed yet. -/
@[simp] theorem failed_new (flash : F) : (new flash).failed = false := rfl

/-- A record has failed once its flash has. -/
theorem failed_record {α : Type} (w : Recorded F) (op : FlashOp) (answer : Except Unit α × F) :
    (w.record op answer).2.failed = (w.failed || !(w.record op answer).1.isOk) := by
  simp [record, failed]

section answers

variable [BpfFlash F] {w w' : Recorded F}

/-- A read that fails is noted. -/
theorem failed_read {offset : UInt32} {len : Nat} {result : Except Unit (Vector UInt8 len)}
    (h : BpfFlash.read w offset len = (result, w')) :
    w'.failed = (w.failed || !result.isOk) := by
  have hrecord := failed_record w (.read offset len) (BpfFlash.read w.flash offset len)
  rwa [show w.record _ _ = (result, w') from h] at hrecord

/-- A write that fails is noted. -/
theorem failed_write {offset : UInt32} {bytes : List UInt8} {result : Except Unit Unit}
    (h : BpfFlash.write w offset bytes = (result, w')) :
    w'.failed = (w.failed || !result.isOk) := by
  have hrecord := failed_record w (.write offset bytes) (BpfFlash.write w.flash offset bytes)
  rwa [show w.record _ _ = (result, w') from h] at hrecord

/-- An erase that fails is noted. -/
theorem failed_erase {start stop : UInt32} {result : Except Unit Unit}
    (h : BpfFlash.erase w start stop = (result, w')) :
    w'.failed = (w.failed || !result.isOk) := by
  have hrecord := failed_record w (.erase start stop) (BpfFlash.erase w.flash start stop)
  rwa [show w.record _ _ = (result, w') from h] at hrecord

end answers

end Recorded

end OptiBridge
