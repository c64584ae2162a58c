import OptiBridge.Boot

/-!
# OptiBridge.Commit

A commit is sound over whole runs: the image flash holds when the loader says
Committed is the one the host transferred, byte for byte, with the CRC it
declared.

The invariant mirrors the loader's cached fields in flash.  While receiving,
the rolling CRC and the next offset speak of a list of bytes that flash holds
from the start of the image on, and the rest of the image is still erased; with
a program, the cached metadata is that of the committed image.

`Transfer` is what a host meant, rebuilt from the operations that were executed;
nothing in it is read from the loader or from flash.  The theorem relates the
two: a loader that says Committed has the transfer's CRC, and flash the
transfer's bytes.
-/

namespace OptiBridge

open Bytes Nor

/-! ## transfers -/

/- The image as the host sent it: what its Begin declared, and its fragments in
a row. -/

/-- A transfer: what its Begin declared, and the bytes of the Data since. -/
structure Transfer where
  bytecodeLen : UInt16
  mapCount : UInt8
  expectedCrc : UInt32
  image : List UInt8

namespace Transfer

/-- One more executed operation. -/
def after (t : Option Transfer) : LoadOperation → Option Transfer
  | .begin bytecodeLen mapCount expectedCrc => some ⟨bytecodeLen, mapCount, expectedCrc, []⟩
  | .data _ bytes len => t.map fun t => { t with image := t.image ++ bytes.toList.take len.toNat }
  | .finalize => t

/-- The most recent transfer among executed operations. -/
def last (operations : List LoadOperation) : Option Transfer := operations.foldl after none

end Transfer

/-! ## header pieces -/

/- The header as twelve bytes of fields, the marker and filling. -/

/-- The twelve header bytes before the marker. -/
def headerFields (bytecodeLen : UInt16) (mapCount : UInt8) (crc : UInt32) : List UInt8 :=
  imageMagic ++ [1, mapCount] ++ toLe 2 bytecodeLen.toNat ++ toLe 4 crc.toNat

@[simp] theorem length_headerFields (bytecodeLen : UInt16) (mapCount : UInt8) (crc : UInt32) :
    (headerFields bytecodeLen mapCount crc).length = 12 := by
  simp [headerFields]

@[simp] theorem length_headerBytes (bytecodeLen : UInt16) (mapCount : UInt8) (crc : UInt32)
    (a b : UInt8) : (headerBytes bytecodeLen mapCount crc [a, b]).length = 16 := by
  simp [headerBytes]

/-- A header in flash is its fields, its marker and its reserved bytes. -/
theorem bytesAt_header {c : Contents} {bytecodeLen : UInt16} {mapCount : UInt8} {crc : UInt32}
    {a b : UInt8} :
    bytesAt c headerAddress 16 = headerBytes bytecodeLen mapCount crc [a, b] ↔
      bytesAt c headerAddress 12 = headerFields bytecodeLen mapCount crc ∧
        bytesAt c markerAddress 2 = [a, b] ∧ bytesAt c (markerAddress + 2) 2 = [0xff, 0xff] := by
  have hsplit : bytesAt c headerAddress 16 =
      (bytesAt c headerAddress 12 ++ bytesAt c markerAddress 2) ++
        bytesAt c (markerAddress + 2) 2 := by
    rw [show (16 : Nat) = (12 + 2) + 2 by rfl, bytesAt_add, bytesAt_add]
  have hheader : headerBytes bytecodeLen mapCount crc [a, b] =
      (headerFields bytecodeLen mapCount crc ++ [a, b]) ++ [0xff, 0xff] := rfl
  rw [hsplit, hheader]
  constructor
  · intro h
    obtain ⟨hfront, hreserved⟩ := List.append_inj h (by simp)
    obtain ⟨hfields, hmarker⟩ := List.append_inj hfront (by simp)
    exact ⟨hfields, hmarker, hreserved⟩
  · rintro ⟨hfields, hmarker, hreserved⟩
    rw [hfields, hmarker, hreserved]

/-- Clearing the marker of an uncommitted header commits it. -/
theorem bytesAt_marker {c : Contents} {bytecodeLen : UInt16} {mapCount : UInt8} {crc : UInt32}
    (h : bytesAt c headerAddress 16 = headerBytes bytecodeLen mapCount crc [0xff, 0xff]) :
    bytesAt (apply c (.program markerAddress [0, 0], .done)) headerAddress 16 =
      headerBytes bytecodeLen mapCount crc [0, 0] := by
  obtain ⟨hfields, hmarker, hreserved⟩ := bytesAt_header.mp h
  refine bytesAt_header.mpr ⟨?_, ?_, ?_⟩
  · rw [bytesAt_apply_of_disjoint _ _ (.inr (by decide)), hfields]
  · refine bytesAt_program c _ [0, 0] fun i hi => ?_
    have hget := eq_of_bytesAt_eq (d := fun _ => 0xff) (i := i) hmarker hi
    exact hget
  · rw [bytesAt_apply_of_disjoint _ _ (.inl (by decide)), hreserved]

/-! ## the invariant -/

/- While an image is received, `Stored`; once there is a program, `Adopted`; in
any other state nothing is said of flash. -/

/-- Flash holds the first bytes of a transfer, and they are the ones the loader
has accounted for. -/
structure Stored (l : BpfLoader) (c : Contents) (image : List UInt8) : Prop where
  header : bytesAt c headerAddress 16 =
    headerBytes l.bytecodeLen l.mapCount l.expectedCrc [0xff, 0xff]
  length : image.length = l.nextOffset.toNat
  crc : l.crc = crc32Update 0xffffffff image
  stored : bytesAt c imageAddress image.length = image
  erased : ∀ x, imageAddress + image.length ≤ x → x < imageAddress + l.imageLen.toNat →
    c x = 0xff

/-- The loader's metadata is that of the committed image flash holds. -/
structure Adopted (l : BpfLoader) (c : Contents) (crc : UInt32) : Prop where
  image : CommittedImage c l.bytecodeLen l.mapCount crc
  layouts : l.mapLayouts = layoutVector (descriptorsAt c l.bytecodeLen l.mapCount)
  count : l.committedMapCount = l.mapCount

/-- The loader mirrors flash; `t` is the most recent transfer. -/
structure Mirrors (l : BpfLoader) (c : Contents) (t : Option Transfer) : Prop where
  receiving : l.state = .receiving →
    ∃ image, t = some ⟨l.bytecodeLen, l.mapCount, l.expectedCrc, image⟩ ∧ Stored l c image
  program : ∀ crc, l.state = .committed crc ∨ l.state = .running crc → Adopted l c crc

/-- A loader that neither receives nor has a program mirrors anything. -/
theorem mirrors_of_idle {l : BpfLoader} (c : Contents) (t : Option Transfer)
    (hstate : l.state = .empty ∨ ∃ status, l.state = .failed status) : Mirrors l c t where
  receiving := fun h => by
    rcases hstate with h' | ⟨status, h'⟩ <;> rw [h] at h' <;> contradiction
  program := fun crc h => by
    rcases hstate with h' | ⟨status, h'⟩ <;> rcases h with h | h <;> rw [h] at h' <;> contradiction

/-- The pending slot is no part of it. -/
theorem Mirrors.withPending {l : BpfLoader} {c : Contents} {t : Option Transfer}
    (h : Mirrors l c t) (pending : Option LoadOperation) :
    Mirrors { l with pending := pending } c t where
  receiving := fun hstate => by
    obtain ⟨image, ht, hstored⟩ := h.receiving hstate
    exact ⟨image, ht, hstored.header, hstored.length, hstored.crc, hstored.stored, hstored.erased⟩
  program := fun crc hstate => by
    obtain ⟨himage, hlayouts, hcount⟩ := h.program crc hstate
    exact ⟨himage, hlayouts, hcount⟩

/-- A Start changes the state only. -/
theorem Mirrors.started {l : BpfLoader} {c : Contents} {t : Option Transfer} (h : Mirrors l c t)
    {crc : UInt32} (hstate : l.state = .committed crc) :
    Mirrors { l with state := .running crc } c t where
  receiving := fun h' => by contradiction
  program := fun crc' h' => by
    obtain ⟨himage, hlayouts, hcount⟩ := h.program crc (.inl hstate)
    rcases h' with h' | h'
    · contradiction
    · injection h' with h'
      subst h'
      exact ⟨himage, hlayouts, hcount⟩

/-! ## what the operations store -/

/- How each operation changes the contents, as far as the image is concerned. -/

section contents

variable {c : Contents}

/-- What flash holds of an image depends on the image region only. -/
theorem imageAt_congr {d : Contents} {bytecodeLen : UInt16} {mapCount : UInt8}
    (h : ∀ x, imageAddress ≤ x → c x = d x) :
    imageAt c bytecodeLen mapCount = imageAt d bytecodeLen mapCount :=
  bytesAt_congr fun x hlo _ => h x hlo

/-- The marker is not part of the image. -/
theorem marker_image (x : Nat) (h : imageAddress ≤ x) (o : Outcome) :
    apply c (.program markerAddress [0, 0], o) x = c x := by
  refine apply_of_not_mem c _ ?_
  show ¬ (0x600c ≤ x ∧ x < 0x600c + 2)
  have h : 0x6010 ≤ x := h
  omega

/-- After Begin's erase and header write, the header is there and the image is
erased. -/
theorem begin_contents {bytecodeLen : UInt16} {mapCount : UInt8} (expectedCrc : UInt32)
    (hbounds : GoodBounds bytecodeLen mapCount) :
    let header := headerBytes bytecodeLen mapCount expectedCrc [0xff, 0xff]
    let c' := replay c [(.erase headerAddress (eraseStop bytecodeLen mapCount), .done),
      (.program headerAddress header, .done)]
    bytesAt c' headerAddress 16 = header ∧
      ∀ x, imageAddress ≤ x → x < imageAddress + (bytecodeLen.toNat + 16 * mapCount.toNat) →
        c' x = 0xff := by
  intro header c'
  have hlength : header.length = 16 := length_headerBytes ..
  have hstop := hbounds.image_le_eraseStop
  constructor
  · have hprogram := bytesAt_program
      (apply c (.erase headerAddress (eraseStop bytecodeLen mapCount), .done))
      headerAddress header fun i hi => by
        refine apply_erase_of_mem c (Nat.le_add_right _ _) ?_
        have hlt : 0x6000 + i < 0x6010 := by omega
        exact Nat.lt_of_lt_of_le hlt (Nat.le_trans (Nat.le_add_right _ _) hstop)
    rwa [hlength] at hprogram
  · intro x hlo hhi
    have hpast : ¬ (headerAddress ≤ x ∧ x < headerAddress + header.length) := by
      rw [hlength]
      have hlo : 0x6010 ≤ x := hlo
      show ¬ (0x6000 ≤ x ∧ x < 0x6000 + 16)
      omega
    refine (apply_of_not_mem _ (.program headerAddress header, .done) hpast).trans ?_
    exact apply_erase_of_mem c (Nat.le_trans (by decide) hlo) (Nat.lt_of_lt_of_le hhi hstop)

end contents

/-! ## one deferred operation -/

/- Each way an operation ends keeps the invariant, or ends the transfer. -/

namespace BpfLoader

variable {self l : BpfLoader} {c : Contents} {t : Option Transfer}

/-- Begin opens a transfer. -/
theorem stored_begin {bytecodeLen : UInt16} {mapCount : UInt8} (expectedCrc : UInt32)
    (hbounds : GoodBounds bytecodeLen mapCount) :
    Stored
      { self.clearMapLayouts with
          state := .receiving
          bytecodeLen := bytecodeLen
          mapCount := mapCount
          imageLen := UInt16.ofNat (bytecodeLen.toNat + 16 * mapCount.toNat)
          nextOffset := 0
          expectedCrc := expectedCrc
          crc := 0xffffffff }
      (replay c [(.erase headerAddress (eraseStop bytecodeLen mapCount), .done),
        (.program headerAddress (headerBytes bytecodeLen mapCount expectedCrc [0xff, 0xff]),
          .done)]) [] := by
  obtain ⟨hheader, herased⟩ := begin_contents (c := c) expectedCrc hbounds
  have hlen : (UInt16.ofNat (bytecodeLen.toNat + 16 * mapCount.toNat)).toNat =
      bytecodeLen.toNat + 16 * mapCount.toNat := UInt16.toNat_ofNat_of_lt' (by
    have h := hbounds.imageLen_le
    show _ < 65536
    omega)
  refine ⟨hheader, rfl, rfl, rfl, fun x hlo hhi => herased x hlo ?_⟩
  rwa [hlen] at hhi

/-- A Data extends it. -/
theorem stored_data {image : List UInt8} {offset : UInt16} {bytes : Vector UInt8 12}
    {len : UInt8} (h : Stored self c image) (haccepts : self.Accepts (.data offset bytes len)) :
    Stored
      { self with
          crc := crc32Update self.crc (bytes.toList.take len.toNat)
          nextOffset := self.nextOffset + len.toUInt16 }
      (apply c (.program (imageAddress + offset.toNat) (bytes.toList.take len.toNat), .done))
      (image ++ bytes.toList.take len.toNat) := by
  obtain ⟨-, rfl, ⟨-, hmax⟩, -, hfit⟩ := haccepts
  have hfragment : (bytes.toList.take len.toNat).length = len.toNat := by
    simpa using hmax
  have hbound := self.imageLen.toNat_lt
  have himage : 0x6010 + image.length = 0x6010 + self.nextOffset.toNat :=
    congrArg (0x6010 + ·) h.length
  refine ⟨?_, ?_, ?_, ?_, ?_⟩
  · exact (bytesAt_apply_of_disjoint _ _ (.inr (Nat.le_add_right 0x6010 _))).trans h.header
  · rw [List.length_append, hfragment, h.length, UInt16.toNat_add, UInt8.toNat_toUInt16]
    exact (Nat.mod_eq_of_lt (by omega)).symm
  · rw [crc32Update_append, ← h.crc]
  · rw [List.length_append, bytesAt_add]
    congr 1
    · refine (bytesAt_apply_of_disjoint _ _ (.inr ?_)).trans h.stored
      exact Nat.le_of_eq himage
    · -- what is programmed over erased bytes is stored as it is
      rw [h.length]
      refine bytesAt_program c _ _ fun i hi => h.erased _ ?_ ?_
      · rw [h.length]
        exact Nat.le_add_right _ _
      · show 0x6010 + self.nextOffset.toNat + i < 0x6010 + self.imageLen.toNat
        omega
  · intro x hlo hhi
    rw [List.length_append, hfragment, h.length] at hlo
    have hlo' : 0x6010 + (self.nextOffset.toNat + len.toNat) ≤ x := hlo
    refine (apply_of_not_mem _ _ ?_).trans (h.erased x ?_ hhi)
    · show ¬ (0x6010 + self.nextOffset.toNat ≤ x ∧ x < 0x6010 + self.nextOffset.toNat +
        (bytes.toList.take len.toNat).length)
      omega
    · show 0x6010 + image.length ≤ x
      omega

/-- The image a finished transfer has stored. -/
theorem imageAt_of_stored {image : List UInt8} (hsane : self.Sane) (h : Stored self c image)
    (haccepts : self.Accepts .finalize) :
    imageAt c self.bytecodeLen self.mapCount = image ∧
      image.length = self.bytecodeLen.toNat + 16 * self.mapCount.toNat := by
  obtain ⟨hstate, hdone⟩ := haccepts
  obtain ⟨-, hlen, -⟩ := hsane.transfer hstate
  have hlength : image.length = self.bytecodeLen.toNat + 16 * self.mapCount.toNat := by
    rw [h.length, hdone, hlen]
  exact ⟨by rw [imageAt, ← hlength, h.stored], hlength⟩

/-- Finalize commits the image it was given. -/
theorem adopted_finalize {image : List UInt8} (hsane : self.Sane) (h : Stored self c image)
    (haccepts : self.Accepts .finalize) (hcrc : crc32Finish self.crc = self.expectedCrc)
    (hvalid : ValidDescriptors (descriptorsAt c self.bytecodeLen self.mapCount)) :
    Adopted
      { self with
          state := .committed self.expectedCrc
          mapLayouts := layoutVector (descriptorsAt c self.bytecodeLen self.mapCount)
          committedMapCount := self.mapCount }
      (apply c (.program markerAddress [0, 0], .done)) self.expectedCrc := by
  obtain ⟨himage, -⟩ := imageAt_of_stored hsane h haccepts
  have hkept : imageAt (apply c (.program markerAddress [0, 0], .done)) self.bytecodeLen
      self.mapCount = imageAt c self.bytecodeLen self.mapCount :=
    imageAt_congr fun x hx => marker_image x hx .done
  have hdescriptors : descriptorsAt (apply c (.program markerAddress [0, 0], .done))
      self.bytecodeLen self.mapCount = descriptorsAt c self.bytecodeLen self.mapCount := by
    rw [descriptorsAt, hkept, descriptorsAt]
  refine ⟨⟨bytesAt_marker h.header, (hsane.transfer haccepts.1).1, ?_, ?_⟩, ?_, rfl⟩
  · rw [hkept, himage, crc32IsoHdlc, ← h.crc, hcrc]
  · rw [hdescriptors]
    exact hvalid
  · rw [hdescriptors]

end BpfLoader

namespace Mirrors

variable {self l : BpfLoader} {c : Contents} {t : Option Transfer}

/-- **Mirror step.** Executing an accepted operation keeps the mirror. -/
theorem executed {operation : LoadOperation} {ops : List (Op × Outcome)}
    (h : Mirrors self c t) (hsane : self.Sane) (haccepts : self.Accepts operation)
    (hexecuted : self.Executed c operation l ops) :
    Mirrors l (replay c ops) (Transfer.after t operation) := by
  cases hexecuted with
  | eraseFailed | headerFailed | writeFailed | badCrc | badMaps | markerFailed =>
      exact mirrors_of_idle _ _ (.inr ⟨_, rfl⟩)
  | received hbounds =>
      refine ⟨fun _ => ⟨[], rfl, BpfLoader.stored_begin _ hbounds⟩, fun crc hstate => ?_⟩
      rcases hstate with hstate | hstate <;> contradiction
  | stored =>
      obtain ⟨image, rfl, hstored⟩ := h.receiving haccepts.1
      refine ⟨fun _ => ⟨_, rfl, BpfLoader.stored_data hstored haccepts⟩, fun crc hstate => ?_⟩
      have hreceiving : self.state = .receiving := haccepts.1
      rcases hstate with hstate | hstate <;> rw [show self.state = _ from hstate] at hreceiving <;>
        contradiction
  | committed hcrc hreads hdone hvalid =>
      obtain ⟨image, -, hstored⟩ := h.receiving haccepts.1
      refine ⟨fun hstate => by contradiction, fun crc hstate => ?_⟩
      rcases hstate with hstate | hstate
      · injection hstate with hstate
        subst hstate
        rw [replay_append, replay_readsWithin _ hreads hdone]
        exact BpfLoader.adopted_finalize hsane hstored haccepts hcrc hvalid
      · contradiction

/-- **Commit step.** The operation that commits is the Finalize of a complete
transfer with the declared CRC. -/
theorem commit {operation : LoadOperation} {ops : List (Op × Outcome)} {crc : UInt32}
    (h : Mirrors self c t) (hsane : self.Sane) (haccepts : self.Accepts operation)
    (hexecuted : self.Executed c operation l ops) (hstate : l.state = .committed crc) :
    operation = .finalize ∧ crc = self.expectedCrc ∧
      ∃ image, t = some ⟨self.bytecodeLen, self.mapCount, crc, image⟩ ∧
        image.length = self.bytecodeLen.toNat + 16 * self.mapCount.toNat ∧
        imageAt (replay c ops) self.bytecodeLen self.mapCount = image ∧
        CommittedImage (replay c ops) self.bytecodeLen self.mapCount crc := by
  have hmirrors := h.executed hsane haccepts hexecuted
  cases hexecuted with
  | eraseFailed | headerFailed | writeFailed | badCrc | badMaps | markerFailed | received =>
      contradiction
  | stored =>
      have hreceiving : self.state = .receiving := haccepts.1
      rw [show self.state = _ from hstate] at hreceiving
      contradiction
  | committed hcrc hreads hdone hvalid =>
      injection hstate with hstate
      subst hstate
      obtain ⟨image, rfl, hstored⟩ := h.receiving haccepts.1
      obtain ⟨himage, hlength⟩ := BpfLoader.imageAt_of_stored hsane hstored haccepts
      refine ⟨rfl, rfl, image, rfl, hlength, ?_, (hmirrors.program _ (.inl rfl)).image⟩
      rw [replay_append, replay_readsWithin _ hreads hdone, ← himage]
      exact imageAt_congr fun x hx => marker_image x hx .done

end Mirrors

/-! ## whole runs -/

/- The invariant over every run from a boot, with the transfer as the only ghost
state. -/

namespace Device

/-- A device as it powers up: with or without boot validation, over any chip. -/
inductive PowerOn : Device Chip → Prop where
  | new (statusQueue : StatusQueue) (mapBacking : MapBacking) (output : Output) (f : Chip) :
      PowerOn (new statusQueue mapBacking output f)
  | boot (statusQueue : StatusQueue) (mapBacking : MapBacking) (output : Output) (f : Chip) :
      PowerOn (boot statusQueue mapBacking output f)

/-- A device that has just booted is sane. -/
theorem PowerOn.sane {d : Device Chip} (h : PowerOn d) : d.loader.Sane := by
  cases h with
  | new => exact BpfLoader.sane_new
  | boot => exact sane_boot ..

/-- What boot adopts, flash holds. -/
theorem PowerOn.mirrors {d : Device Chip} (h : PowerOn d) :
    Mirrors d.loader d.flash.contents none := by
  cases h with
  | new => exact mirrors_of_idle _ _ (.inl rfl)
  | boot statusQueue mapBacking output f =>
      obtain ⟨reads, hissued, hreads, hvalidated⟩ := BpfLoader.new.validateCommitted_chip f
      show Mirrors (BpfLoader.new.validateCommitted f).1
        (BpfLoader.new.validateCommitted f).2.contents none
      rw [hissued.contents]
      generalize (BpfLoader.new.validateCommitted f).1 = l at hvalidated ⊢
      cases hvalidated with
      | unread => exact mirrors_of_idle _ _ (.inr ⟨_, rfl⟩)
      | rejected => exact mirrors_of_idle _ _ (.inl rfl)
      | committed hdone himage =>
          rw [replay_readsWithin _ (fun p hp => (hreads p hp).within) hdone]
          refine ⟨fun hstate => by contradiction, fun crc hstate => ?_⟩
          rcases hstate with hstate | hstate
          · injection hstate with hstate
            subst hstate
            exact ⟨himage, rfl, rfl⟩
          · contradiction

/-- Every event keeps the invariant, with the operation it executes added to the
transfer. -/
theorem mirrors_step {d : Device Chip} {t : Option Transfer} (hsane : d.loader.Sane)
    (h : Mirrors d.loader d.flash.contents t) (e : Event) :
    Mirrors (d.step e).loader (d.step e).flash.contents
      ((d.executes e).foldl Transfer.after t) := by
  cases e with
  | executePending =>
      cases hpending : d.loader.pending with
      | none =>
          rw [show d.step .executePending = d from executePending_of_none hpending]
          simpa [hpending] using h
      | some operation =>
          obtain ⟨ops, hissued, hexecuted⟩ := executePending_chip hsane hpending
          have haccepts := accepts_withPending (hsane.pending operation hpending).2 none
          have hmirrors := (h.withPending none).executed hsane.withoutPending haccepts hexecuted
          rw [← hissued.contents] at hmirrors
          rw [executes_executePending, hpending]
          exact hmirrors
  | request request execute =>
      show Mirrors (d.dispatched request execute).2.loader d.flash.contents t
      cases loader_step request (recording execute) d.toDispatchState with
      | kept hloader => exact (hloader : (d.dispatched request execute).2.loader = _) ▸ h
      | accepted _ _ _ hloader =>
          rw [show (d.dispatched request execute).2.loader = _ from hloader]
          exact h.withPending _
      | started _ _ _ hstate hloader =>
          rw [show (d.dispatched request execute).2.loader = _ from hloader]
          exact h.started hstate

/-- A sane device that mirrors its flash after `operations`. -/
def Mirrored (d : Device Chip) (operations : List LoadOperation) : Prop :=
  d.loader.Sane ∧ Mirrors d.loader d.flash.contents (Transfer.last operations)

/-- The same with the list of operations. -/
theorem mirrored_step {d : Device Chip} {operations : List LoadOperation} (e : Event)
    (h : d.Mirrored operations) : (d.step e).Mirrored (operations ++ d.executes e) := by
  refine ⟨sane_step h.1 e, ?_⟩
  rw [Transfer.last, List.foldl_append]
  exact mirrors_step h.1 h.2 e

/-- Over every run the loader mirrors flash. -/
theorem mirrored_run {d : Device Chip} (h : PowerOn d) (es : List Event) :
    (d.run es).Mirrored (d.executed es) :=
  Machine.invariant_trace (P := fun _ => True) (I := Mirrored)
    (fun _ _ e _ hd => mirrored_step e hd) ⟨h.sane, h.mirrors⟩ fun _ _ => trivial

/-- **Commit soundness.** Over every run from power-on, over any chip, however
its operations fail: when the main loop moves the loader to Committed, the CRC
is the one the most recent Begin declared, the bytes of the Data executed since
are an image of the declared length, flash holds that image after its header
with a cleared marker, the image has that CRC, and its descriptors are array
maps that fit the backing. -/
theorem commit_sound (start : Device Chip) (hstart : PowerOn start) (es : List Event)
    (crc : UInt32) (hbefore : (start.run es).loader.state ≠ .committed crc)
    (hafter : (start.run (es ++ [.executePending])).loader.state = .committed crc) :
    let c := (start.run (es ++ [.executePending])).flash.contents
    ∃ bytecodeLen mapCount image,
      Transfer.last (start.executed (es ++ [.executePending])) =
          some ⟨bytecodeLen, mapCount, crc, image⟩ ∧
        image.length = bytecodeLen.toNat + 16 * mapCount.toNat ∧
        bytesAt c imageAddress image.length = image ∧
        crc32IsoHdlc image = crc ∧
        bytesAt c headerAddress 16 = headerBytes bytecodeLen mapCount crc [0, 0] ∧
        (∀ d ∈ descriptorsOf image bytecodeLen.toNat mapCount.toNat,
          d.mapType = 1 ∧ d.keySize = 4 ∧ d.valueSize ≠ 0 ∧ d.maxEntries ≠ 0) ∧
        totalSize (descriptorsOf image bytecodeLen.toNat mapCount.toNat) ≤ 1024 := by
  intro c
  obtain ⟨hsane, hmirrors⟩ := mirrored_run hstart es
  have hrun : start.run (es ++ [.executePending]) = (start.run es).executePending :=
    run_concat _ _ _
  have hlast : start.executed (es ++ [.executePending]) =
      start.executed es ++ (start.run es).loader.pending.toList := by
    rw [executed, Machine.trace_concat, ← executes_executePending]
    rfl
  cases hpending : (start.run es).loader.pending with
  -- nothing was executed, so nothing has changed
  | none =>
      rw [hrun, executePending_of_none hpending] at hafter
      contradiction
  | some operation =>
      obtain ⟨ops, hissued, hexecuted⟩ := executePending_chip hsane hpending
      have haccepts := accepts_withPending (hsane.pending operation hpending).2 none
      rw [hrun] at hafter
      obtain ⟨rfl, -, image, htransfer, hlength, himage, hcommitted⟩ :=
        (hmirrors.withPending none).commit hsane.withoutPending haccepts hexecuted hafter
      have hc : c = replay (start.run es).flash.contents ops := by
        rw [← hissued.contents, ← hrun]
      rw [← hc] at himage hcommitted
      refine ⟨_, _, image, ?_, hlength, ?_, himage ▸ hcommitted.crc, hcommitted.header, ?_⟩
      · rw [hlast, hpending, Transfer.last, Option.toList_some, List.foldl_append]
        exact htransfer
      · rw [hlength]
        exact himage
      · have hmaps := hcommitted.maps
        rw [descriptorsAt, himage] at hmaps
        exact hmaps

/-- An image with one map, transferred to an erased chip and finalized. -/
theorem commit_sound_transfer :
    let image := exitProgram ++ [1, 0, 0, 0, 4, 0, 0, 0, 8, 0, 0, 0, 2, 0, 0, 0]
    let es := (transfer 1 image).dropLast
    let c := (erased.run (es ++ [.executePending])).flash.contents
    ∃ bytecodeLen mapCount image',
      Transfer.last (erased.executed (es ++ [.executePending])) =
          some ⟨bytecodeLen, mapCount, crc32IsoHdlc image, image'⟩ ∧
        bytesAt c imageAddress image'.length = image' := by
  intro image es c
  obtain ⟨bytecodeLen, mapCount, image', hlast, -, hstored, -⟩ :=
    commit_sound erased (.boot ..) es (crc32IsoHdlc image) (by decide +kernel) (by decide +kernel)
  exact ⟨bytecodeLen, mapCount, image', hlast, hstored⟩

end Device

end OptiBridge
