import OptiBridge.Commit

/-!
# OptiBridge.Loading

Every valid image can be loaded, and how it is cut makes no difference.  After
each fragment the loader and flash are a function of the bytes received so far:
the rolling CRC is that of their concatenation, and programming fragments one
after another is programming their concatenation at once.

A cut is legal if each fragment has an even number of bytes, two to twelve.  That
is all a host has to know: `load_any_split` begins with any loader that is not
busy or running, over any flash that does not fail, and ends with flash holding
the image, whichever cut was chosen.

* `load_step`, one request and the main loop's turn;
* `begin_received`, `data_received`, `finalize_committed`, the three kinds of
  step;
* `transfer_committed`, a transfer along any cut;
* `load_any_split`, with flash and metadata at the end.
-/

namespace OptiBridge

open Bytes Nor

/-! ## images and the requests that load them -/

/- An image with what makes it loadable, and the payloads of its transfer. -/

/-- An image a host may load. -/
structure LoadableImage where
  bytecodeLen : UInt16
  mapCount : UInt8
  bytes : List UInt8
  bounds : GoodBounds bytecodeLen mapCount
  length : bytes.length = bytecodeLen.toNat + 16 * mapCount.toNat
  maps : ValidDescriptors (descriptorsOf bytes bytecodeLen.toNat mapCount.toNat)

/-- A Load command with a given payload. -/
structure IsLoad (request : Request) (payload : List UInt8) : Prop where
  flags : request.flags = 0
  command : request.command = cmdLoadBpf
  payload : request.bytes = payload

/-- A cut into fragments a Data may carry. -/
structure Splits (fragments : List (List UInt8)) (bytes : List UInt8) : Prop where
  flatten : fragments.flatten = bytes
  fragment : ∀ fragment ∈ fragments,
    (2 ≤ fragment.length ∧ fragment.length ≤ 12) ∧ fragment.length % 2 = 0

/-- One Data for each fragment, the first at `offset`. -/
def dataPayloads : Nat → List (List UInt8) → List (List UInt8)
  | _, [] => []
  | offset, fragment :: fragments =>
      (1 :: toLe 2 offset ++ fragment) :: dataPayloads (offset + fragment.length) fragments

namespace LoadableImage

variable (image : LoadableImage)

/-- The descriptors of an image, decoded. -/
def descriptors : List Descriptor :=
  descriptorsOf image.bytes image.bytecodeLen.toNat image.mapCount.toNat

/-- Its CRC. -/
def crc : UInt32 := crc32IsoHdlc image.bytes

/-- The payload of its Begin. -/
def beginPayload : List UInt8 :=
  0 :: toLe 2 image.bytecodeLen.toNat ++ [image.mapCount] ++ toLe 4 image.crc.toNat

/-- Begin, the fragments in order, Finalize. -/
def payloads (fragments : List (List UInt8)) : List (List UInt8) :=
  image.beginPayload :: (dataPayloads 0 fragments ++ [[2]])

/-- The loader while it receives. -/
def receiving (received : List UInt8) : BpfLoader where
  state := .receiving
  pending := none
  bytecodeLen := image.bytecodeLen
  mapCount := image.mapCount
  imageLen := UInt16.ofNat image.bytes.length
  nextOffset := UInt16.ofNat received.length
  expectedCrc := image.crc
  crc := crc32Update 0xffffffff received
  mapLayouts := Vector.replicate _ .EMPTY
  committedMapCount := 0

/-- The loader that has committed the image. -/
def committed : BpfLoader :=
  { image.receiving image.bytes with
    state := .committed image.crc
    mapLayouts := layoutVector image.descriptors
    committedMapCount := image.mapCount }

/-- The reserved pages once Begin has prepared them. -/
def prepared (c : Contents) : Contents :=
  replay c [(.erase headerAddress (eraseStop image.bytecodeLen image.mapCount), .done),
    (.program headerAddress
      (headerBytes image.bytecodeLen image.mapCount image.crc [0xff, 0xff]), .done)]

/-- Flash while it receives. -/
def stored (c : Contents) (received : List UInt8) : Contents :=
  apply (image.prepared c) (.program imageAddress received, .done)

theorem length_lt : image.bytes.length < 2 ^ 16 := by
  have hlength := image.length
  have hbound := image.bounds.imageLen_le
  omega

/-- Flash holds the image once all of it is received. -/
theorem bytesAt_stored (c : Contents) :
    bytesAt (image.stored c image.bytes) headerAddress 16 =
        headerBytes image.bytecodeLen image.mapCount image.crc [0xff, 0xff] ∧
      bytesAt (image.stored c image.bytes) imageAddress image.bytes.length = image.bytes := by
  obtain ⟨hheader, herased⟩ := begin_contents (c := c) image.crc image.bounds
  constructor
  · exact (bytesAt_apply_of_disjoint _ _ (.inr (Nat.le_refl 0x6010))).trans hheader
  · refine bytesAt_program _ _ _ fun i hi => herased _ (Nat.le_add_right _ _) ?_
    rw [← image.length]
    exact Nat.add_lt_add_left hi _

/-- The descriptors that are read back are those of the image. -/
theorem descriptorsAt_stored (c : Contents) :
    descriptorsAt (image.stored c image.bytes) image.bytecodeLen image.mapCount =
      image.descriptors := by
  rw [descriptorsAt, imageAt, ← image.length, (image.bytesAt_stored c).2, descriptors]

end LoadableImage

/-! ## what the payloads spell -/

/- The payloads are those `acceptsLoad` decodes to the operations meant. -/

section encoded

variable {request : Request}

/-- The Begin spells the image's lengths and CRC. -/
theorem encoded_beginPayload {image : LoadableImage} (h : request.bytes = image.beginPayload) :
    encodedOperation request =
      some (.begin image.bytecodeLen image.mapCount image.crc) := by
  have hlen : u16FromLeBytes (UInt8.ofNat image.bytecodeLen.toNat)
      (UInt8.ofNat (image.bytecodeLen.toNat / 256)) = image.bytecodeLen := by
    apply u16_toLe_inj
    rw [toLe_u16FromLeBytes]
    rfl
  have hcrc : u32FromLeBytes (UInt8.ofNat image.crc.toNat) (UInt8.ofNat (image.crc.toNat / 256))
      (UInt8.ofNat (image.crc.toNat / 256 / 256))
      (UInt8.ofNat (image.crc.toNat / 256 / 256 / 256)) = image.crc := by
    apply u32_toLe_inj
    rw [toLe_u32FromLeBytes]
    rfl
  simp only [encodedOperation, h, LoadableImage.beginPayload, toLe, List.cons_append,
    List.nil_append, if_true, hlen, hcrc]

/-- A Data spells its offset and its fragment. -/
theorem encoded_dataPayload {offset : Nat} {fragment : List UInt8} (hoffset : offset < 2 ^ 16)
    (hfragment : (2 ≤ fragment.length ∧ fragment.length ≤ 12) ∧ fragment.length % 2 = 0)
    (h : request.bytes = 1 :: toLe 2 offset ++ fragment) :
    encodedOperation request =
      some (.data (UInt16.ofNat offset) (copySlice (Vector.replicate _ 0) 0 fragment)
        (UInt8.ofNat fragment.length)) := by
  have hword : u16FromLeBytes (UInt8.ofNat offset) (UInt8.ofNat (offset / 256)) =
      UInt16.ofNat offset := by
    apply u16_toLe_inj
    rw [toLe_u16FromLeBytes, UInt16.toNat_ofNat_of_lt' hoffset]
    rfl
  have h₁₀ : ¬ (1 : UInt8) = 0 := by decide
  simp only [encodedOperation, h, toLe, List.cons_append, List.nil_append, if_neg h₁₀, if_true,
    if_pos hfragment, hword]

/-- The Finalize spells itself. -/
theorem encoded_finalizePayload (h : request.bytes = [2]) :
    encodedOperation request = some .finalize := by
  have h₂₀ : ¬ (2 : UInt8) = 0 := by decide
  have h₂₁ : ¬ (2 : UInt8) = 1 := by decide
  simp only [encodedOperation, h, if_neg h₂₀, if_neg h₂₁, if_true]

end encoded

/-! ## one Load -/

/- A request that is accepted, and the main loop's turn after it. -/

namespace Device

/-- Each request executed before the next. -/
def loadEach (requests : List Request) (execute : HostExecutor) : List Event :=
  requests.flatMap fun request => [.request request execute, .executePending]

/-- The statuses an event is answered with. -/
def answered {F : Type} (d : Device F) : Event → List (Option UInt8)
  | .request request execute => [d.status request execute]
  | .executePending => []

/-- The statuses along a run. -/
def statuses {F : Type} [BpfFlash F] (d : Device F) (es : List Event) : List (Option UInt8) :=
  Machine.trace step answered d es

/-- A device that a Load can be sent to. -/
structure Loads (d : Device Chip) : Prop where
  sane : d.loader.Sane
  pending : d.loader.pending = none
  running : d.loader.state.isRunning = false
  flash : d.flash.Reliable

variable {d : Device Chip} {request : Request} {payload : List UInt8}
  {operation : LoadOperation}

/-- **One Load.** On a chip that does not fail, a Load that the loader accepts
is answered `STATUS_OK` and then executed. -/
theorem load_step (h : d.Loads) (hload : IsLoad request payload)
    (hencoded : encodedOperation request = some operation)
    (haccepts : d.loader.Accepts operation) (execute : HostExecutor) :
    let d' := d.run (loadEach [request] execute)
    d.statuses (loadEach [request] execute) = [some statusOk] ∧
      d'.loader.Sane ∧ d'.loader.pending = none ∧ d'.flash.Reliable ∧
      ∃ ops, (∀ p ∈ ops, p.2 = .done) ∧ d'.flash.contents = replay d.flash.contents ops ∧
        BpfLoader.Executed d.loader d.flash.contents operation d'.loader ops := by
  intro d'
  have hop := BpfLoader.loadOperation_of_encoded h.pending h.running haccepts hencoded
  have hstatus : d.status request execute = some statusOk := by
    rw [status_load d execute hload.flags hload.command, hop]
  have hdispatched : (d.step (.request request execute)).loader =
      { d.loader with pending := some operation } := by
    show (dispatchWithBpfAndExecutor request (recording execute) d.toDispatchState).2.loader = _
    rw [dispatch_load _ _ hload.flags hload.command, dispatchLoad, BpfLoader.acceptsLoad, hop,
      respond_loader]
  have hsane := sane_step h.sane (.request request execute)
  obtain ⟨ops, hissued, hexecuted⟩ :=
    executePending_chip hsane (by rw [hdispatched] : _ = some operation)
  have hself : ({ (d.step (.request request execute)).loader with pending := none } : BpfLoader) =
      d.loader := by
    rw [hdispatched, ← h.pending]
  obtain ⟨hreliable, hdone⟩ := h.flash.issued hissued
  rw [hself] at hexecuted
  refine ⟨?_, sane_step hsane .executePending, BpfLoader.executePending_pending, hreliable, ops,
    hdone, hissued.contents, hexecuted⟩
  show [d.status request execute] ++ ([] ++ []) = _
  rw [hstatus]
  rfl

/-! ## a whole transfer -/

/- `Receives` is the invariant: so many bytes have been received, and loader and
flash are what they make them. -/

/-- The device has received these bytes of an image; `c` is what flash held
before. -/
structure Receives (image : LoadableImage) (c : Contents) (received : List UInt8)
    (d : Device Chip) : Prop where
  loads : d.Loads
  loader : d.loader = image.receiving received
  contents : d.flash.contents = image.stored c received

variable {image : LoadableImage} {c : Contents} {received : List UInt8}

variable (image) in
/-- Begin. -/
theorem begin_received (h : d.Loads) (hload : IsLoad request image.beginPayload)
    (execute : HostExecutor) :
    d.statuses (loadEach [request] execute) = [some statusOk] ∧
      Receives image d.flash.contents [] (d.run (loadEach [request] execute)) := by
  obtain ⟨hstatus, hsane, hpending, hreliable, ops, hdone, hcontents, hexecuted⟩ :=
    load_step h hload (encoded_beginPayload hload.payload)
      ⟨_, imageLen_eq _ _, not_bad_of_goodBounds image.bounds⟩ execute
  generalize d.run (loadEach [request] execute) = d' at *
  refine ⟨hstatus, ?_⟩
  obtain ⟨loader, hloader⟩ : ∃ loader, loader = d'.loader := ⟨_, rfl⟩
  rw [← hloader] at hexecuted
  cases hexecuted with
  | eraseFailed | headerFailed => simp at hdone
  | received hbounds =>
      have hreceiving : d'.loader = image.receiving [] := by
        rw [← hloader]
        simp only [LoadableImage.receiving, image.length, BpfLoader.clearMapLayouts, h.pending]
        rfl
      refine ⟨⟨hsane, hpending, by rw [hreceiving]; rfl, hreliable⟩, hreceiving, ?_⟩
      rw [hcontents, LoadableImage.stored, apply_program_nil, LoadableImage.prepared]

/-- Data. -/
theorem data_received (h : Receives image c received d) {fragment : List UInt8}
    (hfragment : (2 ≤ fragment.length ∧ fragment.length ≤ 12) ∧ fragment.length % 2 = 0)
    (hfit : received.length + fragment.length ≤ image.bytes.length)
    (hload : IsLoad request (1 :: toLe 2 received.length ++ fragment)) (execute : HostExecutor) :
    d.statuses (loadEach [request] execute) = [some statusOk] ∧
      Receives image c (received ++ fragment) (d.run (loadEach [request] execute)) := by
  have hbound := image.length_lt
  have hoffset : (UInt16.ofNat received.length).toNat = received.length :=
    UInt16.toNat_ofNat_of_lt' (by show _ < 2 ^ 16; omega)
  have hlength : (UInt16.ofNat image.bytes.length).toNat = image.bytes.length :=
    UInt16.toNat_ofNat_of_lt' hbound
  have hlen : (UInt8.ofNat fragment.length).toNat = fragment.length :=
    UInt8.toNat_ofNat_of_lt' (by show _ < 256; omega)
  have haccepts : d.loader.Accepts (.data (UInt16.ofNat received.length)
      (copySlice (Vector.replicate _ 0) 0 fragment) (UInt8.ofNat fragment.length)) := by
    rw [h.loader]
    refine ⟨rfl, rfl, by rw [hlen]; exact hfragment.1, by rw [hlen]; exact hfragment.2, ?_⟩
    show (UInt16.ofNat received.length).toNat + _ ≤ (UInt16.ofNat image.bytes.length).toNat
    rw [hoffset, hlength, hlen]
    exact hfit
  have hbytes : (copySlice (Vector.replicate 12 (0 : UInt8)) 0 fragment).toList.take
      (UInt8.ofNat fragment.length).toNat = fragment := by
    rw [hlen]
    exact take_copySlice_zero _ _ hfragment.1.2
  obtain ⟨hstatus, hsane, hpending, hreliable, ops, hdone, hcontents, hexecuted⟩ :=
    load_step h.loads hload (encoded_dataPayload (by omega) hfragment hload.payload) haccepts
      execute
  generalize d.run (loadEach [request] execute) = d' at *
  refine ⟨hstatus, ?_⟩
  obtain ⟨loader, hloader⟩ : ∃ loader, loader = d'.loader := ⟨_, rfl⟩
  rw [← hloader] at hexecuted
  cases hexecuted with
  | writeFailed => simp at hdone
  | stored =>
      have hreceiving : d'.loader = image.receiving (received ++ fragment) := by
        rw [← hloader, h.loader, hbytes]
        -- the sixteen-bit offset does not wrap, for the image fits the flash
        have hnext : UInt16.ofNat received.length + (UInt8.ofNat fragment.length).toUInt16 =
            UInt16.ofNat (received ++ fragment).length := by
          apply UInt16.toNat_inj.mp
          rw [UInt16.toNat_add, UInt8.toNat_toUInt16, hoffset, hlen, UInt16.toNat_ofNat',
            List.length_append]
        simp only [LoadableImage.receiving, hnext, crc32Update_append]
      refine ⟨⟨hsane, hpending, by rw [hreceiving]; rfl, hreliable⟩, hreceiving, ?_⟩
      rw [hcontents, replay_cons, replay_nil, h.contents, hbytes, hoffset, LoadableImage.stored,
        LoadableImage.stored]
      exact apply_program_append ..

/-- Every Data of a cut. -/
theorem data_all_received {fragments : List (List UInt8)} (h : Receives image c received d)
    (hfragments : ∀ fragment ∈ fragments,
      (2 ≤ fragment.length ∧ fragment.length ≤ 12) ∧ fragment.length % 2 = 0)
    (hfit : received.length + fragments.flatten.length ≤ image.bytes.length)
    {requests : List Request}
    (hrequests : List.Forall₂ IsLoad requests (dataPayloads received.length fragments))
    (execute : HostExecutor) :
    (∀ status ∈ d.statuses (loadEach requests execute), status = some statusOk) ∧
      Receives image c (received ++ fragments.flatten) (d.run (loadEach requests execute)) := by
  -- each fragment extends what has been received, which the next one finds
  induction fragments generalizing received d requests with
  | nil =>
      cases hrequests
      refine ⟨by simp [loadEach, statuses], ?_⟩
      rw [List.flatten_nil, List.append_nil]
      exact h
  | cons fragment fragments ih =>
      rw [dataPayloads] at hrequests
      cases hrequests with
      | @cons request _ requests _ hload hrequests =>
          rw [List.forall_mem_cons] at hfragments
          rw [List.flatten_cons, List.length_append] at hfit
          obtain ⟨hstatus, hreceives⟩ :=
            data_received h hfragments.1 (by omega) hload execute
          have hsplit : loadEach (request :: requests) execute =
              loadEach [request] execute ++ loadEach requests execute := by
            simp [loadEach]
          rw [← List.length_append] at hrequests
          obtain ⟨hstatuses, hall⟩ := ih hreceives hfragments.2
            (by rw [List.length_append]; omega) hrequests
          rw [hsplit]
          constructor
          · intro status hmem
            rw [statuses, Machine.trace_append, List.mem_append] at hmem
            cases hmem with
            | inl hhere =>
                rw [show Machine.trace step answered d (loadEach [request] execute) = _
                  from hstatus] at hhere
                exact List.mem_singleton.mp hhere
            | inr hlater => exact hstatuses status hlater
          · rw [run_append, List.flatten_cons, ← List.append_assoc]
            exact hall

/-- Finalize. -/
theorem finalize_committed (h : Receives image c image.bytes d) (hload : IsLoad request [2])
    (execute : HostExecutor) :
    d.statuses (loadEach [request] execute) = [some statusOk] ∧
      (d.run (loadEach [request] execute)).loader = image.committed ∧
      (d.run (loadEach [request] execute)).flash.contents =
        apply (image.stored c image.bytes) (.program markerAddress [0, 0], .done) := by
  have haccepts : d.loader.Accepts .finalize := by
    rw [h.loader]
    exact ⟨rfl, rfl⟩
  obtain ⟨hstatus, -, -, -, ops, hdone, hcontents, hexecuted⟩ :=
    load_step h.loads hload (encoded_finalizePayload hload.payload) haccepts execute
  generalize d.run (loadEach [request] execute) = d' at *
  refine ⟨hstatus, ?_⟩
  have hcrc : crc32Finish d.loader.crc = d.loader.expectedCrc := by
    rw [h.loader]
    rfl
  have hdescriptors : descriptorsAt d.flash.contents d.loader.bytecodeLen d.loader.mapCount =
      image.descriptors := by
    rw [h.loader, h.contents]
    exact image.descriptorsAt_stored c
  obtain ⟨loader, hloader⟩ : ∃ loader, loader = d'.loader := ⟨_, rfl⟩
  rw [← hloader] at hexecuted
  cases hexecuted with
  | badCrc hbad => exact absurd hcrc hbad
  | badMaps _ _ hbad =>
      cases hbad with
      | inl hfailed =>
          obtain ⟨p, hp, hne⟩ := hfailed
          exact absurd (hdone p hp) hne
      | inr hinvalid =>
          rw [hdescriptors] at hinvalid
          exact absurd image.maps hinvalid
  | markerFailed =>
      have hfailed := hdone _ (List.mem_append_right _ (List.mem_singleton_self _))
      contradiction
  | committed _ hreads hreadsDone _ =>
      constructor
      · rw [← hloader, hdescriptors, h.loader]
        rfl
      · rw [hcontents, replay_append, replay_readsWithin _ hreads hreadsDone, h.contents]
        rfl

/-! ## any cut -/

/- The induction over the fragments, and the theorem. -/

/-- The device holds the committed image, in the loader and in flash. -/
structure HoldsImage (image : LoadableImage) (d : Device Chip) : Prop where
  state : d.loader.state = .committed (crc32IsoHdlc image.bytes)
  pending : d.loader.pending = none
  layouts : d.loader.mapLayouts = layoutVector image.descriptors
  count : d.loader.committedMapCount = image.mapCount
  bytecodeLen : d.loader.bytecodeLen = image.bytecodeLen
  header : bytesAt d.flash.contents headerAddress 16 =
    headerBytes image.bytecodeLen image.mapCount (crc32IsoHdlc image.bytes) [0, 0]
  bytes : bytesAt d.flash.contents imageAddress image.bytes.length = image.bytes

/-- What matches two lists in a row is two lists in a row. -/
theorem forall₂_append_right {α β : Type} {R : α → β → Prop} {xs : List α} {ys zs : List β}
    (h : List.Forall₂ R xs (ys ++ zs)) :
    ∃ xs₁ xs₂, xs = xs₁ ++ xs₂ ∧ List.Forall₂ R xs₁ ys ∧ List.Forall₂ R xs₂ zs :=
  ⟨_, _, (List.take_append_drop ys.length xs).symm, List.forall₂_take_append _ _ _ h,
    List.forall₂_drop_append _ _ _ h⟩

/-- A whole transfer, cut anyhow. -/
theorem transfer_committed (h : d.Loads) {fragments : List (List UInt8)}
    (hsplit : Splits fragments image.bytes) {requests : List Request}
    (hrequests : List.Forall₂ IsLoad requests (image.payloads fragments))
    (execute : HostExecutor) :
    (∀ status ∈ d.statuses (loadEach requests execute), status = some statusOk) ∧
      (d.run (loadEach requests execute)).loader = image.committed ∧
      (d.run (loadEach requests execute)).flash.contents =
        apply (image.stored d.flash.contents image.bytes)
          (.program markerAddress [0, 0], .done) := by
  rw [LoadableImage.payloads] at hrequests
  cases hrequests with
  | @cons first _ requests _ hfirst hrequests =>
      obtain ⟨middle, rest, rfl, hmiddle, hlast⟩ := forall₂_append_right hrequests
      cases hlast with
      | @cons last _ nothing _ hlast hnothing =>
          cases hnothing
          have hevents : loadEach (first :: (middle ++ [last])) execute =
              loadEach [first] execute ++ (loadEach middle execute ++ loadEach [last] execute) := by
            simp [loadEach]
          obtain ⟨hstatus, hbegun⟩ := begin_received image h hfirst execute
          obtain ⟨hstatuses, hreceived⟩ := data_all_received hbegun hsplit.fragment
            (by rw [hsplit.flatten]; simp) hmiddle execute
          rw [hsplit.flatten, List.nil_append] at hreceived
          obtain ⟨hstatus', hloader, hcontents⟩ := finalize_committed hreceived hlast execute
          rw [hevents]
          refine ⟨fun status hmem => ?_, ?_, ?_⟩
          · simp only [statuses, Machine.trace_append, List.mem_append] at hmem
            rcases hmem with hhere | hlater | hfinal
            · rw [show Machine.trace step answered d (loadEach [first] execute) = _
                from hstatus] at hhere
              exact List.mem_singleton.mp hhere
            · exact hstatuses status hlater
            · have hfinal : status ∈ Device.statuses _ (loadEach [last] execute) := hfinal
              exact List.mem_singleton.mp (hstatus' ▸ hfinal)
          · rw [run_append, run_append, hloader]
          · rw [run_append, run_append, hcontents]

/-- What a transfer leaves is the image. -/
theorem holds_of_transfer {d' : Device Chip} (hloader : d'.loader = image.committed)
    (hcontents : d'.flash.contents =
      apply (image.stored c image.bytes) (.program markerAddress [0, 0], .done)) :
    HoldsImage image d' := by
  obtain ⟨hheader, hbytes⟩ := image.bytesAt_stored c
  refine ⟨by rw [hloader]; rfl, by rw [hloader]; rfl, by rw [hloader]; rfl, by rw [hloader]; rfl,
    by rw [hloader]; rfl, ?_, ?_⟩
  · rw [hcontents]
    exact bytesAt_marker hheader
  · rw [hcontents]
    exact (bytesAt_congr fun x hx _ => marker_image x hx .done).trans hbytes

/-- **Any cut.** From any reachable loader that is not Running and has nothing
pending, over any contents of a chip that does not fail: every request of a
transfer is accepted, the image is committed with its CRC and its layouts, and
another cut of it leaves the same loader and the same flash. -/
theorem load_any_split {F : Type} [BpfFlash F] (statusQueue : StatusQueue)
    (mapBacking : MapBacking) (output : Output) (flash : F) (es : List Event) (d : Device Chip)
    (hloader : d.loader = ((boot statusQueue mapBacking output flash).run es).loader)
    (hpending : d.loader.pending = none) (hrunning : d.loader.state.isRunning = false)
    (hflash : d.flash.Reliable) (image : LoadableImage) (fragments : List (List UInt8))
    (hsplit : Splits fragments image.bytes) (requests : List Request)
    (hrequests : List.Forall₂ IsLoad requests (image.payloads fragments))
    (execute : HostExecutor) :
    let d' := d.run (loadEach requests execute)
    (∀ status ∈ d.statuses (loadEach requests execute), status = some statusOk) ∧
      HoldsImage image d' ∧
      ∀ fragments' requests' execute', Splits fragments' image.bytes →
        List.Forall₂ IsLoad requests' (image.payloads fragments') →
          (d.run (loadEach requests' execute')).loader = d'.loader ∧
            (d.run (loadEach requests' execute')).flash.contents = d'.flash.contents := by
  intro d'
  have hloads : d.Loads :=
    ⟨hloader ▸ (kept_sane F).device_run statusQueue mapBacking output flash es, hpending, hrunning,
      hflash⟩
  obtain ⟨hstatuses, hcommitted, hcontents⟩ := transfer_committed hloads hsplit hrequests execute
  refine ⟨hstatuses, holds_of_transfer hcommitted hcontents, ?_⟩
  intro fragments' requests' execute' hsplit' hrequests'
  obtain ⟨-, hcommitted', hcontents'⟩ := transfer_committed hloads hsplit' hrequests' execute'
  exact ⟨hcommitted'.trans hcommitted.symm, hcontents'.trans hcontents.symm⟩

/-- `exit` with one array map. -/
def arrayLoadable : LoadableImage where
  bytecodeLen := 8
  mapCount := 1
  bytes := arrayImage
  bounds := ⟨by decide, by decide, by decide, by decide⟩
  length := by decide
  maps := by decide

/-- It is loaded in fragments of 2, 10 and 12 bytes. -/
theorem load_any_split_array :
    HoldsImage arrayLoadable (erased.run (loadEach ((arrayLoadable.payloads [arrayImage.take 2,
      (arrayImage.drop 2).take 10, arrayImage.drop 12]).map (Request.ofPayload cmdLoadBpf 0))
        (returning 0))) := by
  have hrequests : List.Forall₂ IsLoad ((arrayLoadable.payloads [arrayImage.take 2,
      (arrayImage.drop 2).take 10, arrayImage.drop 12]).map (Request.ofPayload cmdLoadBpf 0))
      (arrayLoadable.payloads [arrayImage.take 2, (arrayImage.drop 2).take 10,
        arrayImage.drop 12]) := by
    rw [List.forall₂_map_left_iff, List.forall₂_same]
    intro payload hpayload
    refine ⟨rfl, rfl, ?_⟩
    revert payload
    decide +kernel
  exact (load_any_split .ready (Vector.replicate _ 0) (Vector.replicate _ 0)
    (Chip.fresh (fun _ => 0xff) fun _ => .done) [] erased rfl (by decide +kernel)
    (by decide +kernel) (fun _ _ => rfl) arrayLoadable _ ⟨by decide, by decide⟩ _ hrequests
    (returning 0)).2.1

end Device

end OptiBridge
