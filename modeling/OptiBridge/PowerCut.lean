import OptiBridge.Commit

/-!
# OptiBridge.PowerCut

Power may go at any flash call.  What the next boot adopts is the last commit
if nothing has been erased since, and nothing otherwise: the streaming finalize
and the boot validator, written separately, agree on every image and at every
cut.

A cut is a prefix of the calls that a run made of the chip, and every prefix is
considered, also those that end within an event.  Beside the operations the trace
carries the program that the loader took a marker to commit, so that "the last
commit" can be read off it.

* `rebooted_cases`, what boot makes of any contents;
* `holdsAlways_executed`, one operation, cut anywhere;
* `power_cut`, a run, cut anywhere.
-/

namespace OptiBridge

open Nor

/-- A program the loader has: its CRC and its metadata. -/
structure Program where
  crc : UInt32
  metadata : BpfProgramMetadata

/-- The loader's program, if it has one. -/
def BpfLoader.program (l : BpfLoader) : Option Program :=
  match l.state with
  | .committed crc | .running crc => some ⟨crc, l.committedMetadata⟩
  | .empty | .receiving | .failed _ => none

/-- The loader a boot over `c` leaves. -/
def rebooted (c : Contents) : BpfLoader :=
  (BpfLoader.new.validateCommitted (Chip.fresh c fun _ => .done)).1

/-- A rebooted loader has exactly this program. -/
def Rebooted (c : Contents) : Option Program → Prop
  | some program =>
      (rebooted c).state = .committed program.crc ∧
        (rebooted c).committedMetadata = program.metadata
  | none => (rebooted c).state = .empty

/-! ## what a reboot finds -/

/- What boot adopts is a function of the contents: a program, if flash holds
one. -/

/-- Flash determines the program. -/
theorem Adopted.unique {l l' : BpfLoader} {c : Contents} {crc crc' : UInt32}
    (h : Adopted l c crc) (h' : Adopted l' c crc') :
    crc = crc' ∧ l.committedMetadata = l'.committedMetadata := by
  obtain ⟨hbytecode, hmaps, hcrc⟩ := h.image.unique h'.image
  have hlayouts : l.mapLayouts = l'.mapLayouts := by
    rw [h.layouts, h'.layouts, hbytecode, hmaps]
  have hcount : l.committedMapCount = l'.committedMapCount := by
    rw [h.count, h'.count, hmaps]
  refine ⟨hcrc, ?_⟩
  simp only [BpfLoader.committedMetadata, hbytecode, hlayouts, hcount]

/-- A boot that reads everything ends in one of two ways. -/
theorem rebooted_cases (c : Contents) :
    (∃ crc, (rebooted c).state = .committed crc ∧ Adopted (rebooted c) c crc) ∨
      ((rebooted c).state = .empty ∧
        ∀ bytecodeLen mapCount crc, ¬ CommittedImage c bytecodeLen mapCount crc) := by
  obtain ⟨reads, hissued, -, hvalidated⟩ :=
    BpfLoader.new.validateCommitted_chip (Chip.fresh c fun _ => .done)
  have hfound := hvalidated.found fun p hp => (hissued.mem hp).elim fun _ hi => hi
  unfold rebooted
  generalize (BpfLoader.new.validateCommitted (Chip.fresh c fun _ => .done)).1 = l at hfound ⊢
  cases hfound with
  | nothing hnone => exact .inr ⟨rfl, hnone⟩
  | program himage => exact .inl ⟨_, rfl, himage, rfl, rfl⟩

/-- Flash holds this program, or no committed image at all. -/
def Holds (c : Contents) : Option Program → Prop
  | some program => ∃ l, Adopted l c program.crc ∧ l.committedMetadata = program.metadata
  | none => ∀ bytecodeLen mapCount crc, ¬ CommittedImage c bytecodeLen mapCount crc

/-- **Boot agreement.** A reboot finds what flash holds. -/
theorem Holds.rebooted {c : Contents} {program : Option Program} (h : Holds c program) :
    Rebooted c program := by
  rcases rebooted_cases c with ⟨crc, hstate, hadopted⟩ | ⟨hstate, hnone⟩
  · cases program with
    | none => exact absurd hadopted.image (h _ _ _)
    | some program =>
        obtain ⟨l, hl, hmetadata⟩ := h
        obtain ⟨hcrc, hsame⟩ := hadopted.unique hl
        exact ⟨hcrc ▸ hstate, hsame.trans hmetadata⟩
  · cases program with
    | none => exact hstate
    | some program =>
        obtain ⟨l, hl, -⟩ := h
        exact absurd hl.image (hnone _ _ _)

/-- An erased or unwritten marker is no commit. -/
theorem not_committed_of_marker {c : Contents} (h : c markerAddress = 0xff) :
    Holds c none := fun bytecodeLen mapCount crc himage => by
  obtain ⟨-, hmarker, -⟩ := bytesAt_header.mp himage.header
  have hzero := eq_of_bytesAt_eq (d := fun _ => 0) (i := 0) hmarker (by decide)
  rw [Nat.add_zero, h] at hzero
  contradiction

/-- While an image is received its marker is erased. -/
theorem Stored.marker {l : BpfLoader} {c : Contents} {image : List UInt8}
    (h : Stored l c image) : c markerAddress = 0xff := by
  obtain ⟨-, hmarker, -⟩ := bytesAt_header.mp h.header
  exact eq_of_bytesAt_eq (d := fun _ => 0xff) (i := 0) hmarker (by decide)

/-! ## the last commit -/

/- Going through the calls one by one, with the program that was committed last
and has not been erased since. -/

/-- A flash call, and the program the loader has after the event it is part of. -/
abbrev FlashCall := (Op × Outcome) × Option Program

/-- The last commit after one more flash call: a successful erase takes it away,
a successful marker write commits what the loader then has. -/
def recordCall (last : Option Program) : FlashCall → Option Program
  | ((.erase _ _, .done), _) => none
  | ((.program offset _, .done), program) => if offset = markerAddress then program else last
  | _ => last

/-- Contents and last commit, after one more flash call. -/
def cutStep (s : Contents × Option Program) (call : FlashCall) : Contents × Option Program :=
  (apply s.1 call.1, recordCall s.2 call)

/-- Contents and last commit after a list of calls. -/
theorem run_cutStep (c : Contents) (last : Option Program) (calls : List FlashCall) :
    Machine.run cutStep (c, last) calls =
      (replay c (calls.map Prod.fst), calls.foldl recordCall last) := by
  induction calls generalizing c last with
  | nil => rfl
  | cons call calls ih => exact ih _ _

/-- Wherever the calls are cut, flash holds the last commit. -/
abbrev HoldsAlways (c : Contents) (last : Option Program) (calls : List FlashCall) : Prop :=
  Machine.Always cutStep (fun s => Holds s.1 s.2) (c, last) calls

section calls

variable {c : Contents} {last : Option Program}

/-- Calls that change neither contents nor commit lead nowhere. -/
theorem run_cutStep_idle {calls : List FlashCall}
    (hcalls : ∀ call ∈ calls, apply c call.1 = c ∧ recordCall last call = last) :
    Machine.run cutStep (c, last) calls = (c, last) := by
  induction calls with
  | nil => rfl
  | cons call calls ih =>
      obtain ⟨hcontents, hlast⟩ := hcalls call (List.mem_cons_self ..)
      rw [Machine.run_cons, cutStep, hcontents, hlast]
      exact ih fun call' hcall => hcalls call' (List.mem_cons_of_mem _ hcall)

/-- Calls that change neither keep what holds. -/
theorem holdsAlways_idle {calls : List FlashCall} (h : Holds c last)
    (hcalls : ∀ call ∈ calls, apply c call.1 = c ∧ recordCall last call = last) :
    HoldsAlways c last calls := fun cut hcut => by
  rw [run_cutStep_idle fun call hcall => hcalls call (hcut.subset hcall)]
  exact h

/-- A call that fails commits nothing. -/
theorem recordCall_failed (op : Op) (residue : Nat → UInt8 → UInt8) (program : Option Program) :
    recordCall last ((op, .failed residue), program) = last := by
  cases op <;> rfl

/-- A failed call, when failures are clean. -/
theorem idle_failed {op : Op} {residue : Nat → UInt8 → UInt8} (program : Option Program)
    (hclean : (Outcome.failed residue).Clean) :
    apply c (op, .failed residue) = c ∧
      recordCall last ((op, .failed residue), program) = last :=
  ⟨apply_clean c op hclean, recordCall_failed op residue program⟩

/-- A read, when failures are clean. -/
theorem idle_read {p : Op × Outcome} {start stop : Nat} (program : Option Program)
    (hread : ReadWithin start stop p) (hclean : p.2.Clean) :
    apply c p = c ∧ recordCall last (p, program) = last := by
  obtain ⟨op, outcome⟩ := p
  obtain ⟨offset, len, rfl, -⟩ := hread
  cases outcome with
  | done => exact ⟨rfl, rfl⟩
  | failed residue => exact idle_failed program hclean

/-- Begin's erase takes the commit away. -/
theorem holds_erased (c : Contents) (bytecodeLen : UInt16) (mapCount : UInt8) :
    Holds (apply c (.erase headerAddress (eraseStop bytecodeLen mapCount), .done)) none := by
  refine not_committed_of_marker (apply_erase_of_mem c (by decide) ?_)
  unfold eraseStop
  split_ifs <;> decide

/-- While the marker is erased there is no commit. -/
theorem Holds.eq_none (h : Holds c last) (hmarker : c markerAddress = 0xff) : last = none := by
  cases last with
  | none => rfl
  | some program =>
      obtain ⟨l, hl, -⟩ := h
      exact absurd hl.image (not_committed_of_marker hmarker _ _ _)

end calls

/-- **Cut step.** At every call of a deferred operation, flash holds the last
commit. -/
theorem holdsAlways_executed {self l : BpfLoader} {c : Contents} {t : Option Transfer}
    {operation : LoadOperation} {ops : List (Op × Outcome)} {last : Option Program}
    (h : Mirrors self c t) (hsane : self.Sane) (haccepts : self.Accepts operation)
    (hclean : ∀ p ∈ ops, p.2.Clean) (hholds : Holds c last)
    (hexecuted : self.Executed c operation l ops) :
    HoldsAlways c last (ops.map fun p => (p, l.program)) := by
  have hmirrors := h.executed hsane haccepts hexecuted
  cases hexecuted with
  | eraseFailed =>
      refine holdsAlways_idle hholds ?_
      simp only [List.map_cons, List.map_nil, List.mem_singleton, forall_eq]
      exact idle_failed _ (hclean _ (List.mem_singleton_self _))
  -- the erase is what takes the last commit away
  | @headerFailed bytecodeLen mapCount expectedCrc residue hbounds =>
      refine .cons hholds (holdsAlways_idle (holds_erased c bytecodeLen mapCount) ?_)
      simp only [List.map_cons, List.map_nil, List.mem_singleton, forall_eq]
      exact idle_failed _ (hclean _ (List.mem_cons_of_mem _ (List.mem_singleton_self _)))
  | @received bytecodeLen mapCount expectedCrc hbounds =>
      obtain ⟨image, -, hstored⟩ := hmirrors.receiving rfl
      have herased := holds_erased c bytecodeLen mapCount
      exact .cons hholds (.cons herased (.nil (not_committed_of_marker hstored.marker)))
  | writeFailed =>
      refine holdsAlways_idle hholds ?_
      simp only [List.map_cons, List.map_nil, List.mem_singleton, forall_eq]
      exact idle_failed _ (hclean _ (List.mem_singleton_self _))
  | @stored offset bytes len =>
      obtain ⟨image, -, hstored⟩ := h.receiving haccepts.1
      obtain ⟨image', -, hstored'⟩ := hmirrors.receiving haccepts.1
      -- while an image is received nothing is committed, for the marker is erased
      obtain rfl := hholds.eq_none hstored.marker
      have hpast : imageAddress + offset.toNat ≠ markerAddress :=
        Nat.ne_of_gt (Nat.lt_of_lt_of_le (by decide) (Nat.le_add_right imageAddress _))
      refine .cons hholds (.nil ?_)
      simp only [cutStep, recordCall, if_neg hpast]
      exact not_committed_of_marker hstored'.marker
  | badCrc => exact .nil hholds
  | badMaps _ hreads =>
      refine holdsAlways_idle hholds ?_
      simp only [List.mem_map, forall_exists_index, and_imp, forall_apply_eq_imp_iff₂]
      exact fun p hp => idle_read _ (hreads p hp) (hclean p hp)
  | markerFailed _ hreads =>
      refine holdsAlways_idle hholds ?_
      simp only [List.mem_map, forall_exists_index, and_imp, forall_apply_eq_imp_iff₂]
      intro p hp
      cases List.mem_append.mp hp with
      | inl hread => exact idle_read _ (hreads p hread) (hclean p hp)
      | inr hmarker =>
          rw [List.mem_singleton] at hmarker
          subst hmarker
          exact idle_failed _ (hclean _ hp)
  -- nothing changes up to the marker; after it flash holds what the loader adopted
  | @committed reads hcrc hreads hdone hvalid =>
      have hidle : ∀ program, ∀ call ∈ reads.map fun p => (p, program),
          apply c call.1 = c ∧ recordCall last call = last := by
        simp only [List.mem_map, forall_exists_index, and_imp, forall_apply_eq_imp_iff₂]
        exact fun program p hp => idle_read _ (hreads p hp) (hclean p (List.mem_append_left _ hp))
      have hadopted := hmirrors.program _ (.inl rfl)
      rw [replay_append, replay_readsWithin _ hreads hdone] at hadopted
      rw [List.map_append]
      refine .append (holdsAlways_idle hholds (hidle _)) ?_
      rw [run_cutStep_idle (hidle _)]
      exact .cons hholds (.nil ⟨_, hadopted, rfl⟩)

/-- The marker write that succeeds is the one that commits. -/
theorem executed_marker {self l : BpfLoader} {c : Contents} {operation : LoadOperation}
    {ops : List (Op × Outcome)} {bytes : List UInt8}
    (hexecuted : self.Executed c operation l ops)
    (hmarker : (.program markerAddress bytes, .done) ∈ ops) : l.program.isSome := by
  cases hexecuted with
  | eraseFailed => simp at hmarker
  | headerFailed => simp at hmarker
  | received => simp [headerAddress, markerAddress] at hmarker
  | writeFailed => simp at hmarker
  | @stored offset bytes' len =>
      rw [List.mem_singleton, Prod.mk.injEq, Op.program.injEq] at hmarker
      have hpast : markerAddress < imageAddress + offset.toNat :=
        Nat.lt_of_lt_of_le (by decide) (Nat.le_add_right imageAddress _)
      exact absurd hmarker.1.1 (Nat.ne_of_lt hpast)
  | badCrc => simp at hmarker
  | badMaps _ hreads =>
      obtain ⟨offset, len, hop, -⟩ := hreads _ hmarker
      contradiction
  | markerFailed _ hreads =>
      simp only [List.mem_append, List.mem_singleton, Prod.mk.injEq, reduceCtorEq, and_false,
        or_false] at hmarker
      obtain ⟨offset, len, hop, -⟩ := hreads _ hmarker
      contradiction
  | committed => rfl

/-! ## whole runs -/

/- The trace of a run, and the invariant that at each of its prefixes boot would
find the last commit. -/

namespace Device

/-- The flash calls of an event. -/
def flashCalls (d : Device Chip) (e : Event) : List FlashCall :=
  (d.issues e).map fun p => (p, (d.step e).loader.program)

/-- Only a Finalize programs the marker, and it commits a program. -/
theorem flashCalls_marker {d : Device Chip} (hsane : d.loader.Sane) {e : Event}
    {call : FlashCall} (hcall : call ∈ d.flashCalls e)
    (hmarker : ∃ bytes, call.1 = (.program markerAddress bytes, .done)) : call.2.isSome := by
  obtain ⟨bytes, hbytes⟩ := hmarker
  obtain ⟨p, hp, rfl⟩ := List.mem_map.mp hcall
  rw [show p = _ from hbytes] at hp
  cases e with
  | request request execute =>
      rw [issues_of_issued (d.issued_request request execute)] at hp
      contradiction
  | executePending =>
      cases hpending : d.loader.pending with
      | none =>
          rw [issues_of_none hpending] at hp
          contradiction
      | some operation =>
          obtain ⟨ops, hissued, hexecuted⟩ := executePending_chip hsane hpending
          rw [issues_of_issued (e := .executePending) hissued] at hp
          exact executed_marker hexecuted hp

/-- Every flash call along a run, in order. -/
def flashTrace (d : Device Chip) (es : List Event) : List FlashCall :=
  Machine.trace step flashCalls d es

/-- The operations of the trace are those the run issued. -/
theorem map_flashTrace (d : Device Chip) (es : List Event) :
    (d.flashTrace es).map Prod.fst = d.issued es := by
  induction es generalizing d with
  | nil => rfl
  | cons e es ih =>
      have hcalls : (d.flashCalls e).map Prod.fst = d.issues e := by
        simp [flashCalls, Function.comp_def]
      have hrest : (Machine.trace step flashCalls (d.step e) es).map Prod.fst =
          Machine.trace step issues (d.step e) es := ih (d.step e)
      rw [flashTrace, issued, Machine.trace_cons, Machine.trace_cons, List.map_append, hcalls,
        hrest]

/-- What the cut theorem keeps along a run: `c` and `last` are where it began. -/
structure Recoverable (c : Contents) (last : Option Program) (d : Device Chip)
    (calls : List FlashCall) : Prop where
  sane : d.loader.Sane
  mirrors : ∃ t, Mirrors d.loader d.flash.contents t
  clean : ∀ i, (d.flash.outcomes i).Clean
  contents : d.flash.contents = replay c (calls.map Prod.fst)
  holds : HoldsAlways c last calls

/-- Every event keeps every cut recoverable. -/
theorem recoverable_step {c : Contents} {last : Option Program} {d : Device Chip}
    {calls : List FlashCall} (e : Event) (h : Recoverable c last d calls) :
    Recoverable c last (d.step e) (calls ++ d.flashCalls e) := by
  obtain ⟨hsane, ⟨t, hmirrors⟩, hclean, hcontents, hholds⟩ := h
  have hissued := issued_step hsane e
  have hops : ∀ p ∈ d.issues e, p.2.Clean := fun p hp => by
    obtain ⟨i, hi⟩ := hissued.mem hp
    rw [hi]
    exact hclean i
  have hmap : (d.flashCalls e).map Prod.fst = d.issues e := by
    simp [flashCalls, Function.comp_def]
  refine ⟨sane_step hsane e, ⟨_, mirrors_step hsane hmirrors e⟩, ?_, ?_, .append hholds ?_⟩
  · rw [hissued.outcomes]
    exact hclean
  · rw [hissued.contents, hcontents, List.map_append, hmap, replay_append]
  · have hhere : Holds d.flash.contents (calls.foldl recordCall last) := by
      have hend := hholds.last
      rwa [run_cutStep, ← hcontents] at hend
    rw [run_cutStep, ← hcontents]
    cases e with
    | request request execute =>
        rw [flashCalls, issues_of_issued (d.issued_request request execute)]
        exact .nil hhere
    | executePending =>
        cases hpending : d.loader.pending with
        | none =>
            rw [flashCalls, issues_of_none hpending]
            exact .nil hhere
        | some operation =>
            obtain ⟨ops, hissued', hexecuted⟩ := executePending_chip hsane hpending
            have heq : d.issues .executePending = ops := issues_of_issued hissued'
            rw [flashCalls, heq]
            rw [heq] at hops
            exact holdsAlways_executed (hmirrors.withPending none) hsane.withoutPending
              (accepts_withPending (hsane.pending operation hpending).2 none) hops hhere hexecuted

/-- So does every run. -/
theorem recoverable_run {c : Contents} {last : Option Program} {d : Device Chip}
    (h : Recoverable c last d []) (es : List Event) :
    Recoverable c last (d.run es) (d.flashTrace es) :=
  Machine.invariant_trace (P := fun _ => True) (I := Recoverable c last)
    (fun _ _ e _ hd => recoverable_step e hd) h fun _ _ => trivial

/-- Every successful marker write of a run commits a program. -/
theorem flashTrace_marker {d : Device Chip} (hsane : d.loader.Sane) (es : List Event) :
    ∀ call ∈ d.flashTrace es, (∃ bytes, call.1 = (.program markerAddress bytes, .done)) →
      call.2.isSome := by
  exact Machine.forall_mem_trace (I := fun d : Device Chip => d.loader.Sane)
    (Q := fun call => (∃ bytes, call.1 = (.program markerAddress bytes, .done)) → call.2.isSome)
    (fun d e hd => sane_step hd e)
    (fun d e hd call hcall hmarker => flashCalls_marker hd hcall hmarker) hsane es

/-- What a boot that read everything leaves is recoverable. -/
theorem recoverable_boot (statusQueue : StatusQueue) (mapBacking : MapBacking) (output : Output)
    (c : Contents) {outcomes : Nat → Outcome} (hclean : ∀ i, (outcomes i).Clean)
    (hboot : ∀ p ∈ (boot statusQueue mapBacking output (Chip.fresh c outcomes)).flash.log,
      p.2 = .done) :
    let start := boot statusQueue mapBacking output (Chip.fresh c outcomes)
    Recoverable c start.loader.program start [] ∧
      ∀ cut, cut <+: start.flash.log → replay c cut = c := by
  intro start
  have hpower : PowerOn start := .boot statusQueue mapBacking output (Chip.fresh c outcomes)
  obtain ⟨reads, hissued, hreads, hvalidated⟩ :=
    BpfLoader.new.validateCommitted_chip (Chip.fresh c outcomes)
  have hlog : start.flash.log = reads := hissued.log
  have hdone : ∀ p ∈ reads, p.2 = .done := fun p hp => hboot p (hlog ▸ hp)
  have hcontents : start.flash.contents = c :=
    hissued.contents.trans
      (replay_readsWithin _ (fun p hp => (hreads p hp).within) hdone)
  refine ⟨⟨hpower.sane, ⟨none, hpower.mirrors⟩, ?_, hcontents, .nil ?_⟩, fun cut hcut => ?_⟩
  · rw [show start.flash.outcomes = outcomes from hissued.outcomes]
    exact hclean
  · show Holds c (BpfLoader.new.validateCommitted (Chip.fresh c outcomes)).1.program
    have hfound := hvalidated.found hdone
    generalize (BpfLoader.new.validateCommitted (Chip.fresh c outcomes)).1 = l at hfound ⊢
    cases hfound with
    | nothing hnone => exact hnone
    | program himage =>
        refine ⟨_, ?_, rfl⟩
        exact ⟨himage, rfl, rfl⟩
  · rw [hlog] at hcut
    exact replay_readsWithin _ (fun p hp => (hreads p (hcut.subset hp)).within) fun p hp =>
      hdone p (hcut.subset hp)

/-- **Power cuts.** Over a chip whose failures leave it unchanged and whose boot
reads succeed, for any contents and any run: wherever the flash calls are cut,
during boot or between two calls of one operation, the next boot adopts the
last commit with its metadata if nothing has been erased since, and is Empty
otherwise.  In particular a reboot of a committed or running device finds what
it runs, and a reboot during a transfer finds nothing. -/
theorem power_cut (statusQueue : StatusQueue) (mapBacking : MapBacking) (output : Output)
    (c : Contents) (outcomes : Nat → Outcome) (hclean : ∀ i, (outcomes i).Clean)
    (hboot : ∀ p ∈ (boot statusQueue mapBacking output (Chip.fresh c outcomes)).flash.log,
      p.2 = .done) (es : List Event) :
    let start := boot statusQueue mapBacking output (Chip.fresh c outcomes)
    let d := start.run es
    d.flash.log = start.flash.log ++ (start.flashTrace es).map Prod.fst ∧
      (∀ call ∈ start.flashTrace es,
        (∃ bytes, call.1 = (.program markerAddress bytes, .done)) → call.2.isSome) ∧
      (∀ cut, cut <+: start.flash.log → Rebooted (replay c cut) start.loader.program) ∧
      (∀ cut, cut <+: start.flashTrace es →
        Rebooted (replay c (start.flash.log ++ cut.map Prod.fst))
          (cut.foldl recordCall start.loader.program)) ∧
      (∀ crc, d.loader.state = .committed crc ∨ d.loader.state = .running crc →
        Rebooted d.flash.contents (some ⟨crc, d.loader.committedMetadata⟩)) ∧
      (d.loader.state = .receiving → Rebooted d.flash.contents none) := by
  intro start d
  obtain ⟨hrecoverable, hreads⟩ := recoverable_boot statusQueue mapBacking output c hclean hboot
  obtain ⟨hsane, ⟨t, hmirrors⟩, -, -, hholds⟩ := recoverable_run hrecoverable es
  refine ⟨?_, flashTrace_marker hrecoverable.sane es, fun cut hcut => ?_, fun cut hcut => ?_,
    fun crc hstate => ?_, fun hstate => ?_⟩
  · rw [map_flashTrace]
    exact (issued_run hrecoverable.sane es).log
  · rw [hreads cut hcut]
    exact (hrecoverable.holds.last : Holds _ _).rebooted
  · have hcut := hholds cut hcut
    rw [run_cutStep] at hcut
    rw [replay_append, hreads _ (List.prefix_refl _)]
    exact hcut.rebooted
  · have hprogram : Holds d.flash.contents (some ⟨crc, d.loader.committedMetadata⟩) :=
      ⟨d.loader, hmirrors.program crc hstate, rfl⟩
    exact hprogram.rebooted
  · obtain ⟨image, -, hstored⟩ := hmirrors.receiving hstate
    exact (not_committed_of_marker hstored.marker).rebooted

/-- A reboot after a transfer finds the image, and one before its last call does
not. -/
theorem power_cut_transfer :
    let d := erased.run (transfer 0 exitProgram)
    Rebooted d.flash.contents (some ⟨crc32IsoHdlc exitProgram, d.loader.committedMetadata⟩) ∧
      Rebooted (erased.run (transfer 0 exitProgram).dropLast).flash.contents none := by
  intro d
  have hclean : ∀ i : Nat, ((fun _ => .done : Nat → Outcome) i).Clean := fun _ _ h => by
    contradiction
  have hboot : ∀ p ∈ erased.flash.log, p.2 = .done := fun p hp => by
    obtain ⟨reads, hissued, -⟩ :=
      BpfLoader.new.validateCommitted_chip (Chip.fresh (fun _ => 0xff) fun _ => .done)
    have hreads : erased.flash.log = reads := hissued.log
    exact (hissued.mem (hreads ▸ hp)).elim fun _ hi => hi
  have h := power_cut .ready (Vector.replicate _ 0) (Vector.replicate _ 0) (fun _ => 0xff)
    (fun _ => .done) hclean hboot
  constructor
  · exact (h (transfer 0 exitProgram)).2.2.2.2.1 _ (.inl (by decide +kernel))
  · exact (h (transfer 0 exitProgram).dropLast).2.2.2.2.2 (by decide +kernel)

end Device

end OptiBridge
