import OptiBridge.LoadOrder

/-!
# OptiBridge.RunningLock

A successful Start locks the device: from then on nothing is executed by a
request, nothing is loaded and flash is not touched until reset.  The lock rests
on the loader being sane, since neither `mark_running` nor `execute_pending`
looks at the other's half of the state.

The lock is a statement about states, `BpfLoader.state = .running` with nothing
pending, and it survives every event: a request is refused or does not concern
the loader, and the main loop has nothing to execute.

* `dispatched_start_executed`, the one way a Start runs a program;
* `locked_step` and `locked_run`, the lock;
* `locked_answers`, what it answers;
* `running_lock`, from the Start that sets it, in every run and for every
  executor whose errors are errors.
-/

namespace OptiBridge

/-- A Start as the protocol defines it: zero flags and no payload. -/
def Request.IsStart (request : Request) : Prop :=
  request.flags = 0 ∧ request.command = cmdStartBpf ∧ request.payloadLen = 0

instance (request : Request) : Decidable request.IsStart :=
  inferInstanceAs (Decidable (_ ∧ _ ∧ _))

/-- An executor whose errors are errors. -/
def HonestExecutor (execute : HostExecutor) : Prop :=
  ∀ metadata mapBacking, (execute metadata mapBacking).1 ≠ .error statusOk

/-- The event's executor, if it has one, is honest. -/
def Event.Honest : Event → Prop
  | .request _ execute => HonestExecutor execute
  | .executePending => True

/-- `executionMetadata` hands out metadata in this state. -/
def BpfLoader.Startable (loader : BpfLoader) : Prop :=
  loader.pending = none ∧ ∃ crc, loader.state = .committed crc

namespace Device

variable {F : Type}

/-! ## a Start -/

/- What a Start does, by whether the loader lets it. -/

/-- A Start goes to its own arm. -/
theorem dispatched_start (d : Device F) {request : Request} (execute : HostExecutor)
    (h : request.IsStart) :
    d.dispatched request execute = dispatchStart request (recording execute) d.toDispatchState :=
  dispatch_start _ _ h.1 h.2.1

/-- A Start that is not startable runs nothing and is answered with the
loader's reason. -/
theorem dispatched_start_refused (d : Device F) {request : Request} (execute : HostExecutor)
    (h : request.IsStart) {status : UInt8} (hmeta : d.loader.executionMetadata = .error status) :
    d.dispatched request execute = d.toDispatchState.respond request status [] := by
  rw [d.dispatched_start execute h, dispatchStart, if_neg (not_not.mpr h.2.2)]
  simp only [hmeta]

/-- The state a startable Start leaves before it is answered. -/
theorem dispatched_start_executed (d : Device F) {request : Request} (execute : HostExecutor)
    (h : request.IsStart) {crc : UInt32} (hpending : d.loader.pending = none)
    (hstate : d.loader.state = .committed crc) :
    let executed := execute d.loader.committedMetadata d.mapBacking
    let s : DispatchState (List BpfProgramMetadata) :=
      { d.toDispatchState with
          mapBacking := executed.2
          captured := d.captured ++ [d.loader.committedMetadata] }
    d.dispatched request execute =
      match executed.1 with
      | .ok value =>
          if value = 0 then
            { s with loader := { d.loader with state := .running crc } }.respond request statusOk []
          else s.respond request statusBadCommand []
      | .error status => s.respond request status [] := by
  intro executed s
  have hmeta : d.loader.executionMetadata = .ok d.loader.committedMetadata :=
    BpfLoader.executionMetadata_ok.mpr ⟨hpending, ⟨crc, hstate⟩, rfl⟩
  rw [d.dispatched_start execute h, dispatchStart, if_neg (not_not.mpr h.2.2)]
  simp only [hmeta, recording, BpfLoader.markRunning, hstate]
  rfl

/-- **Invocations.** A request invokes the executor once if it is a Start and
the loader is startable, and not at all otherwise. -/
theorem captured_dispatched (d : Device F) (request : Request) (execute : HostExecutor) :
    (request.IsStart ∧ d.loader.Startable →
      (d.dispatched request execute).2.captured = d.captured ++ [d.loader.committedMetadata]) ∧
    (¬ (request.IsStart ∧ d.loader.Startable) →
      (d.dispatched request execute).2.captured = d.captured) := by
  constructor
  · rintro ⟨hstart, hpending, crc, hstate⟩
    rw [d.dispatched_start_executed execute hstart hpending hstate]
    split
    · split_ifs <;> simp
    · simp
  · intro hnot
    have hstep := dispatch_step request (recording execute) d.toDispatchState
    have hran : ∀ metadata, request.IsStart → d.loader.executionMetadata ≠ .ok metadata :=
      fun metadata hstart hmetadata => by
        obtain ⟨hpending, hstate, -⟩ := BpfLoader.executionMetadata_ok.mp hmetadata
        exact hnot ⟨hstart, hpending, hstate⟩
    rw [dispatched]
    generalize dispatchWithBpfAndExecutor request (recording execute) d.toDispatchState = out
      at hstep ⊢
    cases hstep with
    | reset => rfl
    | answered | accepted | popped | wrote => exact respond_captured ..
    | ran hflags hcommand hlen hmetadata | started hflags hcommand hlen hmetadata =>
        exact absurd hmetadata (hran _ ⟨hflags, hcommand, hlen⟩)

/-- The status of a Start whose program ran. -/
def startStatus : Except UInt8 UInt64 → UInt8
  | .ok value => if value = 0 then statusOk else statusBadCommand
  | .error status => status

/-- One that is refused is answered with the loader's reason. -/
theorem status_start_refused (d : Device F) {request : Request} (execute : HostExecutor)
    (h : request.IsStart) {status : UInt8} (hmeta : d.loader.executionMetadata = .error status) :
    d.status request execute = some status :=
  d.status_of_respond execute (d.dispatched_start_refused execute h hmeta) (Nat.zero_le _)

/-- One that ran is answered by what its program returned. -/
theorem status_start_executed (d : Device F) {request : Request} (execute : HostExecutor)
    (h : request.IsStart) {metadata : BpfProgramMetadata}
    (hmeta : d.loader.executionMetadata = .ok metadata) :
    d.status request execute =
      some (startStatus (execute d.loader.committedMetadata d.mapBacking).1) := by
  obtain ⟨hpending, ⟨crc, hstate⟩, -⟩ := BpfLoader.executionMetadata_ok.mp hmeta
  have hdispatched := d.dispatched_start_executed execute h hpending hstate
  simp only at hdispatched
  cases hresult : (execute d.loader.committedMetadata d.mapBacking).1 with
  | error status =>
      rw [hresult] at hdispatched
      exact d.status_of_respond execute hdispatched (Nat.zero_le _)
  | ok value =>
      rw [hresult] at hdispatched
      by_cases hvalue : value = 0
      · simp only [hvalue, if_true] at hdispatched
        rw [d.status_of_respond execute hdispatched (Nat.zero_le _), startStatus, if_pos hvalue]
      · simp only [hvalue, if_false] at hdispatched
        rw [d.status_of_respond execute hdispatched (Nat.zero_le _), startStatus, if_neg hvalue]

/-- A Start is answered `STATUS_OK` exactly when it ran and returned zero. -/
theorem status_start_ok (d : Device F) (h : d.loader.Sane) {request : Request}
    {execute : HostExecutor} (hhonest : HonestExecutor execute)
    (hcommand : request.command = cmdStartBpf) :
    d.status request execute = some statusOk ↔
      request.IsStart ∧ d.loader.Startable ∧
        (execute d.loader.committedMetadata d.mapBacking).1 = .ok 0 := by
  by_cases hflags : request.flags = 0
  · by_cases hlen : request.payloadLen = 0
    · have hstart : request.IsStart := ⟨hflags, hcommand, hlen⟩
      cases hmeta : d.loader.executionMetadata with
      | error status =>
          have hne : status ≠ statusOk := by
            rcases h.executionMetadata_error hmeta with ⟨rfl, -⟩ | rfl | rfl | rfl | rfl <;> decide
          rw [d.status_start_refused execute hstart hmeta]
          constructor
          · intro heq
            exact absurd (Option.some.inj heq) hne
          · rintro ⟨-, ⟨hpending, hstate⟩, -⟩
            rw [BpfLoader.executionMetadata_ok.mpr ⟨hpending, hstate, rfl⟩] at hmeta
            contradiction
      | ok metadata =>
          obtain ⟨hpending, hstate, -⟩ := BpfLoader.executionMetadata_ok.mp hmeta
          have hiff : (request.IsStart ∧ d.loader.Startable ∧
              (execute d.loader.committedMetadata d.mapBacking).1 = .ok 0) ↔
              (execute d.loader.committedMetadata d.mapBacking).1 = .ok 0 :=
            ⟨fun h => h.2.2, fun h => ⟨hstart, ⟨hpending, hstate⟩, h⟩⟩
          -- no error of an honest executor reads as success
          have hnot := hhonest d.loader.committedMetadata d.mapBacking
          rw [hiff, d.status_start_executed execute hstart hmeta]
          cases hresult : (execute d.loader.committedMetadata d.mapBacking).1 with
          | error status =>
              rw [hresult] at hnot
              simpa [startStatus] using hnot
          | ok value =>
              by_cases hvalue : value = 0 <;>
                simp [startStatus, hvalue, statusBadCommand, statusOk]
    · have hrefused : d.dispatched request execute =
          d.toDispatchState.respond request statusBadLength [] := by
        rw [dispatched, dispatch_start _ _ hflags hcommand, dispatchStart, if_pos hlen]
      rw [d.status_of_respond execute hrefused (by decide)]
      simp [Request.IsStart, hlen, statusBadLength, statusOk]
  · rw [d.status_badFlags execute hflags]
    simp [Request.IsStart, hflags, statusBadFlags, statusOk]

variable [BpfFlash F]

/-- A Start that ran and returned zero locks the loader. -/
theorem step_start_ok (d : Device F) {request : Request} {execute : HostExecutor}
    (hstart : request.IsStart) {crc : UInt32} (hpending : d.loader.pending = none)
    (hstate : d.loader.state = .committed crc)
    (hresult : (execute d.loader.committedMetadata d.mapBacking).1 = .ok 0) :
    (d.step (.request request execute)).loader = { d.loader with state := .running crc } := by
  have hdispatched := d.dispatched_start_executed execute hstart hpending hstate
  simp only [hresult, if_true] at hdispatched
  show (d.dispatched request execute).2.loader = _
  rw [hdispatched, respond_loader]

/-! ## the lock -/

/- The invariant, and how often a run may get to it. -/

/-- **Lock step.** A running device with nothing pending runs nothing, loads
nothing and leaves flash alone, whatever happens. -/
theorem locked_step {d : Device F} {crc : UInt32} (hstate : d.loader.state = .running crc)
    (hpending : d.loader.pending = none) (e : Event) :
    (d.step e).loader = d.loader ∧ (d.step e).flash = d.flash ∧
      (d.step e).captured = d.captured := by
  cases e with
  | executePending =>
      have hnothing := BpfLoader.executePending_rests hpending d.flash
      refine ⟨?_, ?_, rfl⟩
      · exact congrArg Prod.fst hnothing
      · exact congrArg Prod.snd hnothing
  | request request execute =>
      refine ⟨?_, rfl, ?_⟩
      · show (d.dispatched request execute).2.loader = d.loader
        cases loader_step request (recording execute) d.toDispatchState with
        | kept hloader => exact hloader
        | accepted _ _ hop =>
            rw [BpfLoader.loadOperation_running request hpending (by rw [hstate]; rfl)] at hop
            contradiction
        | started _ _ _ hcommitted =>
            rw [hstate] at hcommitted
            contradiction
      · refine (d.captured_dispatched request execute).2 fun ⟨_, _, crc', hcommitted⟩ => ?_
        rw [hstate] at hcommitted
        contradiction

/-- The lock holds over every further run. -/
theorem locked_run {d : Device F} {crc : UInt32} (hstate : d.loader.state = .running crc)
    (hpending : d.loader.pending = none) (es : List Event) :
    (d.run es).loader = d.loader ∧ (d.run es).flash = d.flash ∧
      (d.run es).captured = d.captured :=
  Machine.invariant_run (P := fun _ => True)
    (I := fun d' : Device F => d'.loader = d.loader ∧ d'.flash = d.flash ∧ d'.captured = d.captured)
    (fun d' e _ ⟨hloader, hflash, hcaptured⟩ => by
      have hstep := locked_step (d := d') (hloader ▸ hstate) (hloader ▸ hpending) e
      exact ⟨hstep.1.trans hloader, hstep.2.1.trans hflash, hstep.2.2.trans hcaptured⟩)
    ⟨rfl, rfl, rfl⟩ fun _ _ => trivial

omit [BpfFlash F] in
/-- What a locked device answers. -/
theorem locked_answers {d : Device F} {crc : UInt32} (hstate : d.loader.state = .running crc)
    (hpending : d.loader.pending = none) (request : Request) (execute : HostExecutor) :
    (request.flags = 0 → request.command = cmdLoadBpf →
      d.status request execute = some statusBadState) ∧
    (request.IsStart → d.status request execute = some statusBadState) ∧
    (request.flags = 0 → request.command = cmdQueryBpfCrc → request.payloadLen = 0 →
      d.reply request execute =
        some ⟨statusOk, request.sequence, 0, Bytes.toLe 4 crc.toNat⟩) := by
  refine ⟨fun hflags hcommand => ?_, fun hstart => ?_, fun hflags hcommand hlen => ?_⟩
  · rw [d.status_load execute hflags hcommand,
      BpfLoader.loadOperation_running request hpending (by rw [hstate]; rfl)]
  · have hmeta : d.loader.executionMetadata = .error statusBadState := by
      simp [BpfLoader.executionMetadata, hpending, hstate]
    exact d.status_start_refused execute hstart hmeta
  · have hquery : d.loader.query = .ok crc := by
      simp [BpfLoader.query, hpending, hstate]
    rw [d.reply_query execute hflags hcommand hlen, hquery]

/-- The Starts a run answers with `STATUS_OK`. -/
def successfulStart (d : Device F) : Event → List Request
  | .request request execute =>
      if request.command = cmdStartBpf ∧ d.status request execute = some statusOk then [request]
      else []
  | .executePending => []

/-- No Start has succeeded, or one has and the device is locked. -/
def StartedOnce (d : Device F) (starts : List Request) : Prop :=
  d.loader.Sane ∧ (starts = [] ∨ (starts.length = 1 ∧ d.loader.state.isRunning = true))

omit [BpfFlash F] in
/-- A locked device answers no Start with `STATUS_OK`. -/
theorem successfulStart_locked {d : Device F} (hsane : d.loader.Sane) {crc : UInt32}
    (hstate : d.loader.state = .running crc) {e : Event} (hhonest : e.Honest) :
    d.successfulStart e = [] := by
  cases e with
  | executePending => rfl
  | request request execute =>
      refine if_neg fun ⟨hcommand, hstatus⟩ => ?_
      obtain ⟨-, ⟨-, crc', hcommitted⟩, -⟩ :=
        (d.status_start_ok hsane hhonest hcommand).mp hstatus
      rw [hstate] at hcommitted
      contradiction

/-- **Start step.** A Start that succeeds is the first one, and locks the
device. -/
theorem startedOnce_step {d : Device F} {starts : List Request} {e : Event} (hhonest : e.Honest)
    (h : d.StartedOnce starts) : (d.step e).StartedOnce (starts ++ d.successfulStart e) := by
  obtain ⟨hsane, hstarts⟩ := h
  refine ⟨sane_step hsane e, ?_⟩
  rcases hstarts with rfl | ⟨hlength, hrunning⟩
  · cases e with
    | executePending => exact .inl rfl
    | request request execute =>
        by_cases hok : request.command = cmdStartBpf ∧ d.status request execute = some statusOk
        · obtain ⟨hstart, ⟨hpending, crc, hstate⟩, hresult⟩ :=
            (d.status_start_ok hsane hhonest hok.1).mp hok.2
          right
          rw [d.step_start_ok hstart hpending hstate hresult]
          exact ⟨by simp [successfulStart, hok], rfl⟩
        · left
          simp [successfulStart, hok]
  · right
    obtain ⟨crc, hstate⟩ := LoaderState.isRunning_iff.mp hrunning
    have hkept := (locked_step hstate (hsane.pending_of_running hstate) e).1
    rw [successfulStart_locked hsane hstate hhonest, List.append_nil, hkept]
    exact ⟨hlength, hrunning⟩

/-- The Starts answered with `STATUS_OK` along a run. -/
def successfulStarts (d : Device F) (es : List Event) : List Request :=
  Machine.trace step successfulStart d es

/-- At most one Start succeeds. -/
theorem length_successfulStarts {d : Device F} (hsane : d.loader.Sane) {es : List Event}
    (hes : ∀ e ∈ es, e.Honest) : (d.successfulStarts es).length ≤ 1 := by
  have hinv : (d.run es).StartedOnce (d.successfulStarts es) :=
    Machine.invariant_trace (P := Event.Honest) (I := StartedOnce)
      (fun _ _ _ he h => startedOnce_step he h) ⟨hsane, .inl rfl⟩ hes
  rcases hinv.2 with hnone | ⟨hone, -⟩
  · rw [hnone]
    exact Nat.zero_le 1
  · exact Nat.le_of_eq hone

/-! ## the theorem -/

/- Assembled from the lock, and from a count of successful Starts. -/

/-- **Running lock.** Over every run from boot with honest executors: an
invocation is a Start with zero flags and no payload that finds a committed
image and nothing pending, and each such Start invokes once; a Start is answered
`STATUS_OK` exactly when its invocation returned zero, and locks the device on
the committed CRC.  From the lock on, over every further run, the loader and
the flash are the ones it found, nothing is invoked, Loads and Starts are
answered `STATUS_BAD_STATE` and CRC queries with the CRC.  So at most one Start
succeeds. -/
theorem running_lock (statusQueue : StatusQueue) (mapBacking : MapBacking) (output : Output)
    (flash : F) (es : List Event) (hes : ∀ e ∈ es, e.Honest) :
    let start := boot statusQueue mapBacking output flash
    let d := start.run es
    (∀ request execute, HonestExecutor execute →
      let after := d.step (.request request execute)
      (request.IsStart ∧ d.loader.Startable →
        after.captured = d.captured ++ [d.loader.committedMetadata]) ∧
      (¬ (request.IsStart ∧ d.loader.Startable) → after.captured = d.captured) ∧
      (request.command = cmdStartBpf →
        (d.status request execute = some statusOk ↔
          request.IsStart ∧ d.loader.Startable ∧
            (execute d.loader.committedMetadata d.mapBacking).1 = .ok 0)) ∧
      (request.command = cmdStartBpf → d.status request execute = some statusOk →
        ∃ crc, d.loader.state = .committed crc ∧
          after.loader = { d.loader with state := .running crc })) ∧
    (d.step .executePending).captured = d.captured ∧
    (∀ crc, d.loader.state = .running crc → ∀ es',
      let later := d.run es'
      later.loader = d.loader ∧ later.flash = d.flash ∧ later.captured = d.captured ∧
        ∀ request execute,
          (request.flags = 0 → request.command = cmdLoadBpf →
            later.status request execute = some statusBadState) ∧
          (request.IsStart → later.status request execute = some statusBadState) ∧
          (request.flags = 0 → request.command = cmdQueryBpfCrc → request.payloadLen = 0 →
            later.reply request execute =
              some ⟨statusOk, request.sequence, 0, Bytes.toLe 4 crc.toNat⟩)) ∧
    (start.successfulStarts es).length ≤ 1 := by
  intro start d
  have hsane : d.loader.Sane := sane_run (sane_boot _ _ _ _) es
  refine ⟨fun request execute hhonest => ?_, rfl, fun crc hstate es' => ?_,
    length_successfulStarts (sane_boot _ _ _ _) hes⟩
  · have hinvokes := d.captured_dispatched request execute
    refine ⟨hinvokes.1, hinvokes.2, d.status_start_ok hsane hhonest, fun hcommand hstatus => ?_⟩
    obtain ⟨hstart, ⟨hpending, crc, hstate⟩, hresult⟩ :=
      (d.status_start_ok hsane hhonest hcommand).mp hstatus
    exact ⟨crc, hstate, d.step_start_ok hstart hpending hstate hresult⟩
  · intro later
    have hpending := hsane.pending_of_running hstate
    have hlater : later.loader = d.loader ∧ later.flash = d.flash ∧ later.captured = d.captured :=
      locked_run hstate hpending es'
    refine ⟨hlater.1, hlater.2.1, hlater.2.2, fun request execute => ?_⟩
    exact locked_answers (hlater.1 ▸ hstate) (hlater.1 ▸ hpending) request execute

/-- A transfer and a Start that returns zero lock the device, and a second
Start is refused. -/
theorem running_lock_exit :
    let es := transfer 0 exitProgram ++ [start 0]
    (erased.run es).loader.state = .running (crc32IsoHdlc exitProgram) ∧
      ((erased.run es).run [start 0]).status (.ofPayload cmdStartBpf 0 []) (returning 0) =
        some statusBadState ∧
      (erased.successfulStarts es).length ≤ 1 := by
  intro es
  have hhonest : ∀ value, HonestExecutor (returning value) := fun value _ _ h => by contradiction
  have hstate : (erased.run es).loader.state = .running (crc32IsoHdlc exitProgram) := by
    decide +kernel
  have h := running_lock .ready (Vector.replicate _ 0) (Vector.replicate _ 0)
    (Nor.Chip.fresh (fun _ => 0xff) fun _ => .done) es fun e he => by
      simp only [es, transfer, load, start, List.mem_append, List.mem_flatMap, List.mem_cons,
        List.not_mem_nil, or_false] at he
      rcases he with ((((rfl | rfl) | ⟨-, -, rfl | rfl⟩) | (rfl | rfl)) | rfl)
      · exact hhonest 0
      · exact True.intro
      · exact hhonest 0
      · exact True.intro
      · exact hhonest 0
      · exact True.intro
      · exact hhonest 0
  rw [show boot _ _ _ _ = erased from rfl] at h
  obtain ⟨-, -, hlocked, honce⟩ := h
  obtain ⟨-, -, -, hanswers⟩ := hlocked _ hstate [start 0]
  have hstart : (Request.ofPayload cmdStartBpf 0 []).IsStart := by decide +kernel
  exact ⟨hstate, (hanswers _ (returning 0)).2.1 hstart, honce⟩

end Device

end OptiBridge
