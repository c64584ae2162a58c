import OptiBridge.Flash

/-!
# OptiBridge.LoadOrder

Acceptance and execution of Load operations happen in different contexts: the
I2C callback acknowledges one operation into the pending slot, the main loop
executes it later.  This module shows that the slot is a faithful queue of
length one over every interleaving: what was acknowledged is what was executed,
plus what is still pending.

An operation is executed by an event if the event leaves loader and flash as
`begin`, `data` or `finalize` of that operation does (`Device.executes`); that
the slot was emptied is not enough.  Over a run, then, three lists are compared:
what was acknowledged, what was executed, and what is pending.

* `ledger_step`, one event adds to the first or moves from the third to the
  second;
* `ledger_run`, so the first is always the other two in a row;
* `load_operations_exact`, with what the acknowledging and the executing
  states were, and what a refusal leaves alone.
-/

namespace OptiBridge

/-- The loader state an operation may execute in. -/
def LoadOperation.ExecutesIn (loader : BpfLoader) (operation : LoadOperation) : Prop :=
  loader.state.isRunning = false ∧
    match operation with
    | .begin _ _ _ => True
    | .data offset _ len =>
        loader.state = .receiving ∧ offset = loader.nextOffset ∧
          offset.toNat + len.toNat ≤ loader.imageLen.toNat
    | .finalize => loader.state = .receiving ∧ loader.nextOffset = loader.imageLen

/-- What a sane loader holds pending may execute now. -/
theorem BpfLoader.Sane.executesIn {loader : BpfLoader} (h : loader.Sane)
    {operation : LoadOperation} (hpending : loader.pending = some operation) :
    operation.ExecutesIn loader := by
  obtain ⟨hrunning, haccepts⟩ := h.pending operation hpending
  refine ⟨hrunning, ?_⟩
  cases operation with
  | begin => trivial
  | data offset bytes len =>
      obtain ⟨hstate, hoffset, -, -, hfit⟩ := haccepts
      exact ⟨hstate, hoffset, hfit⟩
  | finalize => exact haccepts

namespace Device

variable {F : Type}

/-! ## one event -/

/- The main loop executes, the callback acknowledges, and neither does the
other's part. -/

/-- What a well-flagged Load does to the loader. -/
theorem loader_dispatched_load (d : Device F) {request : Request} (execute : HostExecutor)
    (hflags : request.flags = 0) (hcommand : request.command = cmdLoadBpf) :
    (d.dispatched request execute).2.loader = (d.loader.acceptsLoad request).2 := by
  rw [dispatched, dispatch_load _ _ hflags hcommand, dispatchLoad]
  split
  · next hop => rw [hop, respond_loader]
  · next hop => rw [hop, respond_loader]

/-- A request that is not a well-flagged Load leaves the pending slot alone. -/
theorem pending_dispatched_other (d : Device F) {request : Request} (execute : HostExecutor)
    (h : ¬ (request.flags = 0 ∧ request.command = cmdLoadBpf)) :
    (d.dispatched request execute).2.loader.pending = d.loader.pending := by
  cases loader_step request (recording execute) d.toDispatchState with
  | kept hloader => exact congrArg BpfLoader.pending hloader
  | accepted hflags hcommand => exact absurd ⟨hflags, hcommand⟩ h
  | started _ _ _ _ hloader =>
      rw [dispatched, hloader]

/-- A valid CRC query is answered `STATUS_BUSY` exactly while an operation is
pending. -/
theorem status_query_busy (d : Device F) (h : d.loader.Sane) {request : Request}
    (execute : HostExecutor) (hflags : request.flags = 0)
    (hcommand : request.command = cmdQueryBpfCrc) (hlen : request.payloadLen = 0) :
    d.status request execute = some statusBusy ↔ d.loader.pending.isSome := by
  rw [Device.status, d.reply_query execute hflags hcommand hlen]
  unfold BpfLoader.query
  cases hpending : d.loader.pending with
  | some operation => simp
  | none =>
      cases hstate : d.loader.state with
      | empty | receiving => simp [statusNoProgram, statusBusy]
      | committed crc | running crc => simp [statusOk, statusBusy]
      | failed status =>
          have hne : status ≠ statusBusy := by
            rcases h.failed status hstate with rfl | rfl | rfl <;> decide
          simpa using hne

variable [BpfFlash F]

/-- **Ledger step.** What was pending and what the event acknowledges is what
the event executes and what is pending after it. -/
theorem ledger_step (d : Device F) (e : Event) :
    d.loader.pending.toList ++ d.acknowledges e =
      d.executes e ++ (d.step e).loader.pending.toList := by
  cases e with
  | executePending =>
      have hafter : (d.step .executePending).loader.pending = none :=
        BpfLoader.executePending_pending
      rw [hafter, executes_executePending]
      rfl
  | request request execute =>
      show d.loader.pending.toList ++ d.acknowledges (.request request execute) =
        (d.dispatched request execute).2.loader.pending.toList
      by_cases hload : request.flags = 0 ∧ request.command = cmdLoadBpf
      · obtain ⟨hflags, hcommand⟩ := hload
        rw [loader_dispatched_load d execute hflags hcommand]
        simp only [acknowledges, hcommand, d.status_load execute hflags hcommand, true_and]
        unfold BpfLoader.acceptsLoad
        cases hop : d.loader.loadOperation request with
        | error status =>
            have hne := BpfLoader.loadOperation_error_ne_ok hop
            simp [hne]
        | ok operation =>
            obtain ⟨hpending, -, -, hencoded⟩ := BpfLoader.loadOperation_ok hop
            simp [hpending, hencoded]
      · rw [pending_dispatched_other d execute hload]
        have hnone : d.acknowledges (.request request execute) = [] := by
          simp only [acknowledges]
          refine if_neg fun ⟨hcommand, hstatus⟩ => ?_
          have hflags : request.flags ≠ 0 := fun h0 => hload ⟨h0, hcommand⟩
          rw [d.status_badFlags execute hflags] at hstatus
          exact absurd hstatus (by decide)
        rw [hnone, List.append_nil]

/-! ## whole runs -/

/- From a boot, where all three lists are empty. -/

/-- **Ledger.** The acknowledged operations are the executed ones, then the
pending one. -/
theorem ledger_run (d : Device F) (es : List Event) :
    d.loader.pending.toList ++ d.acknowledged es =
      d.executed es ++ (d.run es).loader.pending.toList := by
  induction es using List.reverseRecOn with
  | nil => simp [acknowledged, executed, run]
  | append_singleton es e ih =>
      have hstep := (d.run es).ledger_step e
      rw [acknowledged, Machine.trace_concat, executed, Machine.trace_concat, run_concat,
        ← List.append_assoc]
      calc
        (d.loader.pending.toList ++ d.acknowledged es) ++ (d.run es).acknowledges e
        _ = d.executed es ++ ((d.run es).loader.pending.toList ++ (d.run es).acknowledges e) := by
          rw [ih, List.append_assoc]
        _ = d.executed es ++
              ((d.run es).executes e ++ ((d.run es).step e).loader.pending.toList) := by
          rw [hstep]
        _ = _ := by rw [← List.append_assoc]; rfl

/-- What the main loop does is what it executes: the effect of that operation on
the loader and the flash, and nothing else. -/
theorem step_eq_performed (d : Device F) :
    d.step .executePending = (d.executes .executePending).foldl performed d := by
  rw [executes_executePending]
  cases hpending : d.loader.pending with
  | none =>
      show d.executePending = d
      rw [executePending, BpfLoader.executePending_rests hpending]
  | some operation => exact d.step_executePending hpending

/-- A Load that is not acknowledged changes nothing but the response. -/
theorem step_rejected_load (d : Device F) {request : Request} (execute : HostExecutor)
    (hcommand : request.command = cmdLoadBpf)
    (hstatus : d.status request execute ≠ some statusOk) :
    ({ d.step (.request request execute) with output := d.output } : Device F) = d := by
  have hrejected : ∃ status,
      d.dispatched request execute = d.toDispatchState.respond request status [] := by
    by_cases hflags : request.flags = 0
    · rw [d.status_load execute hflags hcommand] at hstatus
      cases hop : d.loader.loadOperation request with
      | ok operation =>
          rw [hop] at hstatus
          exact absurd rfl hstatus
      | error status =>
          refine ⟨status, (dispatch_load _ _ hflags hcommand).trans ?_⟩
          simp only [dispatchLoad, BpfLoader.acceptsLoad, hop]
    · exact ⟨_, dispatch_badFlags _ _ hflags⟩
  obtain ⟨status, hdispatched⟩ := hrejected
  simp only [step, hdispatched, DispatchState.respond]

/-- **No lost, duplicated or reordered Load operation.** From boot, over any
flash and any interleaving: the acknowledged operations are the executed ones
followed by the pending one, where an operation counts as executed only if the
main loop has left the device as its begin, data or finalize does; what the main
loop does to the device is that and no more; a Load answered otherwise changes
nothing but the response buffer; a valid CRC query is answered `STATUS_BUSY`
exactly while an acknowledged operation is unexecuted; and an operation executes
only where its acceptance still stands. -/
theorem load_operations_exact (statusQueue : StatusQueue) (mapBacking : MapBacking)
    (output : Output) (flash : F) (es : List Event) :
    let start := boot statusQueue mapBacking output flash
    let d := start.run es
    start.acknowledged es = start.executed es ++ d.loader.pending.toList ∧
      d.step .executePending = (d.executes .executePending).foldl performed d ∧
      (∀ request execute, request.command = cmdLoadBpf →
        d.status request execute ≠ some statusOk →
        ({ d.step (.request request execute) with output := d.output } : Device F) = d) ∧
      (∀ request execute, request.flags = 0 → request.command = cmdQueryBpfCrc →
        request.payloadLen = 0 →
        (d.status request execute = some statusBusy ↔
          start.executed es ≠ start.acknowledged es)) ∧
      ∀ operation ∈ d.executes .executePending, operation.ExecutesIn d.loader := by
  intro start d
  have hsane : d.loader.Sane := sane_run (sane_boot _ _ _ _) es
  have hledger : start.acknowledged es = start.executed es ++ d.loader.pending.toList := by
    have hrun := start.ledger_run es
    have hboot : start.loader.pending = none := BpfLoader.validateCommitted_pending
    rwa [hboot, Option.toList_none, List.nil_append] at hrun
  refine ⟨hledger, d.step_eq_performed, fun request execute => d.step_rejected_load execute,
    ?_, ?_⟩
  · intro request execute hflags hcommand hlen
    rw [d.status_query_busy hsane execute hflags hcommand hlen, hledger]
    cases d.loader.pending <;> simp
  · intro operation hoperation
    exact hsane.executesIn (by simpa using hoperation)

/-- On an erased chip a Begin is acknowledged at once and executed later.  A CRC
query in between is answered `STATUS_BUSY`; the main loop then leaves the device
as the Begin does. -/
theorem load_operations_exact_begin :
    let begin := (load [0, 8, 0, 0, 0, 0, 0, 0]).take 1
    let d := erased.run begin
    erased.acknowledged begin = erased.executed begin ++ [.begin 8 0 0] ∧
      d.status (.ofPayload cmdQueryBpfCrc 0 []) (returning 0) = some statusBusy ∧
      d.step .executePending = d.performed (.begin 8 0 0) := by
  intro begin d
  have h := load_operations_exact .ready (Vector.replicate _ 0) (Vector.replicate _ 0)
    (Nor.Chip.fresh (fun _ => 0xff) fun _ => .done) begin
  have hpending : d.loader.pending = some (.begin 8 0 0) := by decide +kernel
  have hledger : erased.acknowledged begin = erased.executed begin ++ [.begin 8 0 0] :=
    h.1.trans (congrArg (fun pending : Option LoadOperation =>
      erased.executed begin ++ pending.toList) hpending)
  have hunexecuted : erased.executed begin ≠ erased.acknowledged begin := by
    rw [hledger]
    simp
  have hperformed : d.step .executePending = (d.executes .executePending).foldl performed d := h.2.1
  rw [executes_executePending, hpending] at hperformed
  exact ⟨hledger, (h.2.2.2.1 _ (returning 0) rfl rfl (by decide)).mpr hunexecuted, hperformed⟩

end Device

end OptiBridge
