import OptiBridge.FlashSteps
import OptiBridge.Recording
import OptiBridge.RunningLock

/-!
# OptiBridge.BusyRetry

A host that reissues a request until it is not answered `STATUS_BUSY` cannot
tell when the main loop ran.  The device it seems to talk to (`direct`) executes
every accepted operation before it looks at the next request; each turn of an
exchange conserves what that device still has to answer, so every settled
schedule ends where it does.

What is conserved is `total`: the answers already given, followed by those
`direct` would still give.  A turn of the main loop does not change it, because
`direct` executes first anyway; a turn that is answered busy does not, because
the request stays; any other turn of the host moves one answer from the second
part to the first.
-/

namespace OptiBridge

/-! ## the response buffer -/

/- The device never reads its own response buffer, so two devices that differ
there only cannot be told apart; `quiet` forgets it. -/

section quiet

variable {σ : Type}

/-- Everything but the response buffer. -/
def DispatchState.quiet (s : DispatchState σ) : DispatchState σ :=
  { s with output := Vector.replicate _ 0 }

@[simp] theorem respond_quiet (s : DispatchState σ) (request : Request) (status : UInt8)
    (payload : List UInt8) : (s.respond request status payload).2.quiet = s.quiet := by
  simp only [DispatchState.respond, DispatchState.quiet]

/-- The same answer, and the same state but for the response buffer. -/
def SameAnswer (x y : PacketOutcome × DispatchState σ) : Prop :=
  replyOf x = replyOf y ∧ x.2.quiet = y.2.quiet

/-- Two devices that differ in the buffer only send the same response. -/
theorem sameAnswer_respond (s : DispatchState σ) (output : Output) (request : Request)
    (status : UInt8) {payload : List UInt8} (h : payload.length ≤ maxPayload) :
    SameAnswer (s.respond request status payload)
      ({ s with output := output }.respond request status payload) := by
  constructor
  · rw [replyOf_respond _ _ _ h, replyOf_respond _ _ _ h]
  · rw [respond_quiet, respond_quiet]
    simp only [DispatchState.quiet]

/-- **The buffer is only written.** What it held before a request decides
nothing. -/
theorem dispatch_sameAnswer (request : Request) (execute : Executor σ) (s : DispatchState σ)
    (output : Output) :
    SameAnswer (dispatchWithBpfAndExecutor request execute s)
      (dispatchWithBpfAndExecutor request execute { s with output := output }) := by
  have hempty : ∀ (s' : DispatchState σ) status, SameAnswer (s'.respond request status [])
      ({ s' with output := output }.respond request status []) := fun s' status =>
    sameAnswer_respond s' output request status (Nat.zero_le _)
  unfold dispatchWithBpfAndExecutor
  split_ifs
  · exact hempty ..
  · unfold dispatchLoad
    simp only
    split <;> exact hempty ..
  · unfold dispatchReadMap
    simp only
    split_ifs
    · exact hempty ..
    · split
      · next bytes hbytes =>
          exact sameAnswer_respond s output request statusOk (s.loader.length_readMap hbytes)
      · exact hempty ..
  · unfold dispatchWriteMap
    simp only
    split_ifs
    · exact hempty ..
    · exact hempty ..
    · split <;> exact hempty ..
  · unfold dispatchStart
    simp only
    split_ifs
    · exact hempty ..
    · split
      · exact hempty ..
      · split
        · split_ifs
          · split <;> exact hempty ..
          · exact hempty ..
        · exact hempty ..
  · unfold dispatchQuery
    simp only
    split_ifs
    · exact hempty ..
    · split
      · exact sameAnswer_respond s output request statusOk (by simp [maxPayload])
      · exact hempty ..
  · unfold dispatch
    simp only
    split_ifs
    · exact ⟨rfl, by simp only [DispatchState.quiet]⟩
    · exact hempty ..
    · exact sameAnswer_respond { s with statusQueue := s.statusQueue.pop.2 } output request
        statusOk s.statusQueue.length_pop
    all_goals exact hempty ..

end quiet

/-! ## requests for the loader -/

/- Load, Start and query are the requests a host retries.  They are answered busy
only while an operation is pending. -/

/-- Load, Start or CRC query, with any flags and payload. -/
def Request.ForLoader (request : Request) : Prop :=
  request.command = cmdLoadBpf ∨ request.command = cmdStartBpf ∨
    request.command = cmdQueryBpfCrc

instance (request : Request) : Decidable request.ForLoader :=
  inferInstanceAs (Decidable (_ ∨ _ ∨ _))

/-- The request is answered by what the loader holds: its flags are zero, and so
is its length where the command takes no payload. -/
def Request.ReachesLoader (request : Request) : Prop :=
  request.flags = 0 ∧ (request.command = cmdLoadBpf ∨
    (request.command = cmdStartBpf ∨ request.command = cmdQueryBpfCrc) ∧ request.payloadLen = 0)

/-- An executor whose errors are not `STATUS_BUSY`. -/
def NeverBusy (execute : HostExecutor) : Prop :=
  ∀ metadata mapBacking, (execute metadata mapBacking).1 ≠ .error statusBusy

section requests

variable {σ : Type} {request : Request} (execute : Executor σ)

/-- A request that does not reach the loader is refused with the same status in
every state. -/
theorem dispatch_refused (h : request.ForLoader) (hnot : ¬ request.ReachesLoader) :
    ∃ status, status ≠ statusBusy ∧ ∀ s : DispatchState σ,
      dispatchWithBpfAndExecutor request execute s = s.respond request status [] := by
  by_cases hflags : request.flags = 0
  · have hcommand : (request.command = cmdStartBpf ∨ request.command = cmdQueryBpfCrc) ∧
        request.payloadLen ≠ 0 := by
      unfold Request.ForLoader at h
      unfold Request.ReachesLoader at hnot
      tauto
    obtain ⟨hcommand, hlen⟩ := hcommand
    refine ⟨statusBadLength, by decide, fun s => ?_⟩
    cases hcommand with
    | inl hstart => rw [dispatch_start execute s hflags hstart, dispatchStart, if_pos hlen]
    | inr hquery => rw [dispatch_query execute s hflags hquery, dispatchQuery, if_pos hlen]
  · exact ⟨statusBadFlags, by decide, fun s => dispatch_badFlags execute s hflags⟩

/-- **Busy is free.** While an operation is pending, a request that reaches the
loader is answered `STATUS_BUSY` and changes nothing. -/
theorem dispatch_busy (h : request.ReachesLoader) {s : DispatchState σ}
    (hpending : s.loader.pending.isSome) :
    dispatchWithBpfAndExecutor request execute s = s.respond request statusBusy [] := by
  obtain ⟨hflags, hload | ⟨hstart | hquery, hlen⟩⟩ := h
  · rw [dispatch_load execute s hflags hload, dispatchLoad, BpfLoader.acceptsLoad,
      BpfLoader.loadOperation_pending request hpending]
  · rw [dispatch_start execute s hflags hstart, dispatchStart, if_neg (not_not.mpr hlen),
      BpfLoader.executionMetadata, if_pos hpending]
  · rw [dispatch_query execute s hflags hquery, dispatchQuery, if_neg (not_not.mpr hlen),
      BpfLoader.query, if_pos hpending]

end requests

/-! ## one request -/

/- What a request does to a device with nothing pending, up to the response
buffer. -/

namespace Device

variable {F : Type}

/-- Everything but the response buffer. -/
def quiet (d : Device F) : Device F := { d with output := Vector.replicate _ 0 }

/-- The loader is kept. -/
@[simp] theorem quiet_loader (d : Device F) : d.quiet.loader = d.loader := rfl

/-- The maps are kept. -/
@[simp] theorem quiet_mapBacking (d : Device F) : d.quiet.mapBacking = d.mapBacking := rfl

/-- The flash is kept. -/
@[simp] theorem quiet_flash (d : Device F) : d.quiet.flash = d.flash := rfl

theorem reply_quiet (d : Device F) (request : Request) (execute : HostExecutor) :
    d.quiet.reply request execute = d.reply request execute :=
  (dispatch_sameAnswer request (recording execute) d.toDispatchState _).1.symm

/-- With nothing pending, no request is answered `STATUS_BUSY`. -/
theorem status_ne_busy {d : Device F} (hsane : d.loader.Sane) (hpending : d.loader.pending = none)
    {request : Request} (h : request.ForLoader) {execute : HostExecutor}
    (hexecute : NeverBusy execute) : d.status request execute ≠ some statusBusy := by
  by_cases hreaches : request.ReachesLoader
  · obtain ⟨hflags, hload | ⟨hstart | hquery, hlen⟩⟩ := hreaches
    · rw [d.status_load execute hflags hload]
      cases hop : d.loader.loadOperation request with
      | ok operation => simp [statusOk, statusBusy]
      | error status =>
          rcases BpfLoader.loadOperation_error hop with ⟨-, hsome⟩ | rfl | rfl | rfl
          · simp [hpending] at hsome
          all_goals decide
    · have hisStart : request.IsStart := ⟨hflags, hstart, hlen⟩
      cases hmeta : d.loader.executionMetadata with
      | error status =>
          rw [d.status_start_refused execute hisStart hmeta]
          rcases hsane.executionMetadata_error hmeta with ⟨-, hsome⟩ | rfl | rfl | rfl | rfl
          · simp [hpending] at hsome
          all_goals decide
      | ok metadata =>
          have hnot := hexecute d.loader.committedMetadata d.mapBacking
          rw [d.status_start_executed execute hisStart hmeta]
          cases hresult : (execute d.loader.committedMetadata d.mapBacking).1 with
          | error status =>
              rw [hresult] at hnot
              simpa [startStatus] using hnot
          | ok value =>
              by_cases hvalue : value = 0 <;>
                simp [startStatus, hvalue, statusBadCommand, statusOk, statusBusy]
    · intro hbusy
      have hsome := (d.status_query_busy hsane execute hflags hquery hlen).mp hbusy
      simp [hpending] at hsome
  · obtain ⟨status, hne, hdispatch⟩ := dispatch_refused (recording execute) h hreaches
    rw [d.status_of_respond execute (hdispatch _) (by decide)]
    simpa using hne

variable [BpfFlash F]

theorem step_quiet (d : Device F) (e : Event) : (d.quiet.step e).quiet = (d.step e).quiet := by
  cases e with
  | executePending => rfl
  | request request execute =>
      have hsame := (dispatch_sameAnswer request (recording execute) d.toDispatchState
        (Vector.replicate _ 0)).2
      exact congrArg (fun s => (⟨s, d.flash⟩ : Device F)) hsame.symm

/-- A request that is only answered changes nothing else. -/
theorem quiet_step_of_respond {d : Device F} {request : Request} {execute : HostExecutor}
    {status : UInt8} {payload : List UInt8}
    (h : d.dispatched request execute = d.toDispatchState.respond request status payload) :
    (d.step (.request request execute)).quiet = d.quiet := by
  simp only [step, h, DispatchState.respond, quiet]

/-- After its turn the main loop has left nothing pending. -/
theorem pending_executePending (d : Device F) : d.executePending.loader.pending = none :=
  BpfLoader.executePending_pending

/-- Its second turn in a row does nothing. -/
theorem executePending_executePending (d : Device F) :
    d.executePending.executePending = d.executePending :=
  executePending_of_none d.pending_executePending

/-! ## the device without a schedule -/

/- The reference: the main loop runs before every request. -/

/-- A device that executes what it accepted before it looks at the next request:
its answers, and where it ends but for the response buffer. -/
def direct (execute : HostExecutor) (d : Device F) : List Request → List Reply × Device F
  | [] => ([], d.executePending.quiet)
  | request :: rest =>
      let d := d.executePending
      let later := direct execute (d.step (.request request execute)) rest
      ((d.reply request execute).toList ++ later.1, later.2)

variable (execute : HostExecutor)

theorem direct_quiet (d : Device F) (requests : List Request) :
    d.quiet.direct execute requests = d.direct execute requests := by
  induction requests generalizing d with
  | nil => rfl
  | cons request rest ih =>
      have hreply : d.quiet.executePending.reply request execute =
          d.executePending.reply request execute := d.executePending.reply_quiet request execute
      have hstep : (d.quiet.executePending.step (.request request execute)).quiet =
          (d.executePending.step (.request request execute)).quiet :=
        d.executePending.step_quiet (.request request execute)
      simp only [direct, hreply]
      rw [← ih, hstep, ih]

/-- Devices that differ in their response buffers behave alike. -/
theorem direct_congr {d d' : Device F} (h : d.quiet = d'.quiet) (requests : List Request) :
    d.direct execute requests = d'.direct execute requests := by
  rw [← direct_quiet, h, direct_quiet]

/-- It executes what is pending first, so that may as well have been done. -/
theorem direct_executePending (d : Device F) (requests : List Request) :
    d.executePending.direct execute requests = d.direct execute requests := by
  cases requests with
  | nil => rw [direct, direct, executePending_executePending]
  | cons request rest => rw [direct, direct, executePending_executePending]

end Device

/-! ## a host that retries -/

/- A host with a list of requests, and a schedule of turns for it and for the
main loop.  The host repeats the first request until the answer is not busy. -/

/-- Whose turn it is: the host's, to issue a request, or the main loop's. -/
inductive Turn where
  | host
  | mainLoop
deriving DecidableEq

/-- A device and its host: the requests the host still has to settle, and the
responses it has kept. -/
structure Exchange (F : Type) where
  device : Device F
  requests : List Request
  responses : List Reply

namespace Exchange

variable {F : Type}

/-- Every request has left busy, and the last operation is executed. -/
def Settled (x : Exchange F) : Prop := x.requests = [] ∧ x.device.loader.pending = none

instance (x : Exchange F) : Decidable x.Settled := inferInstanceAs (Decidable (_ ∧ _))

variable [BpfFlash F] (execute : HostExecutor)

/-- One turn.  The host keeps a request that is answered `STATUS_BUSY`, and goes
on to the next one otherwise. -/
def turn (x : Exchange F) : Turn → Exchange F
  | .mainLoop => { x with device := x.device.step .executePending }
  | .host =>
      match x.requests with
      | [] => x
      | request :: rest =>
          let device := x.device.step (.request request execute)
          if x.device.status request execute = some statusBusy then { x with device := device }
          else ⟨device, rest, x.responses ++ (x.device.reply request execute).toList⟩

/-- The exchange after a list of turns. -/
def run (x : Exchange F) (schedule : List Turn) : Exchange F :=
  Machine.run (turn execute) x schedule

/-- What the host will have kept, and where the device will end, if every
operation is executed at once from here on. -/
def total (x : Exchange F) : List Reply × Device F :=
  let later := x.device.direct execute x.requests
  (x.responses ++ later.1, later.2)

variable {execute}

/-! ## what a turn conserves -/

/- One lemma for each kind of turn, and the induction over the schedule. -/

/-- With nothing pending, the host's turn is what `direct` does next. -/
theorem total_host_idle {x : Exchange F} {request : Request} {rest : List Request}
    (hrequests : x.requests = request :: rest) (hpending : x.device.loader.pending = none)
    (hstatus : x.device.status request execute ≠ some statusBusy) :
    (x.turn execute .host).total execute = x.total execute := by
  have hidle : x.device.executePending = x.device := Device.executePending_of_none hpending
  simp only [turn, total, hrequests, if_neg hstatus, Device.direct, hidle, List.append_assoc]

/-- While an operation is pending, a request that reaches the loader waits. -/
theorem total_host_busy {x : Exchange F} {request : Request} {rest : List Request}
    (hrequests : x.requests = request :: rest) (hreaches : request.ReachesLoader)
    (hpending : x.device.loader.pending.isSome) :
    (x.turn execute .host).total execute = x.total execute := by
  have hdispatched : x.device.dispatched request execute =
      x.device.toDispatchState.respond request statusBusy [] :=
    dispatch_busy (recording execute) hreaches hpending
  have hstatus := x.device.status_of_respond execute hdispatched (by decide)
  have hquiet : (x.device.step (.request request execute)).quiet = x.device.quiet :=
    Device.quiet_step_of_respond hdispatched
  simp only [turn, total, hrequests, if_pos hstatus]
  rw [Device.direct_congr execute hquiet]

/-- A request that does not reach the loader is refused now as it would be
later. -/
theorem total_host_refused {x : Exchange F} {request : Request} {rest : List Request}
    (hrequests : x.requests = request :: rest) {status : UInt8} (hne : status ≠ statusBusy)
    (hdispatch : ∀ s : DispatchState (List BpfProgramMetadata),
      dispatchWithBpfAndExecutor request (recording execute) s = s.respond request status []) :
    (x.turn execute .host).total execute = x.total execute := by
  have hreply : ∀ d : Device F, d.reply request execute =
      some ⟨status, request.sequence, 0, []⟩ := fun d => by
    rw [Device.reply, Device.dispatched, hdispatch, replyOf_respond _ _ _ (by decide)]
  have hquiet : ∀ d : Device F, (d.step (.request request execute)).quiet = d.quiet := fun d =>
    Device.quiet_step_of_respond (hdispatch d.toDispatchState)
  have hstatus : x.device.status request execute ≠ some statusBusy := by
    rw [Device.status, hreply]
    simpa using hne
  have hlater : (x.device.step (.request request execute)).direct execute rest =
      (x.device.executePending.step (.request request execute)).direct execute rest := by
    rw [Device.direct_congr execute (hquiet _), Device.direct_congr execute (hquiet _),
      Device.direct_executePending]
  simp only [turn, total, hrequests, if_neg hstatus, Device.direct, hreply, hlater,
    List.append_assoc]

/-- The requests are for the loader, and the loader is sane. -/
structure Proper (x : Exchange F) : Prop where
  sane : x.device.loader.Sane
  requests : ∀ request ∈ x.requests, request.ForLoader

/-- A turn keeps the exchange proper. -/
theorem proper_turn {x : Exchange F} (h : x.Proper) (t : Turn) : (x.turn execute t).Proper := by
  cases t with
  | mainLoop => exact ⟨Device.sane_step h.sane _, h.requests⟩
  | host =>
      cases hrequests : x.requests with
      | nil => simpa only [turn, hrequests] using h
      | cons request rest =>
          have hsane := Device.sane_step h.sane (.request request execute)
          have hrest : ∀ later ∈ rest, later.ForLoader := fun later hlater =>
            h.requests later (hrequests ▸ List.mem_cons_of_mem request hlater)
          simp only [turn, hrequests]
          split_ifs
          · exact ⟨hsane, hrequests ▸ h.requests⟩
          · exact ⟨hsane, hrest⟩

/-- **Turn.** Whoever's turn it is, the total stays. -/
theorem total_turn (hexecute : NeverBusy execute) {x : Exchange F} (h : x.Proper) (t : Turn) :
    (x.turn execute t).total execute = x.total execute := by
  cases t with
  | mainLoop =>
      show (_ ++ (x.device.executePending.direct execute x.requests).1,
        (x.device.executePending.direct execute x.requests).2) = _
      rw [Device.direct_executePending]
      rfl
  | host =>
      cases hrequests : x.requests with
      | nil => simp only [turn, hrequests]
      | cons request rest =>
          have hfor : request.ForLoader := h.requests request (by simp [hrequests])
          cases hpending : x.device.loader.pending with
          | none =>
              exact total_host_idle hrequests hpending
                (Device.status_ne_busy h.sane hpending hfor hexecute)
          | some operation =>
              by_cases hreaches : request.ReachesLoader
              · exact total_host_busy hrequests hreaches (by simp [hpending])
              · obtain ⟨status, hne, hdispatch⟩ :=
                  dispatch_refused (recording execute) hfor hreaches
                exact total_host_refused hrequests hne hdispatch

/-- And so it does over every schedule. -/
theorem total_run (hexecute : NeverBusy execute) {x : Exchange F} (h : x.Proper)
    (schedule : List Turn) : (x.run execute schedule).total execute = x.total execute := by
  have hinv : (x.run execute schedule).Proper ∧
      (x.run execute schedule).total execute = x.total execute :=
    Machine.invariant_run (P := fun _ => True)
      (I := fun y : Exchange F => y.Proper ∧ y.total execute = x.total execute)
      (fun y t _ hy => ⟨proper_turn hy.1 t, (total_turn hexecute hy.1 t).trans hy.2⟩) ⟨h, rfl⟩
      fun _ _ => trivial
  exact hinv.2

/-- Where nothing is left, the total is what there is. -/
theorem Settled.total_eq {x : Exchange F} (h : x.Settled) :
    x.total execute = (x.responses, x.device.quiet) := by
  have hidle : x.device.executePending = x.device := Device.executePending_of_none h.2
  simp only [total, h.1, Device.direct, hidle, List.append_nil]

/-- **Refinement.** A settled schedule answers what the device without a
schedule answers, and ends where it does. -/
theorem Settled.eq_direct (hexecute : NeverBusy execute) {x : Exchange F} (h : x.Proper)
    {schedule : List Turn} (hsettled : (x.run execute schedule).Settled) :
    ((x.run execute schedule).responses, (x.run execute schedule).device.quiet) =
      x.total execute := by
  rw [← total_run hexecute h schedule, hsettled.total_eq]

/-! ## schedules that settle -/

/- Not every schedule gets to the end; the one that lets the main loop run
before each request does. -/

/-- The main loop before every request, and once more at the end. -/
def promptly : List Request → List Turn
  | [] => [.mainLoop]
  | _ :: rest => .mainLoop :: .host :: promptly rest

/-- Where the main loop always comes first, no request is issued twice. -/
theorem settled_promptly (hexecute : NeverBusy execute) {x : Exchange F} (h : x.Proper)
    {requests : List Request} (hrequests : x.requests = requests) :
    (x.run execute (promptly requests)).Settled := by
  induction requests generalizing x with
  | nil => exact ⟨hrequests, x.device.pending_executePending⟩
  | cons request rest ih =>
      have hproper : (x.turn execute .mainLoop).Proper := proper_turn h .mainLoop
      have hfor : request.ForLoader := h.requests request (by simp [hrequests])
      have hstatus : (x.device.step .executePending).status request execute ≠ some statusBusy :=
        Device.status_ne_busy hproper.sane x.device.pending_executePending hfor hexecute
      refine ih (proper_turn hproper .host) ?_
      simp only [turn, hrequests, if_neg hstatus]

/-! ## the theorem -/

/- Any two settled schedules end alike, although the flash may fail where it
likes: whether an operation succeeds depends on the operations before it, and
these are the same. -/

/-- **Busy-retry.** From every state a booted device reaches, over every flash
and every executor that does not answer `STATUS_BUSY` itself: any two schedules
that settle the same Loads, Starts and CRC queries keep the same responses and
leave the same loader, the same flash after the same operations and the same
map backing. -/
theorem schedules_agree (statusQueue : StatusQueue) (mapBacking : MapBacking) (output : Output)
    (flash : F) (es : List Event) (hexecute : NeverBusy execute) (requests : List Request)
    (hrequests : ∀ request ∈ requests, request.ForLoader) (schedule schedule' : List Turn) :
    let d := (Device.boot statusQueue mapBacking output (Recorded.new flash)).run es
    let x : Exchange (Recorded F) := ⟨d, requests, []⟩
    let y := x.run execute schedule
    let z := x.run execute schedule'
    y.Settled → z.Settled →
      y.responses = z.responses ∧ y.device.loader = z.device.loader ∧
        y.device.flash.flash = z.device.flash.flash ∧
        y.device.flash.trace = z.device.flash.trace ∧
        y.device.mapBacking = z.device.mapBacking := by
  intro d x y z hy hz
  have hproper : x.Proper := ⟨Device.sane_run (Device.sane_boot _ _ _ _) es, hrequests⟩
  have hsame : (y.responses, y.device.quiet) = (z.responses, z.device.quiet) :=
    (Settled.eq_direct hexecute hproper hy).trans (Settled.eq_direct hexecute hproper hz).symm
  have hquiet : y.device.quiet = z.device.quiet := congrArg Prod.snd hsame
  have hloader : y.device.loader = z.device.loader := by
    rw [← Device.quiet_loader, hquiet, Device.quiet_loader]
  have hflash : y.device.flash = z.device.flash := by
    rw [← Device.quiet_flash, hquiet, Device.quiet_flash]
  have hbacking : y.device.mapBacking = z.device.mapBacking := by
    rw [← Device.quiet_mapBacking, hquiet, Device.quiet_mapBacking]
  exact ⟨congrArg Prod.fst hsame, hloader, congrArg Recorded.flash hflash,
    congrArg Recorded.trace hflash, hbacking⟩

/-- `exit` is loaded, started and queried. -/
def exitRequests : List Request :=
  [.ofPayload cmdLoadBpf 1 (0 :: Bytes.toLe 2 8 ++ [0] ++
      Bytes.toLe 4 (crc32IsoHdlc Device.exitProgram).toNat),
    .ofPayload cmdLoadBpf 2 (1 :: Bytes.toLe 2 0 ++ Device.exitProgram),
    .ofPayload cmdLoadBpf 3 [2], .ofPayload cmdStartBpf 4 [], .ofPayload cmdQueryBpfCrc 5 []]

/-- The main loop runs only once the host has been turned away. -/
def lazily : List Turn :=
  (List.replicate 4 [.host, .mainLoop, .host]).flatten ++ [.host]

/-- With a Begin of an earlier host still pending, the main loop may come first
or last. -/
theorem schedules_agree_exit :
    let d := (Device.boot .ready (Vector.replicate _ 0) (Vector.replicate _ 0)
      (Recorded.new (Nor.Chip.fresh (fun _ => 0xff) fun _ => .done))).run
        ((Device.load [0, 8, 0, 0, 0, 0, 0, 0]).take 1)
    let x : Exchange (Recorded Nor.Chip) := ⟨d, exitRequests, []⟩
    let y := x.run (Device.returning 0) (promptly exitRequests)
    let z := x.run (Device.returning 0) lazily
    y.responses = z.responses ∧ y.device.loader = z.device.loader ∧
      y.device.flash.flash = z.device.flash.flash ∧
      y.device.flash.trace = z.device.flash.trace ∧ y.device.mapBacking = z.device.mapBacking := by
  intro d x y z
  have hexecute : NeverBusy (Device.returning 0) := fun _ _ h => by contradiction
  have hy : y.Settled := by decide +kernel
  have hz : z.Settled := by decide +kernel
  have h := schedules_agree .ready (Vector.replicate _ 0) (Vector.replicate _ 0)
    (Nor.Chip.fresh (fun _ => 0xff) fun _ => .done) ((Device.load [0, 8, 0, 0, 0, 0, 0, 0]).take 1)
    hexecute exitRequests (by decide +kernel) (promptly exitRequests) lazily
  simp only at h
  simp only [d, x, y, z] at hy hz ⊢
  exact h hy hz

end Exchange

end OptiBridge
