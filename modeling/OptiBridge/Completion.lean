import OptiBridge.Transfers

/-!
# OptiBridge.Completion

When a host's transfer goes through: if every transaction succeeds in time, the main
loop keeps running and finds the bus idle when it looks, no timer is set and the
flash does not fail, then every polling loop ends and the transfer returns.

The measure is `untilFree`, the number of statements the main loop still needs
to execute what is pending.  A loop of the script makes at most so many queries
before the answer is no longer busy, and since the number is at most seven, the
100 attempts of the source are far more than enough.

* `waitReadyFrom_returns`, a polling loop that has enough attempts left ends;
* `submitLoadStep_returns`, one step of a transfer returns if what it does is
  what the script expects;
* `loadImage_returns`, a whole transfer;
* `load_image_committed` and `load_image_served`, what a transfer that
  returned has done, and that one does return.
-/

namespace OptiBridge

open Bytes Nor Script

/-- The main loop runs a statement. -/
def Background.isMain : Background → Bool
  | .main _ => true
  | .activity _ | .tick _ => false

/-! ## a quiet target -/

/- No timer, no reset, no invocation and a flash that succeeds: then the main
loop goes round and round through the same statements. -/

/-- The statements that handle a timer event. -/
def Statement.handlesTimer : Statement → Bool
  | .claim _ | .checkGeneration _ | .fetchMetadata _ | .invoke _ _ | .invoked | .release => true
  | .checkReset | .checkPending | .waitForI2cBusIdle | .executePending | .pollTimer
  | .takeReadyTimer | .sleep => false

/-- How many statements the main loop is away from executing what is pending. -/
def toExecute : Statement → Nat
  | .executePending => 0
  | .waitForI2cBusIdle => 1
  | .checkPending => 2
  | .checkReset => 3
  | .sleep => 4
  | .takeReadyTimer => 5
  | .pollTimer | .claim _ | .checkGeneration _ | .fetchMetadata _ | .invoke _ _ | .invoked
  | .release => 6

/-- The main loop is never more than six statements away from the flash work. -/
theorem toExecute_le (statement : Statement) : toExecute statement ≤ 6 := by
  cases statement <;> simp [toExecute]

namespace Firmware

/-- No reset is awaited, no program runs, no timer is set, and the flash does not
fail. -/
structure Quiet (f : Firmware Chip) : Prop where
  reset : f.resetPending = false
  active : f.captured.bpfExecutionActive = false
  pending : f.captured.timer.pending = none
  ready : f.captured.timer.ready = none
  next : f.next.handlesTimer = false
  sane : f.loader.Sane
  reliable : f.flash.Reliable

/-- A quiet target stays on the statements that handle no timer. -/
theorem Quiet.moves {f : Firmware Chip} (h : f.Quiet) {busIdle : Bool} {statement : Statement}
    (hmoves : Moves f busIdle f.next statement) : statement.handlesTimer = false := by
  have hnext := h.next
  generalize f.next = statement' at hmoves hnext
  cases hmoves with
  | current | stale | fetched | unfetched => contradiction
  | _ => rfl

/-- A statement of the main loop leaves a quiet target quiet. -/
theorem Quiet.main {f : Firmware Chip} (h : f.Quiet) (busIdle : Bool) :
    (f.mainStep busIdle).Quiet := by
  have hsane : (f.mainStep busIdle).loader.Sane :=
    (kept_sane Chip).firmware_step h.sane (.main busIdle)
  have hstep := f.main_step busIdle
  generalize f.mainStep busIdle = f' at hstep hsane
  have hnext := h.next
  cases hstep with
  | moved hmoves => exact { h with next := h.moves hmoves }
  | reset _ hreset =>
      rw [h.reset] at hreset
      contradiction
  | executed =>
      exact ⟨h.reset, h.active, h.pending, h.ready, rfl, hsane,
        reliable_executePending h.sane h.reliable⟩
  | polled =>
      have htimer : f.captured.timer.pollTimer f.captured.now = f.captured.timer := by
        simp [TimerState.pollTimer, h.pending]
      refine { h with pending := ?_, ready := ?_, next := rfl }
      · exact htimer.symm ▸ h.pending
      · exact htimer.symm ▸ h.ready
  | notReady => exact { h with ready := rfl, next := rfl }
  | took _ htaken =>
      have hready : f.captured.timer.ready = some _ := htaken
      rw [h.ready] at hready
      contradiction
  | restored hclaim | claimed hclaim | invoked hclaim | returned hclaim | released hclaim =>
      rw [hclaim] at hnext
      contradiction

/-- Left to itself, a quiet target stays quiet. -/
theorem steady_quiet : Steady Quiet where
  reset f h := h.reset
  output f output h := { h with }
  background f b h := by
    cases b with
    | main busIdle => exact h.main busIdle
    | tick ticks => exact { h with }
    | activity activity =>
        have hnot : ¬ f.next = .invoked := fun hinvoked => by
          have hnext := h.next
          rw [hinvoked] at hnext
          contradiction
        simp only [Background.event, step, activityStep, if_neg hnot]
        exact h

/-! ## nearer to what is pending -/

/- Each statement of the main loop lowers the measure by one; nothing else
raises it. -/

/-- How many statements there are until nothing is pending. -/
def untilFree {F : Type} (f : Firmware F) : Nat :=
  if f.loader.pending.isSome then toExecute f.next + 1 else 0

/-- At most seven statements. -/
theorem untilFree_le {F : Type} (f : Firmware F) : f.untilFree ≤ 7 := by
  have hle := toExecute_le f.next
  unfold untilFree
  split_ifs <;> omega

/-- None if nothing is pending. -/
theorem untilFree_of_none {F : Type} {f : Firmware F} (h : f.loader.pending = none) :
    f.untilFree = 0 := by
  simp [untilFree, h]

/-- A statement that moves on moves nearer. -/
theorem toExecute_moves {f : Firmware Chip} (h : f.Quiet) (hpending : f.loader.pending.isSome)
    {statement : Statement} (hmoves : Moves f true f.next statement) :
    toExecute statement + 1 ≤ toExecute f.next := by
  have hnext := h.next
  generalize f.next = statement' at hmoves hnext
  cases hmoves with
  | nonePending hnone => simp [hnone] at hpending
  | busy hbusy => contradiction
  | current | stale | fetched | unfetched => contradiction
  | _ => simp [toExecute]

/-- A statement of the main loop, on an idle bus. -/
theorem untilFree_main {f : Firmware Chip} (h : f.Quiet) :
    (f.mainStep true).untilFree ≤ f.untilFree - 1 := by
  cases hpending : f.loader.pending with
  | none =>
      obtain ⟨-, hstorage⟩ := storage_background h.reset (.main true)
      rw [BpfLoader.executePending_rests hpending, or_self, Prod.mk.injEq] at hstorage
      have hloader : (f.mainStep true).loader = f.loader := hstorage.1
      rw [untilFree_of_none (hloader ▸ hpending)]
      exact Nat.zero_le _
  | some operation =>
      have hsome : f.loader.pending.isSome := by rw [hpending]; rfl
      have hnext := h.next
      have hstep := f.main_step true
      generalize f.mainStep true = f' at hstep
      cases hstep with
      | moved hmoves =>
          have hnear := toExecute_moves h hsome hmoves
          simp only [untilFree, hsome, if_true]
          omega
      | reset _ hreset =>
          rw [h.reset] at hreset
          contradiction
      | executed =>
          have hdone : f.executePending.loader.pending = none := BpfLoader.executePending_pending
          simp [untilFree, hdone]
      | polled hat | notReady hat => simp [untilFree, hsome, hat, toExecute]
      -- a quiet target has no timer event to serve
      | took _ htaken =>
          have hready : f.captured.timer.ready = some _ := htaken
          rw [h.ready] at hready
          contradiction
      | restored hclaim | claimed hclaim | invoked hclaim | returned hclaim | released hclaim =>
          rw [hclaim] at hnext
          contradiction

/-- Anything else. -/
theorem untilFree_other {f : Firmware Chip} {b : Background} (hmain : ¬ b.isMain) :
    (f.step b.event).untilFree ≤ f.untilFree := by
  cases b with
  | main busIdle => exact absurd rfl hmain
  | tick ticks => exact Nat.le_refl _
  | activity activity =>
      simp only [Background.event, step, activityStep]
      split_ifs <;> exact Nat.le_refl _

end Firmware

/-- Nothing goes wrong around a transaction: it succeeds and is answered in time,
the main loop runs a statement, and none finds the bus busy. -/
structure Transaction.Smooth (turn : Transaction) : Prop where
  answered : turn.Answered
  runs : ∃ busIdle, .main busIdle ∈ turn.before
  idle : ∀ busIdle, .main busIdle ∈ turn.before → busIdle = true

namespace Firmware

/-- The main loop over a turn in which it finds the bus idle. -/
theorem untilFree_run {f : Firmware Chip} (h : f.Quiet) {bs : List Background}
    (hidle : ∀ busIdle, .main busIdle ∈ bs → busIdle = true) :
    (f.run (bs.map Background.event)).untilFree ≤
      f.untilFree - bs.countP Background.isMain := by
  induction bs generalizing f with
  | nil => simp [run]
  | cons b bs ih =>
      have hrest := ih (steady_quiet.background f b h) fun busIdle hmem =>
        hidle busIdle (List.mem_cons_of_mem _ hmem)
      show ((f.step b.event).run _).untilFree ≤ _
      by_cases hmain : b.isMain
      · have hnear : (f.step b.event).untilFree ≤ f.untilFree - 1 := by
          cases b with
          | main busIdle =>
              obtain rfl := hidle busIdle List.mem_cons_self
              exact untilFree_main h
          | activity | tick => contradiction
        rw [List.countP_cons_of_pos hmain]
        omega
      · have hnear := untilFree_other (f := f) hmain
        rw [List.countP_cons_of_neg hmain]
        omega

end Firmware

namespace Bus

/-- Every transaction to come goes well. -/
abbrev Smooth {S : Type} (bus : Bus Chip S) : Prop := ∀ k, (bus.turns k).Smooth

variable {S : Type} [I2cSlave S] {bus : Bus Chip S}

/-- Up to a transaction the main loop gets nearer. -/
theorem untilFree_reach (hquiet : bus.firmware.Quiet) (hsmooth : bus.Smooth) :
    bus.reach.firmware.untilFree ≤ bus.firmware.untilFree - 1 := by
  have hrun := Firmware.untilFree_run hquiet (hsmooth 0).idle
  obtain ⟨busIdle, hmem⟩ := (hsmooth 0).runs
  have hsome : 0 < (bus.turns 0).before.countP Background.isMain :=
    List.countP_pos_iff.mpr ⟨_, hmem, rfl⟩
  rw [bus.firmware_reach, passing]
  omega

end Bus

namespace Host

variable {P S : Type} [I2cSlave S] [LawfulI2cSlave S] [I2cMaster (Bus Chip S)]
  [LawfulI2cBus Chip S] [SerialPort P (Bus Chip S)] [LawfulSerialPort P (Bus Chip S)]

/-- The host can make a request, and nothing will go wrong. -/
structure Ready (port : P) (bus : Bus Chip S) : Prop where
  idle : Idle port bus
  quiet : bus.firmware.Quiet
  smooth : bus.Smooth

variable {port : P} {bus : Bus Chip S}

omit [I2cSlave S] [LawfulI2cSlave S] in
/-- A quiet target is busy only while something is pending. -/
theorem pending_of_busy {f : Firmware Chip} (h : f.Quiet) {sequence : UInt8} {heard : List UInt8}
    (hbegins : (f.queryReply sequence).bytes <+: heard) (hbusy : heard[1]? = some statusBusy) :
    f.loader.pending.isSome := by
  have hcommand : (f.loader.queryReply sequence).command = statusBusy := by
    obtain ⟨rest, rfl⟩ := hbegins
    simpa [Firmware.queryReply, h.active, Frame.bytes] using hbusy
  by_contra hnone
  unfold BpfLoader.queryReply BpfLoader.query at hcommand
  rw [if_neg hnone] at hcommand
  have hfailed := h.sane.failed
  cases hstate : f.loader.state with
  | failed status =>
      rw [hstate] at hcommand hfailed
      have hbusy : status = statusBusy := hcommand
      rcases hfailed status rfl with rfl | rfl | rfl <;> exact absurd hbusy (by decide)
  | empty | receiving | committed | running =>
      rw [hstate] at hcommand
      simp [statusFrame, statusBusy, statusOk, statusNoProgram] at hcommand

/-- **Polling ends.** -/
theorem waitReadyFrom_returns {left : Nat} (hready : Ready port bus) {sequence : Nat}
    (hsequence : sequence < 256) (hleft : bus.firmware.untilFree < left) :
    ∃ response next port' after, Returns (waitReadyFrom left sequence) port (response, next) port' ∧
      Ready port' after ∧ next < 256 := by
  -- there are more attempts left than statements up to the execution
  induction left generalizing port bus sequence with
  | zero => exact absurd hleft (Nat.not_lt_zero _)
  | succ left ih =>
      obtain ⟨idle, after, heard, hafter, hheard, hquery⟩ := returns_query hready.idle sequence
      have hwrite := (hready.smooth 0).answered
      have hread := (hready.smooth 1).answered
      have hasked := (hquery heard idle).mpr ⟨hsequence, hwrite, hread, rfl, rfl⟩
      have hheard := hheard hwrite hread
      have hreached := Firmware.steady_quiet.reach hready.quiet
      obtain ⟨hbegins, hquiet, output, hfirmware⟩ :=
        heard_answer Firmware.steady_quiet hreached hheard
      have hsmooth : after.Smooth := fun k => by
        rw [hheard.turns]
        exact hready.smooth (k + 2)
      have hnext : (sequence + 2) % 256 < 256 := Nat.mod_lt _ (by decide)
      simp only [waitReadyFrom, returns_bind, returns_ite, returns_pure]
      by_cases hfree : 5 ≤ heard.length ∧ heard[1]? ≠ some statusBusy
      · exact ⟨_, _, _, after, ⟨heard, idle, hasked, .inl ⟨hfree, rfl, rfl⟩⟩,
          ⟨hafter, hquiet, hsmooth⟩, hnext⟩
      · -- the target was busy, so something was pending when it was asked
        have hbusy : heard[1]? = some statusBusy := by
          by_contra hne
          exact hfree ⟨by rw [hheard.length]; decide, hne⟩
        have hpending := pending_of_busy hreached hbegins hbusy
        have hreach := Bus.untilFree_reach hready.quiet hready.smooth
        have hsince : after.firmware.untilFree ≤ bus.reach.firmware.untilFree := by
          have hquiet' := Firmware.steady_quiet.output _ output hreached
          have hrun := Firmware.untilFree_run hquiet' (hready.smooth 1).idle
          rw [hfirmware]
          exact hrun.trans (Nat.sub_le _ _)
        have hnear : after.firmware.untilFree < left := by
          have hsome : 0 < bus.reach.firmware.untilFree := by simp [Firmware.untilFree, hpending]
          omega
        obtain ⟨response, next, port', after', hreturns, hdone⟩ :=
          ih ⟨hafter, hquiet, hsmooth⟩ hnext hnear
        exact ⟨_, _, _, after', ⟨heard, idle, hasked, .inr ⟨hfree, hreturns⟩⟩, hdone⟩

omit [LawfulI2cSlave S] in
/-- An operation that is accepted disturbs no one. -/
theorem quiet_accepted {f : Firmware Chip} (h : f.Quiet) {request : Request}
    {operation : LoadOperation} (hop : f.loader.loadOperation request = .ok operation)
    (output : Output) :
    ({ f with loader := { f.loader with pending := some operation }, output := output } :
      Firmware Chip).Quiet :=
  { h with sane := h.sane.accept hop }

/-- A Load that the target accepts. -/
theorem targetRequest_returns (hready : Ready port bus) {payload : List UInt8}
    (hpayload : payload.length ≤ 10) {sequence : Nat} (hsequence : sequence < 256)
    {operation : LoadOperation}
    (hop : bus.reach.firmware.loader.loadOperation
      (requestFrame cmdLoadBpf sequence payload hpayload).request = .ok operation) :
    ∃ response next port' after output,
      Returns (targetRequest sequence cmdLoadBpf payload 5) port (response, next) port' ∧
        response.drop 1 = acceptance next ∧ Ready port' after ∧ next < 256 ∧
        after.firmware = ({ bus.reach.firmware with
          loader := { bus.reach.firmware.loader with pending := some operation }
          output := output } : Firmware Chip).run (bus.passing 1) := by
  have hreached := Firmware.steady_quiet.reach hready.quiet
  obtain ⟨output, hqueued⟩ := Firmware.packet_load_accepted
    (requestFrame cmdLoadBpf sequence payload hpayload) rfl rfl hreached.active hop
    (bus.turns 0).invocation
  have hreply := congrArg Prod.fst hqueued
  have hasked : (bus.asked (requestFrame cmdLoadBpf sequence payload hpayload)).2 = _ :=
    congrArg Prod.snd hqueued
  have hnotReset : cmdLoadBpf ≠ cmdReset := by decide
  obtain ⟨reply, hreply', hanswers⟩ := bus.reach.firmware.exists_reply
    (requestFrame cmdLoadBpf sequence payload hpayload) hnotReset (bus.turns 0).invocation
  obtain rfl := Frame.bytes_inj.mp (Option.some.inj (hreply'.symm.trans hreply))
  obtain ⟨idle, after, hafter, hfollows, hrequest⟩ :=
    returns_targetRequest hready.idle hpayload sequence (show 5 ≤ maxPayload by decide) hreply
      hanswers
  have hquiet := quiet_accepted hreached hop output
  have hunbroken : Bus.Unbroken
      (bus.asked (requestFrame cmdLoadBpf sequence payload hpayload)).2 (bus.passing 1) := by
    rw [hasked]
    exact Firmware.steady_quiet.unbroken hquiet _
  have hreplied : bus.Replied (requestFrame cmdLoadBpf sequence payload hpayload) :=
    ⟨(hready.smooth 0).answered, (hready.smooth 1).answered, hunbroken⟩
  obtain ⟨hfirmware, hturns⟩ := hfollows hreplied
  rw [hasked] at hfirmware
  have hreturns := (hrequest _ _ _).mpr ⟨hsequence, hreplied, rfl, rfl, rfl, rfl⟩
  refine ⟨_, _, idle, after, output, hreturns, accepted_statusOk hsequence, ⟨hafter, ?_, ?_⟩, ?_,
    hfirmware⟩
  · exact hfirmware ▸ Firmware.steady_quiet.run hquiet _
  · exact fun k => hturns ▸ hready.smooth (k + 2)
  · exact Nat.mod_lt _ (by decide)

/-- A step that the target accepts, and that comes out as expected. -/
theorem submitLoadStep_returns (hready : Ready port bus) {payload : List UInt8}
    (hpayload : payload.length ≤ 10) {sequence : Nat} (hsequence : sequence < 256)
    {operation : LoadOperation}
    (hop : bus.reach.firmware.loader.loadOperation
      (requestFrame cmdLoadBpf sequence payload hpayload).request = .ok operation)
    {expected : UInt8}
    (hexpected : ∀ l' ops, BpfLoader.Executed bus.reach.firmware.loader
      bus.reach.firmware.flash.contents operation l' ops → (∀ p ∈ ops, p.2 = .done) →
        ∀ sequence, (l'.queryReply sequence).command = expected) :
    ∃ response next port' after,
      Returns (submitLoadStep sequence payload expected) port (response, next) port' ∧
        Ready port' after ∧ next < 256 := by
  have hreached := Firmware.steady_quiet.reach hready.quiet
  obtain ⟨accepted, sequence₁, port₁, loaded, output, hload, haccepted, hready₁, hsequence₁,
    hfirmware⟩ := targetRequest_returns hready hpayload hsequence hop
  have hleft : loaded.firmware.untilFree < attempts :=
    Nat.lt_of_le_of_lt loaded.firmware.untilFree_le (by decide)
  obtain ⟨response, next, port', after, hwait, hready', hnext⟩ :=
    waitReadyFrom_returns hready₁ hsequence₁ hleft
  obtain ⟨hpending, -, -, -⟩ := BpfLoader.loadOperation_ok hop
  have hworking : loaded.firmware.Working bus.reach.firmware.loader bus.reach.firmware.flash
      operation := by
    rw [hfirmware]
    apply (Firmware.steady_working hpending _ operation).run
    exact ⟨hreached.reset, hreached.sane.accept hop, .inl ⟨rfl, rfl⟩⟩
  obtain ⟨after', l', flash', ops, -, -, -, hran, hissued, sequence', hbegins⟩ :=
    waitReady_executed hready₁.idle hpending hworking hwait
  have hcommand := hexpected l' ops hran (hreached.reliable.issued hissued).2 sequence'
  have hcompleted : ¬ (response.length < 5 ∨ response[1]? ≠ some expected) := by
    obtain ⟨rest, rfl⟩ := hbegins
    simp [Frame.bytes, hcommand]
  refine ⟨response, next, port', after, ?_, hready', hnext⟩
  simp only [submitLoadStep, returns_bind, Prod.exists]
  refine ⟨accepted, sequence₁, port₁, hload, ?_⟩
  simp only [throw_bind, returns_raise, returns_bind, Prod.exists]
  refine ⟨not_not.mpr haccepted, response, next, port', hwait, ?_⟩
  exact ⟨hcompleted, returns_pure.mpr ⟨rfl, rfl⟩⟩

end Host

/-! ## what operations come to on a flash that does not fail -/

/- Of the ways `BpfLoader.Executed` lists, one is left for each operation. -/

namespace BpfLoader

variable {image : LoadableImage} {l l' : BpfLoader} {c : Contents} {ops : List (Op × Outcome)}

/-- After a Begin that did not fail a query says that there is no program yet. -/
theorem Executed.begun_done {bytecodeLen : UInt16} {mapCount : UInt8} {crc : UInt32}
    (h : Executed l c (.begin bytecodeLen mapCount crc) l' ops) (hpending : l.pending = none)
    (hdone : ∀ p ∈ ops, p.2 = .done) : l'.query = .error statusNoProgram := by
  cases h with
  | eraseFailed | headerFailed => simp at hdone
  | received => simp [query, clearMapLayouts, hpending]

/-- So it does after a Data. -/
theorem Executed.extended_done {received : List UInt8} {offset : UInt16} {bytes : Vector UInt8 12}
    {len : UInt8} (h : Executed (image.receiving received) c (.data offset bytes len) l' ops)
    (hdone : ∀ p ∈ ops, p.2 = .done) : l'.query = .error statusNoProgram := by
  cases h with
  | writeFailed => simp at hdone
  | stored => rfl

/-- After a Finalize of the whole image it gives the image's CRC. -/
theorem Executed.finished_done
    (h : Executed (image.receiving image.bytes) (image.stored c image.bytes) .finalize l' ops)
    (hdone : ∀ p ∈ ops, p.2 = .done) : l'.query = .ok image.crc := by
  have hcrc : crc32Finish (image.receiving image.bytes).crc =
      (image.receiving image.bytes).expectedCrc := rfl
  cases h with
  | badCrc hbad => exact absurd hcrc hbad
  | badMaps _ _ hbad =>
      cases hbad with
      | inl hfailed =>
          obtain ⟨p, hp, hne⟩ := hfailed
          exact absurd (hdone p hp) hne
      | inr hinvalid =>
          have hdescriptors : descriptorsAt (image.stored c image.bytes)
              (image.receiving image.bytes).bytecodeLen (image.receiving image.bytes).mapCount =
              image.descriptors := image.descriptorsAt_stored c
          rw [hdescriptors] at hinvalid
          exact absurd image.maps hinvalid
  | markerFailed =>
      have hfailed := hdone _ (List.mem_append_right _ (List.mem_singleton_self _))
      contradiction
  | committed => rfl

end BpfLoader

/-! ## a whole transfer -/

/- Step by step through `load_image`: each step is accepted, executed while the
host polls, and leaves the loader ready for the next. -/

namespace Host

variable {P S : Type} [I2cSlave S] [LawfulI2cSlave S] [I2cMaster (Bus Chip S)]
  [LawfulI2cBus Chip S] [SerialPort P (Bus Chip S)] [LawfulSerialPort P (Bus Chip S)]
  {port : P} {bus : Bus Chip S}

omit [I2cSlave S] [LawfulI2cSlave S] [I2cMaster (Bus Chip S)] [LawfulI2cBus Chip S]
  [LawfulSerialPort P (Bus Chip S)] in
/-- A port has one bus behind it. -/
theorem idle_unique {bus' : Bus Chip S} (h : Idle port bus) (h' : Idle port bus') :
    bus = bus' := by
  obtain ⟨-, s, hs, rfl, -⟩ := h
  obtain ⟨-, s', hs', rfl, -⟩ := h'
  rw [hs] at hs'
  cases hs'
  rfl

/-- Begin. -/
theorem begin_returns (hready : Ready port bus)
    (hpending : bus.reach.firmware.loader.pending = none)
    (hrunning : bus.reach.firmware.loader.state.isRunning = false) {bytecode : List UInt8}
    (hgood : GoodBytecode bytecode) {sequence : Nat} (hsequence : sequence < 256) :
    ∃ response next port' after,
      Returns (submitLoadStep sequence (0 :: (toLe 2 bytecode.length ++ [1] ++
        toLe 4 (crc32IsoHdlc (bytecode ++ mapDescriptor)).toNat)) statusNoProgram) port
          (response, next) port' ∧ Ready port' after ∧ next < 256 ∧
        after.firmware.Receives (imageOf bytecode hgood) bus.reach.firmware.flash.contents [] := by
  have hreached := Firmware.steady_quiet.reach hready.quiet
  have hpayload : (0 :: (toLe 2 bytecode.length ++ [1] ++
      toLe 4 (crc32IsoHdlc (bytecode ++ mapDescriptor)).toNat)).length ≤ 10 := by simp
  have hbytes := bytes_request (requestFrame cmdLoadBpf sequence _ hpayload)
  have hencoded := encoded_begin_of_bytes (hbytes.trans (by rw [hgood.toNat_length]; rfl))
  have haccepts : bus.reach.firmware.loader.Accepts (.begin (UInt16.ofNat bytecode.length) 1
      (crc32IsoHdlc (bytecode ++ mapDescriptor))) :=
    ⟨_, imageLen_eq _ _, not_bad_of_goodBounds hgood.bounds⟩
  have hop := BpfLoader.loadOperation_of_encoded hpending hrunning haccepts hencoded
  obtain ⟨response, next, port', after, hreturns, hready', hnext⟩ :=
    submitLoadStep_returns hready hpayload hsequence hop fun l' ops hexecuted hdone sequence' => by
      rw [BpfLoader.queryReply_error (hexecuted.begun_done hpending hdone)]
      rfl
  have hlength : bytecode.length < 2 ^ 16 := Nat.lt_of_le_of_lt hgood.fits (by decide)
  obtain ⟨_, after', hafter', hreceives⟩ :=
    submit_begin hready.idle hreached.reset hreached.sane hlength hreturns
  obtain rfl := idle_unique hafter' hready'.idle
  exact ⟨response, next, port', after', hreturns, hready', hnext, hreceives⟩

/-- One Data. -/
theorem data_returns (hready : Ready port bus) {image : LoadableImage} {c : Contents}
    {received fragment : List UInt8} (hreceives : bus.firmware.Receives image c received)
    (hfragment : (2 ≤ fragment.length ∧ fragment.length ≤ 6) ∧ fragment.length % 2 = 0)
    (hfit : received.length + fragment.length ≤ image.bytes.length) {sequence : Nat}
    (hsequence : sequence < 256) :
    ∃ response next port' after,
      Returns (submitLoadStep sequence (1 :: (toLe 2 received.length ++ fragment))
        statusNoProgram) port (response, next) port' ∧ Ready port' after ∧ next < 256 ∧
        after.firmware.Receives image c (received ++ fragment) := by
  have hreached := reach_receives hreceives
  have hbound := image.length_lt
  have hlt : received.length < 2 ^ 16 := by omega
  have hoffset : (UInt16.ofNat received.length).toNat = received.length :=
    UInt16.toNat_ofNat_of_lt' hlt
  have hlength : (UInt16.ofNat image.bytes.length).toNat = image.bytes.length :=
    UInt16.toNat_ofNat_of_lt' hbound
  have hlen : (UInt8.ofNat fragment.length).toNat = fragment.length :=
    UInt8.toNat_ofNat_of_lt' (Nat.lt_of_le_of_lt hfragment.1.2 (by decide))
  have hshort : fragment.length ≤ 12 := Nat.le_trans hfragment.1.2 (by decide)
  have hpayload : (1 :: (toLe 2 received.length ++ fragment)).length ≤ 10 := by
    simp
    omega
  have haccepts : (image.receiving received).Accepts (.data (UInt16.ofNat received.length)
      (copySlice (Vector.replicate _ 0) 0 fragment) (UInt8.ofNat fragment.length)) := by
    refine ⟨rfl, rfl, ?_, ?_, ?_⟩
    · exact hlen.symm ▸ ⟨hfragment.1.1, hshort⟩
    · exact hlen.symm ▸ hfragment.2
    · show (UInt16.ofNat received.length).toNat + _ ≤ (UInt16.ofNat image.bytes.length).toNat
      rw [hoffset, hlength, hlen]
      exact hfit
  have hencoded := encoded_dataPayload hlt ⟨⟨hfragment.1.1, hshort⟩, hfragment.2⟩
    (bytes_request (requestFrame cmdLoadBpf sequence _ hpayload))
  have hop := BpfLoader.loadOperation_of_encoded rfl rfl haccepts hencoded
  rw [← hreached.loader] at hop
  obtain ⟨response, next, port', after, hreturns, hready', hnext⟩ :=
    submitLoadStep_returns hready hpayload hsequence hop fun l' ops hexecuted hdone sequence' => by
      rw [hreached.loader] at hexecuted
      rw [BpfLoader.queryReply_error (hexecuted.extended_done hdone)]
      rfl
  obtain ⟨after', hafter', hreceives'⟩ :=
    submit_data hready.idle hreceives hfragment hlt hreturns
  obtain rfl := idle_unique hafter' hready'.idle
  exact ⟨response, next, port', after', hreturns, hready', hnext, hreceives'⟩

/-- Every fragment of an image, from `start` on. -/
theorem loadFragments_returns {image : LoadableImage} (heven : image.bytes.length % 2 = 0)
    {c : Contents} {count start : Nat} (hcount : count = (image.bytes.length - start + 5) / 6)
    (hstart : start % 2 = 0) (hready : Ready port bus)
    (hreceives : bus.firmware.Receives image c (image.bytes.take start)) {sequence : Nat}
    (hsequence : sequence < 256) :
    ∃ next port' after,
      Returns (loadFragments image.bytes (List.range' start count 6) sequence) port next port' ∧
        Ready port' after ∧ next < 256 ∧ after.firmware.Receives image c image.bytes := by
  -- on the pages that are left; what was sent before has been received
  induction count generalizing port bus start sequence with
  | zero =>
      have hall : image.bytes.take start = image.bytes := List.take_of_length_le (by omega)
      rw [hall] at hreceives
      exact ⟨sequence, port, bus, returns_pure.mpr ⟨rfl, rfl⟩, hready, hsequence, hreceives⟩
  | succ count ih =>
      have hbound := image.length_lt
      have hstarted : start < image.bytes.length := by omega
      have hreceived : (image.bytes.take start).length = start := by
        rw [List.length_take]
        omega
      have hfragment : ((image.bytes.drop start).take 6).length =
          min 6 (image.bytes.length - start) := by
        rw [List.length_take, List.length_drop]
      have hnext : image.bytes.take start ++ (image.bytes.drop start).take 6 =
          image.bytes.take (start + 6) := List.take_add.symm
      have hbounds : (2 ≤ ((image.bytes.drop start).take 6).length ∧
          ((image.bytes.drop start).take 6).length ≤ 6) ∧
          ((image.bytes.drop start).take 6).length % 2 = 0 := by
        rw [hfragment]
        omega
      obtain ⟨response, sequence', port₁, after, hsubmit, hready', hsequence', hextended⟩ :=
        data_returns hready hreceives hbounds (by rw [hreceived, hfragment]; omega) hsequence
      rw [hreceived] at hsubmit
      rw [hnext] at hextended
      obtain ⟨next, port', after', hrest, hdone⟩ :=
        ih (by omega) (by omega) hready' hextended hsequence'
      have hposition : Returns (pack 2 start) port (toLe 2 start) port :=
        returns_pack.mpr ⟨by show start < 65536; omega, rfl, rfl⟩
      refine ⟨next, port', after', ?_, hdone⟩
      rw [List.range'_succ, loadFragments, returns_bind]
      refine ⟨_, _, hposition, ?_⟩
      simp only [returns_bind, Prod.exists]
      exact ⟨response, sequence', port₁, hsubmit, hrest⟩

/-- Finalize. -/
theorem finalize_returns (hready : Ready port bus) {image : LoadableImage} {c : Contents}
    (hreceives : bus.firmware.Receives image c image.bytes) {sequence : Nat}
    (hsequence : sequence < 256) :
    ∃ response next port' after,
      Returns (submitLoadStep sequence [2] statusOk) port (response, next) port' ∧
        Ready port' after ∧ next < 256 ∧ response[1]? = some statusOk ∧ response[2]? = some 4 ∧
        (response.drop 5).take 4 = toLe 4 image.crc.toNat := by
  have hreached := reach_receives hreceives
  have hpayload : ([2] : List UInt8).length ≤ 10 := by decide
  have hencoded := encoded_finalizePayload
    (bytes_request (requestFrame cmdLoadBpf sequence _ hpayload))
  have haccepts : (image.receiving image.bytes).Accepts .finalize := ⟨rfl, rfl⟩
  have hop := BpfLoader.loadOperation_of_encoded rfl rfl haccepts hencoded
  rw [← hreached.loader] at hop
  obtain ⟨response, next, port', after, hreturns, hready', hnext⟩ :=
    submitLoadStep_returns hready hpayload hsequence hop fun l' ops hexecuted hdone sequence' => by
      rw [hreached.loader, hreached.contents] at hexecuted
      rw [BpfLoader.queryReply_ok (hexecuted.finished_done hdone)]
  obtain ⟨-, l', flash', -, -, -, -, hsubmitted⟩ :=
    submitLoadStep_submitted hready.idle hreached.reset hreached.sane hpayload hreturns
  obtain ⟨request, operation, ops, hbytes, hencoded', haccepts', hexecuted, hissued⟩ :=
    hsubmitted.executed
  rw [encoded_finalizePayload hbytes, Option.some.injEq] at hencoded'
  subst hencoded'
  have hdone := ((Firmware.steady_quiet.reach hready.quiet).reliable.issued hissued).2
  rw [hreached.loader, hreached.contents] at hexecuted
  obtain ⟨sequence', rest, rfl⟩ := hsubmitted.answer
  rw [BpfLoader.queryReply_ok (hexecuted.finished_done hdone)] at hreturns
  refine ⟨_, next, port', after, hreturns, hready', hnext, rfl, ?_, ?_⟩
  · simp [Frame.bytes]
  · simp [Frame.bytes]

/-- **Transfers go through.** Over a quiet target with a free loader, and while
nothing goes wrong, a transfer of bytecode that fits returns. -/
theorem loadImage_returns (hready : Ready port bus)
    (hpending : bus.firmware.loader.pending = none)
    (hrunning : bus.firmware.loader.state.isRunning = false) {bytecode : List UInt8}
    (hgood : GoodBytecode bytecode) {sequence : Nat} (hsequence : sequence < 256) :
    ∃ next port' after, Returns (loadImage sequence bytecode) port next port' ∧
      Ready port' after := by
  have hrests : bus.firmware.Rests bus.firmware.loader bus.firmware.flash :=
    ⟨hready.quiet.reset, hpending, rfl, rfl⟩
  have hloader := ((Firmware.steady_rests _ _).reach hrests).loader
  obtain ⟨begun, sequence₁, port₁, bus₁, hbegin, hready₁, hsequence₁, hbegun⟩ :=
    begin_returns hready (hloader ▸ hpending) (hloader ▸ hrunning) hgood hsequence
  have heven : (imageOf bytecode hgood).bytes.length % 2 = 0 := by
    have haligned := hgood.aligned
    simp [imageOf]
    omega
  have hstart : 0 % 2 = 0 := rfl
  obtain ⟨sequence₂, port₂, bus₂, hdata, hready₂, hsequence₂, hreceived⟩ :=
    loadFragments_returns heven rfl hstart hready₁ hbegun hsequence₁
  obtain ⟨response, sequence₃, port₃, bus₃, hfinalize, hready₃, -, hstatus, hlength, hcrc⟩ :=
    finalize_returns hready₂ hreceived hsequence₂
  have hpack : Returns (pack 2 bytecode.length) port (toLe 2 bytecode.length) port :=
    returns_pack.mpr ⟨Nat.lt_of_le_of_lt hgood.fits (by decide), rfl, rfl⟩
  have hword : (imageOf bytecode hgood).crc.toNat < 256 ^ 4 :=
    (imageOf bytecode hgood).crc.toNat_lt
  refine ⟨sequence₃, port₃, bus₃, ?_, hready₃⟩
  simp only [loadImage, returns_bind, Prod.exists]
  refine ⟨_, _, hpack, begun, sequence₁, port₁, hbegin, sequence₂, port₂, hdata, response,
    sequence₃, port₃, hfinalize, ?_⟩
  simp only [throw_bind, returns_raise]
  refine ⟨by simp [hstatus, hlength], by simp [hcrc], ?_, returns_pure.mpr ⟨rfl, rfl⟩⟩
  rw [hcrc, ofLe_toLe_of_lt hword, not_not]
  rfl

/-! ## a target to load -/

/- A target that has booted from an erased chip meets all the conditions. -/

omit [I2cSlave S] [LawfulI2cSlave S] in
/-- A target that has just booted is quiet and has a free loader. -/
theorem quiet_boot {flash : Chip} (h : flash.Reliable) (now : Nat) (history : History) :
    (Firmware.boot flash now history).Quiet :=
  ⟨rfl, rfl, rfl, rfl, rfl, (kept_sane Chip).validate flash,
    Firmware.reliable_boot h now history⟩

/-- A plain transaction succeeds and is answered in time. -/
theorem answered_plain : Transaction.plain.Answered := ⟨rfl, rfl⟩

/-- Before it the main loop runs one statement, on an idle bus. -/
theorem smooth_plain : Transaction.plain.Smooth where
  answered := answered_plain
  runs := ⟨true, by simp [Transaction.plain]⟩
  idle busIdle h := by simpa [Transaction.plain] using h

/-- A target that booted from an erased chip is ready. -/
theorem ready_erased : Ready (opened Bus.erased) Bus.erased where
  idle := idle_opened Bus.erased
  quiet := quiet_boot (fun _ _ => rfl) 0 []
  smooth _ := smooth_plain

/-- It has nothing pending. -/
theorem erased_free : Bus.erased.firmware.loader.pending = none ∧
    Bus.erased.firmware.loader.state.isRunning = false := by
  decide +kernel

/-- The program that exits is one the loader takes. -/
theorem goodBytecode_exit : GoodBytecode Device.exitProgram :=
  ⟨by decide, by decide, by decide⟩

/-! ## transfers -/

/- The two theorems on a script's transfer: what it means that one returned, and
when one does. -/

/-- **Transfers are sound.** If a transfer returns, started while no reset is
awaited, then the target has committed the image, and flash holds it: over any
flash, whatever it fails to do, and whatever the target does and the bus loses
on the way. -/
theorem load_image_committed (flash : Chip) (now : Nat) (history : History)
    (es : List FirmwareEvent) (hboot : bus.firmware = (Firmware.boot flash now history).run es)
    (hreset : bus.reach.firmware.resetPending = false) (hidle : Idle port bus)
    (bytecode : List UInt8) (sequence next : Nat) (port' : P)
    (h : Returns (loadImage sequence bytecode) port next port') :
    ∃ (hgood : GoodBytecode bytecode) (after : Bus Chip S), Idle port' after ∧
      after.firmware.resetPending = false ∧
      Device.HoldsImage (imageOf bytecode hgood) after.firmware.device := by
  have hsane : bus.reach.firmware.loader.Sane := by
    rw [Bus.reach_boot hboot]
    exact (kept_sane Chip).firmware_run flash now history _
  exact loadImage_holds hreset hsane hidle h

/-- A transfer of the program that exits, carried out call by call. -/
theorem load_image_committed_exit :
    ∃ (next : Nat) (port' : Port (Bus Chip ResponseSlot)),
      Returns (loadImage 1 Device.exitProgram) (opened Bus.erased) next port' ∧
        ∃ (hgood : GoodBytecode Device.exitProgram) (after : Bus Chip ResponseSlot),
          Idle port' after ∧ after.firmware.resetPending = false ∧
          Device.HoldsImage (imageOf Device.exitProgram hgood) after.firmware.device := by
  obtain ⟨next, port', -, hreturns, -⟩ := loadImage_returns ready_erased erased_free.1
    erased_free.2 goodBytecode_exit (show 1 < 256 by decide)
  have hreset := (Firmware.steady_quiet.reach ready_erased.quiet).reset
  exact ⟨next, port', hreturns, load_image_committed Firmware.erasedFlash 0 [] [] rfl hreset
    ready_erased.idle _ _ _ _ hreturns⟩

/-- **Transfers are served.** Over a quiet target with a free loader, and while
nothing goes wrong, a transfer of bytecode that fits returns, the target has
committed it and is quiet again. -/
theorem load_image_served (hready : Ready port bus)
    (hpending : bus.firmware.loader.pending = none)
    (hrunning : bus.firmware.loader.state.isRunning = false) (bytecode : List UInt8)
    (hgood : GoodBytecode bytecode) (sequence : Nat) (hsequence : sequence < 256) :
    ∃ (next : Nat) (port' : P) (after : Bus Chip S),
      Returns (loadImage sequence bytecode) port next port' ∧ Ready port' after ∧
        Device.HoldsImage (imageOf bytecode hgood) after.firmware.device := by
  obtain ⟨next, port', after, hreturns, hready'⟩ :=
    loadImage_returns hready hpending hrunning hgood hsequence
  have hreached := Firmware.steady_quiet.reach hready.quiet
  obtain ⟨_, after', hafter', -, hholds⟩ :=
    loadImage_holds hreached.reset hreached.sane hready.idle hreturns
  obtain rfl := idle_unique hafter' hready'.idle
  exact ⟨next, port', after', hreturns, hready', hholds⟩

/-- The same transfer as one that returns because nothing goes wrong. -/
theorem load_image_served_exit :
    ∃ (next : Nat) (port' : Port (Bus Chip ResponseSlot)) (after : Bus Chip ResponseSlot),
      Returns (loadImage 1 Device.exitProgram) (opened Bus.erased) next port' ∧
        Ready port' after ∧
        Device.HoldsImage (imageOf Device.exitProgram goodBytecode_exit) after.firmware.device :=
  load_image_served ready_erased erased_free.1 erased_free.2 _ goodBytecode_exit 1
    (by decide)

end Host

end OptiBridge
