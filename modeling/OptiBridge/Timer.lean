import OptiBridge.Lib.Bytes

/-!
# OptiBridge.Timer

The one-shot timer: one request that is pending or one event that is ready, and
a generation that every accepted call changes, so that an event taken before a
later call no longer matches.

Every request and event carries a `source`, which the source code does not
have: it names the call an event comes from.  The functions are polymorphic in
its type, so none of them can read it.

Each function is one critical section of the source, so none of them can be
interrupted; what may come between two of them is the business of the firmware
machine (`OptiBridge.Firmware`).
-/

namespace OptiBridge

open Bytes

/-- `HELPER_ERROR`, `u64::MAX`. -/
abbrev helperError : UInt64 := 0xffffffffffffffff

/-- The first word of the context, which tells a timer invocation from others. -/
abbrev timerEventKind : UInt32 := 1
/-- The second word. -/
abbrev timerContextVersion : UInt32 := 1
/-- The context of a timer invocation, of which the second half is reserved. -/
abbrev timerContextLen : Nat := 32

/-- Instants count milliseconds since power-on, the tick of the time driver. -/
structure TimerRequest (τ : Type) where
  generation : UInt32
  deadline : Nat
  cookie : UInt64
  source : τ
deriving DecidableEq

/-- A request whose deadline has passed. -/
structure TimerEvent (τ : Type) where
  generation : UInt32
  cookie : UInt64
  source : τ
deriving DecidableEq

/-- The timer: at most one request and at most one event.  That they are never
there both is an invariant, not a field, for the source has two options. -/
structure TimerState (τ : Type) where
  generation : UInt32
  pending : Option (TimerRequest τ)
  ready : Option (TimerEvent τ)
deriving DecidableEq

/-- The context a timer invocation is given. -/
def timerContext (cookie : UInt64) : Vector UInt8 timerContextLen :=
  let context := Vector.replicate timerContextLen 0
  let context := copySlice context 0 (toLe 4 timerEventKind.toNat)
  let context := copySlice context 4 (toLe 4 timerContextVersion.toNat)
  copySlice context 8 (toLe 8 cookie.toNat)

namespace TimerState

variable {τ : Type}

/-- The timer at power-on and after every reset. -/
def new : TimerState τ := ⟨0, none, none⟩

/-- The generation moves on, skipping zero when it wraps. -/
def nextTimerGeneration (state : TimerState τ) : UInt32 × TimerState τ :=
  let generation := state.generation + 1
  -- zero is the generation of a timer nobody has called
  let generation := if generation = 0 then 1 else generation
  (generation, { state with generation := generation })

/-- Helper 12.  A delay that does not fit 32 bits is refused before anything
changes; otherwise the call replaces whatever the timer held. -/
def bpfScheduleTimer (state : TimerState τ) (now : Nat) (source : τ) (delayMs cookie : UInt64) :
    UInt64 × TimerState τ :=
  if 0xffffffff < delayMs then (helperError, state)
  else
    let next := state.nextTimerGeneration
    (0, { next.2 with
            ready := none
            pending := some ⟨next.1, now + delayMs.toNat, cookie, source⟩ })

/-- Helper 13.  It takes whatever the timer held away, and changes the
generation, so that an event already taken no longer matches. -/
def bpfCancelTimer (state : TimerState τ) : UInt64 × TimerState τ :=
  (0, { state.nextTimerGeneration.2 with pending := none, ready := none })

/-- Make a request whose deadline has passed ready. -/
def pollTimer (state : TimerState τ) (now : Nat) : TimerState τ :=
  match state.pending with
  | none => state
  | some pending =>
      if pending.deadline ≤ now then
        { state with
            pending := none
            ready := some ⟨pending.generation, pending.cookie, pending.source⟩ }
      else state

/-- Take the ready event out. -/
def takeReadyTimer (state : TimerState τ) : Option (TimerEvent τ) × TimerState τ :=
  (state.ready, { state with ready := none })

/-- Put an event back that could not be served, unless a later call has changed
the generation or another event is there. -/
def restoreReadyTimer (state : TimerState τ) (event : TimerEvent τ) : TimerState τ :=
  if state.generation = event.generation ∧ state.ready = none then
    { state with ready := some event }
  else state

end TimerState

/-! ## the context -/

/- The 32 bytes a timer invocation is given, at fixed places: kind, version,
cookie, and zeros. -/

/-- The 32 bytes: kind, version, the cookie, and a zero payload. -/
theorem toList_timerContext (cookie : UInt64) :
    (timerContext cookie).toList =
      toLe 4 1 ++ toLe 4 1 ++ toLe 8 cookie.toNat ++ List.replicate 16 0 := by
  have hcookie : 8 + (toLe 8 cookie.toNat).length ≤ timerContextLen := by
    rw [length_toLe]
    decide
  rw [timerContext, toList_copySlice _ _ _ hcookie, toList_copySlice _ _ _ (by decide),
    toList_copySlice _ _ _ (by decide), Vector.toList_replicate, length_toLe, length_toLe]
  rfl

/-! ## generations -/

/- The generation is a 32-bit counter that skips zero.  As a function of the
number of calls it has the period 2^32 - 1, and within a period it tells any two
numbers apart. -/

/-- How many generations there are before one comes again. -/
abbrev generationPeriod : Nat := 2 ^ 32 - 1

/-- The generation a new timer has after so many accepted calls. -/
def generationAfter : Nat → UInt32
  | 0 => 0
  | calls + 1 =>
      let generation := generationAfter calls + 1
      if generation = 0 then 1 else generation

/-- The counter skips zero, so its value after `n + 1` calls is `n` reduced by
the period, plus one. -/
theorem generationAfter_succ (calls : Nat) :
    (generationAfter (calls + 1)).toNat = calls % generationPeriod + 1 := by
  induction calls with
  | zero => rfl
  | succ calls ih =>
      have hlt : calls % 4294967295 < 4294967295 := Nat.mod_lt _ (by decide)
      have hsum : (generationAfter (calls + 1) + 1).toNat =
          (calls % 4294967295 + 2) % 4294967296 := by
        rw [UInt32.toNat_add, ih]
        rfl
      rw [generationAfter]
      show _ = (calls + 1) % 4294967295 + 1
      by_cases hzero : generationAfter (calls + 1) + 1 = 0
      · rw [if_pos hzero]
        rw [hzero] at hsum
        have hwrap : 0 = (calls % 4294967295 + 2) % 4294967296 := hsum
        show 1 = _
        omega
      · rw [if_neg hzero, hsum]
        have hne : (calls % 4294967295 + 2) % 4294967296 ≠ 0 := fun h =>
          hzero (UInt32.toNat_inj.mp (hsum.trans h))
        omega

/-- **Generations.** Two calls leave the same generation exactly when a multiple
of the period lies between them. -/
theorem generationAfter_eq_iff {calls later : Nat} (h : 0 < calls) :
    generationAfter (calls + later) = generationAfter calls ↔ generationPeriod ∣ later := by
  obtain ⟨n, rfl⟩ := Nat.exists_eq_succ_of_ne_zero (Nat.ne_of_gt h)
  rw [← UInt32.toNat_inj, Nat.succ_add, generationAfter_succ, generationAfter_succ]
  constructor
  · intro heq
    have hmod : (n + later) ≡ n + 0 [MOD generationPeriod] := Nat.succ_injective heq
    exact (Nat.modEq_zero_iff_dvd).mp (Nat.ModEq.add_left_cancel' n hmod)
  · rintro ⟨k, rfl⟩
    rw [Nat.add_mul_mod_self_left]

/-- The next generation of a timer that has counted its calls. -/
theorem TimerState.nextTimerGeneration_eq {τ : Type} {state : TimerState τ} {calls : Nat}
    (h : state.generation = generationAfter calls) :
    state.nextTimerGeneration =
      (generationAfter (calls + 1), { state with generation := generationAfter (calls + 1) }) := by
  simp only [nextTimerGeneration, h, generationAfter]

end OptiBridge
