import Mathlib

/-!
# OptiBridge.Lib.Machine

Deterministic machines driven by a list of events: the state a run ends in,
what is observed along it, and the two induction rules every run theorem is
assembled from.  A machine is any step function; nothing here names one.

The vocabulary is small:
* `run`, the state after a list of events;
* `trace`, what an observer sees along it;
* `Along`, a condition on every step of a run, in the state it is taken in;
* `Always`, an invariant of every state a run passes through.  The induction
  rules are `invariant_run` and `invariant_along`; they are stated once, so
  that a proof about runs is a proof about one step.
-/

namespace Machine

section

variable {S E O : Type*} (step : S → E → S)

/-- The state a list of events leads to. -/
def run (s : S) (es : List E) : S := es.foldl step s

/-- What `observe` sees along a run: it looks at the state an event finds. -/
def trace (observe : S → E → List O) : S → List E → List O
  | _, [] => []
  | s, e :: es => observe s e ++ trace observe (step s e) es

@[simp] theorem run_nil (s : S) : run step s [] = s := rfl

@[simp] theorem run_cons (s : S) (e : E) (es : List E) :
    run step s (e :: es) = run step (step s e) es := rfl

theorem run_append (s : S) (xs ys : List E) :
    run step s (xs ++ ys) = run step (run step s xs) ys := by
  simp [run]

theorem run_concat (s : S) (es : List E) (e : E) :
    run step s (es ++ [e]) = step (run step s es) e := by
  simp [run]

variable (observe : S → E → List O)

@[simp] theorem trace_nil (s : S) : trace step observe s [] = [] := rfl

@[simp] theorem trace_cons (s : S) (e : E) (es : List E) :
    trace step observe s (e :: es) = observe s e ++ trace step observe (step s e) es := rfl

/-- What a run shows is what its parts show, the second from where the first
ends. -/
theorem trace_append (s : S) (xs ys : List E) :
    trace step observe s (xs ++ ys) =
      trace step observe s xs ++ trace step observe (run step s xs) ys := by
  induction xs generalizing s with
  | nil => simp
  | cons x xs ih => simp [ih, List.append_assoc]

theorem trace_concat (s : S) (es : List E) (e : E) :
    trace step observe s (es ++ [e]) = trace step observe s es ++ observe (run step s es) e := by
  simp [trace_append]

end

section rules

variable {S E O : Type*} {step : S → E → S} {observe : S → E → List O}

/-- **Invariant rule.** What every admitted event preserves holds at the end of
every run of admitted events. -/
theorem invariant_run {P : E → Prop} {I : S → Prop}
    (hstep : ∀ s e, P e → I s → I (step s e)) {s : S} (hs : I s) {es : List E}
    (hes : ∀ e ∈ es, P e) : I (run step s es) := by
  induction es generalizing s with
  | nil => exact hs
  | cons e es ih =>
      have he : P e := hes e (List.mem_cons_self ..)
      exact ih (hstep s e he hs) fun e' h => hes e' (List.mem_cons_of_mem e h)

/-- An invariant may read what was observed so far, from any earlier trace on. -/
theorem invariant_trace_from {P : E → Prop} {I : S → List O → Prop}
    (hstep : ∀ s tr e, P e → I s tr → I (step s e) (tr ++ observe s e)) {s : S} {tr : List O}
    (hs : I s tr) {es : List E} (hes : ∀ e ∈ es, P e) :
    I (run step s es) (tr ++ trace step observe s es) := by
  induction es generalizing s tr with
  | nil => simpa using hs
  | cons e es ih =>
      have he : P e := hes e (List.mem_cons_self ..)
      rw [run_cons, trace_cons, ← List.append_assoc]
      exact ih (hstep s tr e he hs) fun e' h => hes e' (List.mem_cons_of_mem e h)

/-- **Traced invariant rule.** What every admitted event preserves, reading what
was observed so far, holds at the end of every run of admitted events. -/
theorem invariant_trace {P : E → Prop} {I : S → List O → Prop}
    (hstep : ∀ s tr e, P e → I s tr → I (step s e) (tr ++ observe s e)) {s : S} (hs : I s [])
    {es : List E} (hes : ∀ e ∈ es, P e) : I (run step s es) (trace step observe s es) :=
  invariant_trace_from hstep hs hes

/-- **Observation rule.** What an invariant grants of every observation is true
of everything a run observes. -/
theorem forall_mem_trace {I : S → Prop} {Q : O → Prop} (hstep : ∀ s e, I s → I (step s e))
    (hobserve : ∀ s e, I s → ∀ o ∈ observe s e, Q o) {s : S} (hs : I s) (es : List E) :
    ∀ o ∈ trace step observe s es, Q o := by
  induction es generalizing s with
  | nil => simp
  | cons e es ih =>
      intro o ho
      rw [trace_cons, List.mem_append] at ho
      cases ho with
      | inl hhere => exact hobserve s e hs o hhere
      | inr hlater => exact ih (hstep s e hs) o hlater

end rules

/-! ## conditions on steps -/

section along

variable {S E : Type*} {step : S → E → S} {C : S → E → Prop}

/-- Every event of a run meets a condition, which may read the state it finds. -/
def Along (step : S → E → S) (C : S → E → Prop) : S → List E → Prop
  | _, [] => True
  | s, e :: es => C s e ∧ Along step C (step s e) es

/-- Whether a condition holds along a run of a machine that can be run is a
computation. -/
instance decidableAlong [∀ s e, Decidable (C s e)] :
    (s : S) → (es : List E) → Decidable (Along step C s es)
  | _, [] => .isTrue trivial
  | s, e :: es =>
      have := decidableAlong (step s e) es
      inferInstanceAs (Decidable (C s e ∧ Along step C (step s e) es))

/-- **Conditioned rule.** What every event that meets the condition preserves
holds at the end of every run that meets it throughout. -/
theorem invariant_along {I : S → Prop} (hstep : ∀ s e, C s e → I s → I (step s e)) {s : S}
    (hs : I s) {es : List E} (hes : Along step C s es) : I (run step s es) := by
  induction es generalizing s with
  | nil => exact hs
  | cons e es ih => exact ih (hstep s e hes.1 hs) hes.2

/-- **Conditioned traced rule.** -/
theorem invariant_trace_along {O : Type*} {observe : S → E → List O} {I : S → List O → Prop}
    (hstep : ∀ s tr e, C s e → I s tr → I (step s e) (tr ++ observe s e)) {s : S} {tr : List O}
    (hs : I s tr) {es : List E} (hes : Along step C s es) :
    I (run step s es) (tr ++ trace step observe s es) := by
  induction es generalizing s tr with
  | nil => simpa using hs
  | cons e es ih =>
      rw [run_cons, trace_cons, ← List.append_assoc]
      exact ih (hstep s tr e hes.1 hs) hes.2

end along

/-! ## every prefix -/

section always

variable {S E : Type*} {step : S → E → S} {I : S → Prop} {s : S}

/-- `I` holds wherever the run is cut. -/
def Always (step : S → E → S) (I : S → Prop) (s : S) (es : List E) : Prop :=
  ∀ cut, cut <+: es → I (run step s cut)

theorem Always.nil (h : I s) : Always step I s [] := fun cut hcut => by
  rw [List.prefix_nil] at hcut
  subst hcut
  exact h

theorem Always.cons {e : E} {es : List E} (h : I s) (hrest : Always step I (step s e) es) :
    Always step I s (e :: es) := fun cut hcut => by
  cases cut with
  | nil => exact h
  | cons e' cut =>
      obtain ⟨rfl, htail⟩ := List.cons_prefix_cons.mp hcut
      exact hrest cut htail

theorem Always.last {es : List E} (h : Always step I s es) : I (run step s es) :=
  h es (List.prefix_refl es)

theorem Always.append {xs ys : List E} (hxs : Always step I s xs)
    (hys : Always step I (run step s xs) ys) : Always step I s (xs ++ ys) := by
  induction xs generalizing s with
  | nil => exact hys
  | cons x xs ih =>
      have htail : Always step I (step s x) xs := fun cut hcut =>
        hxs (x :: cut) (List.cons_prefix_cons.mpr ⟨rfl, hcut⟩)
      exact .cons (hxs [] List.nil_prefix) (ih htail hys)

end always

end Machine
