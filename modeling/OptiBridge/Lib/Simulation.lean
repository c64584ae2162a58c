import OptiBridge.Lib.Machine

/-!
# OptiBridge.Lib.Simulation

One machine told as another.  `labels` says which events of the second an event
of the first amounts to, none of them if it stutters; a relation that every
event preserves then holds over whole runs.  A machine that restarts is told
from its last restart on.

`simulation_along` is the rule.  It differs from the textbook one in two ways: an
event may amount to any number of events on the other side, and the relation
need only be preserved by events that meet a condition, so that what breaks it,
such as a restart, is left to the caller.  `never_or_last` is for that caller: a
run has no restart, or it has a last one.
-/

namespace Machine

section simulation

variable {S E T L : Type*} {step : S → E → S} {step' : T → L → T} {C : S → E → Prop}
  {R : S → T → Prop} {labels : S → E → List L}

/-- **Simulation rule.** What relates the machines before an admitted event and
after the events it amounts to relates them at the end of every admitted run. -/
theorem simulation_along
    (hstep : ∀ s t e, C s e → R s t → R (step s e) (run step' t (labels s e))) {s : S} {t : T}
    (hst : R s t) {es : List E} (hes : Along step C s es) :
    R (run step s es) (run step' t (trace step labels s es)) := by
  induction es generalizing s t with
  | nil => exact hst
  | cons e es ih =>
      rw [run_cons, trace_cons, run_append]
      exact ih (hstep s t e hes.1 hst) hes.2

end simulation

/-! ## restarts -/

section restarts

variable {S E : Type*} {step : S → E → S} {P : S → E → Prop}

/-- **Last occurrence.** In every run an event of a kind either never happens or
happens for a last time. -/
theorem never_or_last (step : S → E → S) (P : S → E → Prop) (s : S) (es : List E) :
    Along step (fun s e => ¬ P s e) s es ∨
      ∃ xs e ys, es = xs ++ e :: ys ∧ P (run step s xs) e ∧
        Along step (fun s e => ¬ P s e) (run step s (xs ++ [e])) ys := by
  induction es generalizing s with
  | nil => exact .inl trivial
  | cons e es ih =>
      cases ih (step s e) with
      | inr hlast =>
          obtain ⟨xs, e', ys, rfl, hhere, hnever⟩ := hlast
          exact .inr ⟨e :: xs, e', ys, rfl, hhere, hnever⟩
      | inl hnever =>
          by_cases hhere : P s e
          · exact .inr ⟨[], e, es, rfl, hhere, hnever⟩
          · exact .inl ⟨hhere, hnever⟩

end restarts

end Machine
