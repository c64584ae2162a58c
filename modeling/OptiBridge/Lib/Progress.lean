import OptiBridge.Lib.Machine

/-!
# OptiBridge.Lib.Progress

Bounded progress: something is ahead, some events bring it nearer and none
takes it further away, so it happens in every run that holds enough of the
first kind, wherever the others fall.

The measure is any natural number attached to states.  `happens` asks that, as
long as the awaited thing has not happened, no event raises it and the events
that count lower it.  Nothing is said about fairness: a run that holds too few of
those events has simply not got there.
-/

namespace Machine

/-- A condition along a run may be weakened. -/
theorem Along.imp {S E : Type*} {step : S → E → S} {C C' : S → E → Prop} {s : S} {es : List E}
    (h : Along step C s es) (himp : ∀ s e, C s e → C' s e) : Along step C' s es := by
  induction es generalizing s with
  | nil => trivial
  | cons e es ih => exact ⟨himp s e h.1, ih h.2⟩

section progress

variable {S E : Type*} {step : S → E → S} {I : S → Prop} {P : S → E → Prop} {distance : S → Nat}
  {push : E → Bool}

/-- **Progress rule.** While `P` has not happened, every push takes one off the
distance and no other event adds to it; then `P` happens, for the first time
after at most as many pushes as the distance is long. -/
theorem happens (hinv : ∀ s e, I s → ¬ P s e → I (step s e))
    (hpush : ∀ s e, I s → ¬ P s e → push e → distance (step s e) < distance s)
    (hother : ∀ s e, I s → ¬ P s e → ¬ push e → distance (step s e) ≤ distance s) {s : S}
    (hs : I s) {es : List E} (hes : distance s < es.countP push) :
    ∃ xs e ys, es = xs ++ e :: ys ∧ P (run step s xs) e ∧
      Along step (fun s e => ¬ P s e) s xs ∧ xs.countP push ≤ distance s := by
  induction es generalizing s with
  | nil => exact absurd hes (Nat.not_lt_zero _)
  | cons e es ih =>
      by_cases hhere : P s e
      · exact ⟨[], e, es, rfl, hhere, trivial, Nat.zero_le _⟩
      · have hnext := hinv s e hs hhere
        by_cases he : push e
        · have hlt := hpush s e hs hhere he
          rw [List.countP_cons_of_pos he] at hes
          obtain ⟨xs, e', ys, rfl, hlater, hbefore, hcount⟩ := ih hnext (by omega)
          refine ⟨e :: xs, e', ys, rfl, hlater, ⟨hhere, hbefore⟩, ?_⟩
          rw [List.countP_cons_of_pos he]
          omega
        · have hle := hother s e hs hhere he
          rw [List.countP_cons_of_neg he] at hes
          obtain ⟨xs, e', ys, rfl, hlater, hbefore, hcount⟩ := ih hnext (by omega)
          refine ⟨e :: xs, e', ys, rfl, hlater, ⟨hhere, hbefore⟩, ?_⟩
          rw [List.countP_cons_of_neg he]
          exact hcount.trans hle

end progress

end Machine
