import Mathlib

/-!
# OptiBridge.Lib.Script

Scripts: programs on a state that may raise.  `Returns` is what a run comes to
when nothing is raised; one rule for each way a script is put together takes it
apart and builds it up.

A script is an exception monad over a state monad, so what was done before an
exception stays done in the state but not in the result.  `Returns x s a s'` says
that `x`, run in `s`, raises nothing, returns `a` and leaves `s'`; it is
functional in `a` and `s'`.
-/

/-- A program on a state that may raise. -/
abbrev Script (ε σ : Type) := ExceptT ε (StateM σ)

namespace Script

variable {ε σ α β : Type} {s s' : σ} {a : α} {b : β}

/-- Started in `s`, the script returns `a` and leaves `s'`. -/
def Returns (x : Script ε σ α) (s : σ) (a : α) (s' : σ) : Prop := x.run.run s = (.ok a, s')

/-- What a script returns, and the state it leaves, are its own. -/
theorem Returns.unique {x : Script ε σ α} {a' : α} {s'' : σ} (h : Returns x s a s')
    (h' : Returns x s a' s'') : a' = a ∧ s'' = s' := by
  unfold Returns at h h'
  grind

/-- Returning a value changes nothing. -/
@[simp] theorem returns_pure {a' : α} :
    Returns (pure a : Script ε σ α) s a' s' ↔ a' = a ∧ s' = s := by
  show (Except.ok a, s) = (Except.ok a', s') ↔ _
  grind

/-- A script that raises does not return. -/
@[simp] theorem returns_throw {e : ε} : ¬ Returns (throw e : Script ε σ α) s a s' := by
  show ¬ (Except.error e, s) = (Except.ok a, s')
  grind

/-- A script returns if its first part does and its rest does from there. -/
theorem returns_bind {x : Script ε σ α} {f : α → Script ε σ β} :
    Returns (x >>= f) s b s' ↔ ∃ a s₁, Returns x s a s₁ ∧ Returns (f a) s₁ b s' := by
  have hbind : (x >>= f).run.run s = ExceptT.bindCont f (x.run.run s).1 (x.run.run s).2 := rfl
  simp only [Returns, hbind]
  generalize x.run.run s = out
  obtain ⟨result, s₁⟩ := out
  cases result with
  | error e =>
      constructor
      · intro h
        exact absurd h returns_throw
      · rintro ⟨a, s₂, hx, -⟩
        grind
  | ok a =>
      constructor
      · intro h
        exact ⟨a, s₁, rfl, h⟩
      · rintro ⟨a', s₂, hx, hf⟩
        cases hx
        exact hf

/-- Raising ends a script. -/
@[simp] theorem throw_bind {e : ε} {f : α → Script ε σ β} :
    (throw e >>= f : Script ε σ β) = throw e := rfl

/-- A script that raises on a condition goes on where it does not hold. -/
@[simp] theorem returns_raise {c : Prop} [Decidable c] {e : ε} {x : Script ε σ α} :
    Returns (if c then throw e else x) s a s' ↔ ¬ c ∧ Returns x s a s' := by
  split_ifs with hc
  · simp [hc]
  · simp [hc]

/-- A guard is passed exactly when its condition holds. -/
@[simp] theorem returns_ensure {c : Prop} [Decidable c] {e : ε} {x : Script ε σ α} :
    Returns (if c then x else throw e) s a s' ↔ c ∧ Returns x s a s' := by
  split_ifs with hc
  · simp [hc]
  · simp [hc]

/-- A branch returns by way of the side that is taken. -/
theorem returns_ite {c : Prop} [Decidable c] {x y : Script ε σ α} :
    Returns (if c then x else y) s a s' ↔
      (c ∧ Returns x s a s') ∨ (¬ c ∧ Returns y s a s') := by
  split_ifs with hc <;> simp [hc]

/-- A change of the state. -/
@[simp] theorem returns_modify {f : σ → σ} {u : PUnit} :
    Returns (modify f : Script ε σ PUnit) s u s' ↔ s' = f s := by
  show (Except.ok PUnit.unit, f s) = (Except.ok u, s') ↔ _
  grind

/-- A change of the state that has a result. -/
@[simp] theorem returns_modifyGet {f : σ → α × σ} :
    Returns (modifyGet f : Script ε σ α) s a s' ↔ f s = (a, s') := by
  show (Except.ok (f s).1, (f s).2) = (Except.ok a, s') ↔ _
  grind

/-! ## scripts with one outcome -/

/- `ReturnsIff x s ok a s'` says that there is one way for `x` to return, and
when: loops over such scripts are followed without a case split at each step. -/

/-- Started in `s`, the script returns only if `ok`, and then returns `a` and
leaves `s'`. -/
def ReturnsIff (x : Script ε σ α) (s : σ) (ok : Prop) (a : α) (s' : σ) : Prop :=
  ∀ a' t, Returns x s a' t ↔ ok ∧ a' = a ∧ t = s'

namespace ReturnsIff

variable {x : Script ε σ α} {ok ok' : Prop}

/-- Where the condition holds, the script returns that. -/
theorem returns (h : ReturnsIff x s ok a s') (hok : ok) : Returns x s a s' :=
  (h a s').mpr ⟨hok, rfl, rfl⟩

/-- The condition may be replaced by an equivalent one. -/
theorem congr (h : ReturnsIff x s ok a s') (hok : ok ↔ ok') : ReturnsIff x s ok' a s' := by
  intro a' t
  rw [h, hok]

/-- A script that just returns does so under no condition. -/
theorem pure : ReturnsIff (Pure.pure a : Script ε σ α) s True a s := by
  simp [ReturnsIff]

/-- What comes after matters only where the first part returns; `R` is what it
establishes. -/
theorem bind {f : α → Script ε σ β} {s₁ : σ} {R : σ → Prop} (h : ReturnsIff x s ok a s₁)
    (hrest : ok → ∃ s', (ok' → R s') ∧ ReturnsIff (f a) s₁ ok' b s') :
    ∃ s', (ok ∧ ok' → R s') ∧ ReturnsIff (x >>= f) s (ok ∧ ok') b s' := by
  by_cases hok : ok
  · obtain ⟨s', hR, hf⟩ := hrest hok
    refine ⟨s', fun hboth => hR hboth.2, fun b' t => ?_⟩
    rw [returns_bind]
    constructor
    · rintro ⟨a', s₂, hx, hreturns⟩
      obtain ⟨-, rfl, rfl⟩ := (h _ _).mp hx
      obtain ⟨hok', hb, ht⟩ := (hf _ _).mp hreturns
      exact ⟨⟨hok, hok'⟩, hb, ht⟩
    · rintro ⟨⟨-, hok'⟩, rfl, rfl⟩
      exact ⟨a, s₁, h.returns hok, hf.returns hok'⟩
  · -- the first part does not return, so nothing is asked of the rest
    refine ⟨s, fun hboth => absurd hboth.1 hok, fun b' t => ?_⟩
    rw [returns_bind]
    constructor
    · rintro ⟨a', s₂, hx, -⟩
      exact absurd ((h _ _).mp hx).1 hok
    · exact fun hboth => absurd hboth.1.1 hok

end ReturnsIff

end Script
