import Mathlib

/-!
# OptiBridge.Lib.Slot

A slot for one value.  A value is put into it while it is empty, taken out by
whoever serves it, or lost when the slot is cleared.  `serve` runs the slot
along a list of such events and is `none` as soon as one is out of turn, so a
list it accepts loses nothing but by clearing, invents nothing and keeps the
order.

What a reader may conclude from `serve` being defined: the values taken are some
of the values put, in order (`takes_sublist`), and no more than one for each
clearing, and one that is still there, are missing (`length_puts_le`).
-/

namespace Slot

variable {α : Type*}

/-- What may happen to a slot. -/
inductive Event (α : Type*) where
  | put (value : α)
  | take (value : α)
  | clear

/-- The values put, in order. -/
def puts : List (Event α) → List α
  | [] => []
  | .put value :: es => value :: puts es
  | .take _ :: es | .clear :: es => puts es

/-- The values taken, in order. -/
def takes : List (Event α) → List α
  | [] => []
  | .take value :: es => value :: takes es
  | .put _ :: es | .clear :: es => takes es

/-- How often the slot is cleared. -/
def clears : List (Event α) → Nat
  | [] => 0
  | .clear :: es => clears es + 1
  | .put _ :: es | .take _ :: es => clears es

/-- The values put in two parts. -/
theorem puts_append (xs ys : List (Event α)) : puts (xs ++ ys) = puts xs ++ puts ys := by
  induction xs with
  | nil => rfl
  | cons e xs ih => cases e <;> simp [puts, ih]

/-- Taking puts nothing. -/
theorem puts_map_take (values : List α) : puts (values.map .take) = [] := by
  induction values with
  | nil => rfl
  | cons value values ih => exact ih

/-- What the slot holds after the events, if each came in turn. -/
def serve [DecidableEq α] : Option α → List (Event α) → Option (Option α)
  | held, [] => some held
  | none, .put value :: es => serve (some value) es
  | some held, .take value :: es => if held = value then serve none es else none
  | _, .clear :: es => serve none es
  | some _, .put _ :: _ | none, .take _ :: _ => none

variable [DecidableEq α]

/-- Events in turn, one list after another. -/
theorem serve_append (held : Option α) (xs ys : List (Event α)) :
    serve held (xs ++ ys) = (serve held xs).bind fun held => serve held ys := by
  induction xs generalizing held with
  | nil => rfl
  | cons e xs ih =>
      cases held with
      | none => cases e <;> simp [serve, ih]
      | some value =>
          cases e with
          | take taken =>
              simp only [List.cons_append, serve]
              split_ifs
              · exact ih none
              · rfl
          | put | clear => simp [serve, ih]

/-- **Nothing invented, duplicated or reordered.** -/
theorem takes_sublist {held last : Option α} {es : List (Event α)}
    (h : serve held es = some last) :
    List.Sublist (takes es ++ last.toList) (held.toList ++ puts es) := by
  induction es generalizing held with
  | nil =>
      cases h
      simp [takes, puts]
  | cons e es ih =>
      cases e with
      | put value =>
          cases held with
          | none => simpa [takes, puts] using ih h
          | some old => contradiction
      | take value =>
          cases held with
          | none => contradiction
          | some old =>
              simp only [serve] at h
              split_ifs at h with heq
              subst heq
              simpa [takes, puts] using ih h
      -- what is cleared has been put, and is never taken
      | clear =>
          have hcleared : serve none es = some last := by cases held <;> exact h
          have hrest := ih hcleared
          cases held with
          | none => simpa [takes, puts] using hrest
          | some old => simpa [takes, puts] using hrest.cons old

/-- **Nothing lost but by clearing.** -/
theorem length_puts_le {held last : Option α} {es : List (Event α)}
    (h : serve held es = some last) :
    held.toList.length + (puts es).length ≤
      (takes es).length + clears es + last.toList.length := by
  induction es generalizing held with
  | nil =>
      cases h
      simp [takes, puts, clears]
  | cons e es ih =>
      cases e with
      | put value =>
          cases held with
          | none =>
              have hrest := ih h
              simp only [puts, takes, clears, List.length_cons, Option.toList_none,
                Option.toList_some, List.length_nil] at hrest ⊢
              omega
          | some old => contradiction
      | take value =>
          cases held with
          | none => contradiction
          | some old =>
              simp only [serve] at h
              split_ifs at h with heq
              have hrest := ih h
              simp only [puts, takes, clears, List.length_cons, Option.toList_none,
                Option.toList_some, List.length_nil] at hrest ⊢
              omega
      | clear =>
          have hcleared : serve none es = some last := by cases held <;> exact h
          have hrest := ih hcleared
          have hheld : held.toList.length ≤ 1 := by cases held <;> simp
          simp only [puts, takes, clears, Option.toList_none, List.length_nil] at hrest ⊢
          omega

end Slot
