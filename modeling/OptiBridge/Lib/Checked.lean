import OptiBridge.Lib.Bytes

/-!
# OptiBridge.Lib.Checked

Programs that may panic.  Each operation that can (an index, a slice, a copy
between slices, arithmetic and narrowing at a machine width) is one definition,
with the lemma that says when it does not.

A program in this monad is the program of a machine without undefined behaviour:
it either computes a value or stops with the reason.  To show that it never stops
is to show that it equals `.ok` of something, and the lemmas below rewrite such
a program from the front, one bind at a time.
-/

/-- Why a program stops. -/
inductive Panic where
  | outOfBounds
  | lengthMismatch
  | overflow
  | lossyCast
  | assertion
deriving DecidableEq

/-- A result, unless there was a panic on the way to it. -/
abbrev Checked (α : Type) := Except Panic α

namespace Checked

/-! ## operations -/

/- The reasons are those a Rust program in debug mode would give, with narrowing
casts, which Rust performs silently, among them. -/

section operations

variable {α : Type} {n : Nat}

/-- `xs[i]`. -/
def index {coll : Type} {valid : coll → Nat → Prop} [GetElem? coll Nat α valid] (xs : coll)
    (i : Nat) : Checked α :=
  match xs[i]? with
  | some a => .ok a
  | none => .error .outOfBounds

/-- `xs[i] = a`. -/
def set (xs : Vector α n) (i : Nat) (a : α) : Checked (Vector α n) :=
  if h : i < n then .ok (xs.set i a h) else .error .outOfBounds

/-- `&xs[lo..hi]`. -/
def slice (xs : List α) (lo hi : Nat) : Checked (List α) :=
  if lo ≤ hi ∧ hi ≤ xs.length then .ok ((xs.take hi).drop lo) else .error .outOfBounds

/-- `dst[lo..hi].copy_from_slice(src)`. -/
def copyFromSlice (dst : Vector α n) (lo hi : Nat) (src : List α) : Checked (Vector α n) :=
  if ¬ (lo ≤ hi ∧ hi ≤ n) then .error .outOfBounds
  else if hi - lo ≠ src.length then .error .lengthMismatch
  else .ok (Bytes.copySlice dst lo src)

/-- `a + b` in `bits` bits. -/
def add (bits a b : Nat) : Checked Nat :=
  if a + b < 2 ^ bits then .ok (a + b) else .error .overflow

/-- `a * b` in `bits` bits. -/
def mul (bits a b : Nat) : Checked Nat :=
  if a * b < 2 ^ bits then .ok (a * b) else .error .overflow

/-- `a - b` of unsigned numbers. -/
def sub (a b : Nat) : Checked Nat := if b ≤ a then .ok (a - b) else .error .overflow

/-- `a as uN`, which must keep the value. -/
def cast (bits a : Nat) : Checked Nat := if a < 2 ^ bits then .ok a else .error .lossyCast

/-- What the program takes for granted. -/
def ensure (p : Prop) [Decidable p] : Checked Unit :=
  if p then .ok () else .error .assertion

end operations

/-! ## when they succeed -/

/- One lemma for each operation, in the form a rewrite wants. -/

section operations

variable {α β : Type} {n : Nat}

@[simp] theorem pure_eq_ok (a : α) : (pure a : Checked α) = .ok a := rfl

@[simp] theorem ok_bind (a : α) (f : α → Checked β) : (Except.ok a : Checked α) >>= f = f a := rfl

theorem index_ok {coll : Type} {valid : coll → Nat → Prop} [GetElem? coll Nat α valid] {xs : coll}
    {i : Nat} {a : α} (h : xs[i]? = some a) : index xs i = .ok a := by
  rw [index, h]

theorem index_vector (xs : Vector α n) {i : Nat} (h : i < n) : index xs i = .ok xs[i] :=
  index_ok (Vector.getElem?_eq_getElem h)

theorem set_ok (xs : Vector α n) {i : Nat} (a : α) (h : i < n) :
    set xs i a = .ok (xs.set i a h) := dif_pos h

/-- The total assignment is the plain one there. -/
theorem setIfInBounds_of_lt (xs : Vector α n) {i : Nat} (a : α) (h : i < n) :
    xs.setIfInBounds i a = xs.set i a h := by
  ext j hj
  rw [Vector.getElem_setIfInBounds, Vector.getElem_set]

theorem slice_ok {xs : List α} {lo hi : Nat} (hlo : lo ≤ hi) (hhi : hi ≤ xs.length) :
    slice xs lo hi = .ok ((xs.take hi).drop lo) := if_pos ⟨hlo, hhi⟩

theorem slice_zero {xs : List α} {hi : Nat} (h : hi ≤ xs.length) :
    slice xs 0 hi = .ok (xs.take hi) := slice_ok (Nat.zero_le hi) h

/-- A copy succeeds if the lengths agree and the destination is long enough. -/
theorem copyFromSlice_ok (dst : Vector α n) {lo hi : Nat} {src : List α}
    (hlen : hi = lo + src.length) (hhi : hi ≤ n) :
    copyFromSlice dst lo hi src = .ok (Bytes.copySlice dst lo src) := by
  rw [copyFromSlice, if_neg (not_not.mpr ⟨by omega, hhi⟩), if_neg (by omega)]

theorem add_ok {bits a b : Nat} (h : a + b < 2 ^ bits) : add bits a b = .ok (a + b) := if_pos h

theorem mul_ok {bits a b : Nat} (h : a * b < 2 ^ bits) : mul bits a b = .ok (a * b) := if_pos h

theorem sub_ok {a b : Nat} (h : b ≤ a) : sub a b = .ok (a - b) := if_pos h

theorem cast_ok {bits a : Nat} (h : a < 2 ^ bits) : cast bits a = .ok a := if_pos h

theorem ensure_ok {p : Prop} [Decidable p] (h : p) : ensure p = .ok () := if_pos h

end operations

/-! ## runs -/

/- Checked machines: a step may stop, and a run stops with it. -/

/-- A program that takes the steps of another one, on states related by `raw`,
panics nowhere along a run. -/
theorem foldlM_ok {σ τ ε : Type} {step : τ → ε → Checked τ} (next : σ → ε → σ) (raw : σ → τ)
    (I : σ → Prop) (hkeep : ∀ s e, I s → I (next s e))
    (hstep : ∀ s e, I s → step (raw s) e = .ok (raw (next s e))) {s : σ} (hs : I s)
    (es : List ε) : es.foldlM step (raw s) = .ok (raw (es.foldl next s)) := by
  induction es generalizing s with
  | nil => rfl
  | cons e es ih =>
      rw [List.foldlM_cons, hstep s e hs, ok_bind]
      exact ih (hkeep s e hs)

end Checked
