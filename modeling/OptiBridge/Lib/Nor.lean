import Mathlib

/-!
# OptiBridge.Lib.Nor

NOR flash as a log of operations.  A successful erase sets its range to `0xff`,
a successful program ANDs its bytes in, and any operation may fail and leave
whatever it likes in its own range, and nothing elsewhere.  The contents are a
function of the initial contents and the log, so a power cut is a prefix of the
log.

The module goes from single operations to devices:
* `apply` and `replay`, what a log makes of contents;
* `Wear`, which bytes a log may program and which it has programmed since they
  were erased;
* `bytesAt`, ranges of contents as lists;
* `Chip`, initial contents with a log and with outcomes that are fixed in
  advance, so that every failure the chip can have is a value of one function.
-/

namespace Nor

/-- What every address holds. -/
abbrev Contents := Nat → UInt8

/-- One operation a driver issues. -/
inductive Op where
  | read (offset len : Nat)
  | program (offset : Nat) (bytes : List UInt8)
  | erase (start stop : Nat)

/-- The first address an operation touches. -/
def Op.start : Op → Nat
  | .read offset _ => offset
  | .program offset _ => offset
  | .erase start _ => start

/-- The address just past the ones an operation touches. -/
def Op.stop : Op → Nat
  | .read offset len => offset + len
  | .program offset bytes => offset + bytes.length
  | .erase _ stop => stop

/-- How an operation ends.  A failed one rewrites each byte of its range as
`residue` says. -/
inductive Outcome where
  | done
  | failed (residue : Nat → UInt8 → UInt8)

/-- The operation leaves the contents alone when it fails. -/
def Outcome.Clean (o : Outcome) : Prop := ∀ residue, o = .failed residue → residue = fun _ b => b

/-! ## effects -/

/- What becomes of the contents, one operation at a time. -/

/-- The contents after one operation. -/
def apply (c : Contents) : Op × Outcome → Contents
  | (.read _ _, .done) => c
  | (.program offset bytes, .done) => fun x =>
      if h : offset ≤ x ∧ x < offset + bytes.length then c x &&& bytes[x - offset] else c x
  | (.erase start stop, .done) => fun x => if start ≤ x ∧ x < stop then 0xff else c x
  | (op, .failed residue) => fun x =>
      if op.start ≤ x ∧ x < op.stop then residue x (c x) else c x

/-- The contents after a log of operations, oldest first. -/
def replay (c : Contents) (log : List (Op × Outcome)) : Contents := log.foldl apply c

@[simp] theorem replay_nil (c : Contents) : replay c [] = c := rfl

@[simp] theorem replay_cons (c : Contents) (p : Op × Outcome) (log : List (Op × Outcome)) :
    replay c (p :: log) = replay (apply c p) log := rfl

theorem replay_append (c : Contents) (xs ys : List (Op × Outcome)) :
    replay c (xs ++ ys) = replay (replay c xs) ys := by
  simp [replay]

/-- **Frame.** No operation touches an address outside its range. -/
theorem apply_of_not_mem (c : Contents) (p : Op × Outcome) {x : Nat}
    (h : ¬ (p.1.start ≤ x ∧ x < p.1.stop)) : apply c p x = c x := by
  obtain ⟨op, o⟩ := p
  cases o with
  | failed residue => cases op <;> exact if_neg h
  | done =>
      cases op with
      | read => rfl
      | program => exact dif_neg h
      | erase => exact if_neg h

/-- A clean failure is no change. -/
theorem apply_clean (c : Contents) (op : Op) {residue : Nat → UInt8 → UInt8}
    (h : (Outcome.failed residue).Clean) : apply c (op, .failed residue) = c := by
  have hid := h residue rfl
  subst hid
  funext x
  cases op <;> simp [apply]

/-- A read has no effect. -/
@[simp] theorem apply_read_done (c : Contents) (offset len : Nat) :
    apply c (.read offset len, .done) = c := rfl

/-- Successful reads leave the contents alone. -/
theorem replay_reads (c : Contents) {log : List (Op × Outcome)}
    (h : ∀ p ∈ log, ∃ offset len, p = (.read offset len, .done)) : replay c log = c := by
  induction log with
  | nil => rfl
  | cons p log ih =>
      obtain ⟨offset, len, rfl⟩ := h p (List.mem_cons_self ..)
      rw [replay_cons, apply_read_done]
      exact ih fun q hq => h q (List.mem_cons_of_mem _ hq)

/-- What is erased reads as ones. -/
theorem apply_erase_of_mem (c : Contents) {start stop x : Nat} (hlo : start ≤ x)
    (hhi : x < stop) : apply c (.erase start stop, .done) x = 0xff := by
  simp [apply, hlo, hhi]

/-- Programming an erased byte stores it. -/
theorem apply_program_erased (c : Contents) {offset : Nat} {bytes : List UInt8} {i : Nat}
    (hi : i < bytes.length) (hc : c (offset + i) = 0xff) :
    apply c (.program offset bytes, .done) (offset + i) = bytes[i] := by
  have hand : (0xff : UInt8) &&& bytes[i] = bytes[i] := by
    rw [show (0xff : UInt8) = -1 by decide, UInt8.neg_one_and]
  simp [apply, hi, hc, hand]

theorem apply_program_nil (c : Contents) (offset : Nat) :
    apply c (.program offset [], .done) = c := by
  funext x
  exact apply_of_not_mem c _ fun h => by
    simp only [Op.start, Op.stop, List.length_nil] at h
    omega

/-- **Fragments.** Programming bytes piece by piece is programming them at once. -/
theorem apply_program_append (c : Contents) (offset : Nat) (xs ys : List UInt8) :
    apply (apply c (.program offset xs, .done)) (.program (offset + xs.length) ys, .done) =
      apply c (.program offset (xs ++ ys), .done) := by
  funext x
  simp only [apply, List.length_append]
  by_cases hxs : offset ≤ x ∧ x < offset + xs.length
  · have hfront : x - offset < xs.length := by omega
    rw [dif_neg (by omega), dif_pos hxs, dif_pos (by omega), List.getElem_append_left hfront]
  · by_cases hys : offset + xs.length ≤ x ∧ x < offset + xs.length + ys.length
    · have hindex : x - offset - xs.length = x - (offset + xs.length) := by omega
      rw [dif_pos hys, dif_neg hxs, dif_pos (by omega), List.getElem_append_right (by omega)]
      simp only [hindex]
    · rw [dif_neg hys, dif_neg hxs, dif_neg (by omega)]

/-! ## wear -/

/- A byte may be programmed once after it has been erased; whether a log keeps
to that is a matter of the log alone. -/

/-- What a log has done to the medium: the range of the last erase if it
succeeded, the programs since the last erase, and how often each byte was
programmed since an erase last cleared it. -/
structure Wear where
  erased : Option (Nat × Nat)
  writes : List Op
  times : Nat → Nat

namespace Wear

/-- Nothing done yet. -/
def zero : Wear := ⟨none, [], fun _ => 0⟩

/-- The wear after one more operation; a program counts whether or not it
succeeds. -/
def step (w : Wear) : Op × Outcome → Wear
  | (.read _ _, _) => w
  | (.program offset bytes, _) =>
      { w with
          writes := w.writes ++ [.program offset bytes]
          times := fun x =>
            if offset ≤ x ∧ x < offset + bytes.length then w.times x + 1 else w.times x }
  | (.erase start stop, .done) =>
      ⟨some (start, stop), [], fun x => if start ≤ x ∧ x < stop then 0 else w.times x⟩
  | (.erase _ _, .failed _) => ⟨none, [], w.times⟩

/-- The wear after a log of operations, oldest first. -/
def after (w : Wear) (log : List (Op × Outcome)) : Wear := log.foldl step w

@[simp] theorem after_nil (w : Wear) : w.after [] = w := rfl

@[simp] theorem after_cons (w : Wear) (p : Op × Outcome) (log : List (Op × Outcome)) :
    w.after (p :: log) = (w.step p).after log := rfl

theorem after_append (w : Wear) (xs ys : List (Op × Outcome)) :
    w.after (xs ++ ys) = (w.after xs).after ys := by
  simp [after]

/-- A program lands in the range the last erase cleared. -/
def Admits (w : Wear) : Op → Prop
  | .program offset bytes =>
      ∃ start stop, w.erased = some (start, stop) ∧ start ≤ offset ∧ offset + bytes.length ≤ stop
  | .read _ _ | .erase _ _ => True

/-- Every program of a log lands in the range the last erase before it
cleared. -/
def Covers : Wear → List (Op × Outcome) → Prop
  | _, [] => True
  | w, p :: log => w.Admits p.1 ∧ Covers (w.step p) log

theorem covers_append {w : Wear} {xs ys : List (Op × Outcome)} (hxs : w.Covers xs)
    (hys : (w.after xs).Covers ys) : w.Covers (xs ++ ys) := by
  induction xs generalizing w with
  | nil => exact hys
  | cons x xs ih => exact ⟨hxs.1, ih hxs.2 hys⟩

/-- Reads wear nothing. -/
theorem after_reads (w : Wear) {log : List (Op × Outcome)}
    (h : ∀ p ∈ log, ∃ offset len, p.1 = .read offset len) : w.after log = w ∧ w.Covers log := by
  induction log with
  | nil => exact ⟨rfl, trivial⟩
  | cons p log ih =>
      obtain ⟨op, outcome⟩ := p
      obtain ⟨offset, len, hop⟩ := h _ (List.mem_cons_self ..)
      obtain rfl : op = .read offset len := hop
      have hrest := ih fun q hq => h q (List.mem_cons_of_mem _ hq)
      exact ⟨hrest.1, trivial, hrest.2⟩

end Wear

/-! ## reading ranges -/

/- Specifications speak of lists of bytes; these lemmas say when an operation
leaves such a list alone, and what it makes of it otherwise. -/

/-- The `len` bytes from `offset` on. -/
def bytesAt (c : Contents) (offset len : Nat) : List UInt8 :=
  List.ofFn fun i : Fin len => c (offset + i)

@[simp] theorem length_bytesAt (c : Contents) (offset len : Nat) :
    (bytesAt c offset len).length = len := by
  simp [bytesAt]

@[simp] theorem getElem_bytesAt (c : Contents) (offset len : Nat) {i : Nat}
    (h : i < (bytesAt c offset len).length) : (bytesAt c offset len)[i] = c (offset + i) := by
  simp [bytesAt]

@[simp] theorem bytesAt_zero (c : Contents) (offset : Nat) : bytesAt c offset 0 = [] := rfl

/-- A range may be read in two parts. -/
theorem bytesAt_add (c : Contents) (offset m n : Nat) :
    bytesAt c offset (m + n) = bytesAt c offset m ++ bytesAt c (offset + m) n := by
  apply List.ext_getElem
  · simp
  · intro i h₁ h₂
    by_cases hi : i < m
    · simp [hi]
    · have hle : offset + i = offset + m + (i - m) := by omega
      simp [List.getElem_append, hi, ← hle]

/-- Two contents that agree on a range read the same there. -/
theorem bytesAt_congr {c d : Contents} {offset len : Nat}
    (h : ∀ x, offset ≤ x → x < offset + len → c x = d x) :
    bytesAt c offset len = bytesAt d offset len := by
  apply List.ext_getElem
  · simp
  · intro i h₁ h₂
    rw [length_bytesAt] at h₁
    simpa using h (offset + i) (by omega) (by omega)

/-- An operation elsewhere does not change what a range reads. -/
theorem bytesAt_apply_of_disjoint (c : Contents) (p : Op × Outcome) {offset len : Nat}
    (h : p.1.stop ≤ offset ∨ offset + len ≤ p.1.start) :
    bytesAt (apply c p) offset len = bytesAt c offset len :=
  bytesAt_congr fun x hlo hhi => apply_of_not_mem c p (by omega)

/-- Programming an erased range stores the bytes. -/
theorem bytesAt_program (c : Contents) (offset : Nat) (bytes : List UInt8)
    (h : ∀ i, i < bytes.length → c (offset + i) = 0xff) :
    bytesAt (apply c (.program offset bytes, .done)) offset bytes.length = bytes := by
  apply List.ext_getElem
  · simp
  · intro i h₁ h₂
    rw [getElem_bytesAt, apply_program_erased c h₂ (h i h₂)]

/-- Ranges that read alike agree byte by byte. -/
theorem eq_of_bytesAt_eq {c d : Contents} {offset len : Nat}
    (h : bytesAt c offset len = bytesAt d offset len) {i : Nat} (hi : i < len) :
    c (offset + i) = d (offset + i) := by
  have hget := congrArg (fun bs : List UInt8 => bs[i]?) h
  simpa [bytesAt, hi] using hget

/-- The same bytes as a vector. -/
def vectorAt (c : Contents) (offset len : Nat) : Vector UInt8 len :=
  Vector.ofFn fun i => c (offset + i)

@[simp] theorem toList_vectorAt (c : Contents) (offset len : Nat) :
    (vectorAt c offset len).toList = bytesAt c offset len := by
  rw [vectorAt, Vector.toList_ofFn, bytesAt]

@[simp] theorem getElem_vectorAt (c : Contents) (offset len : Nat) {i : Nat} (h : i < len) :
    (vectorAt c offset len)[i] = c (offset + i) := by
  simp [vectorAt]

/-! ## the chip -/

/- The outcome of the next operation is that of its number in the log.  A chip is
reliable if all outcomes from here on are successes. -/

/-- A flash chip: what it held when it was powered, how each operation to come
will end, by its position in the log, and the log so far. -/
structure Chip where
  initial : Contents
  outcomes : Nat → Outcome
  log : List (Op × Outcome)

/-- A chip that has done nothing yet. -/
def Chip.fresh (c : Contents) (outcomes : Nat → Outcome) : Chip := ⟨c, outcomes, []⟩

/-- What the chip holds now. -/
def Chip.contents (f : Chip) : Contents := replay f.initial f.log

/-- The outcome the next operation will have. -/
def Chip.next (f : Chip) : Outcome := f.outcomes f.log.length

/-- The chip after one more operation. -/
def Chip.push (f : Chip) (op : Op) : Chip := { f with log := f.log ++ [(op, f.next)] }

@[simp] theorem Chip.initial_push (f : Chip) (op : Op) : (f.push op).initial = f.initial := rfl

@[simp] theorem Chip.outcomes_push (f : Chip) (op : Op) : (f.push op).outcomes = f.outcomes := rfl

@[simp] theorem Chip.log_push (f : Chip) (op : Op) :
    (f.push op).log = f.log ++ [(op, f.next)] := rfl

@[simp] theorem Chip.contents_push (f : Chip) (op : Op) :
    (f.push op).contents = apply f.contents (op, f.next) := by
  simp [Chip.contents, replay_append]

@[simp] theorem Chip.contents_fresh (c : Contents) (outcomes : Nat → Outcome) :
    (Chip.fresh c outcomes).contents = c := rfl

/-- `g` is `f` after issuing `ops`, with the outcomes `f` had in store. -/
structure Chip.Issued (f g : Chip) (ops : List (Op × Outcome)) : Prop where
  initial : g.initial = f.initial
  outcomes : g.outcomes = f.outcomes
  log : g.log = f.log ++ ops
  drawn : ∀ i (h : i < ops.length), ops[i].2 = f.outcomes (f.log.length + i)

theorem Chip.Issued.refl (f : Chip) : f.Issued f [] :=
  ⟨rfl, rfl, by simp, fun _ h => absurd h (by simp)⟩

theorem Chip.issued_push (f : Chip) (op : Op) : f.Issued (f.push op) [(op, f.next)] :=
  ⟨rfl, rfl, rfl, fun i h => by
    have hi : i = 0 := by simpa using h
    subst hi
    rfl⟩

theorem Chip.Issued.trans {f g h : Chip} {xs ys : List (Op × Outcome)} (h₁ : f.Issued g xs)
    (h₂ : g.Issued h ys) : f.Issued h (xs ++ ys) := by
  refine ⟨h₂.initial.trans h₁.initial, h₂.outcomes.trans h₁.outcomes, ?_, ?_⟩
  · rw [h₂.log, h₁.log, List.append_assoc]
  · intro i hi
    by_cases hx : i < xs.length
    · rw [List.getElem_append_left hx]
      exact h₁.drawn i hx
    · have hy : i - xs.length < ys.length := by
        rw [List.length_append] at hi
        omega
      rw [List.getElem_append_right (by omega), h₂.drawn _ hy, h₁.outcomes, h₁.log,
        List.length_append]
      congr 1
      omega

/-- Every issued operation ended as the chip had in store. -/
theorem Chip.Issued.mem {f g : Chip} {ops : List (Op × Outcome)} (h : f.Issued g ops)
    {p : Op × Outcome} (hp : p ∈ ops) : ∃ i, p.2 = f.outcomes i := by
  obtain ⟨i, hi, rfl⟩ := List.getElem_of_mem hp
  exact ⟨_, h.drawn i hi⟩

/-- Every operation to come succeeds. -/
def Chip.Reliable (f : Chip) : Prop := ∀ i, f.log.length ≤ i → f.outcomes i = .done

/-- A reliable chip stays reliable, and all it issued succeeded. -/
theorem Chip.Reliable.issued {f g : Chip} {ops : List (Op × Outcome)} (h : f.Reliable)
    (hissued : f.Issued g ops) : g.Reliable ∧ ∀ p ∈ ops, p.2 = .done := by
  refine ⟨fun i hi => ?_, fun p hp => ?_⟩
  · rw [hissued.log, List.length_append] at hi
    rw [hissued.outcomes]
    exact h i (by omega)
  · obtain ⟨i, hi, rfl⟩ := List.getElem_of_mem hp
    rw [hissued.drawn i hi]
    exact h _ (Nat.le_add_right _ _)

/-- The contents follow from what was issued. -/
theorem Chip.Issued.contents {f g : Chip} {ops : List (Op × Outcome)} (h : f.Issued g ops) :
    g.contents = replay f.contents ops := by
  rw [Chip.contents, Chip.contents, h.initial, h.log, replay_append]

end Nor
