import Mathlib

/-!
# OptiBridge.Lib.Bytes

Byte plumbing: little-endian words of any width, and the copy of a list into a
fixed-size buffer.  Nothing here knows about frames, images or flash; the
modules above instantiate it at their own widths.

Little-endian words go by `toLe` and `ofLe`, which are inverse to each other as
long as the word fits.  A copy is `copySlice`, with three lemmas that later
proofs use all the time:

* `getElem_copySlice_of_mem` and `getElem_copySlice_of_not_mem`, one element
  after a copy;
* `slice_copySlice`, the copied range read back;
* `copySlice_append`, two copies in a row as one.
-/

namespace Bytes

/-! ## little-endian words -/

/- Any width; the modules above use two and four. -/

/-- The `n` low-order bytes of `x`, least significant first. -/
def toLe : Nat → Nat → List UInt8
  | 0, _ => []
  | n + 1, x => UInt8.ofNat x :: toLe n (x / 256)

/-- The number a little-endian byte list spells. -/
def ofLe : List UInt8 → Nat
  | [] => 0
  | b :: bs => b.toNat + 256 * ofLe bs

/-- A word has its width. -/
@[simp] theorem length_toLe (n x : Nat) : (toLe n x).length = n := by
  induction n generalizing x with
  | zero => rfl
  | succ n ih => simp [toLe, ih]

/-- Bytes spell a number below the width. -/
theorem ofLe_lt (bs : List UInt8) : ofLe bs < 256 ^ bs.length := by
  induction bs with
  | nil => simp [ofLe]
  | cons b bs ih =>
      have hb : b.toNat < 256 := b.toNat_lt
      rw [ofLe, List.length_cons, Nat.pow_succ]
      omega

/-- Spelling a number out and reading it back keeps its low-order bytes. -/
theorem ofLe_toLe (n x : Nat) : ofLe (toLe n x) = x % 256 ^ n := by
  induction n generalizing x with
  | zero => simp [toLe, ofLe, Nat.mod_one]
  | succ n ih =>
      have hlow : (UInt8.ofNat x).toNat = x % 256 := UInt8.toNat_ofNat'
      rw [toLe, ofLe, ih, hlow, Nat.pow_succ, Nat.mul_comm (256 ^ n) 256, Nat.mod_mul]

/-- A number that fits is read back. -/
theorem ofLe_toLe_of_lt {n x : Nat} (h : x < 256 ^ n) : ofLe (toLe n x) = x := by
  rw [ofLe_toLe, Nat.mod_eq_of_lt h]

/-- Reading a word and spelling it out again gives its bytes. -/
theorem toLe_ofLe (bs : List UInt8) : toLe bs.length (ofLe bs) = bs := by
  induction bs with
  | nil => rfl
  | cons b bs ih =>
      have hb : b.toNat < 256 := b.toNat_lt
      have hdiv : (b.toNat + 256 * ofLe bs) / 256 = ofLe bs := by omega
      have hlow : UInt8.ofNat (b.toNat + 256 * ofLe bs) = b := by
        apply UInt8.toNat_inj.mp
        rw [UInt8.toNat_ofNat']
        omega
      rw [List.length_cons, ofLe, toLe, hdiv, ih, hlow]

/-! ## fixed places of a buffer -/

/- Headers and payloads are read at places that are known in advance. -/

/-- `xs[i]` at such a place: that the place is there is a computation, so `h` is
`rfl`. -/
@[reducible]
def byteAt {α : Type} {n : Nat} (xs : Vector α n) (i : Nat) (h : true = Nat.blt i n) : α :=
  getElem xs i (Nat.blt_eq.mp h.symm)

/-- Four consecutive bytes of a buffer, as a list. -/
theorem take_four_drop {α : Type} {n : Nat} (bs : Vector α n) (k : Nat) (h : k + 3 < n) :
    (bs.toList.drop k).take 4 = [bs[k], bs[k + 1], bs[k + 2], bs[k + 3]] := by
  apply List.ext_getElem
  · simp; omega
  · intro i h₁ h₂
    match i, h₂ with
    | 0, _ | 1, _ | 2, _ | 3, _ => simp

/-! ## copies into a buffer -/

/- The copy is total: what does not fit the buffer is dropped, and the lemmas
ask that it fits. -/

/-- `dst[start..start + src.len()].copy_from_slice(src)`: the buffer with `src`
written from `start` on.  What would fall past the end of the buffer is
dropped. -/
def copySlice {α : Type} {n : Nat} (dst : Vector α n) (start : Nat) (src : List α) :
    Vector α n :=
  Vector.ofFn fun i =>
    if h : start ≤ i.val ∧ i.val < start + src.length then src[i.val - start] else dst[i]

section copySlice

variable {α : Type} {n : Nat} (dst : Vector α n) (start : Nat) (src : List α)

/-- A copied position holds the source element. -/
theorem getElem_copySlice_of_mem {i : Nat} (hi : i < n) (hlo : start ≤ i)
    (hhi : i < start + src.length) :
    (copySlice dst start src)[i] = src[i - start] := by
  simp [copySlice, hlo, hhi]

/-- A position outside the copied range keeps its element. -/
theorem getElem_copySlice_of_not_mem {i : Nat} (hi : i < n)
    (h : ¬ (start ≤ i ∧ i < start + src.length)) :
    (copySlice dst start src)[i] = dst[i] := by
  simp [copySlice, h]

/-- The buffer as a list: what stood before, the source, what stands after. -/
theorem toList_copySlice (h : start + src.length ≤ n) :
    (copySlice dst start src).toList =
      dst.toList.take start ++ src ++ dst.toList.drop (start + src.length) := by
  apply List.ext_getElem
  · simp; omega
  · intro i h₁ h₂
    have hi : i < n := by simpa using h₁
    rw [Vector.getElem_toList]
    have hfront : (dst.toList.take start).length = start := by simp; omega
    have hmiddle : (dst.toList.take start ++ src).length = start + src.length := by
      rw [List.length_append, hfront]
    by_cases hlo : i < start
    · rw [getElem_copySlice_of_not_mem dst start src hi (by omega),
        List.getElem_append_left (by omega), List.getElem_append_left (by omega)]
      simp
    · by_cases hhi : i < start + src.length
      · rw [getElem_copySlice_of_mem dst start src hi (by omega) hhi,
          List.getElem_append_left (by omega), List.getElem_append_right (by omega)]
        simp only [hfront]
      · have hback : start + src.length + (i - (start + src.length)) = i := by omega
        rw [getElem_copySlice_of_not_mem dst start src hi (by omega),
          List.getElem_append_right (by omega)]
        simp only [hmiddle, List.getElem_drop, hback, Vector.getElem_toList]

/-- Reading the copied range back gives the source. -/
theorem slice_copySlice (h : start + src.length ≤ n) :
    ((copySlice dst start src).toList.drop start).take src.length = src := by
  apply List.ext_getElem
  · simp; omega
  · intro i h₁ h₂
    simp only [List.getElem_take, List.getElem_drop, Vector.getElem_toList]
    rw [getElem_copySlice_of_mem dst start src (by omega) (by omega) (by omega)]
    congr 1
    omega

/-- Copying at the front makes the source the front. -/
theorem take_copySlice_zero (h : src.length ≤ n) :
    (copySlice dst 0 src).toList.take src.length = src := by
  simpa using slice_copySlice dst 0 src (by omega)

/-- Copying one list after another copies the two as one. -/
theorem copySlice_append (src' : List α) :
    copySlice (copySlice dst start src) (start + src.length) src' =
      copySlice dst start (src ++ src') := by
  apply Vector.ext
  intro i hi
  by_cases hfirst : start ≤ i ∧ i < start + src.length
  · rw [getElem_copySlice_of_not_mem _ _ _ hi (by omega),
      getElem_copySlice_of_mem _ _ _ hi hfirst.1 hfirst.2,
      getElem_copySlice_of_mem _ _ _ hi hfirst.1 (by rw [List.length_append]; omega),
      List.getElem_append_left (by omega)]
  · by_cases hsecond : start + src.length ≤ i ∧ i < start + src.length + src'.length
    · rw [getElem_copySlice_of_mem _ _ _ hi hsecond.1 hsecond.2,
        getElem_copySlice_of_mem _ _ _ hi (by omega) (by rw [List.length_append]; omega),
        List.getElem_append_right (by omega)]
      congr 1
      omega
    · rw [getElem_copySlice_of_not_mem _ _ _ hi hsecond,
        getElem_copySlice_of_not_mem _ _ _ hi hfirst,
        getElem_copySlice_of_not_mem _ _ _ hi (by rw [List.length_append]; omega)]

end copySlice

end Bytes
