import Mathlib

/-!
# OptiBridge.Lib.Crc

Cyclic redundancy checks over GF(2): bit strings as polynomials, the reflected
shift register as a division with remainder, and the errors a remainder cannot
miss.  A register has any width and any generator; nothing here names one.

The route is the classical one.  A bit string is the polynomial whose
coefficients it lists, highest first; the register holds a polynomial below the
degree of the generator, in reflected order; one shift multiplies by the
indeterminate and reduces.  So feeding bytes computes a remainder, a change of
the input changes the remainder by that of the difference, and a difference that
fits the register cannot be a multiple of the generator.
-/

namespace Crc

open Polynomial

/-! ## bit strings -/

/- Polynomials over two elements, written as lists of their coefficients. -/

/-- A bit as a coefficient. -/
def bit (b : Bool) : ZMod 2 := if b then 1 else 0

/-- A bit is the coefficient it stands for. -/
theorem bit_injective : Function.Injective bit := by decide

/-- Exclusive or is addition. -/
theorem bit_xor (a b : Bool) : bit (a ^^ b) = bit a + bit b := by
  cases a <;> cases b <;> decide

/-- A bit string as a polynomial: the first bit has the highest power. -/
noncomputable def ofBits : List Bool → (ZMod 2)[X]
  | [] => 0
  | b :: bs => C (bit b) * X ^ bs.length + ofBits bs

@[simp] theorem ofBits_nil : ofBits [] = 0 := rfl

theorem ofBits_cons (b : Bool) (bs : List Bool) :
    ofBits (b :: bs) = C (bit b) * X ^ bs.length + ofBits bs := rfl

theorem ofBits_append (xs ys : List Bool) :
    ofBits (xs ++ ys) = ofBits xs * X ^ ys.length + ofBits ys := by
  induction xs with
  | nil => simp
  | cons x xs ih =>
      rw [List.cons_append, ofBits_cons, ofBits_cons, ih, List.length_append, pow_add]
      ring

/-- A string of zeros is zero. -/
@[simp] theorem ofBits_replicate_false (n : Nat) : ofBits (List.replicate n false) = 0 := by
  induction n with
  | zero => rfl
  | succ n ih => simp [List.replicate_succ, ofBits_cons, ih, bit]

/-- Exclusive or is addition. -/
theorem ofBits_zipWith_xor {xs ys : List Bool} (h : xs.length = ys.length) :
    ofBits (List.zipWith xor xs ys) = ofBits xs + ofBits ys := by
  induction xs generalizing ys with
  | nil => cases ys with
    | nil => simp
    | cons y ys => contradiction
  | cons x xs ih => cases ys with
    | nil => contradiction
    | cons y ys =>
        have htail : xs.length = ys.length := Nat.succ.inj h
        rw [List.zipWith_cons_cons, ofBits_cons, ofBits_cons, ofBits_cons, ih htail, bit_xor,
          List.length_zipWith, htail, Nat.min_self, C_add]
        ring

/-- The bits are the coefficients. -/
theorem coeff_ofBits (bs : List Bool) (i : Nat) :
    (ofBits bs).coeff i = bit (bs.reverse[i]?.getD false) := by
  induction bs with
  | nil => simp [bit]
  | cons b bs ih =>
      rw [ofBits_cons, coeff_add, coeff_C_mul_X_pow, ih, List.reverse_cons]
      rcases Nat.lt_trichotomy i bs.length with hlt | rfl | hgt
      · rw [if_neg hlt.ne, zero_add, List.getElem?_append_left (by simpa using hlt)]
      · simp [bit]
      · have hnone : bs.reverse[i]? = none := List.getElem?_eq_none (by simp; omega)
        have hnone' : (bs.reverse ++ [b])[i]? = none := List.getElem?_eq_none (by simp; omega)
        rw [if_neg hgt.ne', hnone, hnone', zero_add]

/-- A string of `n` bits has degree below `n`. -/
theorem degree_ofBits_lt (bs : List Bool) : (ofBits bs).degree < bs.length := by
  rw [degree_lt_iff_coeff_zero]
  intro i hi
  rw [coeff_ofBits, List.getElem?_eq_none (by simpa using hi)]
  rfl

/-- Strings of one length with one polynomial are one. -/
theorem ofBits_inj {xs ys : List Bool} (hlength : xs.length = ys.length) :
    ofBits xs = ofBits ys ↔ xs = ys := by
  constructor
  · intro h
    refine List.reverse_injective (List.ext_getElem (by simpa using hlength) fun i hi hi' => ?_)
    have hcoeff := congrArg (fun p => coeff p i) h
    simp only [coeff_ofBits] at hcoeff
    have hbits := bit_injective hcoeff
    rwa [List.getElem?_eq_getElem hi, List.getElem?_eq_getElem hi'] at hbits
  · rintro rfl
    rfl

/-! ## words -/

/- A word in reflected order: its low bit is the coefficient of the highest
power. -/

section words

variable {w k : Nat}

/-- The bits of a word, least significant first. -/
def bits (x : BitVec w) : List Bool := List.ofFn fun i : Fin w => x.getLsbD i

@[simp] theorem length_bits (x : BitVec w) : (bits x).length = w := by
  simp [bits]

/-- The low bit comes first: the order is the reflected one. -/
theorem getElem?_bits (x : BitVec w) {i : Nat} (h : i < w) :
    (bits x)[i]? = some (x.getLsbD i) := by
  rw [List.getElem?_eq_getElem (by simpa using h)]
  simp only [bits, List.getElem_ofFn]

/-- Words are added bit by bit. -/
theorem bits_xor (x y : BitVec w) : bits (x ^^^ y) = List.zipWith xor (bits x) (bits y) := by
  apply List.ext_getElem
  · simp
  · intro i hi hi'
    simp [bits]

/-- As polynomials, too. -/
theorem ofBits_bits_xor (x y : BitVec w) :
    ofBits (bits (x ^^^ y)) = ofBits (bits x) + ofBits (bits y) := by
  rw [bits_xor, ofBits_zipWith_xor (by simp)]

/-- A word in the low bits of a wider one has zeros after it. -/
theorem bits_setWidth (x : BitVec k) (h : k ≤ w) :
    bits (x.setWidth w) = bits x ++ List.replicate (w - k) false := by
  apply List.ext_getElem
  · simp
    omega
  · intro i hi hi'
    by_cases hik : i < k
    · rw [List.getElem_append_left (by simpa using hik)]
      simp [bits, hik]
    · rw [List.getElem_append_right (by simpa using hik)]
      simp only [bits, List.getElem_ofFn, BitVec.getLsbD_setWidth, List.getElem_replicate]
      rw [BitVec.getLsbD_of_ge x i (Nat.le_of_not_lt hik), Bool.and_false]

/-- A word that is widened is multiplied, for its bits come first. -/
theorem ofBits_bits_setWidth (x : BitVec k) (h : k ≤ w) :
    ofBits (bits (x.setWidth w)) = ofBits (bits x) * X ^ (w - k) := by
  rw [bits_setWidth x h, ofBits_append, ofBits_replicate_false, List.length_replicate, add_zero]

/-- A word as a polynomial: each bit has its own power. -/
noncomputable def ofWord (x : BitVec w) : (ZMod 2)[X] := ofBits (bits x).reverse

/-- The coefficients of a word are its bits, in the plain order. -/
theorem coeff_ofWord (x : BitVec w) (i : Nat) : (ofWord x).coeff i = bit (x.getLsbD i) := by
  rw [ofWord, coeff_ofBits, List.reverse_reverse]
  by_cases hi : i < w
  · rw [getElem?_bits x hi, Option.getD_some]
  · rw [List.getElem?_eq_none (by simpa using hi), BitVec.getLsbD_of_ge x i (Nat.le_of_not_lt hi)]
    rfl

/-- The word a polynomial spells, least significant bit first. -/
noncomputable def reflected (w : Nat) (p : (ZMod 2)[X]) : BitVec w :=
  BitVec.ofFnLE fun i => decide (p.coeff (w - 1 - i.val) = 1)

/-- In the reflected order they come from the other end. -/
theorem coeff_bits (x : BitVec w) {i : Nat} (h : i < w) :
    (ofBits (bits x)).coeff (w - 1 - i) = bit (x.getLsbD i) := by
  have hplace : w - 1 - (w - 1 - i) = i := by omega
  have hlt : w - 1 - i < (bits x).reverse.length := by simp; omega
  rw [coeff_ofBits, List.getElem?_eq_getElem hlt, List.getElem_reverse, Option.getD_some]
  simp only [bits, List.getElem_ofFn, List.length_ofFn, hplace]

/-- Reading the coefficients back gives the word. -/
@[simp] theorem reflected_ofBits (x : BitVec w) : reflected w (ofBits (bits x)) = x := by
  apply BitVec.eq_of_getElem_eq
  intro i hi
  rw [reflected, BitVec.getElem_ofFnLE, coeff_bits x hi, ← BitVec.getLsbD_eq_getElem]
  cases x.getLsbD i <;> decide

end words

/-! ## the register -/

/- The shift register, in the reflected form in which it is implemented. -/

section register

variable {w k : Nat}

/-- One turn of a reflected shift register. -/
def shift (g r : BitVec w) : BitVec w := if r.getLsbD 0 then (r >>> 1) ^^^ g else r >>> 1

/-- What the register divides by: `g` spells it without its leading term. -/
noncomputable def generator (g : BitVec w) : (ZMod 2)[X] := X ^ w + ofBits (bits g)

/-- A word of width `w` has degree below `w`. -/
theorem degree_bits_lt (x : BitVec w) : (ofBits (bits x)).degree < w := by
  simpa using degree_ofBits_lt (bits x)

/-- The leading coefficient is the bit the register does not hold. -/
theorem generator_monic (g : BitVec w) : (generator g).Monic :=
  monic_X_pow_add (degree_bits_lt g)

/-- The degree of a generator is the width of its register. -/
theorem degree_generator (g : BitVec w) : (generator g).degree = w :=
  (degree_add_eq_left_of_degree_lt (by simpa using degree_bits_lt g)).trans (degree_X_pow w)

/-- The bit shifted out is the one with the highest power. -/
theorem ofBits_mul_X (r : BitVec w) :
    ofBits (bits r) * X = C (bit (r.getLsbD 0)) * X ^ w + ofBits (bits (r >>> 1)) := by
  cases w with
  | zero => simp [bits, bit]
  | succ n =>
      have hbits : bits r = r.getLsbD 0 :: (bits r).tail := by
        simp [bits, List.ofFn_succ]
      have hshift : bits (r >>> 1) = (bits r).tail ++ [false] := by
        apply List.ext_getElem
        · simp
        · intro i hi hi'
          by_cases hin : i < n
          · rw [List.getElem_append_left (by simpa using hin), List.getElem_tail]
            simp only [bits, List.getElem_ofFn, BitVec.getLsbD_ushiftRight, Nat.add_comm 1 i]
          · rw [List.getElem_append_right (by simpa using hin)]
            have hend : r.getLsbD (1 + i) = false := BitVec.getLsbD_of_ge r (1 + i) (by omega)
            simp only [bits, List.getElem_ofFn, BitVec.getLsbD_ushiftRight, hend]
            simp
      have hlength : (bits r).tail.length = n := by simp
      have hfalse : ofBits [false] = 0 := ofBits_replicate_false 1
      calc
        ofBits (bits r) * X
        _ = C (bit (r.getLsbD 0)) * X ^ (n + 1) + ofBits (bits r).tail * X := by
          rw [hbits, ofBits_cons, List.tail_cons, hlength, pow_succ]
          ring
        _ = _ := by
          rw [hshift, ofBits_append, hfalse, List.length_singleton, pow_one, add_zero]

/-- **One turn is one step of the division.** -/
theorem ofBits_shift (g r : BitVec w) :
    ofBits (bits (shift g r)) = (ofBits (bits r) * X) %ₘ generator g := by
  have hdegree : (ofBits (bits (shift g r))).degree < (generator g).degree := by
    rw [degree_generator]
    exact degree_bits_lt _
  -- the quotient is the bit shifted out
  refine ((div_modByMonic_unique (C (bit (r.getLsbD 0))) _ (generator_monic g)
    ⟨?_, hdegree⟩).2).symm
  rw [ofBits_mul_X]
  unfold shift generator
  cases r.getLsbD 0 with
  | false => simp [bit]
  | true =>
      have hsum := CharTwo.add_self_eq_zero (ofBits (bits g))
      rw [if_pos rfl, ofBits_bits_xor]
      simp only [bit, if_true, C_1, one_mul, mul_one]
      linear_combination hsum

theorem mul_modByMonic_left {q : (ZMod 2)[X]} (hq : q.Monic) (a b : (ZMod 2)[X]) :
    (a %ₘ q * b) %ₘ q = (a * b) %ₘ q := by
  rw [← sub_eq_zero, ← sub_modByMonic, modByMonic_eq_zero_iff_dvd hq, ← sub_mul]
  refine Dvd.dvd.mul_right ?_ b
  rw [← modByMonic_eq_zero_iff_dvd hq, sub_modByMonic, sub_eq_zero]
  exact (modByMonic_eq_self_iff hq).mpr (degree_modByMonic_lt a hq)

/-- So many shifts multiply by that power and reduce. -/
theorem ofBits_shifts (g r : BitVec w) (n : Nat) :
    ofBits (bits ((shift g)^[n] r)) = (ofBits (bits r) * X ^ n) %ₘ generator g := by
  induction n with
  | zero =>
      rw [Function.iterate_zero_apply, pow_zero, mul_one]
      exact ((modByMonic_eq_self_iff (generator_monic g)).mpr
        (by rw [degree_generator]; exact degree_bits_lt r)).symm
  | succ n ih =>
      rw [Function.iterate_succ_apply', ofBits_shift, ih, mul_modByMonic_left (generator_monic g),
        mul_assoc, ← pow_succ]

/-- Fold a word into the register. -/
def feed (g r : BitVec w) (x : BitVec k) : BitVec w := (shift g)^[k] (r ^^^ x.setWidth w)

/-- A word is fed by adding it at the top and shifting once for each of its
bits. -/
theorem ofBits_feed (g r : BitVec w) (x : BitVec k) (h : k ≤ w) :
    ofBits (bits (feed g r x)) =
      (ofBits (bits r) * X ^ k + ofBits (bits x) * X ^ w) %ₘ generator g := by
  have hpow : (X : (ZMod 2)[X]) ^ (w - k) * X ^ k = X ^ w := by
    rw [← pow_add, Nat.sub_add_cancel h]
  rw [feed, ofBits_shifts, ofBits_bits_xor, ofBits_bits_setWidth x h, add_mul, mul_assoc, hpow]

/-- **The register is the remainder.** What it started with is folded into the
leading bits of the message. -/
theorem ofBits_foldl_feed (g r : BitVec w) (xs : List (BitVec k)) (h : k ≤ w) :
    ofBits (bits (xs.foldl (feed g) r)) =
      (ofBits (bits r) * X ^ (k * xs.length) + ofBits (xs.flatMap bits) * X ^ w) %ₘ
        generator g := by
  induction xs using List.reverseRecOn with
  | nil => exact (ofBits_shifts g r 0).trans (by simp)
  | append_singleton xs x ih =>
      have hgen := generator_monic g
      rw [List.foldl_append, List.foldl_cons, List.foldl_nil, ofBits_feed g _ x h, ih,
        add_modByMonic, mul_modByMonic_left hgen, ← add_modByMonic, List.flatMap_append,
        ofBits_append, List.length_append, List.flatMap_singleton, length_bits,
        List.length_singleton, Nat.mul_add, Nat.mul_one, pow_add]
      congr 1
      ring

end register

/-! ## errors -/

/- What the difference of two messages does to the remainder. -/

section errors

variable {w : Nat}

/-- Two strings of one length that differ within a window of `n` bits. -/
inductive Burst (n : Nat) : List Bool → List Bool → Prop where
  | intro (before : List Bool) {error error' : List Bool} (after : List Bool)
      (hlength : error.length = error'.length) (hwindow : error.length ≤ n)
      (hne : error ≠ error') :
      Burst n (before ++ error ++ after) (before ++ error' ++ after)

/-- Strings that agree before a window and after it. -/
theorem Burst.of_window {n k : Nat} {xs ys : List Bool} (hlength : xs.length = ys.length)
    (hbefore : xs.take k = ys.take k) (hafter : xs.drop (k + n) = ys.drop (k + n))
    (hne : xs ≠ ys) : Burst n xs ys := by
  have hsplit : ∀ zs : List Bool, zs = zs.take k ++ (zs.drop k).take n ++ zs.drop (k + n) := by
    intro zs
    rw [← List.drop_drop, List.append_assoc, List.take_append_drop, List.take_append_drop]
  have hwindow : (xs.drop k).take n ≠ (ys.drop k).take n := fun h => by
    rw [hsplit xs, hsplit ys, hbefore, hafter, h] at hne
    exact hne rfl
  rw [hsplit xs, hsplit ys, hbefore, hafter]
  refine .intro _ _ ?_ ?_ hwindow
  · simp [hlength]
  · exact List.length_take_le _ _

/-- A generator with a constant term shares no factor with a power of `X`. -/
theorem isCoprime_X_pow {q : (ZMod 2)[X]} (h : q.coeff 0 ≠ 0) (n : Nat) :
    IsCoprime q (X ^ n) := by
  have hX : IsCoprime (X : (ZMod 2)[X]) q :=
    irreducible_X.coprime_iff_not_dvd.mpr fun hdvd => h (X_dvd_iff.mp hdvd)
  exact hX.symm.pow_right

/-- **Bursts are detected.** A register whose generator has a constant term
tells apart strings that differ within its width, wherever the window lies. -/
theorem Burst.remainder_ne {g : BitVec w} (hg : (generator g).coeff 0 ≠ 0) {xs ys : List Bool}
    (h : Burst w xs ys) (n : Nat) :
    (ofBits xs * X ^ n) %ₘ generator g ≠ (ofBits ys * X ^ n) %ₘ generator g := by
  cases h with
  | @intro before error error' after hlength hwindow hne =>
      intro heq
      have hgen := generator_monic g
      have herror : ofBits error - ofBits error' ≠ 0 := fun hzero =>
        hne ((ofBits_inj hlength).mp (sub_eq_zero.mp hzero))
      have hdvd : generator g ∣ X ^ (after.length + n) * (ofBits error - ofBits error') := by
        rw [← modByMonic_eq_zero_iff_dvd hgen]
        rw [← sub_eq_zero, ← sub_modByMonic] at heq
        rw [← heq]
        congr 1
        simp only [ofBits_append, hlength, pow_add]
        ring
      -- the power of X says where the window lies, and has no factor in common
      have hsmall := (isCoprime_X_pow hg _).dvd_of_dvd_mul_left hdvd
      refine hgen.not_dvd_of_degree_lt herror ?_ hsmall
      rw [degree_generator]
      have hle : ∀ bs : List Bool, bs.length ≤ w → (ofBits bs).degree < w := fun bs hbs =>
        (degree_ofBits_lt bs).trans_le (by exact_mod_cast hbs)
      exact (degree_sub_le _ _).trans_lt
        (max_lt (hle _ hwindow) (hle _ (hlength ▸ hwindow)))

end errors

end Crc
