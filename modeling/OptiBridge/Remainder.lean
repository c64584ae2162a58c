import OptiBridge.Crc32
import OptiBridge.Lib.Crc

/-!
# OptiBridge.Remainder

`crc32_iso_hdlc` is the remainder of a division over GF(2): its loop is a
reflected shift register (`Crc.shift`), so the running value after any bytes is
what the message leaves, with the initial value folded into its leading bits.

The general facts are in `OptiBridge.Lib.Crc`; here the source's loop is shown
to be an instance.

* `toBitVec_crc32Bit`, one turn of the inner loop is one shift of the
  register;
* `toBitVec_crc32Update`, all bytes are one feed after another;
* `ofBits_crc32Update`, so the running value is a remainder, whatever it was
  before;
* `foldl_crc32Update`, and how the bytes were cut does not matter;
* `crc32IsoHdlc_ne_of_burst`, what that is good for.
-/

namespace OptiBridge

open Polynomial Crc

/-! ## the loop is a register -/

/- The source shifts right and tests the low bit, which is the reflected form. -/

/-- 0x104c11db7 without its leading bit, reflected. -/
abbrev crc32Generator : BitVec 32 := 0xedb88320

/-- The bits of a message: bytes in order, each least significant bit first. -/
def messageBits (bytes : List UInt8) : List Bool := bytes.flatMap fun byte => bits byte.toBitVec

/-- Eight bits for each byte. -/
@[simp] theorem length_messageBits (bytes : List UInt8) :
    (messageBits bytes).length = 8 * bytes.length := by
  simp [messageBits, List.length_flatMap, Nat.mul_comm]

/-- The source's test on the low bit. -/
theorem and_one_ne_zero_iff (crc : UInt32) : crc &&& 1 ≠ 0 ↔ crc.toBitVec.getLsbD 0 = true := by
  have hbits : (crc &&& 1).toBitVec =
      BitVec.setWidth 32 (BitVec.ofBool (crc.toBitVec.getLsbD 0)) := by
    rw [UInt32.toBitVec_and]
    exact BitVec.and_one_eq_setWidth_ofBool_getLsbD
  rw [ne_eq, ← UInt32.toBitVec_inj, hbits]
  cases crc.toBitVec.getLsbD 0 <;> decide

/-- One turn of the inner loop shifts the register once. -/
theorem toBitVec_crc32Bit (crc : UInt32) :
    (crc32Bit crc).toBitVec = shift crc32Generator crc.toBitVec := by
  unfold crc32Bit shift
  by_cases hbit : crc.toBitVec.getLsbD 0 = true
  · rw [if_pos ((and_one_ne_zero_iff crc).mpr hbit), if_pos hbit]
    rfl
  · rw [if_neg (mt (and_one_ne_zero_iff crc).mp hbit), if_neg hbit]
    rfl

/-- Eight turns feed a byte. -/
theorem toBitVec_crc32Byte (crc : UInt32) (byte : UInt8) :
    (crc32Byte crc byte).toBitVec = feed crc32Generator crc.toBitVec byte.toBitVec :=
  (Function.Semiconj.iterate_right (f := UInt32.toBitVec) toBitVec_crc32Bit 8) _

/-- The outer loop feeds all bytes in order. -/
theorem toBitVec_crc32Update (crc : UInt32) (bytes : List UInt8) :
    (crc32Update crc bytes).toBitVec =
      (bytes.map UInt8.toBitVec).foldl (feed crc32Generator) crc.toBitVec := by
  induction bytes generalizing crc with
  | nil => rfl
  | cons byte bytes ih =>
      rw [crc32Update, List.foldl_cons, List.map_cons, List.foldl_cons, ← toBitVec_crc32Byte]
      exact ih _

/-! ## the division -/

/- The initial value of all ones is added to the first 32 bits of the message,
and the final inversion is added to the remainder. -/

/-- The register divides by 0x104c11db7. -/
theorem generator_crc32 : generator crc32Generator = ofWord (0x104c11db7 : BitVec 33) := by
  have hbits : (bits (0x104c11db7 : BitVec 33)).reverse = true :: bits crc32Generator := by decide
  rw [ofWord, hbits, ofBits_cons, length_bits, generator]
  simp [bit]

/-- The running value, as a remainder. -/
theorem ofBits_crc32Update (crc : UInt32) (bytes : List UInt8) :
    ofBits (bits (crc32Update crc bytes).toBitVec) =
      (ofBits (messageBits bytes) * X ^ 32 +
        ofBits (bits crc.toBitVec) * X ^ (8 * bytes.length)) %ₘ
        ofWord (0x104c11db7 : BitVec 33) := by
  rw [toBitVec_crc32Update, ofBits_foldl_feed _ _ _ (by decide), generator_crc32, add_comm,
    List.length_map, List.flatMap_map]
  rfl

/-- Over all the chunks of a message, the running value is that of the message. -/
theorem foldl_crc32Update (crc : UInt32) (chunks : List (List UInt8)) :
    chunks.foldl crc32Update crc = crc32Update crc chunks.flatten := by
  induction chunks generalizing crc with
  | nil => rfl
  | cons chunk chunks ih =>
      rw [List.foldl_cons, ih, List.flatten_cons, crc32Update_append]

/-- **CRC-32/ISO-HDLC.** The CRC of any bytes is the remainder of the message,
times `X ^ 32` and with 0xffffffff folded into its leading 32 bits, on division
by 0x104c11db7, bit-reflected and complemented; and chaining over any chunks of
the bytes gives the same. -/
theorem crc32IsoHdlc_remainder (bytes : List UInt8) :
    crc32IsoHdlc bytes =
      UInt32.ofBitVec (reflected 32
        ((ofBits (messageBits bytes) * X ^ 32 +
          ofWord (0xffffffff : BitVec 32) * X ^ (8 * bytes.length)) %ₘ
          ofWord (0x104c11db7 : BitVec 33))) ^^^ 0xffffffff ∧
    ∀ chunks : List (List UInt8),
      crc32Finish (chunks.foldl crc32Update 0xffffffff) = crc32IsoHdlc chunks.flatten := by
  constructor
  · have hbits : (bits (0xffffffff : BitVec 32)).reverse = bits (0xffffffff : UInt32).toBitVec := by
      decide
    have hinit :
        ofWord (0xffffffff : BitVec 32) = ofBits (bits (0xffffffff : UInt32).toBitVec) := by
      rw [ofWord, hbits]
    rw [hinit, ← ofBits_crc32Update, reflected_ofBits]
    rfl
  · intro chunks
    rw [foldl_crc32Update]
    rfl

/-! ## what the CRC detects -/

/- Two messages of one length whose bits differ in a short window have different
CRCs. -/

/-- Bit `k` of a message. -/
theorem getElem?_messageBits (bytes : List UInt8) (k : Nat) :
    (messageBits bytes)[k]? = bytes[k / 8]?.map fun byte => byte.toBitVec.getLsbD (k % 8) := by
  induction bytes generalizing k with
  | nil => rfl
  | cons byte bytes ih =>
      have hcons : messageBits (byte :: bytes) = bits byte.toBitVec ++ messageBits bytes := rfl
      rw [hcons]
      by_cases hk : k < 8
      · have hdiv : k / 8 = 0 := Nat.div_eq_of_lt hk
        have hmod : k % 8 = k := Nat.mod_eq_of_lt hk
        rw [List.getElem?_append_left (by simpa using hk), Crc.getElem?_bits _ hk, hdiv, hmod]
        rfl
      · have hdiv : k / 8 = (k - 8) / 8 + 1 := by omega
        have hmod : (k - 8) % 8 = k % 8 := by omega
        rw [List.getElem?_append_right (by simpa using hk), length_bits, ih, hdiv, hmod,
          List.getElem?_cons_succ]

/-- A message has no other bytes with its bits. -/
theorem messageBits_injective : Function.Injective messageBits := by
  intro xs
  induction xs with
  | nil =>
      intro ys h
      have hlength := congrArg List.length h
      simp only [length_messageBits, List.length_nil] at hlength
      exact (List.length_eq_zero_iff.mp (by omega)).symm
  | cons x xs ih =>
      intro ys h
      cases ys with
      | nil =>
          have hlength := congrArg List.length h
          simp only [length_messageBits, List.length_nil, List.length_cons] at hlength
          omega
      | cons y ys =>
          have happend : bits x.toBitVec ++ messageBits xs = bits y.toBitVec ++ messageBits ys := h
          obtain ⟨hhead, htail⟩ := List.append_inj happend (by simp)
          have hbyte : x.toBitVec = y.toBitVec := by
            rw [← reflected_ofBits x.toBitVec, hhead, reflected_ofBits]
          rw [UInt8.toBitVec_inj.mp hbyte, ih htail]

/-- **Bursts.** Messages of one length whose bits differ within a window of 32
have different CRCs. -/
theorem crc32IsoHdlc_ne_of_burst {xs ys : List UInt8} (hlength : xs.length = ys.length)
    (h : Burst 32 (messageBits xs) (messageBits ys)) : crc32IsoHdlc xs ≠ crc32IsoHdlc ys := by
  intro heq
  have hconstant : (generator crc32Generator).coeff 0 ≠ 0 := by
    rw [generator_crc32, coeff_ofWord]
    decide
  have hupdate : crc32Update 0xffffffff xs = crc32Update 0xffffffff ys := by
    have hxor := congrArg (· ^^^ 0xffffffff) heq
    simpa [crc32IsoHdlc, crc32Finish] using hxor
  refine h.remainder_ne hconstant 32 ?_
  have hbits := congrArg (fun crc => ofBits (bits (UInt32.toBitVec crc))) hupdate
  simp only [ofBits_crc32Update, hlength, add_modByMonic, add_left_inj] at hbits
  rw [generator_crc32]
  exact hbits

end OptiBridge
