import Mathlib

/-!
# OptiBridge.Crc32

The bit-serial CRC-32/ISO-HDLC of the image payload: the loader folds each
received fragment into a running value with `crc32Update` and closes it with
`crc32Finish`; the boot validator does the same over flash, chunk by chunk.

The constants are those of the reflected form: the polynomial read from the low
bit, a register that starts with ones and is inverted at the end.  What a CRC is
as a polynomial, and what errors it finds, is in `OptiBridge.Lib.Crc`, over any
width and generator.
-/

namespace OptiBridge

/-- One turn of the inner loop of `crc32_update`. -/
def crc32Bit (crc : UInt32) : UInt32 :=
  if crc &&& 1 ≠ 0 then (crc >>> 1) ^^^ 0xedb88320 else crc >>> 1

/-- One turn of the outer loop: the byte is folded in, then eight bits. -/
def crc32Byte (crc : UInt32) (byte : UInt8) : UInt32 :=
  crc32Bit^[8] (crc ^^^ byte.toUInt32)

/-- Fold bytes into the running value. -/
def crc32Update (crc : UInt32) (bytes : List UInt8) : UInt32 := bytes.foldl crc32Byte crc

/-- Invert the running value. -/
def crc32Finish (crc : UInt32) : UInt32 := crc ^^^ 0xffffffff

/-- The CRC of bytes that are there all at once. -/
def crc32IsoHdlc (bytes : List UInt8) : UInt32 := crc32Finish (crc32Update 0xffffffff bytes)

@[simp] theorem crc32Update_nil (crc : UInt32) : crc32Update crc [] = crc := rfl

/-- Chaining over fragments is one update over their concatenation. -/
theorem crc32Update_append (crc : UInt32) (xs ys : List UInt8) :
    crc32Update crc (xs ++ ys) = crc32Update (crc32Update crc xs) ys := by
  simp [crc32Update]

example : crc32IsoHdlc [0x31, 0x32, 0x33, 0x34, 0x35, 0x36, 0x37, 0x38, 0x39] = 0xcbf43926 := by
  decide +kernel

end OptiBridge
