/-!
# Bytes and words

A word is two bytes. The high byte is its quotient by 256 and the low byte its
remainder, so the two halves determine the word and every pair of bytes is the
halves of one. Arithmetic wraps at the width, as the registers do.
-/

namespace Intel8080

/-- The word with the given halves. -/
def word (high low : UInt8) : UInt16 :=
  high.toUInt16 * 256 + low.toUInt16

/-- The more significant half of a word. -/
def highByte (value : UInt16) : UInt8 :=
  (value / 256).toUInt8

/-- The less significant half of a word. -/
def lowByte (value : UInt16) : UInt8 :=
  value.toUInt8

theorem toNat_word (high low : UInt8) :
    (word high low).toNat = 256 * high.toNat + low.toNat := by
  have := high.toNat_lt
  have := low.toNat_lt
  simp only [word, UInt16.toNat_add, UInt16.toNat_mul, UInt8.toNat_toUInt16,
    UInt16.reduceToNat]
  omega

theorem toNat_highByte (value : UInt16) : (highByte value).toNat = value.toNat / 256 := by
  have := value.toNat_lt
  simp only [highByte, UInt16.toNat_toUInt8, UInt16.toNat_div, UInt16.reduceToNat]
  omega

theorem toNat_lowByte (value : UInt16) : (lowByte value).toNat = value.toNat % 256 := by
  simp [lowByte, UInt16.toNat_toUInt8]

@[simp] theorem highByte_word (high low : UInt8) : highByte (word high low) = high := by
  have := low.toNat_lt
  apply UInt8.toNat_inj.1
  rw [toNat_highByte, toNat_word]
  omega

@[simp] theorem lowByte_word (high low : UInt8) : lowByte (word high low) = low := by
  have := low.toNat_lt
  apply UInt8.toNat_inj.1
  rw [toNat_lowByte, toNat_word]
  omega

@[simp] theorem word_highByte_lowByte (value : UInt16) :
    word (highByte value) (lowByte value) = value := by
  apply UInt16.toNat_inj.1
  rw [toNat_word, toNat_highByte, toNat_lowByte]
  omega

/-- How many bits of a byte are set. -/
def ones (value : UInt8) : Nat :=
  (List.range 8).countP value.toBitVec.getLsbD

/-- The sum of two bytes, or 255 where it does not fit. -/
def saturatingAdd (left right : UInt8) : UInt8 :=
  UInt8.ofNat (min 255 (left.toNat + right.toNat))

theorem toNat_saturatingAdd (left right : UInt8) :
    (saturatingAdd left right).toNat = min 255 (left.toNat + right.toNat) := by
  simp only [saturatingAdd, UInt8.toNat_ofNat']
  omega

end Intel8080
