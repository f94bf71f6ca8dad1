import Intel8080.Flags

/-!
# Accumulator arithmetic

Sums and differences are formed in sixteen bits, so that the carry or borrow is
bit 8 of the result and the byte itself the low half. Each operation yields the
byte together with the flags it implies; which of those flags an instruction
keeps is decided where the instruction is described.
-/

namespace Intel8080

namespace Arithmetic

/-- Whether the number of set bits is even. Folding the byte onto itself keeps
the parity of that number and gathers it in the lowest bit. -/
def evenParity (value : UInt8) : Bool :=
  let nibble := value ^^^ (value >>> 4)
  let pair := nibble ^^^ (nibble >>> 2)
  let single := pair ^^^ (pair >>> 1)
  single &&& 1 == 0

/-- Folding and counting agree on every byte. -/
theorem evenParity_eq (value : UInt8) : evenParity value = (ones value % 2 == 0) := by
  have all : ∀ bits : BitVec 8, evenParity ⟨bits⟩ = (ones ⟨bits⟩ % 2 == 0) := by decide
  exact all value.toBitVec

/-- Whether the low half of a result is zero. -/
def isZero (result : UInt16) : Bool :=
  result &&& 0x00FF == 0

/-- Whether bit 7 of a result is set. -/
def isNegative (result : UInt16) : Bool :=
  result &&& 0x0080 != 0

/-- Whether a result carried into, or borrowed from, bit 8. -/
def carries (result : UInt16) : Bool :=
  result &&& 0x0100 != 0

/-- Whether forming a sum carried into bit 4. Bit 4 of the sum differs from that
of the operands taken without carry exactly when a carry arrived there. -/
def auxCarries (left right : UInt8) (result : UInt16) : Bool :=
  (left.toUInt16 ^^^ right.toUInt16 ^^^ result) &&& 0x10 != 0

/-- Whether forming a difference left bit 4 unborrowed. -/
def auxKeeps (left right : UInt8) (result : UInt16) : Bool :=
  !auxCarries left right result

end Arithmetic

namespace Flags

open Arithmetic

/-- The flags of a byte that no carry accompanies. -/
def ofData (value : UInt8) : Flags where
  zero := value == 0
  sign := value &&& 0x80 != 0
  parity := evenParity value
  carry := false
  aux := false

/-- The flags after a bitwise operation: both carries are clear. -/
def ofLogical (value : UInt8) : Flags :=
  ofData value

/-- The flags of a sixteen-bit result with the given auxiliary carry. -/
def ofResult (result : UInt16) (aux : Bool) : Flags where
  zero := isZero result
  sign := isNegative result
  parity := evenParity (lowByte result)
  carry := carries result
  aux := aux

end Flags

namespace Arithmetic

/-- The sum of two bytes and a carry. -/
def add (left right : UInt8) (carryIn : Bool) : UInt8 × Flags :=
  let result := left.toUInt16 + right.toUInt16 + carryIn.toUInt16
  (lowByte result, .ofResult result (auxCarries left right result))

/-- The difference of two bytes less a borrow. The carry flag reports a borrow;
the auxiliary carry reports that the low four bits needed none. -/
def subtract (left right : UInt8) (borrowIn : Bool) : UInt8 × Flags :=
  let result := left.toUInt16 - right.toUInt16 - borrowIn.toUInt16
  (lowByte result, .ofResult result (auxKeeps left right result))

/-- The successor of a byte. Its carry flag is always clear: stepping instructions
keep the one they find. -/
def increment (value : UInt8) : UInt8 × Flags :=
  let result := value + 1
  (result, { Flags.ofData result with aux := result &&& 0x0F == 0 })

/-- The predecessor of a byte, with the same convention for the carry flag. -/
def decrement (value : UInt8) : UInt8 × Flags :=
  let result := value - 1
  (result, { Flags.ofData result with aux := result &&& 0x0F != 0x0F })

/-- Whether the low digit of a sum of packed decimals needs correction. -/
def lowDigitExceeds (value : UInt8) (aux : Bool) : Bool :=
  aux || value &&& 0x0F > 9

/-- Whether the high digit needs correction, counting the one that correcting an
excessive low digit will carry into it. -/
def highDigitExceeds (value : UInt8) (carry : Bool) : Bool :=
  carry || value >>> 4 > 9 || (value >>> 4 ≥ 9 && value &&& 0x0F > 9)

/-- The decimal correction of a sum of packed decimals: six is added to each
digit that ran past nine. The carry is set when the high digit was corrected and
otherwise as before; the auxiliary carry is that of the correcting addition. -/
def decimalAdjust (value : UInt8) (carry aux : Bool) : UInt8 × Flags :=
  let lowCorrection : UInt8 := if lowDigitExceeds value aux then 0x06 else 0
  let highCorrection : UInt8 := if highDigitExceeds value carry then 0x60 else 0
  let (result, flags) := add value (lowCorrection ||| highCorrection) false
  (result, { flags with carry := highDigitExceeds value carry })

end Arithmetic

end Intel8080
