import Intel8080.Word

/-!
# Condition flags

Five flags describe the last arithmetic or logical result. They travel in one
byte of the processor status word, whose remaining three bits are fixed: bit 1
is always set, bits 3 and 5 always clear. Packing and unpacking therefore lose
nothing in one direction and forget only the fixed bits in the other.
-/

namespace Intel8080

/-- The five condition flags. -/
structure Flags where
  /-- The result was zero. -/
  zero : Bool := false
  /-- The most significant bit of the result was set. -/
  sign : Bool := false
  /-- The result had an even number of set bits. -/
  parity : Bool := false
  /-- The operation carried out of, or borrowed into, the most significant bit. -/
  carry : Bool := false
  /-- The operation carried out of the low four bits. -/
  aux : Bool := false
  deriving DecidableEq, Repr, Inhabited

namespace Flags

/-- The contribution of one flag to the packed byte. -/
def bit (set : Bool) (mask : UInt8) : UInt8 :=
  if set then mask else 0

/-- The packed form of the flags. -/
def toByte (flags : Flags) : UInt8 :=
  bit flags.sign 0x80 ||| bit flags.zero 0x40 ||| bit flags.aux 0x10 |||
    bit flags.parity 0x04 ||| 0x02 ||| bit flags.carry 0x01

/-- The flags in a packed byte. The fixed bits are not consulted. -/
def ofByte (packed : UInt8) : Flags where
  zero := packed &&& 0x40 != 0
  sign := packed &&& 0x80 != 0
  parity := packed &&& 0x04 != 0
  carry := packed &&& 0x01 != 0
  aux := packed &&& 0x10 != 0

/-- Unpacking restores every flag. -/
@[simp] theorem ofByte_toByte (flags : Flags) : ofByte flags.toByte = flags := by
  obtain ⟨zero, sign, parity, carry, aux⟩ := flags
  cases zero <;> cases sign <;> cases parity <;> cases carry <;> cases aux <;> rfl

/-- Packing again keeps the five flags and restores the fixed bits. -/
theorem toByte_ofByte (packed : UInt8) :
    (ofByte packed).toByte = (packed &&& 0xD5) ||| 0x02 := by
  have all : ∀ bits : BitVec 8,
      (ofByte ⟨bits⟩).toByte = ((⟨bits⟩ : UInt8) &&& 0xD5) ||| 0x02 := by decide
  exact all packed.toBitVec

/-- One letter per flag in the order zero, sign, parity, carry, auxiliary carry,
with a point in place of each clear flag. -/
def text (flags : Flags) : String :=
  String.ofList [
    if flags.zero then 'z' else '.',
    if flags.sign then 's' else '.',
    if flags.parity then 'p' else '.',
    if flags.carry then 'c' else '.',
    if flags.aux then 'a' else '.']

end Flags

end Intel8080
