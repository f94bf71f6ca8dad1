/-!
# Operands

An opcode names its operands in three fields: bits 3 to 5 hold the destination,
bits 0 to 2 the source, and bits 4 and 5 a register pair. Each field is read
from the whole opcode, so a reader never has to shift it into place first.
-/

namespace Intel8080

/-- The eight-bit registers. -/
inductive Register where
  | b | c | d | e | h | l | a
  deriving DecidableEq, Repr, Inhabited

/-- What an eight-bit instruction works on: a register, or the byte of memory at
the address in HL. -/
inductive Operand where
  | register (name : Register)
  | memory
  deriving DecidableEq, Repr, Inhabited

/-- Two registers read as one word, the first being its high byte. -/
inductive Pair where
  | bc | de | hl
  deriving DecidableEq, Repr, Inhabited

/-- What a sixteen-bit instruction works on. -/
inductive WordRegister where
  | pair (name : Pair)
  | stackPointer
  deriving DecidableEq, Repr, Inhabited

/-- What a stack instruction moves: a sixteen-bit register, or the processor
status word, which is the accumulator followed by the packed flags. -/
inductive StackWord where
  | register (name : WordRegister)
  | status
  deriving DecidableEq, Repr, Inhabited

/-- The four flags that a conditional instruction can examine. -/
inductive Tested where
  | zero | carry | parity | sign
  deriving DecidableEq, Repr, Inhabited

/-- The condition of a jump, call or return: a tested flag and the value it must
have. -/
structure Condition where
  flag : Tested
  expected : Bool
  deriving DecidableEq, Repr, Inhabited

namespace Register

/-- The name of a register. -/
def text : Register → String
  | b => "b" | c => "c" | d => "d" | e => "e" | h => "h" | l => "l" | a => "a"

end Register

namespace Pair

/-- The register that holds the high byte. -/
def high : Pair → Register
  | bc => .b | de => .d | hl => .h

/-- The register that holds the low byte. -/
def low : Pair → Register
  | bc => .c | de => .e | hl => .l

/-- A pair goes by the name of its first register. -/
def text : Pair → String
  | bc => "b" | de => "d" | hl => "h"

end Pair

namespace Operand

/-- The operand of a three-bit field: B, C, D, E, H, L, memory, A. -/
def ofField (field : UInt8) : Operand :=
  match field with
  | 0 => register .b
  | 1 => register .c
  | 2 => register .d
  | 3 => register .e
  | 4 => register .h
  | 5 => register .l
  | 6 => memory
  | _ => register .a

/-- The operand in bits 3 to 5 of an opcode. -/
def destination (opcode : UInt8) : Operand :=
  ofField ((opcode >>> 3) &&& 7)

/-- The operand in bits 0 to 2 of an opcode. -/
def source (opcode : UInt8) : Operand :=
  ofField (opcode &&& 7)

/-- Whether the operand is a byte of memory. -/
def isMemory : Operand → Bool
  | register _ => false
  | memory => true

/-- Memory operands are written `m`. -/
def text : Operand → String
  | register name => name.text
  | memory => "m"

end Operand

namespace WordRegister

/-- The word register in bits 4 and 5 of an opcode: BC, DE, HL, SP. -/
def ofOpcode (opcode : UInt8) : WordRegister :=
  match (opcode >>> 4) &&& 3 with
  | 0 => pair .bc
  | 1 => pair .de
  | 2 => pair .hl
  | _ => stackPointer

/-- The name of a word register. -/
def text : WordRegister → String
  | pair name => name.text
  | stackPointer => "sp"

end WordRegister

namespace StackWord

/-- The stack word in bits 4 and 5 of an opcode. The status word takes the place
that the stack pointer has elsewhere. -/
def ofOpcode (opcode : UInt8) : StackWord :=
  match WordRegister.ofOpcode opcode with
  | .stackPointer => status
  | name => register name

/-- The name of a stack word. -/
def text : StackWord → String
  | register name => name.text
  | status => "psw"

end StackWord

namespace Condition

/-- The condition in bits 3 to 5 of an opcode: the upper two choose the flag, the
lowest its expected value. -/
def ofOpcode (opcode : UInt8) : Condition where
  flag := match (opcode >>> 4) &&& 3 with
    | 0 => .zero
    | 1 => .carry
    | 2 => .parity
    | _ => .sign
  expected := (opcode >>> 3) &&& 1 != 0

/-- The number of a condition, from 0 to 7. -/
def code (condition : Condition) : Nat :=
  2 * (match condition.flag with
    | .zero => 0
    | .carry => 1
    | .parity => 2
    | .sign => 3) + condition.expected.toNat

/-- The suffix that a condition adds to a mnemonic. -/
def text : Condition → String
  | ⟨.zero, false⟩ => "nz"
  | ⟨.zero, true⟩ => "z"
  | ⟨.carry, false⟩ => "nc"
  | ⟨.carry, true⟩ => "c"
  | ⟨.parity, false⟩ => "po"
  | ⟨.parity, true⟩ => "pe"
  | ⟨.sign, false⟩ => "p"
  | ⟨.sign, true⟩ => "m"

end Condition

end Intel8080
