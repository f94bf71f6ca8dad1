import Intel8080.Instruction.Decode
import Intel8080.Instruction.Text

/-!
# Operand bytes

Decoding reads the opcode to choose an instruction and the two bytes behind it to
fill in its operands. The second part is `withOperands`: replacing the operand bytes
of a decoded instruction is the same as decoding other bytes. So length, base cost and
mnemonic are those of the opcode.

An instruction fills in no more bytes than its length says. Whatever stands behind it
in memory is ignored, and may be read as zero.
-/

namespace Intel8080

namespace Instruction

/-- The instruction with other operand bytes: the first of them for an instruction that
takes a byte, both as a word for one that takes a word. -/
def withOperands (low : UInt8) (operand : UInt16) : Instruction → Instruction
  | mvi target _ => mvi target low
  | accumulateImmediate operation _ => accumulateImmediate operation low
  | lxi target _ => lxi target operand
  | lda _ => lda operand
  | sta _ => sta operand
  | lhld _ => lhld operand
  | shld _ => shld operand
  | jmp _ => jmp operand
  | jumpIf condition _ => jumpIf condition operand
  | call _ => call operand
  | callIf condition _ => callIf condition operand
  | input _ => input low
  | output _ => output low
  | instruction => instruction

@[simp] theorem length_withOperands (low : UInt8) (operand : UInt16) (instruction : Instruction) :
    (instruction.withOperands low operand).length = instruction.length := by
  cases instruction <;> rfl

@[simp] theorem mnemonic_withOperands (low : UInt8) (operand : UInt16)
    (instruction : Instruction) :
    (instruction.withOperands low operand).mnemonic = instruction.mnemonic := by
  cases instruction <;> rfl

@[simp] theorem cycles_withOperands (low : UInt8) (operand : UInt16)
    (instruction : Instruction) :
    (instruction.withOperands low operand).cycles = instruction.cycles := by
  cases instruction <;> rfl

/-- Of two replacements the later one counts. -/
@[simp] theorem withOperands_withOperands (low other : UInt8) (operand otherOperand : UInt16)
    (instruction : Instruction) :
    (instruction.withOperands low operand).withOperands other otherOperand =
      instruction.withOperands other otherOperand := by
  cases instruction <;> rfl

/-- An instruction of one byte has no operand bytes. -/
theorem withOperands_of_length_le_one {instruction : Instruction}
    (short : instruction.length ≤ 1) (low : UInt8) (operand : UInt16) :
    instruction.withOperands low operand = instruction := by
  cases instruction with
  | mvi | accumulateImmediate | lxi | lda | sta | lhld | shld | jmp | jumpIf | call | callIf
  | input | output =>
    simp only [length] at short
    exact absurd short (by decide)
  | _ => rfl

/-- An instruction of at most two bytes has no operand word. -/
theorem withOperands_of_length_le_two {instruction : Instruction}
    (short : instruction.length ≤ 2) (low : UInt8) (operand other : UInt16) :
    instruction.withOperands low operand = instruction.withOperands low other := by
  cases instruction with
  | lxi | lda | sta | lhld | shld | jmp | jumpIf | call | callIf =>
    simp only [length] at short
    exact absurd short (by decide)
  | _ => rfl

theorem decodeTransfer_eq (opcode low : UInt8) (operand : UInt16) :
    decodeTransfer opcode operand = (decodeTransfer opcode 0).withOperands low operand := by
  simp only [decodeTransfer]
  split <;> rfl

theorem decodeAccumulator_eq (opcode low : UInt8) (operand : UInt16) :
    decodeAccumulator opcode = (decodeAccumulator opcode).withOperands low operand := by
  simp only [decodeAccumulator]
  split <;> rfl

theorem decodeLow_eq (opcode low : UInt8) (operand : UInt16) :
    decodeLow opcode low operand = (decodeLow opcode 0 0).withOperands low operand := by
  simp only [decodeLow]
  split
  · split <;> rfl
  · split <;> rfl
  · exact decodeTransfer_eq opcode low operand
  · split <;> rfl
  · rfl
  · rfl
  · rfl
  · exact decodeAccumulator_eq opcode low operand

theorem decodeControl_eq (opcode low : UInt8) (operand : UInt16) :
    decodeControl opcode low operand = (decodeControl opcode 0 0).withOperands low operand := by
  simp only [decodeControl]
  split <;> rfl

theorem decodeHigh_eq (opcode low : UInt8) (operand : UInt16) :
    decodeHigh opcode low operand = (decodeHigh opcode 0 0).withOperands low operand := by
  simp only [decodeHigh]
  split
  · rfl
  · split
    · rfl
    · split <;> rfl
  · rfl
  · exact decodeControl_eq opcode low operand
  · rfl
  · split
    · rfl
    · split <;> rfl
  · rfl
  · rfl

/-- The opcode chooses the instruction, and the operand bytes fill it in. -/
theorem decode_eq (opcode low high : UInt8) :
    decode opcode low high = (decode opcode 0 0).withOperands low (word high low) := by
  simp only [decode]
  split
  · exact decodeLow_eq opcode low (word high low)
  · split <;> rfl
  · rfl
  · exact decodeHigh_eq opcode low (word high low)

theorem length_decode (opcode low high : UInt8) :
    (decode opcode low high).length = (decode opcode 0 0).length := by
  rw [decode_eq, length_withOperands]

theorem mnemonic_decode (opcode low high : UInt8) :
    (decode opcode low high).mnemonic = (decode opcode 0 0).mnemonic := by
  rw [decode_eq, mnemonic_withOperands]

/-- The bytes behind an instruction may be read as zero. -/
theorem decode_ignores (opcode low high : UInt8) :
    decode opcode (if 1 < (decode opcode 0 0).length then low else 0)
        (if 2 < (decode opcode 0 0).length then high else 0) =
      decode opcode low high := by
  by_cases two : 1 < (decode opcode 0 0).length
  · by_cases three : 2 < (decode opcode 0 0).length
    · rw [if_pos two, if_pos three]
    · have short : (decode opcode 0 0).length ≤ 2 := UInt8.not_lt.mp three
      rw [if_pos two, if_neg three, decode_eq opcode low 0, decode_eq opcode low high]
      exact withOperands_of_length_le_two short low (word 0 low) (word high low)
  · have short : (decode opcode 0 0).length ≤ 1 := UInt8.not_lt.mp two
    have three : ¬ 2 < (decode opcode 0 0).length := by
      intro long
      exact absurd (UInt8.lt_of_lt_of_le long short) (by decide)
    rw [if_neg two, if_neg three, decode_eq opcode low high]
    exact (withOperands_of_length_le_one short low (word high low)).symm

end Instruction

end Intel8080
