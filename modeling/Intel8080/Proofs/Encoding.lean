import Intel8080.Proofs.Decoding

/-!
# Encoding

Decoding loses nothing that it looks at. From a decoded instruction the opcode and the
operand bytes can be read back, the opcode as a constant plus the numbers of the operands at
the places where they stand in it. `bytes` does so; applied to what was decoded from a window
of memory it gives the bytes of the window, as many as the instruction is long.

Encoding is total as decoding is, and says something about decoded instructions only: an
instruction that no opcode stands for gets a number that belongs to another.
-/

namespace Intel8080

/-- The number of a register in the fields of an opcode. Six is that of memory. -/
def Register.number : Register → UInt8
  | b => 0 | c => 1 | d => 2 | e => 3 | h => 4 | l => 5 | a => 7

def Operand.number : Operand → UInt8
  | register name => name.number
  | memory => 6

def Pair.number : Pair → UInt8
  | bc => 0 | de => 1 | hl => 2

def WordRegister.number : WordRegister → UInt8
  | pair name => name.number
  | stackPointer => 3

def StackWord.number : StackWord → UInt8
  | register name => name.number
  | status => 3

def AccumulatorOp.number : AccumulatorOp → UInt8
  | add => 0 | adc => 1 | sub => 2 | sbb => 3 | ana => 4 | xra => 5 | ora => 6 | cmp => 7

def Rotation.number : Rotation → UInt8
  | rlc => 0 | rrc => 1 | ral => 2 | rar => 3

def Condition.number (condition : Condition) : UInt8 :=
  UInt8.ofNat condition.code

namespace Instruction

/-- The first byte of an instruction. -/
def opcode : Instruction → UInt8
  | nop => 0x00
  | hlt => 0x76
  | illegal opcode => opcode
  | mov target source => 0x40 + 8 * target.number + source.number
  | mvi target _ => 0x06 + 8 * target.number
  | accumulate operation source => 0x80 + 8 * operation.number + source.number
  | accumulateImmediate operation _ => 0xC6 + 8 * operation.number
  | inr target => 0x04 + 8 * target.number
  | dcr target => 0x05 + 8 * target.number
  | inx target => 0x03 + 16 * target.number
  | dcx target => 0x0B + 16 * target.number
  | dad source => 0x09 + 16 * source.number
  | lxi target _ => 0x01 + 16 * target.number
  | rotate rotation => 0x07 + 8 * rotation.number
  | daa => 0x27
  | cma => 0x2F
  | stc => 0x37
  | cmc => 0x3F
  | lda _ => 0x3A
  | sta _ => 0x32
  | ldax pointer => 0x0A + 16 * pointer.number
  | stax pointer => 0x02 + 16 * pointer.number
  | lhld _ => 0x2A
  | shld _ => 0x22
  | jmp _ => 0xC3
  | jumpIf condition _ => 0xC2 + 8 * condition.number
  | call _ => 0xCD
  | callIf condition _ => 0xC4 + 8 * condition.number
  | ret => 0xC9
  | returnIf condition => 0xC0 + 8 * condition.number
  | rst number => 0xC7 + 8 * number
  | push source => 0xC5 + 16 * source.number
  | pop target => 0xC1 + 16 * target.number
  | xchg => 0xEB
  | xthl => 0xE3
  | pchl => 0xE9
  | sphl => 0xF9
  | input _ => 0xDB
  | output _ => 0xD3
  | interrupts true => 0xFB
  | interrupts false => 0xF3

/-- The bytes behind the opcode, those of a word with the low one first. -/
def operandBytes : Instruction → List UInt8
  | mvi _ value | accumulateImmediate _ value | input value | output value => [value]
  | lxi _ value => [lowByte value, highByte value]
  | lda address | sta address | lhld address | shld address =>
    [lowByte address, highByte address]
  | jmp target | jumpIf _ target | call target | callIf _ target =>
    [lowByte target, highByte target]
  | _ => []

/-- The bytes that an instruction is written in. -/
def bytes (instruction : Instruction) : List UInt8 :=
  instruction.opcode :: instruction.operandBytes

@[simp] theorem opcode_withOperands (low : UInt8) (operand : UInt16) (instruction : Instruction) :
    (instruction.withOperands low operand).opcode = instruction.opcode := by
  cases instruction <;> rfl

/-- An instruction reads back as many bytes as it was filled in with. -/
theorem operandBytes_withOperands (low high : UInt8) (instruction : Instruction) :
    (instruction.withOperands low (word high low)).operandBytes =
      [low, high].take (instruction.length.toNat - 1) := by
  cases instruction <;> simp [withOperands, operandBytes, length]

/-- The opcode of a decoded instruction is the one it was decoded from. -/
theorem opcode_decode (opcode low high : UInt8) : (decode opcode low high).opcode = opcode := by
  have all : ∀ bits : BitVec 8, (decode ⟨bits⟩ 0 0).opcode = ⟨bits⟩ := by decide
  rw [decode_eq, opcode_withOperands]
  exact all opcode.toBitVec

theorem operandBytes_decode (opcode low high : UInt8) :
    (decode opcode low high).operandBytes =
      [low, high].take ((decode opcode low high).length.toNat - 1) := by
  rw [decode_eq, operandBytes_withOperands, length_withOperands]

/-- A decoded instruction has the bytes that it was decoded from, as many as it is long. -/
theorem bytes_decode (opcode low high : UInt8) :
    (decode opcode low high).bytes =
      [opcode, low, high].take (decode opcode low high).length.toNat := by
  rw [bytes, opcode_decode, operandBytes_decode]
  cases decode opcode low high <;> rfl

/-- Bytes that an instruction does not ask for fill nothing in. -/
theorem withOperands_congr {low high otherLow otherHigh : UInt8} {instruction : Instruction}
    (same : [low, high].take (instruction.length.toNat - 1) =
      [otherLow, otherHigh].take (instruction.length.toNat - 1)) :
    instruction.withOperands low (word high low) =
      instruction.withOperands otherLow (word otherHigh otherLow) := by
  cases instruction with
  | lxi | lda | sta | lhld | shld | jmp | jumpIf | call | callIf =>
    obtain ⟨rfl, rfl⟩ : low = otherLow ∧ high = otherHigh := by simpa [length] using same
    rfl
  | mvi | accumulateImmediate | input | output =>
    obtain rfl : low = otherLow := by simpa [length] using same
    simp only [withOperands]
  | _ => rfl

/-- Windows of memory decode alike exactly if they agree in the opcode and in the operand
bytes that it asks for. -/
theorem decode_eq_decode_iff (opcode low high other otherLow otherHigh : UInt8) :
    decode opcode low high = decode other otherLow otherHigh ↔
      opcode = other ∧
        [low, high].take ((decode opcode low high).length.toNat - 1) =
          [otherLow, otherHigh].take ((decode opcode low high).length.toNat - 1) := by
  constructor
  · intro same
    have opcodes : opcode = other := by
      rw [← opcode_decode opcode low high, same, opcode_decode]
    refine ⟨opcodes, ?_⟩
    rw [← operandBytes_decode, same, operandBytes_decode]
  · rintro ⟨rfl, same⟩
    rw [length_decode] at same
    rw [decode_eq opcode low high, decode_eq opcode otherLow otherHigh]
    exact withOperands_congr same

end Instruction

end Intel8080
