import Intel8080.Hex
import Intel8080.Instruction.Basic

/-!
# Assembler text

An instruction is written as its mnemonic, a blank and its operands, separated
by a comma. Immediate bytes and addresses are hexadecimal; the number of a
restart is decimal.
-/

namespace Intel8080

namespace AccumulatorOp

/-- The mnemonic of an accumulator operation with a register or with memory. -/
def mnemonic : AccumulatorOp → String
  | add => "add" | adc => "adc" | sub => "sub" | sbb => "sbb"
  | ana => "ana" | xra => "xra" | ora => "ora" | cmp => "cmp"

/-- The mnemonic of an accumulator operation with an immediate value. -/
def immediateMnemonic : AccumulatorOp → String
  | add => "adi" | adc => "aci" | sub => "sui" | sbb => "sbi"
  | ana => "ani" | xra => "xri" | ora => "ori" | cmp => "cpi"

end AccumulatorOp

namespace Rotation

/-- The mnemonic of a rotation. -/
def mnemonic : Rotation → String
  | rlc => "rlc" | rrc => "rrc" | ral => "ral" | rar => "rar"

end Rotation

namespace Instruction

/-- The mnemonic of an instruction. A conditional instruction ends in the suffix
of its condition. -/
def mnemonic : Instruction → String
  | nop => "nop"
  | hlt => "hlt"
  | illegal _ => "illegal"
  | mov _ _ => "mov"
  | mvi _ _ => "mvi"
  | accumulate operation _ => operation.mnemonic
  | accumulateImmediate operation _ => operation.immediateMnemonic
  | inr _ => "inr"
  | dcr _ => "dcr"
  | inx _ => "inx"
  | dcx _ => "dcx"
  | dad _ => "dad"
  | lxi _ _ => "lxi"
  | rotate rotation => rotation.mnemonic
  | daa => "daa"
  | cma => "cma"
  | stc => "stc"
  | cmc => "cmc"
  | lda _ => "lda"
  | sta _ => "sta"
  | ldax _ => "ldax"
  | stax _ => "stax"
  | lhld _ => "lhld"
  | shld _ => "shld"
  | jmp _ => "jmp"
  | jumpIf condition _ => "j" ++ condition.text
  | call _ => "call"
  | callIf condition _ => "c" ++ condition.text
  | ret => "ret"
  | returnIf condition => "r" ++ condition.text
  | rst _ => "rst"
  | push _ => "push"
  | pop _ => "pop"
  | xchg => "xchg"
  | xthl => "xthl"
  | pchl => "pchl"
  | sphl => "sphl"
  | input _ => "in"
  | output _ => "out"
  | interrupts true => "ei"
  | interrupts false => "di"

/-- An immediate byte as it is written. -/
def byteText (value : UInt8) : String :=
  "0x" ++ Hex.byte value

/-- An address or immediate word as it is written. -/
def wordText (value : UInt16) : String :=
  "0x" ++ Hex.word value

/-- The operands of an instruction as they are written, none for an instruction
that is its mnemonic alone. -/
def operandText : Instruction → Option String
  | mov target source => some (target.text ++ "," ++ source.text)
  | mvi target value => some (target.text ++ "," ++ byteText value)
  | accumulate _ source => some source.text
  | accumulateImmediate _ value => some (byteText value)
  | inr target | dcr target => some target.text
  | inx target | dcx target | dad target => some target.text
  | lxi target value => some (target.text ++ "," ++ wordText value)
  | ldax pointer | stax pointer => some pointer.text
  | lda address | sta address | lhld address | shld address => some (wordText address)
  | jmp target | call target | jumpIf _ target | callIf _ target => some (wordText target)
  | push word | pop word => some word.text
  | rst number => some (toString number.toNat)
  | input value | output value | illegal value => some (byteText value)
  | _ => none

/-- The assembler text of an instruction. -/
def text (instruction : Instruction) : String :=
  match instruction.operandText with
  | some operands => instruction.mnemonic ++ " " ++ operands
  | none => instruction.mnemonic

end Instruction

end Intel8080
