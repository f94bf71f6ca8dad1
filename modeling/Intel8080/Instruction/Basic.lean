import Intel8080.Operand

/-!
# Instructions

The instruction set as data. An instruction carries its operands in decoded
form, so that executing, timing and printing it need not look at opcodes again.
Some values have no encoding, such as a move from memory to memory or a push of
the stack pointer; their meaning follows the general rule all the same.
-/

namespace Intel8080

/-- The eight operations between the accumulator and another byte. -/
inductive AccumulatorOp where
  /-- Addition, without and with the carry. -/
  | add | adc
  /-- Subtraction, without and with the borrow. -/
  | sub | sbb
  /-- Bitwise conjunction, exclusive disjunction and disjunction. -/
  | ana | xra | ora
  /-- Subtraction of which only the flags are kept. -/
  | cmp
  deriving DecidableEq, Repr, Inhabited

/-- The four rotations of the accumulator. The first two rotate the byte and copy
the bit that wraps around to the carry; the last two rotate through the carry. -/
inductive Rotation where
  | rlc | rrc | ral | rar
  deriving DecidableEq, Repr, Inhabited

/-- The instructions. -/
inductive Instruction where
  /-- No effect. -/
  | nop
  /-- Stops the processor. -/
  | hlt
  /-- An opcode without a meaning. -/
  | illegal (opcode : UInt8)
  /-- Copies a byte. -/
  | mov (target source : Operand)
  /-- Sets a byte to an immediate value. -/
  | mvi (target : Operand) (value : UInt8)
  /-- An accumulator operation with a register or with memory. -/
  | accumulate (operation : AccumulatorOp) (source : Operand)
  /-- An accumulator operation with an immediate value. -/
  | accumulateImmediate (operation : AccumulatorOp) (value : UInt8)
  /-- Adds one to a byte. -/
  | inr (target : Operand)
  /-- Subtracts one from a byte. -/
  | dcr (target : Operand)
  /-- Adds one to a word. -/
  | inx (target : WordRegister)
  /-- Subtracts one from a word. -/
  | dcx (target : WordRegister)
  /-- Adds a word to HL. -/
  | dad (source : WordRegister)
  /-- Sets a word to an immediate value. -/
  | lxi (target : WordRegister) (value : UInt16)
  /-- Rotates the accumulator. -/
  | rotate (rotation : Rotation)
  /-- Corrects the accumulator after adding packed decimals. -/
  | daa
  /-- Complements the accumulator. -/
  | cma
  /-- Sets the carry. -/
  | stc
  /-- Complements the carry. -/
  | cmc
  /-- Loads the accumulator from an address. -/
  | lda (address : UInt16)
  /-- Stores the accumulator at an address. -/
  | sta (address : UInt16)
  /-- Loads the accumulator from the address in a pair. -/
  | ldax (pointer : Pair)
  /-- Stores the accumulator at the address in a pair. -/
  | stax (pointer : Pair)
  /-- Loads HL from an address and its successor. -/
  | lhld (address : UInt16)
  /-- Stores HL at an address and its successor. -/
  | shld (address : UInt16)
  /-- Continues elsewhere. -/
  | jmp (target : UInt16)
  /-- Continues elsewhere if a condition holds. -/
  | jumpIf (condition : Condition) (target : UInt16)
  /-- Continues elsewhere after pushing the address of the next instruction. -/
  | call (target : UInt16)
  /-- A call if a condition holds. -/
  | callIf (condition : Condition) (target : UInt16)
  /-- Continues at the address popped from the stack. -/
  | ret
  /-- A return if a condition holds. -/
  | returnIf (condition : Condition)
  /-- A call to eight times a number. -/
  | rst (number : UInt8)
  /-- Pushes a word. -/
  | push (source : StackWord)
  /-- Pops a word. -/
  | pop (target : StackWord)
  /-- Exchanges DE with HL. -/
  | xchg
  /-- Exchanges the top of the stack with HL. -/
  | xthl
  /-- Continues at the address in HL. -/
  | pchl
  /-- Sets the stack pointer to HL. -/
  | sphl
  /-- Reads an input port into the accumulator. -/
  | input (port : UInt8)
  /-- Sends the accumulator to an output port. -/
  | output (port : UInt8)
  /-- Enables or disables interrupts. -/
  | interrupts (enabled : Bool)
  deriving DecidableEq, Repr, Inhabited

namespace Instruction

/-- How many bytes an instruction occupies: the opcode and its operand bytes. -/
def length : Instruction → UInt8
  | jmp _ | jumpIf _ _ | call _ | callIf _ _ | lxi _ _ | lda _ | sta _ | lhld _ | shld _ => 3
  | accumulateImmediate _ _ | mvi _ _ | input _ | output _ => 2
  | _ => 1

/-- The price of an instruction whose operand is cheaper in a register. -/
def byOperand (operand : Operand) (register memory : UInt8) : UInt8 :=
  if operand.isMemory then memory else register

/-- How many clock cycles an instruction takes. A conditional call or return that
is taken costs `takenCost` more. -/
def cycles : Instruction → UInt8
  | nop | stc | cmc | cma | daa | rotate _ | interrupts _ | illegal _ => 4
  | accumulate _ source => byOperand source 4 7
  | accumulateImmediate _ _ => 7
  | inr target | dcr target => byOperand target 5 10
  | mvi target _ => byOperand target 7 10
  | mov target source => if target.isMemory || source.isMemory then 7 else 5
  | inx _ | dcx _ | xchg | pchl | sphl | returnIf _ => 5
  | ldax _ | stax _ | hlt => 7
  | lxi _ _ | dad _ | jmp _ | jumpIf _ _ | pop _ | ret | input _ | output _ => 10
  | push _ | rst _ | callIf _ _ => 11
  | lda _ | sta _ => 13
  | lhld _ | shld _ => 16
  | call _ => 17
  | xthl => 18

/-- What a conditional call or return costs in addition when it is taken. -/
def takenCost : UInt8 := 6

/-- The restart instruction that enters a given address, if there is one: the
restart addresses are the multiples of eight below sixty-four. -/
def restartTo? (address : UInt8) : Option Instruction :=
  if address &&& 0xC7 == 0 then some (rst (address >>> 3)) else none

end Instruction

end Intel8080
