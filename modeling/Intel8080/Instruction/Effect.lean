import Intel8080.Arithmetic
import Intel8080.Exchange
import Intel8080.Instruction.Basic

/-!
# The effect of an instruction

Each instruction is described as an exchange with the host that ends in the next
state of the processor. The processor state is part of the final value only, so
an instruction whose exchange is cut short has changed no register. All reading
of memory precedes the first request, so it refers to the host as it was when
the instruction began.
-/

namespace Intel8080

/-- How a completed instruction leaves the processor, and the cycles it spent in
addition to its base cost. -/
structure Completion where
  cpu : Cpu
  extra : UInt8 := 0
  deriving DecidableEq, Repr

namespace AccumulatorOp

/-- The new accumulator and flags of an accumulator operation. A comparison keeps
the accumulator. -/
def apply (operation : AccumulatorOp) (accumulator value : UInt8) (carry : Bool) :
    UInt8 × Flags :=
  match operation with
  | add => Arithmetic.add accumulator value false
  | adc => Arithmetic.add accumulator value carry
  | sub => Arithmetic.subtract accumulator value false
  | sbb => Arithmetic.subtract accumulator value carry
  | ana => let result := accumulator &&& value; (result, .ofLogical result)
  | xra => let result := accumulator ^^^ value; (result, .ofLogical result)
  | ora => let result := accumulator ||| value; (result, .ofLogical result)
  | cmp => (accumulator, (Arithmetic.subtract accumulator value false).2)

end AccumulatorOp

namespace Rotation

/-- The new accumulator and carry of a rotation. -/
def apply (rotation : Rotation) (value : UInt8) (carry : Bool) : UInt8 × Bool :=
  match rotation with
  | rlc => ((value <<< 1) ||| (value >>> 7), value &&& 0x80 != 0)
  | rrc => ((value >>> 1) ||| (value <<< 7), value &&& 0x01 != 0)
  | ral => ((value <<< 1) ||| (if carry then 0x01 else 0), value &&& 0x80 != 0)
  | rar => ((value >>> 1) ||| (if carry then 0x80 else 0), value &&& 0x01 != 0)

end Rotation

namespace Cpu

/-- The byte an operand stands for. -/
def operand (cpu : Cpu) (read : UInt16 → UInt8) : Operand → UInt8
  | .register name => cpu.get name
  | .memory => read cpu.hl

/-- Delivers a byte to an operand. -/
def deliver (cpu : Cpu) (target : Operand) (value : UInt8) : Exchange Cpu :=
  match target with
  | .register name => .done (cpu.set name value)
  | .memory => .write cpu.hl value (.done cpu)

/-- Pushes two bytes, the high one first. The stack pointer moves only after both
were accepted. -/
def push (cpu : Cpu) (high low : UInt8) : Exchange Cpu :=
  .write (cpu.sp - 1) high (.write (cpu.sp - 2) low (.done { cpu with sp := cpu.sp - 2 }))

/-- Pushes a word. -/
def pushWord (cpu : Cpu) (value : UInt16) : Exchange Cpu :=
  cpu.push (highByte value) (lowByte value)

/-- The word on top of the stack. -/
def top (cpu : Cpu) (read : UInt16 → UInt8) : UInt16 :=
  wordAt read cpu.sp

/-- Releases the word on top of the stack. -/
def drop (cpu : Cpu) : Cpu :=
  { cpu with sp := cpu.sp + 2 }

/-- Pushes the program counter and continues elsewhere. -/
def enter (cpu : Cpu) (target : UInt16) : Exchange Cpu :=
  (cpu.pushWord cpu.pc).map fun cpu => { cpu with pc := target }

/-- Continues at the word on top of the stack. -/
def leave (cpu : Cpu) (read : UInt16 → UInt8) : Cpu :=
  { cpu.drop with pc := cpu.top read }

/-- Sets the accumulator and the flags to a computed result. -/
def accumulate (cpu : Cpu) (result : UInt8 × Flags) : Cpu :=
  { cpu with a := result.1, flags := result.2 }

/-- Delivers a stepped byte. Its flags apply except for the carry. -/
def deliverStep (cpu : Cpu) (target : Operand) (result : UInt8 × Flags) : Exchange Cpu :=
  let flags := { result.2 with carry := cpu.flags.carry }
  { cpu with flags := flags }.deliver target result.1

/-- Replaces the carry alone. -/
def setCarry (cpu : Cpu) (carry : Bool) : Cpu :=
  { cpu with flags := { cpu.flags with carry := carry } }

/-- Adds a word to HL and sets the carry if the sum does not fit. -/
def addWord (cpu : Cpu) (value : UInt16) : Cpu :=
  (cpu.setHL (cpu.hl + value)).setCarry (cpu.hl.toNat + value.toNat ≥ 0x10000)

/-- Rotates the accumulator. -/
def rotate (cpu : Cpu) (rotation : Rotation) : Cpu :=
  let (value, carry) := rotation.apply cpu.a cpu.flags.carry
  { cpu with a := value }.setCarry carry

end Cpu

namespace Instruction

/-- Ends an instruction without asking anything more of the host. -/
def finish (cpu : Cpu) : Exchange Completion :=
  .done { cpu }

/-- Ends an instruction that spent no more than its base cost. -/
def complete (exchange : Exchange Cpu) : Exchange Completion :=
  exchange.map fun cpu => { cpu }

/-- Ends a conditional call or return that was taken. -/
def completeTaken (exchange : Exchange Cpu) : Exchange Completion :=
  exchange.map fun cpu => { cpu, extra := takenCost }

/-- What an instruction asks of its host and how it leaves the processor. The
program counter already points past the instruction. -/
def exchange (instruction : Instruction) (cpu : Cpu) (read : UInt16 → UInt8) :
    Exchange Completion :=
  match instruction with
  | nop => finish cpu
  | hlt => .stop (.halt .instruction)
  | illegal opcode => .stop (.fault (.illegalOpcode opcode (cpu.pc - 1)))
  | mov target source => complete (cpu.deliver target (cpu.operand read source))
  | mvi target value => complete (cpu.deliver target value)
  | accumulate operation source =>
    let value := cpu.operand read source
    finish (cpu.accumulate (operation.apply cpu.a value cpu.flags.carry))
  | accumulateImmediate operation value =>
    finish (cpu.accumulate (operation.apply cpu.a value cpu.flags.carry))
  | inr target =>
    complete (cpu.deliverStep target (Arithmetic.increment (cpu.operand read target)))
  | dcr target =>
    complete (cpu.deliverStep target (Arithmetic.decrement (cpu.operand read target)))
  | inx target => finish (cpu.setWord target (cpu.getWord target + 1))
  | dcx target => finish (cpu.setWord target (cpu.getWord target - 1))
  | dad source => finish (cpu.addWord (cpu.getWord source))
  | lxi target value => finish (cpu.setWord target value)
  | rotate rotation => finish (cpu.rotate rotation)
  | daa =>
    finish (cpu.accumulate (Arithmetic.decimalAdjust cpu.a cpu.flags.carry cpu.flags.aux))
  | cma => finish { cpu with a := ~~~cpu.a }
  | stc => finish (cpu.setCarry true)
  | cmc => finish (cpu.setCarry (!cpu.flags.carry))
  | lda address => finish { cpu with a := read address }
  | sta address => .write address cpu.a (finish cpu)
  | ldax pointer => finish { cpu with a := read (cpu.pair pointer) }
  | stax pointer => .write (cpu.pair pointer) cpu.a (finish cpu)
  | lhld address => finish (cpu.setHL (wordAt read address))
  | shld address => .writeWord address cpu.hl (finish cpu)
  | jmp target => finish { cpu with pc := target }
  | jumpIf condition target =>
    finish (if condition.holds cpu.flags then { cpu with pc := target } else cpu)
  | call target => complete (cpu.enter target)
  | callIf condition target =>
    if condition.holds cpu.flags then completeTaken (cpu.enter target) else finish cpu
  | ret => finish (cpu.leave read)
  | returnIf condition =>
    if condition.holds cpu.flags then .done { cpu := cpu.leave read, extra := takenCost }
    else finish cpu
  | rst number => complete (cpu.enter (number.toUInt16 * 8))
  | push source => complete (cpu.pushWord (cpu.getStackWord source))
  | pop target => finish (cpu.drop.setStackWord target (cpu.top read))
  | xchg => finish { cpu with d := cpu.h, e := cpu.l, h := cpu.d, l := cpu.e }
  | xthl => .writeWord cpu.sp cpu.hl (finish (cpu.setHL (cpu.top read)))
  | pchl => finish { cpu with pc := cpu.hl }
  | sphl => finish { cpu with sp := cpu.hl }
  | input port => .input port fun value => finish { cpu with a := value }
  | output port => .output port cpu.a (finish cpu)
  | interrupts enabled => finish { cpu with interrupts := enabled }

end Instruction

end Intel8080
