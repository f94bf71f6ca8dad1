import Intel8080.Instruction.Basic
import Intel8080.Word

/-!
# Decoding

The two upper bits of an opcode divide the set into four quarters. The second is
the moves and the third the accumulator operations; the first and the last are
further divided by their three lower bits. Decoding is total: an opcode without
a meaning becomes an illegal instruction.

The cases exclude each other, so their order does not matter. `Cascade.decode` is
the way to decode in which it does: masks are tried one after another. The two agree.
-/

namespace Intel8080

namespace AccumulatorOp

/-- The accumulator operation in bits 3 to 5 of an opcode. -/
def ofOpcode (opcode : UInt8) : AccumulatorOp :=
  match (opcode >>> 3) &&& 7 with
  | 0 => add
  | 1 => adc
  | 2 => sub
  | 3 => sbb
  | 4 => ana
  | 5 => xra
  | 6 => ora
  | _ => cmp

end AccumulatorOp

namespace Instruction

/-- The instructions on the accumulator and carry alone, by bits 3 to 5. -/
def decodeAccumulator (opcode : UInt8) : Instruction :=
  match (opcode >>> 3) &&& 7 with
  | 0 => rotate .rlc
  | 1 => rotate .rrc
  | 2 => rotate .ral
  | 3 => rotate .rar
  | 4 => daa
  | 5 => cma
  | 6 => stc
  | _ => cmc

/-- Loads and stores of the accumulator and of HL, by bits 3 to 5. -/
def decodeTransfer (opcode : UInt8) (operand : UInt16) : Instruction :=
  match (opcode >>> 3) &&& 7 with
  | 0 => stax .bc
  | 1 => ldax .bc
  | 2 => stax .de
  | 3 => ldax .de
  | 4 => shld operand
  | 5 => lhld operand
  | 6 => sta operand
  | _ => lda operand

/-- The first quarter. -/
def decodeLow (opcode : UInt8) (low : UInt8) (operand : UInt16) : Instruction :=
  match opcode &&& 7 with
  | 0 => if opcode == 0 then nop else illegal opcode
  | 1 =>
    if opcode &&& 8 == 0 then lxi (.ofOpcode opcode) operand else dad (.ofOpcode opcode)
  | 2 => decodeTransfer opcode operand
  | 3 => if opcode &&& 8 == 0 then inx (.ofOpcode opcode) else dcx (.ofOpcode opcode)
  | 4 => inr (.destination opcode)
  | 5 => dcr (.destination opcode)
  | 6 => mvi (.destination opcode) low
  | _ => decodeAccumulator opcode

/-- The unconditional jump, the ports, the exchanges and the interrupt switch, by
bits 3 to 5. -/
def decodeControl (opcode : UInt8) (low : UInt8) (operand : UInt16) : Instruction :=
  match (opcode >>> 3) &&& 7 with
  | 0 => jmp operand
  | 2 => output low
  | 3 => input low
  | 4 => xthl
  | 5 => xchg
  | 6 => interrupts false
  | 7 => interrupts true
  | _ => illegal opcode

/-- The last quarter. -/
def decodeHigh (opcode : UInt8) (low : UInt8) (operand : UInt16) : Instruction :=
  match opcode &&& 7 with
  | 0 => returnIf (.ofOpcode opcode)
  | 1 =>
    if opcode &&& 8 == 0 then pop (.ofOpcode opcode)
    else match (opcode >>> 4) &&& 3 with
      | 0 => ret
      | 2 => pchl
      | 3 => sphl
      | _ => illegal opcode
  | 2 => jumpIf (.ofOpcode opcode) operand
  | 3 => decodeControl opcode low operand
  | 4 => callIf (.ofOpcode opcode) operand
  | 5 =>
    if opcode &&& 8 == 0 then push (.ofOpcode opcode)
    else if opcode == 0xCD then call operand
    else illegal opcode
  | 6 => accumulateImmediate (.ofOpcode opcode) low
  | _ => rst ((opcode >>> 3) &&& 7)

/-- The instruction with the given opcode and operand bytes. Instructions that
take fewer operand bytes ignore the rest; words have their low byte first. -/
def decode (opcode low high : UInt8) : Instruction :=
  match opcode >>> 6 with
  | 0 => decodeLow opcode low (word high low)
  | 1 => if opcode == 0x76 then hlt else mov (.destination opcode) (.source opcode)
  | 2 => accumulate (.ofOpcode opcode) (.source opcode)
  | _ => decodeHigh opcode low (word high low)

end Instruction

end Intel8080
