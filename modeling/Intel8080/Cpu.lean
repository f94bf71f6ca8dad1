import Intel8080.Flags
import Intel8080.Hex
import Intel8080.Operand

/-!
# The state of the processor

Seven byte registers, two word registers, five flags, the interrupt latch and a
counter of elapsed clock cycles. Pairs and the status word are views of these:
each is read by joining two bytes and written by splitting a word.
-/

namespace Intel8080

/-- The processor between two instructions. -/
structure Cpu where
  b : UInt8 := 0
  c : UInt8 := 0
  d : UInt8 := 0
  e : UInt8 := 0
  h : UInt8 := 0
  l : UInt8 := 0
  /-- The accumulator. -/
  a : UInt8 := 0
  /-- The stack pointer: the address of the byte pushed last. -/
  sp : UInt16 := 0
  /-- The program counter: the address of the next opcode. -/
  pc : UInt16 := 0
  flags : Flags := {}
  /-- The interrupt latch: whether an interrupt request is accepted. -/
  interrupts : Bool := false
  /-- Clock cycles charged so far, modulo the counter's width. -/
  cycles : UInt64 := 0
  deriving DecidableEq, Repr, Inhabited

namespace Cpu

/-- The content of a register. -/
def get (cpu : Cpu) : Register → UInt8
  | .b => cpu.b
  | .c => cpu.c
  | .d => cpu.d
  | .e => cpu.e
  | .h => cpu.h
  | .l => cpu.l
  | .a => cpu.a

/-- Replaces the content of a register. -/
def set (cpu : Cpu) (register : Register) (value : UInt8) : Cpu :=
  match register with
  | .b => { cpu with b := value }
  | .c => { cpu with c := value }
  | .d => { cpu with d := value }
  | .e => { cpu with e := value }
  | .h => { cpu with h := value }
  | .l => { cpu with l := value }
  | .a => { cpu with a := value }

/-- The word in HL, the address of memory operands. -/
def hl (cpu : Cpu) : UInt16 :=
  word cpu.h cpu.l

/-- Replaces the word in HL. -/
def setHL (cpu : Cpu) (value : UInt16) : Cpu :=
  { cpu with h := highByte value, l := lowByte value }

/-- The word in DE. -/
def de (cpu : Cpu) : UInt16 :=
  word cpu.d cpu.e

/-- Replaces the word in DE. -/
def setDE (cpu : Cpu) (value : UInt16) : Cpu :=
  { cpu with d := highByte value, e := lowByte value }

/-- The word in a pair. -/
def pair (cpu : Cpu) : Pair → UInt16
  | .bc => word cpu.b cpu.c
  | .de => cpu.de
  | .hl => cpu.hl

/-- Replaces the word in a pair. -/
def setPair (cpu : Cpu) (name : Pair) (value : UInt16) : Cpu :=
  match name with
  | .bc => { cpu with b := highByte value, c := lowByte value }
  | .de => cpu.setDE value
  | .hl => cpu.setHL value

/-- The content of a word register. -/
def getWord (cpu : Cpu) : WordRegister → UInt16
  | .pair name => cpu.pair name
  | .stackPointer => cpu.sp

/-- Replaces the content of a word register. -/
def setWord (cpu : Cpu) (register : WordRegister) (value : UInt16) : Cpu :=
  match register with
  | .pair name => cpu.setPair name value
  | .stackPointer => { cpu with sp := value }

/-- The processor status word: the accumulator above the packed flags. -/
def status (cpu : Cpu) : UInt16 :=
  word cpu.a cpu.flags.toByte

/-- Replaces the accumulator and the flags. -/
def setStatus (cpu : Cpu) (value : UInt16) : Cpu :=
  { cpu with a := highByte value, flags := .ofByte (lowByte value) }

/-- The word that a push of the given operand stores. -/
def getStackWord (cpu : Cpu) : StackWord → UInt16
  | .register name => cpu.getWord name
  | .status => cpu.status

/-- Receives the word that a pop of the given operand loads. -/
def setStackWord (cpu : Cpu) (target : StackWord) (value : UInt16) : Cpu :=
  match target with
  | .register name => cpu.setWord name value
  | .status => cpu.setStatus value

/-- Advances the cycle counter. -/
def charge (cpu : Cpu) (cost : UInt8) : Cpu :=
  { cpu with cycles := cpu.cycles + cost.toUInt64 }

@[simp] theorem get_set (cpu : Cpu) (written read : Register) (value : UInt8) :
    (cpu.set written value).get read = if read = written then value else cpu.get read := by
  cases written <;> cases read <;> rfl

@[simp] theorem hl_setHL (cpu : Cpu) (value : UInt16) : (cpu.setHL value).hl = value := by
  simp [hl, setHL]

@[simp] theorem de_setDE (cpu : Cpu) (value : UInt16) : (cpu.setDE value).de = value := by
  simp [de, setDE]

@[simp] theorem pair_setPair (cpu : Cpu) (name : Pair) (value : UInt16) :
    (cpu.setPair name value).pair name = value := by
  cases name <;> simp [pair, setPair]

@[simp] theorem getWord_setWord (cpu : Cpu) (register : WordRegister) (value : UInt16) :
    (cpu.setWord register value).getWord register = value := by
  cases register <;> simp [getWord, setWord]

/-- A pushed status word restores the accumulator and every flag. -/
@[simp] theorem setStatus_status (cpu other : Cpu) :
    other.setStatus cpu.status = { other with a := cpu.a, flags := cpu.flags } := by
  simp [setStatus, status]

/-- A snapshot of the registers in one line of fixed width, behind a blank. -/
def text (cpu : Cpu) : String :=
  " " ++ cpu.flags.text ++
    "  A $" ++ Hex.byte cpu.a ++ " B $" ++ Hex.byte cpu.b ++ " C $" ++ Hex.byte cpu.c ++
    " D $" ++ Hex.byte cpu.d ++ " E $" ++ Hex.byte cpu.e ++ " H $" ++ Hex.byte cpu.h ++
    " L $" ++ Hex.byte cpu.l ++ " SP " ++ Hex.word cpu.sp

end Cpu

/-- Whether a condition holds of the flags. -/
def Condition.holds (condition : Condition) (flags : Flags) : Bool :=
  (match condition.flag with
    | .zero => flags.zero
    | .carry => flags.carry
    | .parity => flags.parity
    | .sign => flags.sign) == condition.expected

end Intel8080
