import Intel8080.Cpu
import Intel8080.Stop

/-!
# Hosts

The processor knows nothing of the memory and devices around it. It reads bytes,
which changes nothing, and it makes three kinds of request that may change the
host or be refused with a fault: to write a byte, to read a port, to write a
port. After each completed instruction the host may look at the processor and
stop it.

Words are always read and written byte by byte. That is only the default where a
host may also define accesses to words of its own; such a host is not modelled
here.
-/

namespace Intel8080

/-- The answer to a request: a value, or the cause of a refusal. The responder
survives in both cases, with whatever it changed before it answered. -/
abbrev Reply (ε σ α : Type) :=
  EStateM.Result ε σ α

namespace Reply

variable {ε σ α : Type}

/-- The responder after its answer. -/
def responder : Reply ε σ α → σ
  | .ok _ after => after
  | .error _ after => after

/-- The answer without the responder. -/
def answer : Reply ε σ α → Except ε α
  | .ok value _ => .ok value
  | .error reason _ => .error reason

end Reply

/-- Memory and devices that a processor can be connected to. -/
class Host (σ : Type) where
  /-- The byte of memory at an address. -/
  read : σ → UInt16 → UInt8
  /-- Writes a byte of memory. -/
  write : σ → UInt16 → UInt8 → Reply Fault σ Unit
  /-- Reads an input port. -/
  input : σ → UInt8 → Reply Fault σ UInt8
  /-- Writes an output port. -/
  output : σ → UInt8 → UInt8 → Reply Fault σ Unit
  /-- Looks at the processor after a completed instruction. -/
  didExecute : σ → Cpu → Reply Stop σ Unit := fun host _ => .ok () host

/-- The word of memory at an address: the low byte there, the high byte at the
next address. -/
def wordAt (read : UInt16 → UInt8) (address : UInt16) : UInt16 :=
  word (read (address + 1)) (read address)

namespace Host

variable {σ : Type} [Host σ]

/-- The word of memory at an address. No host replaces this by a rule of its own. -/
def readWord (host : σ) (address : UInt16) : UInt16 :=
  wordAt (read host) address

/-- Writes a word of memory, the low byte first. If that fails, the high byte is
not attempted. No host replaces this by a rule of its own. -/
def writeWord (host : σ) (address value : UInt16) : Reply Fault σ Unit :=
  match write host address (lowByte value) with
  | .ok _ host => write host (address + 1) (highByte value)
  | .error fault host => .error fault host

end Host

end Intel8080
