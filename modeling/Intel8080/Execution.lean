import Intel8080.Instruction.Effect

/-!
# Executing an instruction on a host

Holding an instruction's exchange with an actual host gives its outcome. A
completed exchange installs the new processor state; one that was cut short
leaves the processor exactly as it was, while the host keeps whatever it had
already accepted.
-/

namespace Intel8080

/-- What an attempt to execute an instruction left behind. On success the result
is the number of cycles spent beyond the base cost. -/
structure Outcome (σ : Type) where
  result : Except Stop UInt8
  cpu : Cpu
  host : σ

namespace Instruction

variable {σ : Type} [Host σ]

/-- Executes an instruction. The program counter must already point past it. -/
def execute (instruction : Instruction) (cpu : Cpu) (host : σ) : Outcome σ :=
  match (instruction.exchange cpu (Host.read host)).run host with
  | .ok completion host => ⟨.ok completion.extra, completion.cpu, host⟩
  | .error stop host => ⟨.error stop, cpu, host⟩

end Instruction

end Intel8080
