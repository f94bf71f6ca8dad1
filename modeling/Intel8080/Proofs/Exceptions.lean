import Intel8080.Board
import Intel8080.Proofs.Transcript

/-!
# A plain machine with exceptions

Where a program calls the system, asks for a port or arrives at address 0, a console has rules
of its own. In front of any other instruction it is a plain board: the instruction is a
dialogue about memory alone, and both hosts conduct it alike. `AsPlain` compares the steps of
the two machines. They are the same, except that an instruction which the plain machine
completes at address 0 takes its full effect on the console too and then ends the program.

So the two machines stay alike as long as no exception occurs, whatever the program does to
its own code, and what an exception does can be said of the machine at that point.
-/

namespace Intel8080

namespace Exchange

variable {α : Type}

end Exchange

namespace Console

/-- The board with the memory of a console and the given latches. -/
def onBoard (inputs outputs : Memory 256) (console : Console) : Board :=
  ⟨console.memory, inputs, outputs⟩

end Console

namespace Machine

/-- A machine on a console and one on a board that show the same. -/
structure Matches (left : Machine Console) (right : Machine Board) : Prop where
  cpu : right.cpu = left.cpu
  memory : right.host.memory = left.host.memory
  status : right.status = left.status

section

variable {left : Machine Console} {right : Machine Board}

/-- Both hold the same instruction at the program counter. -/
theorem Matches.next (same : Matches left right) : right.next = left.next := by
  have read : Host.read right.host = Host.read left.host := by
    funext address
    exact congrArg (fun memory => memory.read address.toNat) same.memory
  simp only [Machine.next, read, same.cpu]

theorem Matches.past (same : Matches left right) (instruction : Instruction) :
    right.past instruction = left.past instruction := by
  simp only [Machine.past, same.cpu]

/-- The plain machine is on the board with the memory of the console. -/
theorem Matches.host (same : Matches left right) :
    right.host = left.host.onBoard right.host.inputs right.host.outputs := by
  rw [Console.onBoard, ← same.memory]

end

section

variable {machine : Machine Console}

end

end Machine

end Intel8080
