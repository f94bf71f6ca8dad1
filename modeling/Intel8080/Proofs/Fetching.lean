import Intel8080.Board
import Intel8080.Machine
import Intel8080.Proofs.Cost
import Intel8080.Proofs.Grammar

/-!
# Fetching from memory

A machine looks an opcode up before it reads the operand bytes, and reads only as many as
the table says. With the table of the instruction set this makes no difference: what it
fetches is the instruction that the grammar reads off the three bytes at the program
counter, wherever the program counter stands.

A step then is that instruction and nothing else. It runs with the program counter past
its own bytes and is charged its own cost; `settle` says what becomes of its outcome.
-/

namespace Intel8080

namespace Machine

variable {σ : Type} [Host σ]

/-- The instruction in memory at the program counter. Addresses wrap around at the top of
memory. -/
def next (machine : Machine σ) : Instruction :=
  .decode (Host.read machine.host machine.cpu.pc) (Host.read machine.host (machine.cpu.pc + 1))
    (Host.read machine.host (machine.cpu.pc + 2))

/-- The processor with its program counter past an instruction. -/
def past (machine : Machine σ) (instruction : Instruction) : Cpu :=
  { machine.cpu with pc := machine.cpu.pc + instruction.length.toUInt16 }

/-- What becomes of the outcome of an instruction. A stop halts the machine. A completed
instruction is charged, and the host may object to what it finds. -/
def settle (machine : Machine σ) (base : UInt8) (outcome : Outcome σ) :
    Reply Stop (Machine σ) UInt8 :=
  match outcome.result with
  | .error stop => .error stop ⟨outcome.host, outcome.cpu, machine.table, .halted stop⟩
  | .ok extra =>
    let cost := saturatingAdd base extra
    let cpu := outcome.cpu.charge cost
    match Host.didExecute outcome.host cpu with
    | .ok _ host => .ok cost ⟨host, cpu, machine.table, machine.status⟩
    | .error stop host => .error stop ⟨host, cpu, machine.table, .halted stop⟩

variable {machine : Machine σ}

/-- If the table has the lengths of the instruction set, the bytes that are not fetched make
no difference. -/
theorem fetch_instruction_of_bytes
    (bytes : ∀ opcode, (machine.table.get opcode).bytes =
      (Instruction.decode opcode 0 0).length) :
    machine.fetch.instruction = machine.next := by
  simp only [fetch, bytes]
  exact Instruction.decode_ignores ..

/-- The bytes that are not fetched make no difference. -/
theorem fetch_instruction (canonical : machine.table = .canonical) :
    machine.fetch.instruction = machine.next := by
  apply fetch_instruction_of_bytes
  intro opcode
  rw [canonical, Table.get_canonical]
  rfl

/-- The descriptor of the opcode at the program counter has the length of the instruction
there. -/
theorem bytes_next (canonical : machine.table = .canonical) :
    (machine.table.get machine.fetch.opcode).bytes = machine.next.length := by
  rw [canonical, Table.get_canonical]
  exact (Instruction.length_decode ..).symm

/-- The descriptor of the opcode at the program counter has the base cost of the
instruction there. -/
theorem cycles_next (canonical : machine.table = .canonical) :
    (machine.table.get machine.fetch.opcode).cycles = machine.next.cycles := by
  rw [canonical, Table.get_canonical]
  exact Instruction.cycles_decode ..

/-- Performing a fetched instruction is letting its descriptor act and settling the
outcome. -/
theorem perform_eq_settle (machine : Machine σ) (fetched : Fetched) :
    machine.perform fetched =
      machine.settle (machine.table.get fetched.opcode).cycles
        ((machine.table.get fetched.opcode).effect fetched.instruction
          { machine.cpu with
            pc := machine.cpu.pc + (machine.table.get fetched.opcode).bytes.toUInt16 }
          machine.host) :=
  rfl

/-- No step exchanges the table. -/
theorem table_step (machine : Machine σ) : machine.step.responder.table = machine.table := by
  obtain ⟨host, cpu, table, status⟩ := machine
  cases status with
  | halted stop => rfl
  | running =>
    simp only [step, perform]
    split
    · rfl
    · split <;> rfl

/-- A running machine executes the instruction in memory at its program counter. -/
theorem step_canonical (canonical : machine.table = .canonical)
    (running : machine.status = .running) :
    machine.step = machine.settle machine.next.cycles
      (machine.next.execute (machine.past machine.next) machine.host) := by
  have effect : (machine.table.get machine.fetch.opcode).effect = Instruction.execute := by
    rw [canonical, Table.get_canonical]
    rfl
  rw [step_of_running running, perform_eq_settle, effect, fetch_instruction canonical,
    bytes_next canonical, cycles_next canonical, past]

/-- Fetching is exact. Decoding reads the grammar, whatever the operand bytes are, and the
descriptor of an opcode has the length, the base cost and the mnemonic of every
instruction that the opcode begins. So with the table of the instruction set a machine
fetches the instruction that three bytes of memory spell, and a step executes it and goes
on behind it. -/
theorem fetch_exact (canonical : machine.table = .canonical) :
    (∀ opcode low high,
      Instruction.decode opcode low high = Grammar.read opcode low high ∧
        (Instruction.decode opcode low high).length =
          (Descriptor.canonical opcode : Descriptor σ).bytes ∧
        (Instruction.decode opcode low high).cycles =
          (Descriptor.canonical opcode : Descriptor σ).cycles ∧
        (Instruction.decode opcode low high).mnemonic =
          (Descriptor.canonical opcode : Descriptor σ).name) ∧
      machine.fetch.instruction = machine.next ∧
      (machine.status = .running →
        machine.step = machine.settle machine.next.cycles
          (machine.next.execute (machine.past machine.next) machine.host)) := by
  refine ⟨?_, fetch_instruction canonical, step_canonical canonical⟩
  intro opcode low high
  exact ⟨Grammar.decode_eq_read opcode low high, Instruction.length_decode opcode low high,
    (Instruction.cycles_decode opcode low high).symm, Instruction.mnemonic_decode opcode low high⟩

/-- A machine whose next instruction begins in the last two bytes of memory and ends in
the first one. -/
def straddling : Machine Board :=
  .startAt .canonical ((Board.blank.load 0xFFFE [0x01, 0x34]).load 0 [0x12]) 0xFFFE

/-- Across the top of memory, `lxi b,0x1234` is fetched whole, and a step goes on behind
it. -/
theorem fetch_exact_straddling :
    straddling.table = .canonical ∧ straddling.status = .running ∧
      straddling.fetch.instruction = .lxi (.pair .bc) 0x1234 ∧
      straddling.step = .ok 10 { straddling with
        cpu := { b := 0x12, c := 0x34, pc := 0x0001, cycles := 10 } } := by
  obtain ⟨-, fetched, stepped⟩ := @fetch_exact Board _ straddling rfl
  have bytes : Host.read straddling.host 0xFFFE = 0x01 ∧
      Host.read straddling.host 0xFFFF = 0x34 ∧ Host.read straddling.host 0x0000 = 0x12 := by
    simp [straddling, startAt, Host.read, Board.read, Board.load, Memory.read_load]
  obtain ⟨opcode, low, high⟩ := bytes
  have next : straddling.next = .lxi (.pair .bc) 0x1234 := by
    change Instruction.decode (Host.read straddling.host 0xFFFE)
      (Host.read straddling.host 0xFFFF) (Host.read straddling.host 0x0000) = _
    rw [opcode, low, high]
    rfl
  have step := stepped rfl
  rw [next] at fetched step
  exact ⟨rfl, rfl, fetched, step⟩

end Machine

end Intel8080
