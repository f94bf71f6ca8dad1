import Intel8080.Table

/-!
# Machines

A machine is a processor connected to a host, with the table it dispatches by and
a status. Stepping fetches an instruction, lets its descriptor act and charges
its cost. Once a step or an accepted interrupt has failed, the machine is halted
for good and every later attempt reports the same stop.
-/

namespace Intel8080

/-- Whether a machine still runs, and otherwise why not. -/
inductive Status where
  | running
  | halted (reason : Stop)
  deriving DecidableEq, Repr, Inhabited

/-- A processor and its host. -/
structure Machine (σ : Type) where
  host : σ
  cpu : Cpu
  table : Table σ
  status : Status

/-- An instruction as it was fetched. Of the two operand bytes only as many are
read as the descriptor asks for, and the others are zero. -/
structure Fetched where
  /-- The address of the opcode. -/
  pc : UInt16
  instruction : Instruction
  /-- The name in the table, which an override may have changed. -/
  name : String
  opcode : UInt8
  low : UInt8
  high : UInt8
  /-- The length in the table. -/
  length : UInt8
  deriving DecidableEq, Repr

namespace Machine

variable {σ : Type}

/-- Connects a fresh processor to a host. -/
def start (table : Table σ) (host : σ) : Machine σ :=
  { host, cpu := {}, table, status := .running }

/-- Connects a fresh processor that begins at the given address. -/
def startAt (table : Table σ) (host : σ) (pc : UInt16) : Machine σ :=
  { host, cpu := { pc }, table, status := .running }

/-- Connects a fresh processor to a host that overrides entries of the instruction
set, unless something is wrong with the overrides. -/
def assemble [Host σ] (overrides : List (Descriptor σ)) (host : σ) :
    Except TableError (Machine σ) :=
  (Table.canonical.compose overrides).map fun table => .start table host

/-- The machine with its processor at another address. -/
def movedTo (machine : Machine σ) (pc : UInt16) : Machine σ :=
  { machine with cpu := { machine.cpu with pc } }

/-- Whether the machine has not stopped. -/
def isRunning (machine : Machine σ) : Bool :=
  machine.status == .running

variable [Host σ]

/-- The instruction at the program counter. -/
def fetch (machine : Machine σ) : Fetched :=
  let pc := machine.cpu.pc
  let opcode := Host.read machine.host pc
  let descriptor := machine.table.get opcode
  let low := if 1 < descriptor.bytes then Host.read machine.host (pc + 1) else 0
  let high := if 2 < descriptor.bytes then Host.read machine.host (pc + 2) else 0
  { pc
    instruction := .decode opcode low high
    name := descriptor.name
    opcode, low, high
    length := descriptor.bytes }

/-- Executes a fetched instruction. If its effect fails, nothing is charged and the
program counter stays behind it; if the host stops the machine afterwards, the
instruction has taken its full effect. -/
def perform (machine : Machine σ) (fetched : Fetched) : Reply Stop (Machine σ) UInt8 :=
  let ⟨host, cpu, table, status⟩ := machine
  let descriptor := table.get fetched.opcode
  let ⟨result, cpu, host⟩ := descriptor.effect fetched.instruction
    { cpu with pc := cpu.pc + descriptor.bytes.toUInt16 } host
  match result with
  | .error stop => .error stop ⟨host, cpu, table, .halted stop⟩
  | .ok extra =>
    let cost := saturatingAdd descriptor.cycles extra
    let cpu := cpu.charge cost
    match Host.didExecute host cpu with
    | .ok _ host => .ok cost ⟨host, cpu, table, status⟩
    | .error stop host => .error stop ⟨host, cpu, table, .halted stop⟩

/-- Executes the instruction at the program counter and gives its cost. -/
def step (machine : Machine σ) : Reply Stop (Machine σ) UInt8 :=
  match machine.status with
  | .halted stop => .error stop machine
  | .running => machine.perform machine.fetch

/-- Steps until the machine stops, at most the given number of times; none if it
is still running then. -/
def run : Nat → Machine σ → Option (Stop × Machine σ)
  | 0, _ => none
  | limit + 1, machine =>
    match machine.step with
    | .ok _ machine => run limit machine
    | .error stop machine => some (stop, machine)

/-- Injects a restart instruction. A machine whose interrupts are disabled declines
it. An accepted one disables interrupts first, even if entering the restart
address then fails. -/
def inject (machine : Machine σ) (restart : Instruction) : Reply Stop (Machine σ) Bool :=
  match machine.status with
  | .halted stop => .error stop machine
  | .running =>
    if !machine.cpu.interrupts then .ok false machine
    else
      let ⟨host, cpu, table, status⟩ := machine
      let ⟨result, cpu, host⟩ := restart.execute { cpu with interrupts := false } host
      match result with
      | .ok extra => .ok true ⟨host, cpu.charge (restart.cycles + extra), table, status⟩
      | .error stop => .error stop ⟨host, cpu, table, .halted stop⟩

/-- Requests an interrupt at a restart address. The answer tells whether it was
accepted. A request for any other address is refused without consulting the
machine. -/
def interrupt (machine : Machine σ) (address : UInt8) : Reply Stop (Machine σ) Bool :=
  match Instruction.restartTo? address with
  | some restart => machine.inject restart
  | none => .error (.fault (.invalidVector address)) machine

/-- Requests an interrupt by the number of its restart address. A number above
seven is refused; the refusal names it, or 255 if it does not fit a byte. -/
def resetTo (machine : Machine σ) (index : Nat) : Reply Stop (Machine σ) Bool :=
  if index ≤ 7 then machine.inject (.rst (UInt8.ofNat index))
  else .error (.fault (.invalidVector (UInt8.ofNat (min index 255)))) machine

end Machine

end Intel8080
