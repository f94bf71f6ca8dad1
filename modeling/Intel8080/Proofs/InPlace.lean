import Intel8080.Execution

/-!
# Carrying an instruction out in place

An exchange keeps the processor apart until the dialogue with the host is over, so a
refusal cannot leave anything half done. Hardware has no such second copy: it changes its
registers one after another and talks to its host in between, and what it has assigned
before a refusal stays assigned. `inPlace` describes every instruction in that way, in the
order in which the processor proceeds.

That both come to the same is a matter of this order. An instruction may read as it likes,
but it has to make all its requests before its first assignment. `Realizes` compares a part
of an instruction, from a given processor on, with an exchange; a request keeps the two in
step because nothing was assigned before it.
-/

namespace Intel8080

/-- A processor and its host while an instruction is under way. -/
structure Workplace (σ : Type) where
  cpu : Cpu
  host : σ

/-- A part of an instruction that changes the processor as it goes along. What it has
assigned before a stop stays assigned. -/
abbrev InPlace (σ : Type) :=
  EStateM Stop (Workplace σ)

namespace InPlace

variable {σ : Type}

/-- The processor as it is now. -/
def processor : InPlace σ Cpu :=
  return (← get).cpu

/-- Looking at the processor finds the one that is there. -/
theorem processor_bind {α : Type} (rest : Cpu → InPlace σ α) (cpu : Cpu)
    (host : σ) :
    (processor >>= rest) ⟨cpu, host⟩ = rest cpu ⟨cpu, host⟩ :=
  rfl

/-- Changes the processor. -/
def assign (change : Cpu → Cpu) : InPlace σ Unit :=
  modify fun place => { place with cpu := change place.cpu }

/-- Makes a request of the host, which may refuse it. -/
def ask {α : Type} (request : σ → Reply Fault σ α) : InPlace σ α := fun place =>
  match request place.host with
  | .ok value host => .ok value { place with host }
  | .error fault host => .error (.fault fault) { place with host }

/-- Continues elsewhere. -/
def jump (target : UInt16) : InPlace σ Unit :=
  assign fun cpu => { cpu with pc := target }

/-- Sets the accumulator, then the flags. -/
def install (result : UInt8 × Flags) : InPlace σ Unit := do
  assign fun cpu => { cpu with a := result.1 }
  assign fun cpu => { cpu with flags := result.2 }

/-- Combines the accumulator with a byte. -/
def accumulate (operation : AccumulatorOp) (value : UInt8) : InPlace σ Unit := do
  let cpu ← processor
  install (operation.apply cpu.a value cpu.flags.carry)

variable [Host σ]

/-- Reads a byte of memory. -/
def read (address : UInt16) : InPlace σ UInt8 :=
  return Host.read (← get).host address

/-- Reads a word of memory. -/
def readWord (address : UInt16) : InPlace σ UInt16 :=
  return Host.readWord (← get).host address

/-- Writes a byte of memory. -/
def write (address : UInt16) (value : UInt8) : InPlace σ Unit :=
  ask (Host.write · address value)

/-- Writes a word of memory. -/
def writeWord (address value : UInt16) : InPlace σ Unit :=
  ask (Host.writeWord · address value)

/-- The byte that an operand stands for. -/
def load : Operand → InPlace σ UInt8
  | .register name => return (← processor).get name
  | .memory => do read (← processor).hl

/-- Delivers a byte to an operand. -/
def store : Operand → UInt8 → InPlace σ Unit
  | .register name, value => assign (·.set name value)
  | .memory, value => do write (← processor).hl value

/-- Delivers a stepped byte, then sets the flags except for the carry. -/
def storeStep (target : Operand) (result : UInt8 × Flags) : InPlace σ Unit := do
  store target result.1
  assign fun cpu => { cpu with flags := { result.2 with carry := cpu.flags.carry } }

/-- Writes the two bytes of a word below the stack, then moves the stack pointer. -/
def push (value : UInt16) : InPlace σ Unit := do
  write ((← processor).sp - 1) (highByte value)
  write ((← processor).sp - 2) (lowByte value)
  assign fun cpu => { cpu with sp := cpu.sp - 2 }

/-- Reads the two bytes on top of the stack, then moves the stack pointer. -/
def pop : InPlace σ UInt16 := do
  let low ← read (← processor).sp
  let high ← read ((← processor).sp + 1)
  assign fun cpu => { cpu with sp := cpu.sp + 2 }
  return word high low

/-- Pushes the program counter, then continues elsewhere. -/
def enter (target : UInt16) : InPlace σ Unit := do
  push (← processor).pc
  jump target

end InPlace

namespace Instruction

open InPlace

variable {σ : Type} [Host σ]

/-- An instruction carried out in place. The result is the number of cycles spent beyond
the base cost. -/
def inPlace : Instruction → InPlace σ UInt8
  | nop => return 0
  | hlt => throw (.halt .instruction)
  | illegal opcode => do throw (.fault (.illegalOpcode opcode ((← processor).pc - 1)))
  | mov target source => do
    store target (← load source)
    return 0
  | mvi target value => do
    store target value
    return 0
  | accumulate operation source => do
    InPlace.accumulate operation (← load source)
    return 0
  | accumulateImmediate operation value => do
    InPlace.accumulate operation value
    return 0
  | inr target => do
    storeStep target (Arithmetic.increment (← load target))
    return 0
  | dcr target => do
    storeStep target (Arithmetic.decrement (← load target))
    return 0
  | inx target => do
    assign fun cpu => cpu.setWord target (cpu.getWord target + 1)
    return 0
  | dcx target => do
    assign fun cpu => cpu.setWord target (cpu.getWord target - 1)
    return 0
  | dad source => do
    let cpu ← processor
    assign (·.setHL (cpu.hl + cpu.getWord source))
    assign (·.setCarry (cpu.hl.toNat + (cpu.getWord source).toNat ≥ 0x10000))
    return 0
  | lxi target value => do
    assign (·.setWord target value)
    return 0
  | rotate rotation => do
    let cpu ← processor
    let (value, carry) := rotation.apply cpu.a cpu.flags.carry
    assign (·.setCarry carry)
    assign fun cpu => { cpu with a := value }
    return 0
  | daa => do
    let cpu ← processor
    install (Arithmetic.decimalAdjust cpu.a cpu.flags.carry cpu.flags.aux)
    return 0
  | cma => do
    assign fun cpu => { cpu with a := ~~~cpu.a }
    return 0
  | stc => do
    assign (·.setCarry true)
    return 0
  | cmc => do
    assign fun cpu => cpu.setCarry (!cpu.flags.carry)
    return 0
  | lda address => do
    let value ← read address
    assign fun cpu => { cpu with a := value }
    return 0
  | sta address => do
    write address (← processor).a
    return 0
  | ldax pointer => do
    let value ← read ((← processor).pair pointer)
    assign fun cpu => { cpu with a := value }
    return 0
  | stax pointer => do
    write ((← processor).pair pointer) (← processor).a
    return 0
  | lhld address => do
    let value ← readWord address
    assign (·.setHL value)
    return 0
  | shld address => do
    writeWord address (← processor).hl
    return 0
  | jmp target => do
    jump target
    return 0
  | jumpIf condition target => do
    if condition.holds (← processor).flags then jump target
    return 0
  | call target => do
    enter target
    return 0
  | callIf condition target => do
    if condition.holds (← processor).flags then
      enter target
      return takenCost
    else return 0
  | ret => do
    jump (← InPlace.pop)
    return 0
  | returnIf condition => do
    if condition.holds (← processor).flags then
      jump (← InPlace.pop)
      return takenCost
    else return 0
  | rst number => do
    enter (number.toUInt16 * 8)
    return 0
  | push source => do
    InPlace.push ((← processor).getStackWord source)
    return 0
  | pop target => do
    let value ← InPlace.pop
    assign (·.setStackWord target value)
    return 0
  | xchg => do
    let cpu ← processor
    assign (·.setDE cpu.hl)
    assign (·.setHL cpu.de)
    return 0
  | xthl => do
    let top ← readWord (← processor).sp
    writeWord (← processor).sp (← processor).hl
    assign (·.setHL top)
    return 0
  | pchl => do
    jump (← processor).hl
    return 0
  | sphl => do
    assign fun cpu => { cpu with sp := cpu.hl }
    return 0
  | input port => do
    let value ← ask (Host.input · port)
    assign fun cpu => { cpu with a := value }
    return 0
  | output port => do
    let value := (← processor).a
    ask (Host.output · port value)
    return 0
  | interrupts enabled => do
    assign fun cpu => { cpu with interrupts := enabled }
    return 0

end Instruction

namespace InPlace

variable {σ : Type} [Host σ] {cpu : Cpu}

/-- From the given processor on, a part of an instruction comes to the same as an exchange
on every host: the value that ends the exchange is what the part leaves, and a stop finds
the processor as it was at the beginning. -/
def Realizes (part : InPlace σ UInt8) (cpu : Cpu) (exchange : Exchange Completion) : Prop :=
  ∀ host : σ, part ⟨cpu, host⟩ =
    match exchange.run host with
    | .ok completion after => .ok completion.extra ⟨completion.cpu, after⟩
    | .error stop after => .error stop ⟨cpu, after⟩

theorem realizes_processor {rest : Cpu → InPlace σ UInt8} {exchange : Exchange Completion} :
    Realizes (processor >>= rest) cpu exchange ↔ Realizes (rest cpu) cpu exchange :=
  Iff.rfl

/-- A write keeps part and exchange in step. -/
theorem realizes_write {rest : InPlace σ UInt8} {next : Exchange Completion}
    (address : UInt16) (value : UInt8) (realizes : Realizes rest cpu next) :
    Realizes (write address value >>= fun _ => rest) cpu (.write address value next) := by
  intro host
  simp only [bind, EStateM.bind, write, ask, Exchange.run]
  cases Host.write host address value with
  | ok _ after => exact realizes after
  | error fault after => rfl

/-- Reading a port keeps them in step. -/
theorem realizes_input {rest : UInt8 → InPlace σ UInt8} {next : UInt8 → Exchange Completion}
    (port : UInt8) (realizes : ∀ value, Realizes (rest value) cpu (next value)) :
    Realizes (ask (Host.input · port) >>= rest) cpu (.input port next) := by
  intro host
  simp only [bind, EStateM.bind, ask, Exchange.run]
  cases Host.input host port with
  | ok value after => exact realizes value after
  | error fault after => rfl

/-- Writing a port keeps them in step. -/
theorem realizes_output {rest : InPlace σ UInt8} {next : Exchange Completion}
    (port value : UInt8) (realizes : Realizes rest cpu next) :
    Realizes (ask (Host.output · port value) >>= fun _ => rest) cpu
      (.output port value next) := by
  intro host
  simp only [bind, EStateM.bind, ask, Exchange.run]
  cases Host.output host port value with
  | ok _ after => exact realizes after
  | error fault after => rfl

/-- Writing a word keeps them in step. -/
theorem realizes_writeWord {rest : InPlace σ UInt8} {next : Exchange Completion}
    (address value : UInt16) (realizes : Realizes rest cpu next) :
    Realizes (writeWord address value >>= fun _ => rest) cpu (.writeWord address value next) := by
  have twoWrites : writeWord address value =
      (write address (lowByte value) >>= fun _ =>
        write (address + 1) (highByte value) : InPlace σ Unit) := by
    funext place
    simp only [bind, EStateM.bind, writeWord, write, ask, Host.writeWord]
    cases Host.write place.host address (lowByte value) <;> rfl
  rw [twoWrites, bind_assoc]
  exact realizes_write address (lowByte value)
    (realizes_write (address + 1) (highByte value) realizes)

/-- A push keeps them in step, since it moves the stack pointer only after both bytes were
accepted. -/
theorem realizes_push {rest : InPlace σ UInt8} (finish : Cpu → Completion) (value : UInt16)
    (realizes : Realizes rest { cpu with sp := cpu.sp - 2 }
      (.done (finish { cpu with sp := cpu.sp - 2 }))) :
    Realizes (push value >>= fun _ => rest) cpu ((cpu.pushWord value).map finish) := by
  simp only [push, bind_assoc, realizes_processor]
  refine realizes_write (cpu.sp - 1) (highByte value) ?_
  rw [realizes_processor]
  exact realizes_write (cpu.sp - 2) (lowByte value) fun host => realizes host

/-- Entering a routine keeps them in step. -/
theorem realizes_enter (target : UInt16) (extra : UInt8) :
    Realizes (enter target >>= fun _ => pure extra : InPlace σ UInt8) cpu
      ((cpu.enter target).map fun cpu => { cpu, extra }) := by
  simp only [enter, bind_assoc, realizes_processor]
  let finish (pushed : Cpu) : Completion := { cpu := { pushed with pc := target }, extra }
  have pushed : Realizes (push cpu.pc >>= fun _ => jump target >>= fun _ => pure extra :
      InPlace σ UInt8) cpu ((cpu.pushWord cpu.pc).map finish) :=
    realizes_push finish cpu.pc fun _ => rfl
  exact pushed

/-- A choice keeps them in step if both sides do. -/
theorem realizes_if {left right : InPlace σ UInt8} {first second : Exchange Completion}
    (chosen : Bool) (yes : Realizes left cpu first) (no : Realizes right cpu second) :
    Realizes (if chosen then left else right) cpu (if chosen then first else second) := by
  cases chosen with
  | true => exact yes
  | false => exact no

/-- Delivering a byte keeps them in step. -/
theorem realizes_store (target : Operand) (value : UInt8) :
    Realizes (store target value >>= fun _ => pure 0 : InPlace σ UInt8) cpu
      (Instruction.complete (cpu.deliver target value)) := by
  cases target with
  | register name => exact fun _ => rfl
  | memory =>
    simp only [store, bind_assoc, realizes_processor]
    exact realizes_write cpu.hl value fun _ => rfl

/-- Delivering a stepped byte keeps them in step. The carry that is kept is the one from
before. -/
theorem realizes_storeStep (target : Operand) (result : UInt8 × Flags) :
    Realizes (storeStep target result >>= fun _ => pure 0 : InPlace σ UInt8) cpu
      (Instruction.complete (cpu.deliverStep target result)) := by
  cases target with
  | register name => cases name <;> exact fun _ => rfl
  | memory =>
    simp only [storeStep, store, bind_assoc, realizes_processor]
    exact realizes_write cpu.hl result.1 fun _ => rfl

end InPlace

/-- An outcome as the end of an instruction that was carried out in place. -/
def Outcome.reply {σ : Type} (outcome : Outcome σ) : Reply Stop (Workplace σ) UInt8 :=
  match outcome.result with
  | .ok extra => .ok extra ⟨outcome.cpu, outcome.host⟩
  | .error stop => .error stop ⟨outcome.cpu, outcome.host⟩

theorem Outcome.eq_of_reply_error {σ : Type} {outcome : Outcome σ} {stop : Stop} {cpu : Cpu}
    {host : σ} (failed : outcome.reply = .error stop ⟨cpu, host⟩) :
    outcome = ⟨.error stop, cpu, host⟩ := by
  obtain ⟨result, left, after⟩ := outcome
  cases result with
  | ok extra => cases failed
  | error reason =>
    obtain ⟨rfl, same⟩ := EStateM.Result.error.inj failed
    obtain ⟨rfl, rfl⟩ := Workplace.mk.inj same
    rfl

namespace Instruction

open InPlace

variable {σ : Type} [Host σ]

/-- Carried out in place, an instruction comes to the same as its exchange. What it asks may
depend on memory, which is as the instruction finds it. -/
theorem inPlace_exchange (instruction : Instruction) (cpu : Cpu) (host : σ) :
    instruction.inPlace ⟨cpu, host⟩ =
      match (instruction.exchange cpu (Host.read host)).run host with
      | .ok completion after => .ok completion.extra ⟨completion.cpu, after⟩
      | .error stop after => .error stop ⟨cpu, after⟩ := by
  cases instruction with
  | mov target source =>
    cases source with
    | register name => exact realizes_store target (cpu.get name) host
    | memory => exact realizes_store target (Host.read host cpu.hl) host
  | mvi target value => exact realizes_store target value host
  | accumulate operation source => cases source <;> rfl
  | inr target =>
    cases target with
    | register name =>
      exact realizes_storeStep (.register name) (Arithmetic.increment (cpu.get name)) host
    | memory =>
      exact realizes_storeStep .memory (Arithmetic.increment (Host.read host cpu.hl)) host
  | dcr target =>
    cases target with
    | register name =>
      exact realizes_storeStep (.register name) (Arithmetic.decrement (cpu.get name)) host
    | memory =>
      exact realizes_storeStep .memory (Arithmetic.decrement (Host.read host cpu.hl)) host
  | sta address => exact realizes_write address cpu.a (fun _ => rfl) host
  | stax pointer => exact realizes_write (cpu.pair pointer) cpu.a (fun _ => rfl) host
  | shld address => exact realizes_writeWord address cpu.hl (fun _ => rfl) host
  | xthl => exact realizes_writeWord cpu.sp cpu.hl (fun _ => rfl) host
  | push source =>
    exact realizes_push (fun cpu => { cpu }) (cpu.getStackWord source) (fun _ => rfl) host
  | call target => exact realizes_enter target 0 host
  | rst number => exact realizes_enter (number.toUInt16 * 8) 0 host
  | callIf condition target =>
    exact realizes_if (condition.holds cpu.flags) (realizes_enter target takenCost)
      (fun _ => rfl) host
  | jumpIf condition target =>
    simp only [inPlace, exchange, processor_bind]
    cases condition.holds cpu.flags <;> rfl
  | returnIf condition =>
    simp only [inPlace, exchange, processor_bind]
    cases condition.holds cpu.flags <;> rfl
  | input port => exact realizes_input port (fun _ _ => rfl) host
  | output port => exact realizes_output port cpu.a (fun _ => rfl) host
  | xchg =>
    have swapped : (cpu.setDE cpu.hl).setHL cpu.de =
        { cpu with d := cpu.h, e := cpu.l, h := cpu.d, l := cpu.e } := by
      simp [Cpu.setDE, Cpu.setHL, Cpu.hl, Cpu.de]
    exact congrArg (fun after => EStateM.Result.ok 0 (Workplace.mk after host)) swapped
  | _ => rfl

/-- Executing an instruction and carrying it out in place come to the same, also where the
host refuses a request. -/
theorem inPlace_eq_execute (instruction : Instruction) (cpu : Cpu) (host : σ) :
    instruction.inPlace ⟨cpu, host⟩ = (instruction.execute cpu host).reply := by
  rw [inPlace_exchange, execute]
  cases (instruction.exchange cpu (Host.read host)).run host <;> rfl

end Instruction

end Intel8080
