import Intel8080.Proofs.Decoding
import Intel8080.Proofs.Dialogue
import Intel8080.Proofs.Run

/-!
# What instructions cost

The cost of an instruction is fixed by its opcode, except that a conditional call or
return that is taken costs six cycles more. Decoding with other operand bytes changes
operands and nothing else, so the descriptor of an opcode states the base cost of
every instruction that the opcode begins.

A machine with the table of the instruction set charges each step between four and
eighteen cycles and an accepted interrupt eleven, and its counter advances by what is
charged: no instruction touches the counter itself. Turns of a scheduler spend the same.
-/

namespace Intel8080

namespace Cpu

@[simp] theorem cycles_set (cpu : Cpu) (register : Register) (value : UInt8) :
    (cpu.set register value).cycles = cpu.cycles := by
  cases register <;> rfl

@[simp] theorem cycles_setPair (cpu : Cpu) (name : Pair) (value : UInt16) :
    (cpu.setPair name value).cycles = cpu.cycles := by
  cases name <;> rfl

@[simp] theorem cycles_setWord (cpu : Cpu) (register : WordRegister) (value : UInt16) :
    (cpu.setWord register value).cycles = cpu.cycles := by
  cases register with
  | pair name => exact cycles_setPair cpu name value
  | stackPointer => rfl

@[simp] theorem cycles_setStackWord (cpu : Cpu) (target : StackWord) (value : UInt16) :
    (cpu.setStackWord target value).cycles = cpu.cycles := by
  cases target with
  | register name => exact cycles_setWord cpu name value
  | status => rfl

/-- Delivering a byte ends with the counter as it was. -/
theorem deliver_ends_cycles (cpu : Cpu) (target : Operand) (value : UInt8) :
    (cpu.deliver target value).Ends fun after => after.cycles = cpu.cycles := by
  cases target with
  | register name => exact cycles_set cpu name value
  | memory => rfl

/-- Delivering a stepped byte ends with the counter as it was too. -/
theorem deliverStep_ends_cycles (cpu : Cpu) (target : Operand) (result : UInt8 × Flags) :
    (cpu.deliverStep target result).Ends fun after => after.cycles = cpu.cycles :=
  deliver_ends_cycles { cpu with flags := { result.2 with carry := cpu.flags.carry } } target
    result.1

/-- Pushing a word ends with the counter as it was. -/
theorem pushWord_ends_cycles (cpu : Cpu) (value : UInt16) :
    (cpu.pushWord value).Ends fun after => after.cycles = cpu.cycles := rfl

/-- Entering a routine ends with the counter as it was. -/
theorem enter_ends_cycles (cpu : Cpu) (target : UInt16) :
    (cpu.enter target).Ends fun after => after.cycles = cpu.cycles := rfl

end Cpu

namespace Instruction

/-- What an instruction costs beyond its base cost. -/
def surcharge (instruction : Instruction) (flags : Flags) : UInt8 :=
  match instruction with
  | callIf condition _ | returnIf condition => if condition.holds flags then takenCost else 0
  | _ => 0

/-- How an exchange must end that leaves the counter alone and spends the given cycles
beyond the base cost. -/
def Spends (cpu : Cpu) (extra : UInt8) (completion : Completion) : Prop :=
  completion.cpu.cycles = cpu.cycles ∧ completion.extra = extra

theorem complete_ends {cpu : Cpu} {exchange : Exchange Cpu}
    (ends : exchange.Ends fun after => after.cycles = cpu.cycles) :
    (complete exchange).Ends (Spends cpu 0) := by
  rw [complete, Exchange.ends_map]
  simpa only [Spends, and_true] using ends

theorem completeTaken_ends {cpu : Cpu} {exchange : Exchange Cpu}
    (ends : exchange.Ends fun after => after.cycles = cpu.cycles) :
    (completeTaken exchange).Ends (Spends cpu takenCost) := by
  rw [completeTaken, Exchange.ends_map]
  simpa only [Spends, and_true] using ends

/-- A completed instruction has left the cycle counter alone and spent its
surcharge. -/
theorem exchange_ends (instruction : Instruction) (cpu : Cpu) (read : UInt16 → UInt8) :
    (instruction.exchange cpu read).Ends (Spends cpu (instruction.surcharge cpu.flags)) := by
  cases instruction with
  | hlt | illegal => trivial
  | mov target source => exact complete_ends (cpu.deliver_ends_cycles target _)
  | mvi target value => exact complete_ends (cpu.deliver_ends_cycles target value)
  | inr target => exact complete_ends (cpu.deliverStep_ends_cycles target _)
  | dcr target => exact complete_ends (cpu.deliverStep_ends_cycles target _)
  | inx target | dcx target | lxi target => exact ⟨cpu.cycles_setWord target _, rfl⟩
  | pop target => exact ⟨cpu.drop.cycles_setStackWord target _, rfl⟩
  | call target => exact complete_ends (cpu.enter_ends_cycles target)
  | rst number => exact complete_ends (cpu.enter_ends_cycles _)
  | push source => exact complete_ends (cpu.pushWord_ends_cycles _)
  | input port => exact fun _ => ⟨rfl, rfl⟩
  | jumpIf condition target =>
    simp only [exchange, surcharge]
    split <;> exact ⟨rfl, rfl⟩
  | callIf condition target =>
    simp only [exchange, surcharge]
    split
    · exact completeTaken_ends (cpu.enter_ends_cycles target)
    · exact ⟨rfl, rfl⟩
  | returnIf condition =>
    simp only [exchange, surcharge]
    split <;> exact ⟨rfl, rfl⟩
  | _ => exact ⟨rfl, rfl⟩

/-- An instruction that executed has left the cycle counter alone and spent its
surcharge. -/
theorem execute_ok {σ : Type} [Host σ] {instruction : Instruction} {cpu after : Cpu}
    {host afterHost : σ} {extra : UInt8}
    (executed : instruction.execute cpu host = ⟨.ok extra, after, afterHost⟩) :
    after.cycles = cpu.cycles ∧ extra = instruction.surcharge cpu.flags := by
  exact (instruction.exchange_ends cpu (Host.read host)).of_run (run_of_execute executed)

/-- The instruction with its operand bytes zero, as a descriptor is made from it. -/
def withoutOperands : Instruction → Instruction
  | mvi target _ => mvi target 0
  | accumulateImmediate operation _ => accumulateImmediate operation 0
  | lxi target _ => lxi target 0
  | lda _ => lda 0
  | sta _ => sta 0
  | lhld _ => lhld 0
  | shld _ => shld 0
  | jmp _ => jmp 0
  | jumpIf condition _ => jumpIf condition 0
  | call _ => call 0
  | callIf condition _ => callIf condition 0
  | input _ => input 0
  | output _ => output 0
  | instruction => instruction

theorem withoutOperands_eq (instruction : Instruction) :
    instruction.withoutOperands = instruction.withOperands 0 0 := by
  cases instruction <;> rfl

@[simp] theorem cycles_withoutOperands (instruction : Instruction) :
    instruction.withoutOperands.cycles = instruction.cycles := by
  rw [withoutOperands_eq, cycles_withOperands]

/-- The operand bytes decide nothing but the operands. -/
theorem withoutOperands_decode (opcode low high : UInt8) :
    (decode opcode low high).withoutOperands = decode opcode 0 0 := by
  rw [withoutOperands_eq, decode_eq, withOperands_withOperands]
  exact (decode_eq opcode 0 0).symm

/-- The base cost in the descriptor of an opcode is that of every instruction with this
opcode. -/
theorem cycles_decode (opcode low high : UInt8) :
    (decode opcode 0 0).cycles = (decode opcode low high).cycles := by
  rw [← withoutOperands_decode opcode low high, cycles_withoutOperands]

/-- No instruction is cheaper than four cycles. -/
theorem four_le_cycles (instruction : Instruction) : 4 ≤ instruction.cycles.toNat := by
  cases instruction with
  | mov target source =>
    simp only [cycles]
    split <;> decide
  | mvi target | accumulate operation target | inr target | dcr target =>
    simp only [cycles, byOperand]
    split <;> decide
  | _ =>
    simp only [cycles]
    decide

/-- No instruction is dearer than eighteen cycles, its surcharge included. -/
theorem cost_le (instruction : Instruction) (flags : Flags) :
    instruction.cycles.toNat + (instruction.surcharge flags).toNat ≤ 18 := by
  cases instruction with
  | mov target source =>
    simp only [cycles, surcharge]
    split <;> decide
  | mvi target | accumulate operation target | inr target | dcr target =>
    simp only [cycles, surcharge, byOperand]
    split <;> decide
  | callIf condition | returnIf condition =>
    simp only [cycles, surcharge]
    split <;> decide
  | _ =>
    simp only [cycles, surcharge]
    decide

/-- What enters a restart address is the restart that continues there. -/
theorem eq_rst_of_restartTo? {address : UInt8} {restart : Instruction}
    (restarts : restartTo? address = some restart) :
    ∃ number, restart = rst number ∧ number.toUInt16 * 8 = address.toUInt16 := by
  have all : ∀ bits : BitVec 8, (⟨bits⟩ : UInt8) &&& 0xC7 = 0 →
      ((⟨bits⟩ : UInt8) >>> 3).toUInt16 * 8 = (⟨bits⟩ : UInt8).toUInt16 := by
    decide
  rw [restartTo?] at restarts
  split at restarts
  · rename_i aligned
    exact ⟨address >>> 3, (Option.some.inj restarts).symm,
      all address.toBitVec (eq_of_beq aligned)⟩
  · cases restarts

end Instruction

namespace Machine

variable {σ : Type} [Host σ] {machine after : Machine σ}

/-- A step of a running machine performs what it fetches. -/
theorem step_of_running (running : machine.status = .running) :
    machine.step = machine.perform machine.fetch := by
  rw [step, running]

/-- A halted machine refuses to be stepped. -/
theorem step_of_halted {stop : Stop} (halted : machine.status = .halted stop) :
    machine.step = .error stop machine := by
  rw [step, halted]

/-- What a completed step has done: the effect succeeded, its cost was charged, and
the host did not object. Table and status are as before. -/
theorem step_ok {cost : UInt8} (completed : machine.step = .ok cost after) :
    ∃ extra cpu host,
      (machine.table.get machine.fetch.opcode).effect machine.fetch.instruction
        { machine.cpu with
          pc := machine.cpu.pc + (machine.table.get machine.fetch.opcode).bytes.toUInt16 }
        machine.host = ⟨.ok extra, cpu, host⟩ ∧
      cost = saturatingAdd (machine.table.get machine.fetch.opcode).cycles extra ∧
      after.cpu = cpu.charge cost ∧ after.table = machine.table ∧
      machine.status = .running ∧ after.status = .running := by
  obtain ⟨host, cpu, table, status⟩ := machine
  cases status with
  | halted stop => cases completed
  | running =>
    simp only [step] at completed
    generalize fetch ⟨host, cpu, table, .running⟩ = fetched at completed ⊢
    cases outcome : (table.get fetched.opcode).effect fetched.instruction
        { cpu with pc := cpu.pc + (table.get fetched.opcode).bytes.toUInt16 } host with
    | mk result cpuAfter hostAfter =>
      cases result with
      | error stop => simp [perform, outcome] at completed
      | ok extra =>
        simp only [perform, outcome] at completed
        split at completed
        · obtain ⟨rfl, rfl⟩ := EStateM.Result.ok.inj completed
          exact ⟨extra, cpuAfter, hostAfter, rfl, rfl, rfl, rfl, rfl, rfl⟩
        · cases completed

/-- With the table of the instruction set, a step costs what the instruction costs, its
surcharge included. -/
theorem step_total {cost : UInt8} (canonical : machine.table = .canonical)
    (completed : machine.step = .ok cost after) :
    cost.toNat = machine.fetch.instruction.cycles.toNat +
        (machine.fetch.instruction.surcharge machine.cpu.flags).toNat ∧
      after.cpu.cycles = machine.cpu.cycles + cost.toUInt64 := by
  obtain ⟨extra, cpu, host, executed, charged, cpuAfter, -, -⟩ := step_ok completed
  simp only [canonical, Table.get_canonical] at executed charged
  obtain ⟨counter, spent⟩ := Instruction.execute_ok executed
  have most := machine.fetch.instruction.cost_le machine.cpu.flags
  have base : (Descriptor.canonical machine.fetch.opcode : Descriptor σ).cycles =
      machine.fetch.instruction.cycles :=
    Instruction.cycles_decode ..
  have spent : extra = machine.fetch.instruction.surcharge machine.cpu.flags := spent
  constructor
  · rw [charged, base, spent, toNat_saturatingAdd]
    exact Nat.min_eq_right (by omega)
  · rw [cpuAfter]
    exact congrArg (· + cost.toUInt64) counter

/-- With the table of the instruction set, a step costs between four and eighteen
cycles, and the counter advances by what it costs. -/
theorem step_cost {cost : UInt8} (canonical : machine.table = .canonical)
    (completed : machine.step = .ok cost after) :
    4 ≤ cost.toNat ∧ cost.toNat ≤ 18 ∧
      after.cpu.cycles = machine.cpu.cycles + cost.toUInt64 := by
  obtain ⟨total, counter⟩ := step_total canonical completed
  have least := machine.fetch.instruction.four_le_cycles
  have most := machine.fetch.instruction.cost_le machine.cpu.flags
  exact ⟨by omega, by omega, counter⟩

/-- What the injection of a restart did if it did not fail. The latch alone decides about
acceptance. A declined one changes nothing. An accepted one advances the counter by eleven
cycles. -/
theorem inject_ok {number : UInt8} {taken : Bool}
    (answered : machine.inject (.rst number) = .ok taken after) :
    taken = machine.cpu.interrupts ∧ after.table = machine.table ∧
      if taken then after.cpu.cycles = machine.cpu.cycles + 11 else after = machine := by
  obtain ⟨host, cpu, table, status⟩ := machine
  cases status with
  | halted stop => cases answered
  | running =>
    cases latch : cpu.interrupts with
    | false =>
      simp only [inject, latch, Bool.not_false, if_true] at answered
      obtain ⟨rfl, rfl⟩ := EStateM.Result.ok.inj answered
      exact ⟨rfl, rfl, rfl⟩
    | true =>
      cases outcome : (Instruction.rst number).execute { cpu with interrupts := false } host with
      | mk result cpuAfter hostAfter =>
        simp only [inject, latch, outcome, Bool.not_true, Bool.false_eq_true, if_false]
          at answered
        cases result with
        | ok extra =>
          obtain ⟨rfl, rfl⟩ := EStateM.Result.ok.inj answered
          obtain ⟨counter, rfl⟩ := Instruction.execute_ok outcome
          exact ⟨rfl, rfl, congrArg (· + 11) counter⟩
        | error stop => cases answered

/-- What a request at a restart address did if it did not fail. -/
theorem interrupt_ok {address : UInt8} {taken : Bool}
    (answered : machine.interrupt address = .ok taken after) :
    taken = machine.cpu.interrupts ∧ after.table = machine.table ∧
      if taken then after.cpu.cycles = machine.cpu.cycles + 11 else after = machine := by
  rw [interrupt] at answered
  split at answered
  · rename_i restart restarts
    obtain ⟨number, rfl, -⟩ := Instruction.eq_rst_of_restartTo? restarts
    exact inject_ok answered
  · cases answered

/-- What the counter shows of an accepted request is its cost. -/
theorem interrupt_cost {address : UInt8} (entered : machine.interrupt address = .ok true after) :
    (after.cpu.cycles - machine.cpu.cycles).toNat = 11 := by
  obtain ⟨-, -, counter⟩ := interrupt_ok entered
  rw [if_pos rfl] at counter
  rw [counter, UInt64.add_comm, UInt64.add_sub_cancel]
  rfl

end Machine

namespace Progress

variable {σ : Type}

/-- What a turn of the given cost does to the accounts of an advance. -/
structure Charges (cost : Nat) (progress next : Progress σ) : Prop where
  timing : next.scheduler.timing = progress.scheduler.timing
  fraction : next.scheduler.fraction = progress.scheduler.fraction
  credit : next.scheduler.credit = progress.scheduler.credit - cost
  cycles : next.tick.cycles = progress.tick.cycles + cost
  counter : next.machine.cpu.cycles = progress.machine.cpu.cycles + UInt64.ofNat cost
  table : next.machine.table = progress.machine.table

variable [Host σ]

/-- No turn exchanges the table. -/
theorem Turn.table {progress next : Progress σ} {event : Event}
    (turn : Turn progress event next) : next.machine.table = progress.machine.table := by
  cases turn with
  | stepped cost machine _ completed =>
    obtain ⟨_, _, _, _, _, _, table, -, -⟩ := Machine.step_ok completed
    exact table
  | accepted machine _ entered => exact (Machine.interrupt_ok entered).2.1
  | declined machine _ refused => exact (Machine.interrupt_ok refused).2.1

/-- With the table of the instruction set, a turn costs at most eighteen cycles: a
declined offer none, an accepted one eleven. -/
theorem Turn.charges {progress next : Progress σ} {event : Event}
    (turn : Turn progress event next) (canonical : progress.machine.table = .canonical) :
    ∃ cost, cost ≤ 18 ∧ Charges cost progress next := by
  have table := turn.table
  cases turn with
  | stepped cost machine _ completed =>
    obtain ⟨-, most, counter⟩ := Machine.step_cost canonical completed
    rw [← UInt64.ofNat_uInt8ToNat] at counter
    exact ⟨cost.toNat, most, by simp, by simp, by simp, rfl, counter, table⟩
  | accepted machine _ entered =>
    obtain ⟨-, -, counter⟩ := Machine.interrupt_ok entered
    simp only [Machine.interrupt_cost entered]
    exact ⟨11, by decide, by simp [Scheduler.takeOffer], by simp [Scheduler.takeOffer],
      by simp [Scheduler.takeOffer], rfl, counter, table⟩
  | declined machine _ refused =>
    obtain ⟨-, -, same⟩ := Machine.interrupt_ok refused
    obtain rfl : machine = progress.machine := same
    exact ⟨0, by decide, rfl, rfl, by simp [Scheduler.takeOffer], rfl, by simp, table⟩

end Progress

end Intel8080
