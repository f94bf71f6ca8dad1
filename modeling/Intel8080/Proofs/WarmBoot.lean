import Intel8080.Proofs.Halting
import Intel8080.Proofs.Transcript

/-!
# Arrivals at address 0

On a console an instruction that is completed with the program counter at 0 ends the program,
whichever instruction it is. But the console looks at the processor behind instructions only,
and an accepted interrupt is none: it pushes the program counter and continues at its restart
address, and nobody looks. At the restart address 0 the machine is therefore left running, and
its next instruction is fetched from there.

That is the only way to get there. In any session with a program that begins elsewhere, a
running machine is at address 0 if and only if the last request that changed anything was an
accepted interrupt at 0.
-/

namespace Intel8080

/-- The operation asks for an interrupt at address 0. -/
def Operation.AsksZero {ω : Type} (operation : Operation ω) : Prop :=
  operation = .interrupt 0 ∨ operation = .resetTo 0

namespace Transaction

variable {ω : Type}

/-- An interrupt at address 0 was accepted. -/
def EntersZero (transaction : Transaction ω) : Prop :=
  transaction.operation.AsksZero ∧ transaction.answer = .taken true

/-- An interrupt was declined, or a request turned down because there is no such restart. -/
def Idle (transaction : Transaction ω) : Prop :=
  transaction.operation.rejection? ≠ none ∨ transaction.answer = .taken false

/-- Behind the last accepted interrupt at address 0 there was nothing but idle requests. -/
def EndAtZero (transactions : List (Transaction ω)) : Prop :=
  ∃ earlier entry later, transactions = earlier ++ entry :: later ∧ entry.EntersZero ∧
    ∀ transaction ∈ later, transaction.Idle

theorem not_endAtZero_nil : ¬ EndAtZero ([] : List (Transaction ω)) := by
  rintro ⟨earlier, entry, later, split, -⟩
  simp at split

theorem endAtZero_cons_iff {entry : Transaction ω} {others : List (Transaction ω)} :
    EndAtZero (entry :: others) ↔
      EndAtZero others ∨ entry.EntersZero ∧ ∀ transaction ∈ others, transaction.Idle := by
  constructor
  · rintro ⟨earlier, last, later, split, enters, idle⟩
    cases earlier with
    | nil =>
      obtain ⟨rfl, rfl⟩ := List.cons.inj split
      exact .inr ⟨enters, idle⟩
    | cons first earlier =>
      obtain ⟨rfl, rfl⟩ := List.cons.inj split
      exact .inl ⟨earlier, last, later, rfl, enters, idle⟩
  · rintro (⟨earlier, last, later, rfl, enters, idle⟩ | ⟨enters, idle⟩)
    · exact ⟨entry :: earlier, last, later, rfl, enters, idle⟩
    · exact ⟨[], entry, others, rfl, enters, idle⟩

end Transaction

namespace Machine

/-- A session that ends with a running machine began with a running one. -/
theorem Session.status_of_running {σ ω : Type} [Host σ] {first last : Machine σ}
    {transactions : List (Transaction ω)} (session : Session first transactions last)
    (running : last.status = .running) : first.status = .running := by
  cases status : first.status with
  | running => rfl
  | halted stop =>
    obtain ⟨rfl, -⟩ := session.of_halted status
    exact status.symm.trans running

variable {ω : Type} {machine after last : Machine Console} {operation : Operation ω}
  {answer : Answer} {transactions : List (Transaction ω)}

/-- A completed instruction that has arrived at address 0 ends the program. -/
theorem step_of_arrival (table : machine.table = Console.table)
    (running : machine.status = .running) {extra : UInt8} {cpu : Cpu} {host : Console}
    (completed : Console.callEffect machine.next (machine.past machine.next) machine.host =
      ⟨.ok extra, cpu, host⟩) (arrived : cpu.pc = 0) :
    machine.step.answer = .error (.halt .warmBoot) ∧
      machine.step.responder.status = .halted (.halt .warmBoot) := by
  rw [step_intercepting table Console.interceptsCalls running, completed, settle_console,
    if_pos arrived]
  exact ⟨rfl, rfl⟩

/-- So a step does not leave a machine running there. -/
theorem pc_step_ne_zero (table : machine.table = Console.table)
    (still : machine.step.responder.status = .running) : machine.step.responder.cpu.pc ≠ 0 := by
  cases status : machine.status with
  | halted stop =>
    rw [step_of_halted status] at still
    cases status.symm.trans still
  | running =>
    intro zero
    rw [step_intercepting table Console.interceptsCalls status] at still zero
    generalize Console.callEffect machine.next (machine.past machine.next) machine.host = outcome
      at still zero
    obtain ⟨result, cpu, host⟩ := outcome
    cases result with
    | error stop => cases still
    | ok extra =>
      rw [settle_console] at still zero
      by_cases arrived : cpu.pc = 0
      · rw [if_pos arrived] at still
        cases still
      · rw [if_neg arrived] at zero
        exact arrived zero

/-- A console takes every restart if interrupts are enabled, and does not look afterwards. -/
theorem inject_console (running : machine.status = .running) (number : UInt8) :
    (machine.inject (.rst number)).answer = .ok machine.cpu.interrupts ∧
      (machine.inject (.rst number)).responder.table = machine.table ∧
      (machine.inject (.rst number)).responder.cpu.pc =
        if machine.cpu.interrupts then number.toUInt16 * 8 else machine.cpu.pc := by
  obtain ⟨host, cpu, table, status⟩ := machine
  obtain rfl : status = .running := running
  cases latch : cpu.interrupts with
  | false =>
    simp only [inject, latch]
    exact ⟨rfl, rfl, rfl⟩
  | true =>
    simp only [inject, latch]
    exact ⟨rfl, rfl, rfl⟩

/-- How a request leaves a running machine at address 0: it was an accepted interrupt there, or
was idle and has found the machine there. -/
structure Lands (machine : Machine Console) (transaction : Transaction ω)
    (after : Machine Console) : Prop where
  table : after.table = machine.table
  zero : after.cpu.pc = 0 ↔
    transaction.EntersZero ∨ transaction.Idle ∧ machine.cpu.pc = 0

theorem lands_inject (running : machine.status = .running)
    (accepted : operation.rejection? = none) {number : UInt8}
    (target : number.toUInt16 * 8 = 0 ↔ operation.AsksZero) :
    machine.Lands ⟨operation, .ofInterrupt (machine.inject (.rst number)).answer⟩
      (machine.inject (.rst number)).responder := by
  obtain ⟨answer, table, pc⟩ := inject_console running number
  refine ⟨table, ?_⟩
  rw [answer, pc]
  cases machine.cpu.interrupts with
  | false => simp [Transaction.EntersZero, Transaction.Idle, Answer.ofInterrupt]
  | true => simp [Transaction.EntersZero, Transaction.Idle, Answer.ofInterrupt, accepted, target]

theorem lands_rejected {fault : Fault} (rejects : operation.rejection? = some fault) :
    machine.Lands ⟨operation, .stopped (.fault fault)⟩ machine :=
  ⟨rfl, by simp [Transaction.EntersZero, Transaction.Idle, rejects]⟩

theorem lands_interrupt (running : machine.status = .running) (address : UInt8) :
    machine.Lands ⟨(.interrupt address : Operation ω),
      .ofInterrupt (machine.interrupt address).answer⟩ (machine.interrupt address).responder := by
  rw [interrupt]
  cases restarts : Instruction.restartTo? address with
  | none => exact lands_rejected (by simp [Operation.rejection?, restarts])
  | some restart =>
    obtain ⟨number, rfl, target⟩ := Instruction.eq_rst_of_restartTo? restarts
    apply lands_inject running
    · simp [Operation.rejection?, restarts]
    · rw [target]
      simp [Operation.AsksZero, ← UInt8.toUInt16_inj]

theorem lands_resetTo (running : machine.status = .running) (index : Nat) :
    machine.Lands ⟨(.resetTo index : Operation ω),
      .ofInterrupt (machine.resetTo index).answer⟩ (machine.resetTo index).responder := by
  rw [resetTo]
  split
  · rename_i inside
    apply lands_inject running
    · exact if_pos inside
    · have zero : (UInt8.ofNat index).toUInt16 * 8 = 0 ↔ index = 0 := by
        interval_cases index <;> decide
      simp [Operation.AsksZero, zero]
  · rename_i outside
    exact lands_rejected (if_neg outside)

/-- Any other request is answered by a step, which does not leave a running machine there. -/
theorem lands_step (table : machine.table = Console.table)
    (still : machine.step.responder.status = .running) (accepted : operation.rejection? = none)
    (unasked : ¬ operation.AsksZero) (answered : ∀ taken, answer ≠ .taken taken) :
    machine.Lands ⟨operation, answer⟩ machine.step.responder := by
  have elsewhere := pc_step_ne_zero table still
  refine ⟨machine.table_step, ?_⟩
  simp [Transaction.EntersZero, Transaction.Idle, accepted, unasked, answered, elsewhere]

/-- Every response lands in this way if it leaves the machine running. -/
theorem Response.lands (response : machine.Response operation answer after)
    (table : machine.table = Console.table) (still : after.status = .running) :
    machine.Lands ⟨operation, answer⟩ after := by
  have running : machine.status = .running :=
    Session.status_of_running (.answered response (.finished after)) still
  have stepped (taken : Bool) : Answer.ofStep machine.step.answer ≠ .taken taken := by
    cases machine.step.answer <;> simp [Answer.ofStep]
  have drawn (taken : Bool) : Answer.ofNext machine.step.answer ≠ .taken taken := by
    cases machine.step.answer <;> simp [Answer.ofNext]
  cases response with
  | step => exact lands_step table still rfl (by simp [Operation.AsksZero]) stepped
  | next => exact lands_step table still rfl (by simp [Operation.AsksZero]) drawn
  | stepTraced tracer seen =>
    rw [stepTraced_reply] at still ⊢
    exact lands_step table still rfl (by simp [Operation.AsksZero]) stepped
  | run limit stop after stops => cases (run_halts stops).1.symm.trans still
  | interrupt address => exact lands_interrupt running address
  | resetTo index => exact lands_resetTo running index

/-- A running machine is at address 0 if and only if the session ends with an accepted
interrupt there, or has found the machine there and was idle. -/
theorem Session.lands (session : Session machine transactions last)
    (table : machine.table = Console.table) (running : last.status = .running) :
    last.table = Console.table ∧
      (last.cpu.pc = 0 ↔ Transaction.EndAtZero transactions ∨
        (∀ transaction ∈ transactions, transaction.Idle) ∧ machine.cpu.pc = 0) := by
  induction session with
  | finished machine => exact ⟨table, by simp [Transaction.not_endAtZero_nil]⟩
  | @answered machine after last operation answer others response rest inductionHypothesis =>
    have landed := response.lands table (rest.status_of_running running)
    obtain ⟨tableAfter, atZero⟩ := inductionHypothesis (landed.table.trans table) running
    refine ⟨tableAfter, ?_⟩
    rw [atZero, landed.zero, Transaction.endAtZero_cons_iff, List.forall_mem_cons]
    constructor
    · rintro (ends | ⟨idle, enters | ⟨first, zero⟩⟩)
      · exact .inl (.inl ends)
      · exact .inl (.inr ⟨enters, idle⟩)
      · exact .inr ⟨⟨first, idle⟩, zero⟩
    · rintro ((ends | ⟨enters, idle⟩) | ⟨⟨first, idle⟩, zero⟩)
      · exact .inl ends
      · exact .inr ⟨idle, .inl enters⟩
      · exact .inr ⟨idle, .inr ⟨first, zero⟩⟩

/-- The only way to be at address 0 is an interrupt. Whatever program is loaded elsewhere and
whatever is asked of its machine, a running machine is at address 0 if and only if the last
request that was not idle is an interrupt at 0 which was accepted; and whatever instruction it
would complete at address 0 ends the program there. -/
theorem at_zero_iff_interrupted {image : List UInt8} {options : Console.Options}
    {console : Console} (loaded : Console.load image options = .ok console)
    (elsewhere : options.origin ≠ 0) (session : Session console.boot transactions last)
    (running : last.status = .running) :
    (last.cpu.pc = 0 ↔ ∃ earlier entry later, transactions = earlier ++ entry :: later ∧
        entry.EntersZero ∧ ∀ transaction ∈ later, transaction.Idle) ∧
      ∀ extra cpu host,
        Console.callEffect last.next (last.past last.next) last.host = ⟨.ok extra, cpu, host⟩ →
          cpu.pc = 0 →
            last.step.answer = .error (.halt .warmBoot) ∧
              last.step.responder.status = .halted (.halt .warmBoot) := by
  obtain ⟨rfl, -⟩ := Console.fresh_of_load loaded
  have begun : ¬ console.boot.cpu.pc = 0 := elsewhere
  obtain ⟨table, atZero⟩ := session.lands rfl running
  constructor
  · rw [atZero]
    simp only [begun, and_false, or_false]
    rfl
  · intro extra cpu host completed arrived
    exact step_of_arrival table running completed arrived

/-- A program of one instruction, which enables interrupts. -/
def enabling : Console :=
  { memory := (Memory.blank.load 0x0100 [0xFB]).write 5 Console.returnOpcode
    options := {} }

/-- The machine behind this instruction. -/
def enabled : Machine Console :=
  { enabling.boot with cpu := { pc := 0x0101, interrupts := true, cycles := 4 } }

/-- The machine after it was interrupted at address 0. -/
def interruptedAtZero : Machine Console :=
  (enabled.interrupt 0).responder

theorem load_enabling : Console.load [0xFB] {} = .ok enabling := by
  rw [Console.load, Memory.loadWithin, if_pos (by decide)]
  rfl

theorem step_enabling : enabling.boot.step = .ok 4 enabled := by
  have opcode : Host.read enabling 0x0100 = 0xFB := by
    simp [enabling, Host.read, Memory.read_write, Memory.read_load]
  have enables : enabling.boot.next = .interrupts true := by
    change Instruction.decode (Host.read enabling 0x0100) (Host.read enabling 0x0101)
      (Host.read enabling 0x0102) = _
    rw [opcode]
    rfl
  have stepped := @step_of_next _ _ enabling.boot _ rfl Console.interceptsCalls rfl _ enables
  exact stepped

/-- The interrupt is accepted, and the machine keeps running. -/
theorem interrupt_enabled : enabled.interrupt 0 = .ok true interruptedAtZero :=
  rfl

/-- A session that begins with these two requests. -/
theorem session_enabling {later : List (Transaction Unit)}
    (rest : Session interruptedAtZero later last) :
    Session enabling.boot (⟨.step, .cost 4⟩ :: ⟨.interrupt 0, .taken true⟩ :: later) last := by
  have stepped : enabling.boot.Response (.step : Operation Unit) _ _ := .step
  have interrupted : enabled.Response (.interrupt 0 : Operation Unit) _ _ := .interrupt 0
  rw [step_enabling] at stepped
  rw [interrupt_enabled] at interrupted
  exact .answered stepped (.answered interrupted rest)

/-- At address 0 there is no operation. -/
theorem next_interruptedAtZero : interruptedAtZero.next = .nop := by
  have pushed : interruptedAtZero.host = { enabling with
      memory := (enabling.memory.write 0xFFFF 0x01).write 0xFFFE 0x01 } := rfl
  have opcode : Host.read interruptedAtZero.host 0 = 0x00 := by
    rw [pushed]
    simp [enabling, Host.read, Memory.read_write, Memory.read_load]
  change Instruction.decode (Host.read interruptedAtZero.host 0)
    (Host.read interruptedAtZero.host 1) (Host.read interruptedAtZero.host 2) = _
  rw [opcode]
  rfl

/-- A console whose program begins elsewhere can be left running at address 0, and then
executes what stands there. -/
theorem running_at_zero :
    ∃ last : Machine Console, Console.load [0xFB] {} = .ok enabling ∧
      enabling.options.origin ≠ 0 ∧
      enabling.boot.Session
        ([⟨.step, .cost 4⟩, ⟨.interrupt 0, .taken true⟩] : List (Transaction Unit)) last ∧
      last.status = .running ∧ last.cpu.pc = 0 ∧ last.step.answer = .ok 4 := by
  have stepped := @step_of_next _ _ interruptedAtZero _ rfl Console.interceptsCalls rfl _
    next_interruptedAtZero
  refine ⟨interruptedAtZero, load_enabling, by decide, session_enabling (.finished _), rfl, rfl, ?_⟩
  exact congrArg Reply.answer stepped

/-- A further request, which is declined, leaves it there. -/
theorem at_zero_iff_interrupted_enabling :
    Console.load [0xFB] {} = .ok enabling ∧ enabling.options.origin ≠ 0 ∧
      ∃ last : Machine Console, enabling.boot.Session
        ([⟨.step, .cost 4⟩, ⟨.interrupt 0, .taken true⟩, ⟨.resetTo 3, .taken false⟩] :
          List (Transaction Unit)) last ∧
        last.status = .running ∧ last.cpu.pc = 0 := by
  have elsewhere : enabling.options.origin ≠ 0 := by decide
  have latched : interruptedAtZero.resetTo 3 = .ok false interruptedAtZero := rfl
  have declined : interruptedAtZero.Response (.resetTo 3 : Operation Unit) _ _ := .resetTo 3
  rw [latched] at declined
  have session := session_enabling (.answered declined (.finished _))
  obtain ⟨atZero, -⟩ := at_zero_iff_interrupted load_enabling elsewhere session rfl
  refine ⟨load_enabling, elsewhere, interruptedAtZero, session, rfl, atZero.mpr ?_⟩
  refine ⟨[⟨.step, .cost 4⟩], ⟨.interrupt 0, .taken true⟩, [⟨.resetTo 3, .taken false⟩], rfl,
    ⟨.inl rfl, rfl⟩, ?_⟩
  intro transaction member
  obtain rfl := List.mem_singleton.mp member
  exact .inr rfl

end Machine

end Intel8080
