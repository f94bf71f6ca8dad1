import Mathlib.Tactic.IntervalCases
import Intel8080.Cabinet
import Intel8080.Proofs.Fetching
import Intel8080.Proofs.Stack

/-!
# Entering and leaving an interrupt handler

A request for an interrupt is examined in a fixed order: whether there is a restart at its
address, whether the machine still runs, whether interrupts are enabled. Only then is the host
asked for anything, to store the program counter, the high byte before the low one. `Entry`
lists what can come of a request at a restart address, each with what must have been the case
and with the whole machine that it leaves.

What an entry stores is what a return takes back. So a handler that does nothing but enable
interrupts again and return leaves the processor as the interrupt found it, wherever the
program and its stack are, and however they lie across the end of memory.
-/

namespace Intel8080

/-- There is a restart at every eighth address below sixty-four, and nowhere else. -/
def IsRestart (address : UInt8) : Prop :=
  address.toNat % 8 = 0 ∧ address.toNat < 64

instance : DecidablePred IsRestart := fun _ =>
  inferInstanceAs (Decidable (_ ∧ _))

theorem Instruction.isSome_restartTo?_iff (address : UInt8) :
    (restartTo? address).isSome ↔ IsRestart address := by
  have all : ∀ bits : BitVec 8, (restartTo? ⟨bits⟩).isSome ↔ IsRestart ⟨bits⟩ := by decide
  exact all address.toBitVec

/-- A restart stores the program counter, the high byte first, and continues at its address. -/
theorem Instruction.execute_rst {σ : Type} [Host σ] (number : UInt8) (cpu : Cpu) (host : σ) :
    (rst number).execute cpu host =
      match Host.write host (cpu.sp - 1) (highByte cpu.pc) with
      | .error fault left => ⟨.error (.fault fault), cpu, left⟩
      | .ok _ middle =>
        match Host.write middle (cpu.sp - 2) (lowByte cpu.pc) with
        | .error fault left => ⟨.error (.fault fault), cpu, left⟩
        | .ok _ left => ⟨.ok 0, { cpu with sp := cpu.sp - 2, pc := number.toUInt16 * 8 }, left⟩ := by
  simp only [execute, exchange, complete, Cpu.enter, Cpu.pushWord, Cpu.push, Exchange.map,
    Exchange.run]
  cases Host.write host (cpu.sp - 1) (highByte cpu.pc) with
  | error fault left => rfl
  | ok answer middle =>
    simp only
    cases Host.write middle (cpu.sp - 2) (lowByte cpu.pc) <;> rfl

namespace Machine

variable {σ : Type} [Host σ]

/-- What comes of a request that would continue at the given address. -/
inductive Entry (machine : Machine σ) (target : UInt16) : Reply Stop (Machine σ) Bool → Prop where
  /-- The machine was halted before. -/
  | refused (stop : Stop) (halted : machine.status = .halted stop) :
      Entry machine target (.error stop machine)
  /-- Its interrupts are disabled. -/
  | declined (running : machine.status = .running) (disabled : machine.cpu.interrupts = false) :
      Entry machine target (.ok false machine)
  /-- The program counter is stored below the stack pointer, and the machine continues at the
  restart address with interrupts disabled. -/
  | entered (middle host : σ) (running : machine.status = .running)
      (enabled : machine.cpu.interrupts = true)
      (high : Host.write machine.host (machine.cpu.sp - 1) (highByte machine.cpu.pc) =
        .ok () middle)
      (low : Host.write middle (machine.cpu.sp - 2) (lowByte machine.cpu.pc) = .ok () host) :
      Entry machine target (.ok true
        { machine with
          host
          cpu := { machine.cpu with
            sp := machine.cpu.sp - 2
            pc := target
            interrupts := false
            cycles := machine.cpu.cycles + 11 } })
  /-- The high byte of the program counter is refused, and the low one not attempted. Of the
  processor only the latch has changed. -/
  | highRefused (fault : Fault) (host : σ) (running : machine.status = .running)
      (enabled : machine.cpu.interrupts = true)
      (high : Host.write machine.host (machine.cpu.sp - 1) (highByte machine.cpu.pc) =
        .error fault host) :
      Entry machine target (.error (.fault fault)
        { machine with
          host
          cpu := { machine.cpu with interrupts := false }
          status := .halted (.fault fault) })
  /-- The low byte is refused. The host keeps the high one. -/
  | lowRefused (fault : Fault) (middle host : σ) (running : machine.status = .running)
      (enabled : machine.cpu.interrupts = true)
      (high : Host.write machine.host (machine.cpu.sp - 1) (highByte machine.cpu.pc) =
        .ok () middle)
      (low : Host.write middle (machine.cpu.sp - 2) (lowByte machine.cpu.pc) =
        .error fault host) :
      Entry machine target (.error (.fault fault)
        { machine with
          host
          cpu := { machine.cpu with interrupts := false }
          status := .halted (.fault fault) })

variable {machine : Machine σ}

/-- One of the cases is at hand. -/
theorem exists_entry (machine : Machine σ) (target : UInt16) :
    ∃ reply, machine.Entry target reply := by
  cases status : machine.status with
  | halted stop => exact ⟨_, .refused stop status⟩
  | running =>
    cases latch : machine.cpu.interrupts with
    | false => exact ⟨_, .declined status latch⟩
    | true =>
      cases high : Host.write machine.host (machine.cpu.sp - 1) (highByte machine.cpu.pc) with
      | error fault host => exact ⟨_, .highRefused fault host status latch high⟩
      | ok answer middle =>
        cases low : Host.write middle (machine.cpu.sp - 2) (lowByte machine.cpu.pc) with
        | error fault host => exact ⟨_, .lowRefused fault middle host status latch high low⟩
        | ok answer host => exact ⟨_, .entered middle host status latch high low⟩

/-- The injection of a restart does in each case what the case says. -/
theorem Entry.inject {number : UInt8} {reply : Reply Stop (Machine σ) Bool}
    (entry : machine.Entry (number.toUInt16 * 8) reply) :
    machine.inject (.rst number) = reply := by
  cases entry with
  | refused stop halted => simp only [Machine.inject, halted]
  | declined running disabled => simp [Machine.inject, running, disabled]
  | entered middle host running enabled high low =>
    simp only [Machine.inject, running, enabled, Instruction.execute_rst, high, low]
    rfl
  | highRefused fault host running enabled high =>
    simp only [Machine.inject, running, enabled, Instruction.execute_rst, high]
    rfl
  | lowRefused fault middle host running enabled high low =>
    simp only [Machine.inject, running, enabled, Instruction.execute_rst, high, low]
    rfl

/-- So nothing else comes of a request at a restart address. -/
theorem interrupt_eq_iff {address : UInt8} (restarts : IsRestart address)
    (reply : Reply Stop (Machine σ) Bool) :
    machine.interrupt address = reply ↔ machine.Entry address.toUInt16 reply := by
  obtain ⟨restart, found⟩ :=
    Option.isSome_iff_exists.mp ((Instruction.isSome_restartTo?_iff address).mpr restarts)
  obtain ⟨number, rfl, target⟩ := Instruction.eq_rst_of_restartTo? found
  have injects : machine.interrupt address = machine.inject (.rst number) := by
    rw [interrupt, found]
  rw [injects, ← target]
  constructor
  · rintro rfl
    obtain ⟨reply, entry⟩ := machine.exists_entry (number.toUInt16 * 8)
    rw [entry.inject]
    exact entry
  · exact Entry.inject

/-- A request anywhere else is turned down. -/
theorem interrupt_of_not_isRestart (machine : Machine σ) {address : UInt8}
    (nowhere : ¬ IsRestart address) :
    machine.interrupt address = .error (.fault (.invalidVector address)) machine := by
  have missing : Instruction.restartTo? address = none := by
    rw [← Option.not_isSome_iff_eq_none, Instruction.isSome_restartTo?_iff]
    exact nowhere
  rw [interrupt, missing]

/-- A request by number is one at the address that the number stands for. -/
theorem resetTo_eq_interrupt (machine : Machine σ) {number : Nat} (inside : number ≤ 7) :
    machine.resetTo number = machine.interrupt (UInt8.ofNat (8 * number)) := by
  interval_cases number <;> rfl

/-- A machine on a plain board that has just been interrupted. -/
theorem entered_eq {machine entered : Machine Board} {address : UInt8}
    (accepted : machine.interrupt address = .ok true entered) :
    machine.status = .running ∧ machine.cpu.interrupts = true ∧ entered =
      { machine with
        host := machine.host.pushed machine.cpu.sp machine.cpu.pc
        cpu := { machine.cpu with
          sp := machine.cpu.sp - 2
          pc := address.toUInt16
          interrupts := false
          cycles := machine.cpu.cycles + 11 } } := by
  have restarts : IsRestart address := by
    by_contra nowhere
    rw [interrupt_of_not_isRestart machine nowhere] at accepted
    cases accepted
  generalize answer : (EStateM.Result.ok true entered : Reply Stop (Machine Board) Bool) = reply
    at accepted
  cases (interrupt_eq_iff restarts _).mp accepted with
  | entered middle host running enabled high low =>
    obtain ⟨-, rfl⟩ := EStateM.Result.ok.inj answer
    obtain ⟨-, rfl⟩ := EStateM.Result.ok.inj high
    obtain ⟨-, rfl⟩ := EStateM.Result.ok.inj low
    exact ⟨running, enabled, rfl⟩
  | _ => cases answer

/-- A handler that enables interrupts and returns leaves all of the processor but the counter as
the interrupt found it. -/
theorem resumes {machine entered : Machine Board} {address : UInt8}
    (canonical : machine.table = .canonical)
    (accepted : machine.interrupt address = .ok true entered)
    (enables : machine.host.read address.toUInt16 = 0xFB)
    (returns : machine.host.read (address.toUInt16 + 1) = 0xC9)
    (apart : ∀ byte, byte = address.toUInt16 ∨ byte = address.toUInt16 + 1 →
      byte ≠ machine.cpu.sp - 1 ∧ byte ≠ machine.cpu.sp - 2) :
    ∃ enabled, entered.step = .ok 4 enabled ∧ enabled.step = .ok 10
      { machine with
        host := machine.host.pushed machine.cpu.sp machine.cpu.pc
        cpu := { machine.cpu with cycles := machine.cpu.cycles + 25 } } := by
  obtain ⟨running, latch, rfl⟩ := entered_eq accepted
  have kept (byte : UInt16) (handler : byte = address.toUInt16 ∨ byte = address.toUInt16 + 1) :
      (machine.host.pushed machine.cpu.sp machine.cpu.pc).read byte = machine.host.read byte := by
    obtain ⟨high, low⟩ := apart byte handler
    rw [Board.read_pushed, if_neg low, if_neg high]
  obtain ⟨host, cpu, table, status⟩ := machine
  simp only at canonical running latch enables returns kept ⊢
  subst canonical running
  let entered : Machine Board := ⟨host.pushed cpu.sp cpu.pc, { cpu with
    sp := cpu.sp - 2, pc := address.toUInt16, interrupts := false, cycles := cpu.cycles + 11 },
    .canonical, .running⟩
  let enabled : Machine Board := { entered with cpu := { entered.cpu with
    pc := address.toUInt16 + 1, interrupts := true, cycles := entered.cpu.cycles + 4 } }
  have first : entered.next = .interrupts true := by
    change Instruction.decode ((host.pushed cpu.sp cpu.pc).read address.toUInt16) _ _ = _
    rw [kept _ (.inl rfl), enables]
    rfl
  have second : enabled.next = .ret := by
    change Instruction.decode ((host.pushed cpu.sp cpu.pc).read (address.toUInt16 + 1)) _ _ = _
    rw [kept _ (.inr rfl), returns]
    rfl
  have enabling : entered.step = .ok 4 enabled := by
    have stepped := @step_canonical Board _ entered rfl rfl
    rw [first] at stepped
    exact stepped
  have returning : enabled.step = .ok 10 { enabled with cpu := { enabled.cpu with
      sp := cpu.sp - 2 + 2
      pc := wordAt (host.pushed cpu.sp cpu.pc).read (cpu.sp - 2)
      cycles := enabled.cpu.cycles + 10 } } := by
    have stepped := @step_canonical Board _ enabled rfl rfl
    rw [second] at stepped
    exact stepped
  refine ⟨enabled, enabling, ?_⟩
  have pointer : cpu.sp - 2 + 2 = cpu.sp := by grind
  have counter : cpu.cycles + 11 + 4 + 10 = cpu.cycles + 25 := by grind
  rw [returning, pointer, Board.wordAt_pushed]
  simp only [enabled, entered, counter]
  rw [← latch]

/-- Interrupts are entered exactly, and handlers resume. An address without a restart is turned
down whatever the state of the machine; at a restart address the listed cases are all that can
happen, each under its condition; and a request by number is the same as one by address. On a
plain board with a handler that enables interrupts and returns, clear of where the program
counter is stored, two steps after an accepted request all is as before, but for the two bytes
below the stack pointer and twenty-five cycles. -/
theorem interrupt_resumable (machine : Machine σ) (address : UInt8) :
    (¬ IsRestart address →
      machine.interrupt address = .error (.fault (.invalidVector address)) machine) ∧
    (IsRestart address →
      ∀ reply, machine.interrupt address = reply ↔ machine.Entry address.toUInt16 reply) ∧
    (∀ number, number ≤ 7 →
      machine.resetTo number = machine.interrupt (UInt8.ofNat (8 * number))) ∧
    ∀ plain entered : Machine Board, plain.table = .canonical →
      plain.interrupt address = .ok true entered →
      plain.host.read address.toUInt16 = 0xFB →
      plain.host.read (address.toUInt16 + 1) = 0xC9 →
      (∀ byte, byte = address.toUInt16 ∨ byte = address.toUInt16 + 1 →
        byte ≠ plain.cpu.sp - 1 ∧ byte ≠ plain.cpu.sp - 2) →
      ∃ enabled, entered.step = .ok 4 enabled ∧ enabled.step = .ok 10
        { plain with
          host := plain.host.pushed plain.cpu.sp plain.cpu.pc
          cpu := { plain.cpu with cycles := plain.cpu.cycles + 25 } } := by
  refine ⟨machine.interrupt_of_not_isRestart, interrupt_eq_iff,
    fun number => machine.resetTo_eq_interrupt, ?_⟩
  intro plain entered canonical accepted enables returns apart
  exact resumes canonical accepted enables returns apart

/-- A machine at the last address, with a stack that will lie across the end of memory and a
handler at the last restart address. -/
def atTheEnd : Machine Board where
  host := Board.blank.load 0x38 [0xFB, 0xC9]
  cpu := { b := 0x12, sp := 0x0001, pc := 0xFFFF, interrupts := true }
  table := .canonical
  status := .running

/-- A cabinet whose stack has come down to its read-only memory. -/
def atTheRom : Machine Cabinet where
  host := .blank
  cpu := { b := 0x12, sp := 0x2001, pc := 0x1234, interrupts := true }
  table := .canonical
  status := .running

/-- The handler resumes across the end of memory. A restart that does not exist is turned down,
and on the cabinet the low byte of the program counter is refused, which halts the machine with
the high byte stored and its processor as it was, but for the latch. -/
theorem interrupt_resumable_at_ends :
    ¬ IsRestart 0x39 ∧ IsRestart 0x38 ∧ atTheEnd.table = .canonical ∧
      atTheEnd.interrupt 0x39 = .error (.fault (.invalidVector 0x39)) atTheEnd ∧
      (∃ entered enabled, atTheEnd.interrupt 0x38 = .ok true entered ∧
        atTheEnd.resetTo 7 = .ok true entered ∧
        atTheEnd.host.read 0x38 = 0xFB ∧ atTheEnd.host.read 0x39 = 0xC9 ∧
        entered.step = .ok 4 enabled ∧ enabled.step = .ok 10
          { atTheEnd with
            host := (atTheEnd.host.write 0x0000 0xFF).write 0xFFFF 0xFF
            cpu := { b := 0x12, sp := 0x0001, pc := 0xFFFF, interrupts := true, cycles := 25 } }) ∧
      atTheRom.interrupt 0x38 = .error (.fault (.readOnly 0x1FFF 0x34))
        { atTheRom with
          host := { Cabinet.blank with memory := Cabinet.blank.memory.write 0x2000 0x12 }
          cpu := { b := 0x12, sp := 0x2001, pc := 0x1234 }
          status := .halted (.fault (.readOnly 0x1FFF 0x34)) } := by
  have restarts : IsRestart 0x38 := by decide
  have nowhere : ¬ IsRestart 0x39 := by decide
  obtain ⟨-, answers, byNumber, resumes⟩ := interrupt_resumable atTheEnd 0x38
  obtain ⟨rejects, -⟩ := interrupt_resumable atTheEnd 0x39
  obtain ⟨-, answersAtRom, -⟩ := interrupt_resumable atTheRom 0x38
  obtain ⟨enables, returns⟩ :
      atTheEnd.host.read 0x38 = 0xFB ∧ atTheEnd.host.read 0x39 = 0xC9 := by
    simp [atTheEnd, Board.read, Board.load, Memory.read_load]
  have accepted := (answers restarts _).mpr (.entered _ _ rfl rfl rfl rfl)
  have apart (byte : UInt16) (handler : byte = 0x38 ∨ byte = 0x39) :
      byte ≠ (0x0001 : UInt16) - 1 ∧ byte ≠ (0x0001 : UInt16) - 2 := by
    rcases handler with rfl | rfl <;> decide
  obtain ⟨enabled, enabling, returning⟩ := resumes atTheEnd _ rfl accepted enables returns apart
  refine ⟨nowhere, restarts, rfl, rejects nowhere, ?_, ?_⟩
  · refine ⟨_, enabled, accepted, ?_, enables, returns, enabling, returning⟩
    rw [byNumber 7 (by decide)]
    exact accepted
  · let stored : Cabinet :=
      { Cabinet.blank with memory := Cabinet.blank.memory.write 0x2000 0x12 }
    have high : Host.write Cabinet.blank 0x2000 0x12 = .ok () stored := rfl
    have low : Host.write stored 0x1FFF 0x34 = .error (.readOnly 0x1FFF 0x34) stored := rfl
    exact (answersAtRom restarts _).mpr (.lowRefused _ stored stored rfl rfl high low)

end Machine

end Intel8080
