import Mathlib.Data.UInt
import Intel8080.Console
import Intel8080.Proofs.Atomicity
import Intel8080.Proofs.Halting

/-!
# Where the cycles go

The cycle counter of a processor can be kept by whoever holds a session with the machine:
it advances by the costs that steps report and by eleven for each interrupt that was taken.
There is one debt that no answer shows. A host that objects to a completed instruction turns
its cost into a stop, and the counter has advanced by it all the same; but that halts the
machine, so it happens once at most.

A conditional jump, call or return is the unconditional one or no operation at all. What the
decision costs is a matter of the surcharge alone.
-/

namespace Intel8080

/-- How far an answer says that the counter has advanced. -/
def Answer.charge : Answer → UInt64
  | cost cycles => cycles.toUInt64
  | taken true => 11
  | taken false | stopped _ | exhausted => 0

/-- Whether an operation executes the instruction at the program counter, and no more. -/
def Operation.isStep {ω : Type} : Operation ω → Bool
  | step | stepTraced _ _ | next => true
  | run | interrupt _ | resetTo _ => false

/-- A refusal charges nothing. -/
theorem Operation.charge_refusal {ω : Type} (operation : Operation ω) (stop : Stop) :
    (operation.refusal stop).charge = 0 := by
  cases operation <;> rfl

namespace Outcome

variable {σ : Type}

/-- The same outcome with another number of cycles spent beyond the base cost. -/
def spending (outcome : Outcome σ) (extra : UInt8) : Outcome σ :=
  { outcome with result := outcome.result.map fun _ => extra }

end Outcome

namespace Instruction

/-- Whether an instruction is a conditional call or return whose condition holds. -/
def isTaken (instruction : Instruction) (flags : Flags) : Bool :=
  match instruction with
  | callIf condition _ | returnIf condition => condition.holds flags
  | _ => false

/-- Being taken is what the surcharge is for. -/
theorem toNat_surcharge (instruction : Instruction) (flags : Flags) :
    (instruction.surcharge flags).toNat = if instruction.isTaken flags then 6 else 0 := by
  cases instruction with
  | callIf condition | returnIf condition =>
    by_cases holds : condition.holds flags <;> simp [surcharge, isTaken, takenCost, holds]
  | _ => rfl

variable {σ : Type} [Host σ]

/-- A conditional jump is a jump or no operation. -/
theorem execute_jumpIf (condition : Condition) (target : UInt16) (cpu : Cpu) (host : σ) :
    (jumpIf condition target).execute cpu host =
      if condition.holds cpu.flags then (jmp target).execute cpu host
      else nop.execute cpu host := by
  by_cases holds : condition.holds cpu.flags
  · simp only [execute, exchange, if_pos holds]
  · simp only [execute, exchange, if_neg holds]

/-- A conditional call is a call at a surcharge, or no operation. -/
theorem execute_callIf (condition : Condition) (target : UInt16) (cpu : Cpu) (host : σ) :
    (callIf condition target).execute cpu host =
      if condition.holds cpu.flags then ((call target).execute cpu host).spending takenCost
      else nop.execute cpu host := by
  by_cases holds : condition.holds cpu.flags
  · simp only [execute, exchange, if_pos holds, complete, completeTaken, Exchange.run_map]
    cases (cpu.enter target).run host <;> rfl
  · simp only [execute, exchange, if_neg holds]

/-- A conditional return is a return at a surcharge, or no operation. -/
theorem execute_returnIf (condition : Condition) (cpu : Cpu) (host : σ) :
    (returnIf condition).execute cpu host =
      if condition.holds cpu.flags then (ret.execute cpu host).spending takenCost
      else nop.execute cpu host := by
  by_cases holds : condition.holds cpu.flags
  · simp only [execute, exchange, if_pos holds]
    rfl
  · simp only [execute, exchange, if_neg holds]

end Instruction

namespace Machine

variable {σ ω : Type} [Host σ] {machine after last : Machine σ} {operation : Operation ω}
  {answer : Answer} {transactions : List (Transaction ω)}

/-- The operation executes an instruction of the given cost, to which the host objects. -/
def Late (machine : Machine σ) (operation : Operation ω) (cost : UInt8) : Prop :=
  operation.isStep = true ∧ machine.status = .running ∧
    ∃ cpu stop left, machine.Overruled cost cpu stop left

/-- In the course of the session the host stops the machine after an instruction of the given
cost. -/
inductive StoppedLate : Machine σ → List (Transaction ω) → UInt8 → Prop where
  | now {machine : Machine σ} {cost : UInt8} (transaction : Transaction ω)
      (others : List (Transaction ω)) (late : machine.Late transaction.operation cost) :
      StoppedLate machine (transaction :: others) cost
  | later {machine after : Machine σ} {operation : Operation ω} {answer : Answer}
      {others : List (Transaction ω)} {cost : UInt8}
      (response : machine.Response operation answer after)
      (rest : StoppedLate after others cost) :
      StoppedLate machine (⟨operation, answer⟩ :: others) cost

/-- What a transaction does to the counter. -/
inductive Charge (machine : Machine σ) (operation : Operation ω) (answer : Answer)
    (after : Machine σ) : Prop where
  /-- It is charged what the answer says. -/
  | shown (balanced : after.cpu.cycles = machine.cpu.cycles + answer.charge)
      (timely : ∀ cost, ¬ machine.Late operation cost)
  /-- It is charged what the host objected to, which the answer does not say. -/
  | hidden (cost : UInt8) (stop : Stop) (halted : after.status = .halted stop)
      (silent : answer.charge = 0)
      (balanced : after.cpu.cycles = machine.cpu.cycles + cost.toUInt64)
      (late : ∀ other, machine.Late operation other ↔ other = cost)

/-- A machine is late with one instruction at a time. -/
theorem Late.unique {cost other : UInt8} (late : machine.Late operation cost)
    (again : machine.Late operation other) : cost = other := by
  obtain ⟨-, -, cpu, stop, left, extra, host, executed, rfl, -⟩ := late
  obtain ⟨-, -, cpu', stop', left', extra', host', executed', rfl, -⟩ := again
  rw [executed] at executed'
  obtain rfl := Except.ok.inj (Outcome.mk.inj executed').1
  rfl

/-- A halted machine is not late with anything. -/
theorem not_late_of_halted {stop : Stop} (halted : machine.status = .halted stop)
    (cost : UInt8) : ¬ machine.Late operation cost := by
  rintro ⟨-, running, -⟩
  rw [halted] at running
  cases running

/-- Nor is one whose host did not object. -/
theorem not_late_of_completed {cost : UInt8} (canonical : machine.table = .canonical)
    (completed : machine.step = .ok cost after) (other : UInt8) :
    ¬ machine.Late operation other := by
  rintro ⟨-, running, cpu, stop, left, overruled⟩
  have failed := (step_error_iff_breakdown canonical running stop _).mpr
    (.overruled other cpu left overruled)
  rw [completed] at failed
  cases failed

/-- What breaks down is charged if it was completed, and no answer says so. -/
theorem Breakdown.charge {stop : Stop} (breakdown : machine.Breakdown stop after)
    (running : machine.status = .running) (steps : operation.isStep = true)
    (silent : answer.charge = 0) : machine.Charge operation answer after := by
  cases breakdown with
  | failed cpu left executed =>
    -- There is nothing to object to, since the instruction was not completed.
    refine .shown ?_ ?_
    · exact silent.symm ▸ (UInt64.add_zero _).symm
    · rintro cost ⟨-, -, cpu', stop', left', extra, host, completed, -⟩
      rw [executed] at completed
      cases (Outcome.mk.inj completed).1
  | overruled cost cpu left overruled =>
    have late : machine.Late operation cost := ⟨steps, running, cpu, stop, left, overruled⟩
    obtain ⟨extra, host, executed, charged, -⟩ := overruled
    obtain ⟨counter, -⟩ := Instruction.execute_ok executed
    refine .hidden cost stop rfl silent ?_ ?_
    · exact congrArg (· + cost.toUInt64) counter
    · intro other
      constructor
      · exact fun again => again.unique late
      · rintro rfl
        exact late

/-- A step is charged to the counter in one of the two ways, whatever part of its outcome the
answer shows. -/
theorem charge_step {shown : Except Stop UInt8 → Answer} (canonical : machine.table = .canonical)
    (steps : operation.isStep = true)
    (shows : ∀ cost, (shown (.ok cost)).charge = cost.toUInt64)
    (silent : ∀ stop, (shown (.error stop)).charge = 0) :
    machine.Charge operation (shown machine.step.answer) machine.step.responder := by
  cases status : machine.status with
  | halted stop =>
    rw [step_of_halted status]
    refine .shown ?_ (not_late_of_halted status)
    exact (silent stop).symm ▸ (UInt64.add_zero _).symm
  | running =>
    cases stepped : machine.step with
    | ok cost after =>
      obtain ⟨-, counter⟩ := step_total canonical stepped
      refine .shown ?_ (not_late_of_completed canonical stepped)
      exact (shows cost).symm ▸ counter
    | error stop after =>
      have breakdown := (step_error_iff_breakdown canonical status stop after).mp stepped
      exact breakdown.charge status steps (silent stop)

/-- A failed injection of a restart has left the counter and the table alone. -/
theorem inject_error {number : UInt8} {stop : Stop}
    (failed : machine.inject (.rst number) = .error stop after) :
    after.cpu.cycles = machine.cpu.cycles ∧ after.table = machine.table := by
  obtain ⟨host, cpu, table, status⟩ := machine
  cases status with
  | halted reason =>
    obtain ⟨rfl, rfl⟩ := EStateM.Result.error.inj failed
    exact ⟨rfl, rfl⟩
  | running =>
    cases latch : cpu.interrupts with
    | false => simp [inject, latch] at failed
    | true =>
      cases outcome : (Instruction.rst number).execute { cpu with interrupts := false } host with
      | mk result cpuAfter left =>
        simp only [inject, latch, outcome, Bool.not_true, Bool.false_eq_true, if_false] at failed
        cases result with
        | ok extra => cases failed
        | error reason =>
          obtain ⟨rfl, -⟩ := Instruction.execute_failure outcome
          obtain ⟨rfl, rfl⟩ := EStateM.Result.error.inj failed
          exact ⟨rfl, rfl⟩

/-- A request for an interrupt is charged what its answer says. -/
theorem Inquiry.charge {reply : Reply Stop (Machine σ) Bool}
    (inquiry : machine.Inquiry operation reply) (request : operation.isStep = false) :
    machine.Charge operation (.ofInterrupt reply.answer) reply.responder ∧
      reply.responder.table = machine.table := by
  have timely : ∀ cost, ¬ machine.Late operation cost := by
    rintro cost ⟨steps, -⟩
    rw [request] at steps
    cases steps
  cases inquiry with
  | rejected fault rejects => exact ⟨.shown (UInt64.add_zero _).symm timely, rfl⟩
  | injected number accepted =>
    cases injected : machine.inject (.rst number) with
    | error stop after =>
      obtain ⟨counter, table⟩ := inject_error injected
      refine ⟨.shown ?_ timely, table⟩
      exact counter.trans (UInt64.add_zero _).symm
    | ok taken after =>
      obtain ⟨-, table, counter⟩ := inject_ok injected
      refine ⟨.shown ?_ timely, table⟩
      cases taken with
      | true => exact counter
      | false =>
        obtain rfl : after = machine := counter
        exact (UInt64.add_zero _).symm

/-- Every transaction but a run is charged in one of the two ways and keeps the table. -/
theorem Response.charge (canonical : machine.table = .canonical)
    (response : machine.Response operation answer after) (metered : operation ≠ .run) :
    machine.Charge operation answer after ∧ after.table = machine.table := by
  cases response with
  | step => exact ⟨charge_step canonical rfl (fun _ => rfl) fun _ => rfl, machine.table_step⟩
  | next => exact ⟨charge_step canonical rfl (fun _ => rfl) fun _ => rfl, machine.table_step⟩
  | stepTraced tracer seen =>
    rw [stepTraced_reply]
    exact ⟨charge_step canonical rfl (fun _ => rfl) fun _ => rfl, machine.table_step⟩
  | run => exact absurd rfl metered
  | interrupt address => exact (inquiry_interrupt machine address).charge rfl
  | resetTo index => exact (inquiry_resetTo machine index).charge rfl

/-- A machine that is halted is late no more. -/
theorem not_stoppedLate_of_halted {stop : Stop} (halted : machine.status = .halted stop)
    {cost : UInt8} : ¬ StoppedLate machine transactions cost := by
  intro late
  induction late with
  | now transaction others late => exact not_late_of_halted halted _ late
  | later response rest inductionHypothesis =>
    obtain ⟨-, rfl⟩ := (response_iff_of_halted halted _ _ _).mp response
    exact inductionHypothesis halted

theorem stoppedLate_cons_iff {others : List (Transaction ω)}
    (response : machine.Response operation answer after) {cost : UInt8} :
    StoppedLate machine (⟨operation, answer⟩ :: others) cost ↔
      machine.Late operation cost ∨ StoppedLate after others cost := by
  constructor
  · intro late
    cases late with
    | now _ _ now => exact .inl now
    | later another rest =>
      obtain ⟨-, rfl⟩ := response.unique another
      exact .inr rest
  · rintro (now | rest)
    · exact .now _ _ now
    · exact .later response rest

/-- The charges of refusals are none. -/
theorem sum_charge_refusals {stop : Stop}
    (refused : ∀ transaction ∈ transactions,
      transaction.answer = transaction.operation.refusal stop) :
    (transactions.map fun transaction => transaction.answer.charge).sum = 0 := by
  induction transactions with
  | nil => rfl
  | cons transaction others inductionHypothesis =>
    obtain ⟨first, rest⟩ := List.forall_mem_cons.mp refused
    rw [List.map_cons, List.sum_cons, inductionHypothesis rest, first,
      Operation.charge_refusal]
    rfl

/-- The counter advances by what the answers say, and at most once by the cost of an
instruction to which the host objected. -/
theorem Session.balance (session : Session machine transactions last)
    (canonical : machine.table = .canonical)
    (metered : ∀ transaction ∈ transactions, transaction.operation ≠ .run) :
    ∃ late : Option UInt8,
      (∀ cost, StoppedLate machine transactions cost ↔ late = some cost) ∧
        last.cpu.cycles = machine.cpu.cycles +
          (transactions.map fun transaction => transaction.answer.charge).sum +
          late.elim 0 UInt8.toUInt64 := by
  -- An instruction that the host objected to ends the accounts: the rest is refusals.
  induction session with
  | finished machine =>
    refine ⟨none, ?_, ?_⟩
    · intro cost
      constructor <;> rintro ⟨⟩
    · simp
  | answered response rest inductionHypothesis =>
    obtain ⟨first, others⟩ := List.forall_mem_cons.mp metered
    obtain ⟨charge, table⟩ := response.charge canonical first
    cases charge with
    | shown balanced timely =>
      obtain ⟨late, stopped, total⟩ := inductionHypothesis (table.trans canonical) others
      refine ⟨late, ?_, ?_⟩
      · intro cost
        rw [stoppedLate_cons_iff response, ← stopped cost]
        exact or_iff_right (timely cost)
      · rw [total, balanced, List.map_cons, List.sum_cons, UInt64.add_assoc _ _ (List.sum _)]
    | hidden cost stop halted silent balanced late =>
      obtain ⟨rfl, refused⟩ := rest.of_halted halted
      refine ⟨some cost, ?_, ?_⟩
      · intro other
        rw [stoppedLate_cons_iff response, or_iff_left (not_stoppedLate_of_halted halted), late,
          Option.some.injEq, eq_comm]
      · rw [balanced, List.map_cons, List.sum_cons, silent, sum_charge_refusals refused]
        simp

/-- The cycles are accounted for. Over any session without a run, the counter advances, as
a number of sixty-four bits, by the costs that the steps reported, by eleven for every
interrupt that was taken, and by the cost of the last instruction exactly if the host
stopped the machine after it. A step costs the base cost of its instruction and six more
exactly if that is a conditional call or return whose condition holds; always between four
and eighteen. But for the cost, a conditional instruction is the unconditional one if its
condition holds, and no operation if not. -/
theorem cycles_accounted :
    (∀ (machine last : Machine σ) (transactions : List (Transaction ω)),
      machine.table = .canonical → Session machine transactions last →
        (∀ transaction ∈ transactions, transaction.operation ≠ .run) →
          ∃ late : Option UInt8,
            (∀ cost, StoppedLate machine transactions cost ↔ late = some cost) ∧
              last.cpu.cycles = machine.cpu.cycles +
                (transactions.map fun transaction => transaction.answer.charge).sum +
                late.elim 0 UInt8.toUInt64) ∧
      (∀ (machine after : Machine σ) (cost : UInt8),
        machine.table = .canonical → machine.step = .ok cost after →
          cost.toNat = machine.next.cycles.toNat +
              (if machine.next.isTaken machine.cpu.flags then 6 else 0) ∧
            4 ≤ cost.toNat ∧ cost.toNat ≤ 18) ∧
      ∀ (condition : Condition) (target : UInt16) (cpu : Cpu) (host : σ),
        (Instruction.jumpIf condition target).execute cpu host =
            (if condition.holds cpu.flags then (Instruction.jmp target).execute cpu host
              else Instruction.nop.execute cpu host) ∧
          (Instruction.callIf condition target).execute cpu host =
            (if condition.holds cpu.flags then
                ((Instruction.call target).execute cpu host).spending Instruction.takenCost
              else Instruction.nop.execute cpu host) ∧
          (Instruction.returnIf condition).execute cpu host =
            (if condition.holds cpu.flags then
                (Instruction.ret.execute cpu host).spending Instruction.takenCost
              else Instruction.nop.execute cpu host) := by
  refine ⟨?_, ?_, ?_⟩
  · intro machine last transactions canonical session metered
    exact session.balance canonical metered
  · intro machine after cost canonical completed
    obtain ⟨total, -⟩ := step_total canonical completed
    obtain ⟨least, most, -⟩ := step_cost canonical completed
    rw [fetch_instruction canonical, Instruction.toNat_surcharge] at total
    exact ⟨total, least, most⟩
  · intro condition target cpu host
    exact ⟨Instruction.execute_jumpIf condition target cpu host,
      Instruction.execute_callIf condition target cpu host,
      Instruction.execute_returnIf condition cpu host⟩

/-- A console whose program enables interrupts and leaves by a jump to address 0. -/
def leaving : Machine Console :=
  .startAt .canonical { memory := Memory.blank.load 0x0100 [0xFB, 0xC3], options := {} } 0x0100

/-- The machine in front of the jump. -/
def aboutToLeave : Machine Console :=
  { leaving with cpu := { pc := 0x0101, interrupts := true, cycles := 4 } }

theorem step_leaving : leaving.step = .ok 4 aboutToLeave := by
  have opcode : Host.read leaving.host 0x0100 = 0xFB := by
    simp [leaving, startAt, Host.read, Memory.read_load]
  have next : leaving.next = .interrupts true := by
    change Instruction.decode (Host.read leaving.host 0x0100) (Host.read leaving.host 0x0101)
      (Host.read leaving.host 0x0102) = _
    rw [opcode]
    rfl
  have stepped := @step_canonical _ _ leaving rfl rfl
  rw [next] at stepped
  exact stepped

theorem next_aboutToLeave : aboutToLeave.next = .jmp 0 := by
  have opcode : Host.read leaving.host 0x0101 = 0xC3 := by
    simp [leaving, startAt, Host.read, Memory.read_load]
  have low : Host.read leaving.host 0x0102 = 0x00 := by
    simp [leaving, startAt, Host.read, Memory.read_load]
  have high : Host.read leaving.host 0x0103 = 0x00 := by
    simp [leaving, startAt, Host.read, Memory.read_load]
  change Instruction.decode (Host.read leaving.host 0x0101) (Host.read leaving.host 0x0102)
    (Host.read leaving.host 0x0103) = _
  rw [opcode, low, high]
  rfl

/-- The jump is not answered by a cost, but the counter shows it. -/
theorem cycles_accounted_leaving :
    let transactions : List (Transaction Unit) :=
      [⟨.next, .cost 4⟩, ⟨.step, .stopped (.halt .warmBoot)⟩]
    leaving.table = .canonical ∧
      (∀ transaction ∈ transactions, transaction.operation ≠ .run) ∧
      leaving.step = .ok 4 aboutToLeave ∧
      (4 : UInt8).toNat = leaving.next.cycles.toNat +
        (if leaving.next.isTaken leaving.cpu.flags then 6 else 0) ∧
      ∃ last : Machine Console, Session leaving transactions last ∧
        StoppedLate leaving transactions 10 ∧ last.cpu.cycles = 14 := by
  intro transactions
  obtain ⟨balance, costs, -⟩ := @cycles_accounted Console Unit _
  have overruled : aboutToLeave.Overruled 10
      { aboutToLeave.cpu with pc := 0 } (.halt .warmBoot) aboutToLeave.host := by
    refine ⟨0, aboutToLeave.host, ?_, ?_, rfl⟩
    · rw [next_aboutToLeave]
      rfl
    · rw [next_aboutToLeave]
      rfl
  have first : leaving.Response (.next : Operation Unit) (.cost 4) aboutToLeave := by
    have response : leaving.Response (.next : Operation Unit) _ _ := .next
    rw [step_leaving] at response
    exact response
  have second : ∃ last, aboutToLeave.Response (.step : Operation Unit)
      (.stopped (.halt .warmBoot)) last := by
    have response : aboutToLeave.Response (.step : Operation Unit) _ _ := .step
    rw [(@step_error_iff_breakdown _ _ aboutToLeave rfl rfl _ _).mpr
      (.overruled _ _ _ overruled)] at response
    exact ⟨_, response⟩
  obtain ⟨last, second⟩ := second
  have session : Session leaving transactions last :=
    .answered first (.answered second (.finished last))
  have metered : ∀ transaction ∈ transactions, transaction.operation ≠ .run := by
    simp [transactions]
  have late : aboutToLeave.Late (.step : Operation Unit) 10 := ⟨rfl, rfl, _, _, _, overruled⟩
  have stopped : StoppedLate leaving transactions 10 := .later first (.now _ _ late)
  obtain ⟨debt, indebted, total⟩ := balance leaving last transactions rfl session metered
  rw [(indebted 10).mp stopped] at total
  obtain ⟨cost, -, -⟩ := costs leaving aboutToLeave 4 rfl step_leaving
  exact ⟨rfl, metered, step_leaving, cost, last, session, stopped, total⟩

end Machine

end Intel8080
