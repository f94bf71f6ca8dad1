import Intel8080.Proofs.Fetching
import Intel8080.Proofs.Sessions

/-!
# What becomes of a host

A processor can do nothing to its host but make requests. So what a dialogue leaves of a host
is what serving its requests, one after another, leaves of it, and the same is true of an
instruction. A step adds no more than the look at the completed instruction.

A condition on hosts that survives every request and every such look is therefore kept by
whatever is done with a machine that has the table of the instruction set: by anything it can be
asked, and by a scheduler that lets it run.
-/

namespace Intel8080

variable {σ : Type} [Host σ]

/-- The host after it has answered a request, whether it granted the request or not. -/
def Request.serve (host : σ) : Request → σ
  | write address value => (Host.write host address value).responder
  | input port => (Host.input host port).responder
  | output port value => (Host.output host port value).responder

/-- A dialogue leaves of a host what its requests leave. -/
theorem Exchange.responder_run {α : Type} (exchange : Exchange α) (host : σ) :
    (exchange.run host).responder = (exchange.requests host).foldl Request.serve host := by
  -- A refusal ends both the dialogue and the list of its requests.
  induction exchange generalizing host with
  | done value => rfl
  | stop reason => rfl
  | write address value next inductionHypothesis =>
    rw [run, requests, List.foldl_cons, Request.serve]
    cases Host.write host address value with
    | ok _ after => exact inductionHypothesis after
    | error fault after => rfl
  | input port next inductionHypothesis =>
    rw [run, requests, List.foldl_cons, Request.serve]
    cases Host.input host port with
    | ok value after => exact inductionHypothesis value after
    | error fault after => rfl
  | output port value next inductionHypothesis =>
    rw [run, requests, List.foldl_cons, Request.serve]
    cases Host.output host port value with
    | ok _ after => exact inductionHypothesis after
    | error fault after => rfl

namespace Instruction

/-- The requests of an instruction, in order. If one is refused, it is the last. -/
def requests (instruction : Instruction) (cpu : Cpu) (host : σ) : List Request :=
  (instruction.exchange cpu (Host.read host)).requests host

/-- An instruction leaves of a host what its requests leave. -/
theorem host_execute (instruction : Instruction) (cpu : Cpu) (host : σ) :
    (instruction.execute cpu host).host =
      (instruction.requests cpu host).foldl Request.serve host := by
  rw [requests, ← Exchange.responder_run, execute]
  cases (instruction.exchange cpu (Host.read host)).run host <;> rfl

end Instruction

/-- The requests of the next instruction of a machine. -/
def Machine.requests (machine : Machine σ) : List Request :=
  machine.next.requests (machine.past machine.next) machine.host

/-- A condition on hosts that no request can break, and no look at the processor either. -/
structure Host.Keeps (condition : σ → Prop) : Prop where
  serve : ∀ (host : σ) (request : Request), condition host → condition (request.serve host)
  didExecute : ∀ (host : σ) (cpu : Cpu), condition host →
    condition (Host.didExecute host cpu).responder

/-- The machine has the table of the instruction set, and its host meets a condition. -/
structure Machine.Houses (condition : σ → Prop) (machine : Machine σ) : Prop where
  table : machine.table = .canonical
  host : condition machine.host

namespace Host.Keeps

variable {condition : σ → Prop} {machine after : Machine σ}

/-- Any number of requests keeps the condition. -/
theorem foldl_serve (keeps : Keeps condition) {host : σ} (holds : condition host)
    (requests : List Request) : condition (requests.foldl Request.serve host) := by
  induction requests generalizing host with
  | nil => exact holds
  | cons request rest inductionHypothesis =>
    exact inductionHypothesis (keeps.serve host request holds)

/-- So does a dialogue. -/
theorem dialogue (keeps : Keeps condition) {host : σ} (holds : condition host) {α : Type}
    (exchange : Exchange α) : condition (exchange.run host).responder := by
  rw [Exchange.responder_run]
  exact keeps.foldl_serve holds _

/-- So does an instruction, however it ends. -/
theorem execute (keeps : Keeps condition) {host : σ} (holds : condition host)
    (instruction : Instruction) (cpu : Cpu) : condition (instruction.execute cpu host).host := by
  rw [Instruction.host_execute]
  exact keeps.foldl_serve holds _

/-- So does what becomes of it. -/
theorem settle (keeps : Keeps condition) (machine : Machine σ) (base : UInt8)
    {outcome : Outcome σ} (holds : condition outcome.host) :
    condition (machine.settle base outcome).responder.host := by
  obtain ⟨result, cpu, host⟩ := outcome
  cases result with
  | error stop => exact holds
  | ok extra =>
    have looked := keeps.didExecute host (cpu.charge (saturatingAdd base extra)) holds
    simp only [Machine.settle]
    split
    · rename_i answer left passes
      rwa [passes] at looked
    · rename_i stop left objects
      rwa [objects] at looked

/-- So does a step. -/
theorem step (keeps : Keeps condition) (houses : machine.Houses condition) :
    machine.step.responder.Houses condition := by
  refine ⟨machine.table_step.trans houses.table, ?_⟩
  cases status : machine.status with
  | halted stop =>
    rw [Machine.step_of_halted status]
    exact houses.host
  | running =>
    rw [Machine.step_canonical houses.table status]
    exact keeps.settle machine _ (keeps.execute houses.host _ _)

/-- So does the injection of a restart. -/
theorem inject (keeps : Keeps condition) (houses : machine.Houses condition)
    (restart : Instruction) : (machine.inject restart).responder.Houses condition := by
  obtain ⟨host, cpu, table, status⟩ := machine
  have holds := keeps.execute houses.host restart { cpu with interrupts := false }
  cases status with
  | halted stop => exact houses
  | running =>
    simp only [Machine.inject]
    split
    · exact houses
    · split
      · exact ⟨houses.table, holds⟩
      · exact ⟨houses.table, holds⟩

/-- So does an interrupt. -/
theorem interrupt (keeps : Keeps condition) (houses : machine.Houses condition)
    (address : UInt8) : (machine.interrupt address).responder.Houses condition := by
  rw [Machine.interrupt]
  split
  · exact keeps.inject houses _
  · exact houses

/-- So does a run. -/
theorem run (keeps : Keeps condition) {limit : Nat} {stop : Stop}
    (stops : machine.run limit = some (stop, after)) (houses : machine.Houses condition) :
    after.Houses condition := by
  induction limit generalizing machine with
  | zero => cases stops
  | succ limit inductionHypothesis =>
    have stepped := keeps.step houses
    rw [Machine.run] at stops
    cases step : machine.step with
    | ok cost next =>
      rw [step] at stepped stops
      exact inductionHypothesis stops stepped
    | error reason last =>
      rw [step] at stepped stops
      obtain ⟨-, rfl⟩ := Prod.mk.inj (Option.some.inj stops)
      exact stepped

/-- So does whatever a machine is asked. -/
theorem response (keeps : Keeps condition) {ω : Type} {operation : Operation ω}
    {answer : Answer} (response : machine.Response operation answer after)
    (houses : machine.Houses condition) : after.Houses condition := by
  cases response with
  | step | next => exact keeps.step houses
  | stepTraced tracer seen =>
    rw [Machine.stepTraced_reply]
    exact keeps.step houses
  | run limit stop after stops => exact keeps.run stops houses
  | interrupt address => exact keeps.interrupt houses address
  | resetTo index =>
    rw [Machine.resetTo]
    split
    · exact keeps.inject houses _
    · exact houses

end Host.Keeps

namespace Progress

variable {ω : Type} {observe : ω → Event → Machine σ → ω}

/-- The machine after a turn is the machine after an interrupt or after a step. -/
theorem machine_turn (progress : Progress σ) :
    progress.turn.2.machine =
      if progress.scheduler.pending then
        (progress.machine.interrupt progress.scheduler.vector).responder
      else progress.machine.step.responder := by
  obtain ⟨scheduler, machine, tick⟩ := progress
  rw [turn]
  split
  · simp only [offer]
    cases machine.interrupt scheduler.vector with
    | ok taken after => cases taken <;> rfl
    | error stop after => rfl
  · simp only [execute, Machine.step]
    cases machine.status with
    | halted stop => rfl
    | running => cases machine.perform machine.fetch <;> rfl

/-- A run of a scheduler keeps the condition too. -/
theorem Run.houses {seen after : ω} {progress : Progress σ} {advance : Advance σ}
    (run : Run observe seen progress after advance) {condition : σ → Prop}
    (keeps : Host.Keeps condition) (houses : progress.machine.Houses condition) :
    advance.machine.Houses condition := by
  have turns (progress : Progress σ) (houses : progress.machine.Houses condition) :
      progress.turn.2.machine.Houses condition := by
    rw [machine_turn]
    split
    · exact keeps.interrupt houses _
    · exact keeps.step houses
  induction run with
  | spent => exact houses
  | stopped => exact turns _ houses
  | turned seen progress inCredit going rest inductionHypothesis =>
    exact inductionHypothesis (turns _ houses)

end Progress

end Intel8080
