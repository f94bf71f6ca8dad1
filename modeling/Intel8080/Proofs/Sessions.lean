import Intel8080.Proofs.Cost

/-!
# Sessions with a machine

A machine is stepped, with or without a tracer, drawn on as a sequence of costs, run until it
stops, and asked to take interrupts, in any order. A session records what was asked and what
was answered. Only a run may fail to answer, so a response is a relation: it holds of a run
if some number of steps is enough for it.

Whatever is asked, the status has one of three fates. A running machine that does not fail
keeps running; one that fails is halted by the very stop that it reports; and a halted
machine refuses with its stop and stays exactly as it is. Asking for an interrupt where there
is no restart is turned down without consulting the machine and is no failure of it.
-/

namespace Intel8080

/-- Someone who is shown every instruction before it is executed, and afterwards if it was
completed, and who keeps an account of what was seen. -/
structure Tracer (ω : Type) where
  before : ω → Fetched → Cpu → ω
  after : ω → Fetched → Cpu → UInt8 → ω

/-- Something that is asked of a machine. -/
inductive Operation (ω : Type) where
  /-- To execute an instruction. -/
  | step
  /-- To execute an instruction in front of a tracer. -/
  | stepTraced (tracer : Tracer ω) (seen : ω)
  /-- To execute an instruction as the next element of a sequence of costs. -/
  | next
  /-- To execute instructions until one fails. -/
  | run
  /-- To take an interrupt at an address. -/
  | interrupt (address : UInt8)
  /-- To take an interrupt by the number of its restart address. -/
  | resetTo (index : Nat)

/-- What is answered. -/
inductive Answer where
  /-- An instruction was executed at this cost. -/
  | cost (cycles : UInt8)
  /-- An interrupt was accepted or declined. -/
  | taken (accepted : Bool)
  /-- The machine has stopped, or the request was turned down. -/
  | stopped (stop : Stop)
  /-- The sequence of costs has ended, which does not say why. -/
  | exhausted
  deriving DecidableEq, Repr

namespace Answer

/-- The answer to a step. -/
def ofStep : Except Stop UInt8 → Answer
  | .ok cycles => cost cycles
  | .error stop => stopped stop

/-- The answer to a step as an element of a sequence. -/
def ofNext : Except Stop UInt8 → Answer
  | .ok cycles => cost cycles
  | .error _ => exhausted

/-- The answer to a request for an interrupt. -/
def ofInterrupt : Except Stop Bool → Answer
  | .ok accepted => taken accepted
  | .error stop => stopped stop

/-- Whether the answer reports a failure. -/
def isFailure : Answer → Bool
  | cost _ | taken _ => false
  | stopped _ | exhausted => true

end Answer

namespace Operation

variable {ω : Type}

/-- The fault with which a request is turned down because there is no such restart. -/
def rejection? : Operation ω → Option Fault
  | interrupt address =>
    if (Instruction.restartTo? address).isNone then some (.invalidVector address) else none
  | resetTo index =>
    if index ≤ 7 then none else some (.invalidVector (UInt8.ofNat (min index 255)))
  | _ => none

/-- What a machine answers that was halted by the given stop. -/
def refusal (operation : Operation ω) (stop : Stop) : Answer :=
  match operation with
  | next => .exhausted
  | _ => .stopped ((operation.rejection?.map .fault).getD stop)

/-- A refusal is a failure. -/
theorem isFailure_refusal (operation : Operation ω) (stop : Stop) :
    (operation.refusal stop).isFailure = true := by
  cases operation <;> rfl

end Operation

/-- Something that was asked, with what was answered. -/
structure Transaction (ω : Type) where
  operation : Operation ω
  answer : Answer

/-- A transaction fails if the answer reports a failure, except that turning down an invalid
request is none. -/
def Transaction.Fails {ω : Type} (transaction : Transaction ω) : Prop :=
  transaction.operation.rejection? = none ∧ transaction.answer.isFailure = true

namespace Machine

variable {σ ω : Type}

/-- What becomes of the status in an attempt at an instruction. -/
inductive Attempt {α : Type} (machine : Machine σ) : Reply Stop (Machine σ) α → Prop where
  /-- The instruction was completed, or not begun. -/
  | passed (value : α) (after : Machine σ) (running : machine.status = .running)
      (still : after.status = .running) : Attempt machine (.ok value after)
  /-- It failed and has halted the machine. -/
  | failed (stop : Stop) (after : Machine σ) (running : machine.status = .running)
      (halted : after.status = .halted stop) : Attempt machine (.error stop after)
  /-- The machine was halted before. -/
  | refused (stop : Stop) (halted : machine.status = .halted stop) :
      Attempt machine (.error stop machine)

/-- The fate of a machine in a transaction. -/
inductive Fate (machine : Machine σ) (transaction : Transaction ω) : Machine σ → Prop where
  /-- It keeps running. -/
  | passed (after : Machine σ) (running : machine.status = .running)
      (fine : ¬ transaction.Fails) (still : after.status = .running) :
      Fate machine transaction after
  /-- It is halted by the stop that it reports. -/
  | halted (stop : Stop) (after : Machine σ) (running : machine.status = .running)
      (fails : transaction.Fails)
      (answered : transaction.answer = transaction.operation.refusal stop)
      (halted : after.status = .halted stop) :
      Fate machine transaction after
  /-- It was halted before and is not changed. -/
  | refused (stop : Stop) (halted : machine.status = .halted stop)
      (answered : transaction.answer = transaction.operation.refusal stop) :
      Fate machine transaction machine

/-- An attempt decides the fate, whatever part of its outcome the answer shows. -/
theorem Attempt.fate {α : Type} {machine : Machine σ} {reply : Reply Stop (Machine σ) α}
    {operation : Operation ω} {shown : Except Stop α → Answer} (attempt : machine.Attempt reply)
    (accepted : operation.rejection? = none)
    (fine : ∀ value, (shown (.ok value)).isFailure = false)
    (refuses : ∀ stop, shown (.error stop) = operation.refusal stop) :
    machine.Fate ⟨operation, shown reply.answer⟩ reply.responder := by
  cases attempt with
  | passed value after running still =>
    refine .passed after running ?_ still
    rintro ⟨-, failure⟩
    exact absurd failure (by simp [Reply.answer, fine])
  | failed stop after running halted =>
    have fails : (shown (.error stop)).isFailure = true := by
      rw [refuses]
      exact operation.isFailure_refusal stop
    exact .halted stop after running ⟨accepted, fails⟩ (refuses stop) halted
  | refused stop halted => exact .refused stop halted (refuses stop)

variable [Host σ]

/-- Executes the instruction at the program counter in front of a tracer. -/
def stepTraced (tracer : Tracer ω) (seen : ω) (machine : Machine σ) :
    ω × Reply Stop (Machine σ) UInt8 :=
  match machine.status with
  | .halted stop => (seen, .error stop machine)
  | .running =>
    let fetched := machine.fetch
    let seen := tracer.before seen fetched machine.cpu
    match machine.perform fetched with
    | .ok cost after => (tracer.after seen fetched after.cpu cost, .ok cost after)
    | .error stop after => (seen, .error stop after)

/-- A tracer has no influence on what it is shown. -/
theorem stepTraced_reply (tracer : Tracer ω) (seen : ω) (machine : Machine σ) :
    (machine.stepTraced tracer seen).2 = machine.step := by
  simp only [stepTraced, step]
  cases machine.status with
  | halted stop => rfl
  | running =>
    cases machine.perform machine.fetch <;> rfl

/-- How a machine responds: the answer, and the machine after it. -/
inductive Response (machine : Machine σ) : Operation ω → Answer → Machine σ → Prop where
  | step : Response machine .step (.ofStep machine.step.answer) machine.step.responder
  | stepTraced (tracer : Tracer ω) (seen : ω) :
      Response machine (.stepTraced tracer seen)
        (.ofStep (machine.stepTraced tracer seen).2.answer)
        (machine.stepTraced tracer seen).2.responder
  | next : Response machine .next (.ofNext machine.step.answer) machine.step.responder
  | run (limit : Nat) (stop : Stop) (after : Machine σ)
      (stops : machine.run limit = some (stop, after)) :
      Response machine .run (.stopped stop) after
  | interrupt (address : UInt8) :
      Response machine (.interrupt address) (.ofInterrupt (machine.interrupt address).answer)
        (machine.interrupt address).responder
  | resetTo (index : Nat) :
      Response machine (.resetTo index) (.ofInterrupt (machine.resetTo index).answer)
        (machine.resetTo index).responder

/-- Whatever number of steps is enough, a run ends in the same way. -/
theorem run_unique {first second : Nat} {machine : Machine σ} {one other : Stop × Machine σ}
    (ends : machine.run first = some one) (alsoEnds : machine.run second = some other) :
    one = other := by
  induction first generalizing second machine with
  | zero => cases ends
  | succ first inductionHypothesis =>
    cases second with
    | zero => cases alsoEnds
    | succ second =>
      rw [run] at ends alsoEnds
      cases stepped : machine.step with
      | ok cost after =>
        simp only [stepped] at ends alsoEnds
        exact inductionHypothesis ends alsoEnds
      | error stop after =>
        simp only [stepped] at ends alsoEnds
        exact Option.some.inj (ends.symm.trans alsoEnds)

/-- A machine responds in one way only. -/
theorem Response.unique {machine after other : Machine σ} {operation : Operation ω}
    {answer different : Answer} (response : machine.Response operation answer after)
    (another : machine.Response operation different other) :
    answer = different ∧ after = other := by
  cases response with
  | run limit stop after ends =>
    cases another with
    | run _ _ _ alsoEnds =>
      obtain ⟨rfl, rfl⟩ := Prod.mk.inj (run_unique ends alsoEnds)
      exact ⟨rfl, rfl⟩
  | _ =>
    cases another
    exact ⟨rfl, rfl⟩

/-- The transactions of a session with a machine, and the machine at its end. -/
inductive Session : Machine σ → List (Transaction ω) → Machine σ → Prop where
  | finished (machine : Machine σ) : Session machine [] machine
  | answered {machine after last : Machine σ} {operation : Operation ω} {answer : Answer}
      {others : List (Transaction ω)} (response : machine.Response operation answer after)
      (rest : Session after others last) :
      Session machine (⟨operation, answer⟩ :: others) last

/-- A step is such an attempt, with any table. -/
theorem attempt_step (machine : Machine σ) : Attempt machine machine.step := by
  cases status : machine.status with
  | halted stop =>
    rw [step_of_halted status]
    exact .refused stop status
  | running =>
    rw [step_of_running status]
    obtain ⟨host, cpu, table, _⟩ := machine
    obtain rfl : _ = Status.running := status
    simp only [perform]
    split
    · exact .failed _ _ rfl rfl
    · split
      · exact .passed _ _ rfl rfl
      · exact .failed _ _ rfl rfl

/-- So is the injection of a restart. -/
theorem attempt_inject (machine : Machine σ) (restart : Instruction) :
    Attempt machine (machine.inject restart) := by
  obtain ⟨host, cpu, table, status⟩ := machine
  cases status with
  | halted stop => exact .refused stop rfl
  | running =>
    simp only [inject]
    split
    · exact .passed _ _ rfl rfl
    · split
      · exact .passed _ _ rfl rfl
      · exact .failed _ _ rfl rfl

/-- A run that ends has halted the machine by the stop that it reports. A machine that was
halted before is not changed by it. -/
theorem run_halts {limit : Nat} {machine after : Machine σ} {stop : Stop}
    (stops : machine.run limit = some (stop, after)) :
    after.status = .halted stop ∧
      ∀ reason, machine.status = .halted reason → reason = stop ∧ after = machine := by
  -- Only the last step halts the machine: the steps before it were completed.
  induction limit generalizing machine with
  | zero => cases stops
  | succ limit inductionHypothesis =>
    rw [run] at stops
    have attempt := attempt_step machine
    generalize machine.step = reply at stops attempt
    cases attempt with
    | passed cost next running still =>
      refine ⟨(inductionHypothesis stops).1, ?_⟩
      intro reason halted
      rw [running] at halted
      cases halted
    | failed reason next running halted =>
      obtain ⟨rfl, rfl⟩ := Prod.mk.inj (Option.some.inj stops)
      refine ⟨halted, ?_⟩
      intro other before
      rw [running] at before
      cases before
    | refused reason halted =>
      obtain ⟨rfl, rfl⟩ := Prod.mk.inj (Option.some.inj stops)
      refine ⟨halted, ?_⟩
      intro other before
      exact ⟨Status.halted.inj (before.symm.trans halted), rfl⟩

/-- How a request for an interrupt is dealt with. -/
inductive Inquiry (machine : Machine σ) (operation : Operation ω) :
    Reply Stop (Machine σ) Bool → Prop where
  /-- The restart there is injected. -/
  | injected (number : UInt8) (accepted : operation.rejection? = none) :
      Inquiry machine operation (machine.inject (.rst number))
  /-- There is none, and the machine is not consulted. -/
  | rejected (fault : Fault) (rejects : operation.rejection? = some fault) :
      Inquiry machine operation (.error (.fault fault) machine)

theorem inquiry_interrupt (machine : Machine σ) (address : UInt8) :
    machine.Inquiry (.interrupt address : Operation ω) (machine.interrupt address) := by
  rw [interrupt]
  cases restarts : Instruction.restartTo? address with
  | some restart =>
    obtain ⟨number, rfl, -⟩ := Instruction.eq_rst_of_restartTo? restarts
    exact .injected number (by simp [Operation.rejection?, restarts])
  | none => exact .rejected _ (by simp [Operation.rejection?, restarts])

theorem inquiry_resetTo (machine : Machine σ) (index : Nat) :
    machine.Inquiry (.resetTo index : Operation ω) (machine.resetTo index) := by
  rw [resetTo]
  split
  · rename_i inside
    exact .injected _ (if_pos inside)
  · rename_i outside
    exact .rejected _ (if_neg outside)

/-- An inquiry decides the fate too. One that is turned down is no failure of a running
machine, and a halted one turns it down as well. -/
theorem Inquiry.fate {machine : Machine σ} {reply : Reply Stop (Machine σ) Bool}
    {operation : Operation ω} (inquiry : machine.Inquiry operation reply)
    (refuses : ∀ stop,
      operation.refusal stop = .stopped ((operation.rejection?.map .fault).getD stop)) :
    machine.Fate ⟨operation, .ofInterrupt reply.answer⟩ reply.responder := by
  cases inquiry with
  | injected number accepted =>
    refine (attempt_inject machine (.rst number)).fate accepted (fun _ => rfl) ?_
    intro stop
    rw [refuses, accepted]
    rfl
  | rejected fault rejected =>
    cases status : machine.status with
    | running =>
      refine .passed machine status ?_ status
      rintro ⟨accepted, -⟩
      simp [rejected] at accepted
    | halted stop =>
      refine .refused stop status ?_
      rw [refuses, rejected]
      rfl

/-- Every response is one of the three fates. -/
theorem Response.fate {machine after : Machine σ} {operation : Operation ω} {answer : Answer}
    (response : machine.Response operation answer after) :
    machine.Fate ⟨operation, answer⟩ after := by
  cases response with
  | step => exact (attempt_step machine).fate rfl (fun _ => rfl) fun _ => rfl
  | next => exact (attempt_step machine).fate rfl (fun _ => rfl) fun _ => rfl
  | stepTraced tracer seen =>
    rw [stepTraced_reply]
    exact (attempt_step machine).fate rfl (fun _ => rfl) fun _ => rfl
  | interrupt address => exact (inquiry_interrupt machine address).fate fun _ => rfl
  | resetTo index => exact (inquiry_resetTo machine index).fate fun _ => rfl
  | run limit stop after stops =>
    obtain ⟨halted, unchanged⟩ := run_halts stops
    cases status : machine.status with
    | running => exact .halted stop after status ⟨rfl, rfl⟩ rfl halted
    | halted reason =>
      obtain ⟨rfl, rfl⟩ := unchanged reason status
      exact .refused reason status rfl

end Machine

end Intel8080
