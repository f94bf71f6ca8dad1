import Intel8080.Proofs.Fetching

/-!
# Hosts that are told apart by nothing

A morphism of hosts takes a host to one that answers the same and that is, after each
answer, what the morphism takes the first host to. Whatever is done by way of requests is
then the same on both: a dialogue, an instruction, and what becomes of its outcome. What may
still differ is the table, so a step is not mentioned here.
-/

namespace Intel8080

variable {σ τ ε α : Type}

/-- The same answer from another responder. -/
def Reply.onResponder (f : σ → τ) : Reply ε σ α → Reply ε τ α
  | .ok value after => .ok value (f after)
  | .error reason after => .error reason (f after)

@[simp] theorem Reply.answer_onResponder (f : σ → τ) (reply : Reply ε σ α) :
    (reply.onResponder f).answer = reply.answer := by
  cases reply <;> rfl

@[simp] theorem Reply.responder_onResponder (f : σ → τ) (reply : Reply ε σ α) :
    (reply.onResponder f).responder = f reply.responder := by
  cases reply <;> rfl

/-- The same outcome with another host. -/
def Outcome.onHost (f : σ → τ) (outcome : Outcome σ) : Outcome τ :=
  ⟨outcome.result, outcome.cpu, f outcome.host⟩

/-- The same machine with another host, and with the table of that host. -/
def Machine.onHost (f : σ → τ) (table : Table τ) (machine : Machine σ) : Machine τ :=
  ⟨f machine.host, machine.cpu, table, machine.status⟩

variable [Host σ] [Host τ]

/-- A function between hosts that no request can tell from the identity. -/
structure Host.Morphism (f : σ → τ) : Prop where
  read : ∀ host, Host.read (f host) = Host.read host
  write : ∀ host address value,
    Host.write (f host) address value = (Host.write host address value).onResponder f
  input : ∀ host port, Host.input (f host) port = (Host.input host port).onResponder f
  output : ∀ host port value,
    Host.output (f host) port value = (Host.output host port value).onResponder f
  didExecute : ∀ host cpu,
    Host.didExecute (f host) cpu = (Host.didExecute host cpu).onResponder f

namespace Host.Morphism

variable {f : σ → τ}

/-- A dialogue is the same with both hosts. -/
theorem run (morphism : Morphism f) (exchange : Exchange α) (host : σ) :
    exchange.run (f host) = (exchange.run host).onResponder f := by
  induction exchange generalizing host with
  | done value => rfl
  | stop reason => rfl
  | write address value next inductionHypothesis =>
    simp only [Exchange.run, morphism.write]
    cases Host.write host address value with
    | ok _ after => exact inductionHypothesis after
    | error fault after => rfl
  | input port next inductionHypothesis =>
    simp only [Exchange.run, morphism.input]
    cases Host.input host port with
    | ok value after => exact inductionHypothesis value after
    | error fault after => rfl
  | output port value next inductionHypothesis =>
    simp only [Exchange.run, morphism.output]
    cases Host.output host port value with
    | ok _ after => exact inductionHypothesis after
    | error fault after => rfl

/-- So is an instruction. -/
theorem execute (morphism : Morphism f) (instruction : Instruction) (cpu : Cpu) (host : σ) :
    instruction.execute cpu (f host) = (instruction.execute cpu host).onHost f := by
  simp only [Instruction.execute, morphism.read, morphism.run]
  cases (instruction.exchange cpu (Host.read host)).run host <;> rfl

/-- And so is what becomes of it. -/
theorem settle (morphism : Morphism f) (table : Table τ) (machine : Machine σ) (base : UInt8)
    (outcome : Outcome σ) :
    (machine.onHost f table).settle base (outcome.onHost f) =
      (machine.settle base outcome).onResponder (Machine.onHost f table) := by
  obtain ⟨result, cpu, host⟩ := outcome
  cases result with
  | error stop => rfl
  | ok extra =>
    simp only [Machine.settle, Outcome.onHost, morphism.didExecute]
    cases Host.didExecute host (cpu.charge (saturatingAdd base extra)) <;> rfl

/-- Both hosts hold the same instruction at the program counter. -/
theorem next (morphism : Morphism f) (table : Table τ) (machine : Machine σ) :
    (machine.onHost f table).next = machine.next := by
  simp only [Machine.next, Machine.onHost, morphism.read]

end Host.Morphism

end Intel8080
