import Intel8080.Proofs.Fetching

/-!
# Watching what a machine asks of its host

A watched host answers as the host itself does and keeps a log of the calls it receives,
each with the objection to it if there was one. Watching changes nothing else, so the log
of a step shows what the step asks of the host.

A step takes one of four courses. The instruction calls for a stop by itself and asks
nothing; a request is refused and ends the step; the instruction completes and the host
lets it pass; or the host objects to what it finds. `Course` lists them with the calls and
the answer that belong to each.
-/

namespace Intel8080

/-- A call that a machine makes of its host, and the objection to it if there was one. -/
inductive Call where
  /-- A request, which may be refused with a fault. -/
  | request (request : Request) (refusal : Option Fault)
  /-- The look at the processor after a completed instruction. -/
  | review (cpu : Cpu) (objection : Option Stop)
  deriving DecidableEq, Repr

namespace Call

/-- A request that was not refused. -/
def granted (asked : Request) : Call :=
  request asked none

/-- The stop by which a host objected to a call. -/
def objection? : Call → Option Stop
  | request _ refusal => refusal.map .fault
  | review _ objection => objection

end Call

/-- A host with a log of the calls it received. -/
structure Watched (σ : Type) where
  host : σ
  calls : List Call

namespace Watched

variable {σ ε α : Type}

/-- Logs a call with the answer that the host itself gives. -/
def log (watched : Watched σ) (call : Option ε → Call) :
    Reply ε σ α → Reply ε (Watched σ) α
  | .ok value host => .ok value ⟨host, watched.calls ++ [call none]⟩
  | .error reason host => .error reason ⟨host, watched.calls ++ [call (some reason)]⟩

instance [Host σ] : Host (Watched σ) where
  read watched := Host.read watched.host
  write watched address value :=
    watched.log (.request (.write address value)) (Host.write watched.host address value)
  input watched port := watched.log (.request (.input port)) (Host.input watched.host port)
  output watched port value :=
    watched.log (.request (.output port value)) (Host.output watched.host port value)
  didExecute watched cpu := watched.log (.review cpu) (Host.didExecute watched.host cpu)

theorem didExecute_watched [Host σ] (watched : Watched σ) (cpu : Cpu) :
    Host.didExecute watched cpu = watched.log (.review cpu) (Host.didExecute watched.host cpu) :=
  rfl

/-- How a dialogue of the given requests ends with a watched host, compared with the host
itself: alike, with all its requests in the log. Only the last may have been refused, and
that has ended the dialogue. -/
inductive Agrees (calls : List Call) :
    List Request → Reply Stop σ α → Reply Stop (Watched σ) α → Prop where
  | granted (requests : List Request) (value : α) (host : σ) :
      Agrees calls requests (.ok value host) (.ok value ⟨host, calls ++ requests.map .granted⟩)
  | refused (requests : List Request) (last : Request) (fault : Fault) (host : σ) :
      Agrees calls (requests ++ [last]) (.error (.fault fault) host)
        (.error (.fault fault)
          ⟨host, calls ++ (requests.map .granted ++ [.request last (some fault)])⟩)

/-- A granted request may be counted to the dialogue that it opens. -/
theorem Agrees.granting {calls : List Call} {asked : Request} {requests : List Request}
    {reply : Reply Stop σ α} {logged : Reply Stop (Watched σ) α}
    (agrees : Agrees (calls ++ [.granted asked]) requests reply logged) :
    Agrees calls (asked :: requests) reply logged := by
  cases agrees with
  | granted _ value host =>
    rw [List.append_assoc]
    exact .granted (asked :: requests) value host
  | refused requests last fault host =>
    rw [List.append_assoc]
    exact .refused (asked :: requests) last fault host

end Watched

namespace Exchange

variable {α σ : Type}

/-- Watching has no influence on an exchange that only a refusal can end early. -/
theorem Willing.run_watched [Host σ] {exchange : Exchange α} (willing : exchange.Willing)
    (host : σ) (calls : List Call) :
    Watched.Agrees calls (exchange.requests host) (exchange.run host)
      (exchange.run (Watched.mk host calls)) := by
  -- The log begins with the calls received before, which grow by one at each request.
  induction exchange generalizing host calls with
  | done value =>
    have agrees : Watched.Agrees calls [] (.ok value host) (.ok value ⟨host, calls ++ []⟩) :=
      .granted [] value host
    rwa [List.append_nil] at agrees
  | stop reason => exact willing.elim
  | write address value next inductionHypothesis =>
    simp only [run, requests, Host.write]
    cases Host.write host address value with
    | ok answer after => exact (inductionHypothesis willing after _).granting
    | error fault after => exact .refused [] (.write address value) fault after
  | input port next inductionHypothesis =>
    simp only [run, requests, Host.input]
    cases Host.input host port with
    | ok answer after => exact (inductionHypothesis answer (willing answer) after _).granting
    | error fault after => exact .refused [] (.input port) fault after
  | output port value next inductionHypothesis =>
    simp only [run, requests, Host.output]
    cases Host.output host port value with
    | ok answer after => exact (inductionHypothesis willing after _).granting
    | error fault after => exact .refused [] (.output port value) fault after

end Exchange

namespace Instruction

/-- The stop that an instruction calls for by itself. -/
def ending (cpu : Cpu) : Instruction → Option Stop
  | hlt => some (.halt .instruction)
  | illegal opcode => some (.fault (.illegalOpcode opcode (cpu.pc - 1)))
  | _ => none

/-- An instruction that calls for no stop by itself is ended early by a refusal only. -/
theorem exchange_willing {instruction : Instruction} {cpu : Cpu}
    (unending : instruction.ending cpu = none) (read : UInt16 → UInt8) :
    (instruction.exchange cpu read).Willing := by
  cases instruction with
  | hlt | illegal => cases unending
  | mov target | mvi target | inr target | dcr target => cases target <;> trivial
  | callIf condition | returnIf condition =>
    simp only [exchange]
    split <;> trivial
  | input port => exact fun _ => trivial
  | _ => trivial

variable {σ : Type} [Host σ]

/-- An instruction that calls for a stop by itself stops and does nothing else. -/
theorem execute_of_ending {instruction : Instruction} {cpu : Cpu} {stop : Stop}
    (ends : instruction.ending cpu = some stop) (host : σ) :
    instruction.execute cpu host = ⟨.error stop, cpu, host⟩ := by
  cases instruction with
  | hlt | illegal =>
    obtain rfl := Option.some.inj ends
    rfl
  | _ => cases ends

/-- Any other instruction completes, or was refused the last of its requests and left the
processor as it was. A watched host gives the same outcome and has logged the requests. -/
theorem execute_watched {instruction : Instruction} {cpu : Cpu}
    (unending : instruction.ending cpu = none) (host : σ) :
    (∃ (extra : UInt8) (after : Cpu) (left : σ),
      instruction.execute cpu host = ⟨.ok extra, after, left⟩ ∧
        instruction.execute cpu (Watched.mk host []) =
          ⟨.ok extra, after,
            ⟨left, ((instruction.exchange cpu (Host.read host)).requests host).map .granted⟩⟩) ∨
      ∃ (requests : List Request) (last : Request) (fault : Fault) (left : σ),
        instruction.execute cpu host = ⟨.error (.fault fault), cpu, left⟩ ∧
          instruction.execute cpu (Watched.mk host []) =
            ⟨.error (.fault fault), cpu,
              ⟨left, requests.map .granted ++ [.request last (some fault)]⟩⟩ := by
  have agrees := (exchange_willing unending (Host.read host)).run_watched host []
  have same : Host.read (Watched.mk host []) = Host.read host := rfl
  simp only [execute, same]
  generalize (instruction.exchange cpu (Host.read host)).requests host = asked at agrees ⊢
  generalize (instruction.exchange cpu (Host.read host)).run host = reply at agrees ⊢
  generalize (instruction.exchange cpu (Host.read host)).run (Watched.mk host []) = logged
    at agrees ⊢
  cases agrees with
  | granted _ completion left =>
    exact .inl ⟨completion.extra, completion.cpu, left, rfl, rfl⟩
  | refused requests last fault left => exact .inr ⟨requests, last, fault, left, rfl, rfl⟩

end Instruction

namespace Machine

variable {σ : Type} [Host σ]

/-- The machine with its host watched from now on, and with the table of the instruction
set. -/
def watched (machine : Machine σ) : Machine (Watched σ) :=
  ⟨⟨machine.host, []⟩, machine.cpu, .canonical, machine.status⟩

/-- The calls that a host receives in the course of a step. -/
def calls (machine : Machine σ) : List Call :=
  machine.watched.step.responder.host.calls

/-- A machine on a watched host, seen as a machine on the host itself. -/
def unwatched (table : Table σ) (machine : Machine (Watched σ)) : Machine σ :=
  ⟨machine.host.host, machine.cpu, table, machine.status⟩

/-- The course that a step takes, with the calls that the host receives and the answer. -/
inductive Course (machine : Machine σ) : List Call → Except Stop UInt8 → Prop where
  /-- The instruction calls for a stop by itself. -/
  | ended (stop : Stop)
      (ends : machine.next.ending (machine.past machine.next) = some stop) :
      Course machine [] (.error stop)
  /-- The host refuses a request of the instruction. -/
  | refused (requests : List Request) (last : Request) (fault : Fault) (host : σ)
      (unending : machine.next.ending (machine.past machine.next) = none)
      (executed : machine.next.execute (machine.past machine.next) machine.host =
        ⟨.error (.fault fault), machine.past machine.next, host⟩) :
      Course machine (requests.map .granted ++ [.request last (some fault)])
        (.error (.fault fault))
  /-- The instruction completes, and the host lets it pass. -/
  | passed (requests : List Request) (extra : UInt8) (cpu : Cpu) (host after : σ)
      (unending : machine.next.ending (machine.past machine.next) = none)
      (executed : machine.next.execute (machine.past machine.next) machine.host =
        ⟨.ok extra, cpu, host⟩)
      (passes : Host.didExecute host (cpu.charge (saturatingAdd machine.next.cycles extra)) =
        .ok () after) :
      Course machine
        (requests.map .granted ++
          [.review (cpu.charge (saturatingAdd machine.next.cycles extra)) none])
        (.ok (saturatingAdd machine.next.cycles extra))
  /-- The instruction completes, and the host objects. -/
  | objected (requests : List Request) (extra : UInt8) (cpu : Cpu) (host after : σ) (stop : Stop)
      (unending : machine.next.ending (machine.past machine.next) = none)
      (executed : machine.next.execute (machine.past machine.next) machine.host =
        ⟨.ok extra, cpu, host⟩)
      (objects : Host.didExecute host (cpu.charge (saturatingAdd machine.next.cycles extra)) =
        .error stop after) :
      Course machine
        (requests.map .granted ++
          [.review (cpu.charge (saturatingAdd machine.next.cycles extra)) (some stop)])
        (.error stop)

variable {machine : Machine σ}

/-- A watched machine executes the same instruction. -/
theorem step_watched (running : machine.status = .running) :
    machine.watched.step = machine.watched.settle machine.next.cycles
      (machine.next.execute (machine.past machine.next) (Watched.mk machine.host [])) :=
  step_canonical rfl running

/-- A step takes one of the four courses. Watching it has no influence on it. -/
theorem course (canonical : machine.table = .canonical) (running : machine.status = .running) :
    Course machine machine.calls machine.step.answer ∧
      machine.step.answer = machine.watched.step.answer ∧
      machine.step.responder = unwatched machine.table machine.watched.step.responder := by
  rw [calls, step_watched running, step_canonical canonical running]
  cases ending : machine.next.ending (machine.past machine.next) with
  | some stop =>
    simp only [Instruction.execute_of_ending ending, settle]
    exact ⟨.ended stop ending, rfl, rfl⟩
  | none =>
    obtain ⟨extra, cpu, host, executed, watched⟩ |
        ⟨requests, last, fault, host, executed, watched⟩ :=
      Instruction.execute_watched ending machine.host
    · simp only [executed, watched, settle]
      cases reviewed : Host.didExecute host
          (cpu.charge (saturatingAdd machine.next.cycles extra)) with
      | ok answer after =>
        rw [Watched.didExecute_watched, reviewed]
        exact ⟨.passed _ extra cpu host after ending executed reviewed, rfl, rfl⟩
      | error stop after =>
        rw [Watched.didExecute_watched, reviewed]
        exact ⟨.objected _ extra cpu host after stop ending executed reviewed, rfl, rfl⟩
    · simp only [executed, watched, settle]
      exact ⟨.refused requests last fault host ending executed, rfl, rfl⟩

end Machine

end Intel8080
