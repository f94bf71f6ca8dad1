import Intel8080.Proofs.InPlace
import Intel8080.Proofs.Stopping

/-!
# What a failure leaves behind

An instruction that fails has changed nothing in the processor. The host may keep a trace
of it, but a small one: no instruction makes more than two requests, so before the one that
was refused there is at most one that was granted, the first byte of a store of two. For a
push, a call or a restart this is the high byte, for the other stores of a word the low
one. `Failure` lists the ways to fail with the calls that the host receives in each.

A step can fail in two places, and what it leaves tells which. If the instruction fails,
the program counter has moved past it and nothing else has changed, so no cycle is
charged. If the host objects to the completed instruction, its effect and its cost stand.
-/

namespace Intel8080

namespace Exchange

variable {α σ : Type} [Host σ]

/-- Before a dialogue of one request at most there may be one more. -/
theorem dropLast_requests_write (address : UInt16) (value : UInt8) (next : Exchange α)
    (brief : ∀ host : σ, (next.requests host).length ≤ 1) (host : σ) :
    ((write address value next).requests host).dropLast <+: [.write address value] := by
  rw [requests]
  cases Host.write host address value with
  | error fault after => exact List.nil_prefix
  | ok _ after =>
    have few := brief after
    cases asked : next.requests after with
    | nil => simp [asked]
    | cons first rest =>
      obtain rfl : rest = [] := by simpa [asked] using few
      simp [asked]

/-- A write that ends the dialogue is its only request. -/
theorem length_requests_write (address : UInt16) (value : UInt8) (result : α) (host : σ) :
    ((write address value (done result)).requests host).length ≤ 1 := by
  rw [requests]
  cases Host.write host address value <;> exact Nat.le_refl 1

/-- A dialogue of one request at most has none before the last. -/
theorem dropLast_requests_of_brief {exchange : Exchange α} {host : σ}
    (brief : (exchange.requests host).length ≤ 1) :
    (exchange.requests host).dropLast <+: [] := by
  rw [List.prefix_nil]
  apply List.eq_nil_of_length_eq_zero
  rw [List.length_dropLast]
  omega

end Exchange

namespace Instruction

/-- The request with which an instruction begins a store of two bytes. -/
def opening (cpu : Cpu) : Instruction → Option Request
  | push source => some (.write (cpu.sp - 1) (highByte (cpu.getStackWord source)))
  | call _ | rst _ => some (.write (cpu.sp - 1) (highByte cpu.pc))
  | callIf condition _ =>
    if condition.holds cpu.flags then some (.write (cpu.sp - 1) (highByte cpu.pc)) else none
  | shld address => some (.write address (lowByte cpu.hl))
  | xthl => some (.write cpu.sp (lowByte cpu.hl))
  | _ => none

/-- How an instruction fails: the calls that the host receives, and the stop. -/
inductive Failure (instruction : Instruction) (cpu : Cpu) : List Call → Stop → Prop where
  /-- It calls for a stop by itself. -/
  | ended (stop : Stop) (ends : instruction.ending cpu = some stop) :
      Failure instruction cpu [] stop
  /-- Its first request is refused. -/
  | refused (last : Request) (fault : Fault) :
      Failure instruction cpu [.request last (some fault)] (.fault fault)
  /-- It stores two bytes, and the second one is refused. -/
  | torn (first last : Request) (fault : Fault) (opens : instruction.opening cpu = some first) :
      Failure instruction cpu [.granted first, .request last (some fault)] (.fault fault)

variable {σ : Type} [Host σ]

/-- Before its last request an instruction has made none, or the one that begins a store of
two bytes. -/
theorem dropLast_requests (instruction : Instruction) (cpu : Cpu) (read : UInt16 → UInt8)
    (host : σ) :
    ((instruction.exchange cpu read).requests host).dropLast <+:
      (instruction.opening cpu).toList := by
  have twoWrites (first second : UInt16) (high low : UInt8) (completion : Completion) :
      ((Exchange.write first high (.write second low (.done completion))).requests
        host).dropLast <+: [.write first high] :=
    Exchange.dropLast_requests_write first high _
      (Exchange.length_requests_write second low completion) host
  have single (address : UInt16) (value : UInt8) (completion : Completion) :
      ((Exchange.write address value (.done completion)).requests host).dropLast <+: [] :=
    Exchange.dropLast_requests_of_brief
      (Exchange.length_requests_write address value completion host)
  cases instruction with
  | push | call | rst | shld | xthl => exact twoWrites ..
  | callIf condition target =>
    by_cases holds : condition.holds cpu.flags
    · have opens : (callIf condition target).opening cpu =
          some (.write (cpu.sp - 1) (highByte cpu.pc)) := if_pos holds
      simp only [exchange, if_pos holds, opens]
      exact twoWrites ..
    · simp only [exchange, if_neg holds]
      exact List.nil_prefix
  | returnIf condition =>
    by_cases holds : condition.holds cpu.flags
    · simp only [exchange, if_pos holds]
      exact List.nil_prefix
    · simp only [exchange, if_neg holds]
      exact List.nil_prefix
  | mov target | mvi target | inr target | dcr target =>
    cases target with
    | register name => exact List.nil_prefix
    | memory => exact single ..
  | sta | stax => exact single ..
  | input port =>
    simp only [exchange, Exchange.requests]
    cases Host.input host port <;> exact List.nil_prefix
  | output port =>
    simp only [exchange, Exchange.requests]
    cases Host.output host port cpu.a <;> exact List.nil_prefix
  | _ => exact List.nil_prefix

/-- An instruction that failed has left the processor as it was. A host that keeps a log of
its calls finds in it one of the ways to fail. -/
theorem execute_failure {instruction : Instruction} {cpu after : Cpu} {host left : σ}
    {stop : Stop} (failed : instruction.execute cpu host = ⟨.error stop, after, left⟩) :
    after = cpu ∧ ∃ calls, instruction.Failure cpu calls stop ∧
      instruction.execute cpu (Watched.mk host []) = ⟨.error stop, cpu, ⟨left, calls⟩⟩ := by
  cases ending : instruction.ending cpu with
  | some reason =>
    rw [execute_of_ending ending] at failed
    obtain ⟨same, rfl, rfl⟩ := Outcome.mk.inj failed
    obtain rfl : reason = stop := Except.error.inj same
    exact ⟨rfl, [], .ended reason ending, execute_of_ending ending (Watched.mk host [])⟩
  | none =>
    have opens := instruction.dropLast_requests cpu (Host.read host) host
    have agrees := (exchange_willing ending (Host.read host)).run_watched host []
    have sameMemory : Host.read (Watched.mk host []) = Host.read host := rfl
    simp only [execute, sameMemory] at failed ⊢
    generalize (instruction.exchange cpu (Host.read host)).requests host = asked at opens agrees
    generalize (instruction.exchange cpu (Host.read host)).run host = reply at agrees failed
    generalize (instruction.exchange cpu (Host.read host)).run (Watched.mk host []) = logged
      at agrees ⊢
    cases agrees with
    | granted => cases (Outcome.mk.inj failed).1
    | refused granted last fault middle =>
      -- What was granted before the refusal can only be what opens a store of two bytes.
      obtain ⟨same, rfl, rfl⟩ := Outcome.mk.inj failed
      obtain rfl := Except.error.inj same
      rw [List.dropLast_concat] at opens
      cases opening : instruction.opening cpu with
      | none =>
        obtain rfl : granted = [] := by simpa [opening] using opens
        exact ⟨rfl, _, .refused last fault, rfl⟩
      | some first =>
        obtain rfl | rfl : granted = [] ∨ granted = [first] := by
          simpa [opening, List.prefix_cons_iff] using opens
        · exact ⟨rfl, _, .refused last fault, rfl⟩
        · exact ⟨rfl, _, .torn first last fault opening, rfl⟩

end Instruction

namespace Machine

variable {σ : Type} [Host σ]

/-- The host objects to the completed instruction: at which cost, to which processor, and
with which stop it does. -/
def Overruled (machine : Machine σ) (cost : UInt8) (cpu : Cpu) (stop : Stop) (left : σ) :
    Prop :=
  ∃ extra host,
    machine.next.execute (machine.past machine.next) machine.host = ⟨.ok extra, cpu, host⟩ ∧
      cost = saturatingAdd machine.next.cycles extra ∧
      Host.didExecute host (cpu.charge cost) = .error stop left

/-- How a step fails with a stop, and the machine that it leaves. -/
inductive Breakdown (machine : Machine σ) (stop : Stop) : Machine σ → Prop where
  /-- The instruction fails. Only the program counter has moved. -/
  | failed (cpu : Cpu) (left : σ)
      (executed : machine.next.execute (machine.past machine.next) machine.host =
        ⟨.error stop, cpu, left⟩) :
      Breakdown machine stop
        { machine with
          host := left
          cpu := { machine.cpu with pc := machine.cpu.pc + machine.next.length.toUInt16 }
          status := .halted stop }
  /-- The instruction has taken its full effect, and its cost is charged. -/
  | overruled (cost : UInt8) (cpu : Cpu) (left : σ)
      (overruled : machine.Overruled cost cpu stop left) :
      Breakdown machine stop
        { machine with host := left, cpu := cpu.charge cost, status := .halted stop }

variable {machine : Machine σ}

/-- There are no other ways for a step to fail. -/
theorem step_error_iff_breakdown (canonical : machine.table = .canonical)
    (running : machine.status = .running) (stop : Stop) (after : Machine σ) :
    machine.step = .error stop after ↔ machine.Breakdown stop after := by
  rw [step_canonical canonical running]
  constructor
  · intro stopped
    cases executed : machine.next.execute (machine.past machine.next) machine.host with
    | mk result cpu host =>
      rw [executed] at stopped
      cases result with
      | error reason =>
        obtain ⟨rfl, rfl⟩ := EStateM.Result.error.inj stopped
        obtain ⟨rfl, -⟩ := Instruction.execute_failure executed
        exact .failed _ host executed
      | ok extra =>
        simp only [settle] at stopped
        split at stopped
        · cases stopped
        · rename_i reason left objects
          obtain ⟨rfl, rfl⟩ := EStateM.Result.error.inj stopped
          exact .overruled _ cpu left ⟨extra, host, executed, rfl, objects⟩
  · intro breakdown
    cases breakdown with
    | failed cpu left executed =>
      obtain ⟨rfl, -⟩ := Instruction.execute_failure executed
      rw [executed]
      rfl
    | overruled cost cpu left overruled =>
      obtain ⟨extra, host, executed, rfl, objects⟩ := overruled
      simp only [executed, settle, objects]

/-- Failures are atomic. Whatever an instruction assigns to the processor on its way, it
comes to the same as executing it at once; so if it fails, every field of the processor is
as before, and the host has granted at most the first byte of a store of two. A step fails
either with its instruction, which then has moved the program counter and charged nothing,
or after it, which then has taken its full effect and is charged; the machine is halted by
the very stop that the step reports. -/
theorem failure_atomic :
    (∀ (instruction : Instruction) (cpu : Cpu) (host : σ),
      instruction.inPlace ⟨cpu, host⟩ = (instruction.execute cpu host).reply) ∧
      (∀ (instruction : Instruction) (cpu after : Cpu) (host left : σ) (stop : Stop),
        instruction.inPlace ⟨cpu, host⟩ = .error stop ⟨after, left⟩ →
          after = cpu ∧ instruction.execute cpu host = ⟨.error stop, cpu, left⟩ ∧
            ∃ calls, instruction.Failure cpu calls stop ∧
              instruction.execute cpu (Watched.mk host []) =
                ⟨.error stop, cpu, ⟨left, calls⟩⟩) ∧
      ∀ machine : Machine σ, machine.table = .canonical → machine.status = .running →
        ∀ stop after, machine.step = .error stop after ↔ machine.Breakdown stop after := by
  refine ⟨Instruction.inPlace_eq_execute, ?_, fun _ => step_error_iff_breakdown⟩
  intro instruction cpu after host left stop failed
  rw [Instruction.inPlace_eq_execute] at failed
  have executed : instruction.execute cpu host = ⟨.error stop, after, left⟩ :=
    Outcome.eq_of_reply_error failed
  obtain ⟨rfl, failure⟩ := Instruction.execute_failure executed
  exact ⟨rfl, executed, failure⟩

/-- A push across the lower end of the working memory stores its high byte and is refused
the low one. The machine stops behind the instruction, with all else in the processor as it
was. -/
theorem failure_atomic_torn :
    pushingIntoRom.table = .canonical ∧ pushingIntoRom.status = .running ∧
      ∃ left : Cabinet,
        left.memory = pushingIntoRom.host.memory.write 0x2000 0x12 ∧
        (Instruction.push (.register (.pair .bc))).inPlace
            ⟨pushingIntoRom.cpu, pushingIntoRom.host⟩ =
          .error (.fault (.readOnly 0x1FFF 0x34)) ⟨pushingIntoRom.cpu, left⟩ ∧
        (Instruction.push (.register (.pair .bc))).Failure pushingIntoRom.cpu
          [.granted (.write 0x2000 0x12), .request (.write 0x1FFF 0x34)
            (some (.readOnly 0x1FFF 0x34))] (.fault (.readOnly 0x1FFF 0x34)) ∧
        pushingIntoRom.step = .error (.fault (.readOnly 0x1FFF 0x34))
          { pushingIntoRom with
            host := left
            cpu := { pushingIntoRom.cpu with pc := 0x0001 }
            status := .halted (.fault (.readOnly 0x1FFF 0x34)) } := by
  obtain ⟨inPlace, failing, steps⟩ := @failure_atomic Cabinet _
  have executed : (Instruction.push (.register (.pair .bc))).execute pushingIntoRom.cpu
      pushingIntoRom.host = ⟨.error (.fault (.readOnly 0x1FFF 0x34)), pushingIntoRom.cpu,
        { pushingIntoRom.host with
          memory := pushingIntoRom.host.memory.write 0x2000 0x12 }⟩ := rfl
  have refused := inPlace (.push (.register (.pair .bc))) pushingIntoRom.cpu pushingIntoRom.host
  rw [executed] at refused
  obtain ⟨-, -, calls, failure, watched⟩ := failing _ _ _ _ _ _ refused
  have logged : calls = [.granted (.write 0x2000 0x12), .request (.write 0x1FFF 0x34)
      (some (.readOnly 0x1FFF 0x34))] := by
    have log : ((Instruction.push (.register (.pair .bc))).execute pushingIntoRom.cpu
        (Watched.mk pushingIntoRom.host [])).host.calls = calls := by rw [watched]
    exact log.symm
  subst logged
  refine ⟨rfl, rfl, _, rfl, refused, failure, ?_⟩
  have stepped := (steps pushingIntoRom rfl rfl (.fault (.readOnly 0x1FFF 0x34)) _).mpr
    (.failed (pushingIntoRom.past pushingIntoRom.next)
      { pushingIntoRom.host with
        memory := pushingIntoRom.host.memory.write 0x2000 0x12 } (by
          rw [next_pushingIntoRom]
          rfl))
  rw [next_pushingIntoRom] at stepped
  exact stepped

end Machine

end Intel8080
