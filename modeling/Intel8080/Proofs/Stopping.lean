import Intel8080.Cabinet
import Intel8080.Proofs.Watching

/-!
# Why a machine stops

A step of a running machine fails for one of four causes: it meets the halt instruction, it
meets an opcode without a meaning, the host refuses a request, or the host objects to the
completed instruction. `Cause` reads each off the memory or off what the host answered, and
a step fails with a stop exactly if there is such a cause for it. A host that has objected
to a call receives no further one, so nothing it objects to is passed over.

A plain board never objects. On it a machine can only run into the halt instruction or into
an opcode without a meaning, and the memory shows which.
-/

namespace Intel8080

namespace Instruction

/-- The opcodes without a meaning. -/
def undefinedOpcodes : List UInt8 :=
  [0x08, 0x10, 0x18, 0x20, 0x28, 0x30, 0x38, 0xCB, 0xD9, 0xDD, 0xED, 0xFD]

theorem decode_undefined {opcode : UInt8} (undefined : opcode ∈ undefinedOpcodes)
    (low high : UInt8) : decode opcode low high = illegal opcode := by
  have all : undefinedOpcodes.all fun opcode => decode opcode 0 0 = illegal opcode := by decide
  have illegalOpcode : decode opcode 0 0 = illegal opcode := by
    simpa using List.all_eq_true.mp all opcode undefined
  rw [decode_eq, illegalOpcode]
  rfl

@[simp] theorem ending_withOperands (low : UInt8) (operand : UInt16) (cpu : Cpu)
    (instruction : Instruction) :
    (instruction.withOperands low operand).ending cpu = instruction.ending cpu := by
  cases instruction <;> rfl

/-- Whether an instruction calls for a stop does not depend on the processor. -/
theorem ending_eq_none_of {instruction : Instruction} {other : Cpu}
    (unending : instruction.ending other = none) (cpu : Cpu) : instruction.ending cpu = none := by
  cases instruction with
  | hlt | illegal => cases unending
  | _ => rfl

/-- The halt instruction and the opcodes without a meaning are all that calls for a stop. -/
theorem ending_decode_of_defined {opcode : UInt8} (other : opcode ≠ 0x76)
    (defined : opcode ∉ undefinedOpcodes) (low high : UInt8) (cpu : Cpu) :
    (decode opcode low high).ending cpu = none := by
  -- Decided opcode by opcode for one processor, which stands for all of them.
  have all : ∀ bits : BitVec 8,
      (decode ⟨bits⟩ 0 0).ending {} = none ∨
        (⟨bits⟩ : UInt8) = 0x76 ∨ ⟨bits⟩ ∈ undefinedOpcodes := by
    decide
  obtain unending | same | undefined := all opcode.toBitVec
  · rw [decode_eq, ending_withOperands]
    exact ending_eq_none_of unending cpu
  · exact absurd same other
  · exact absurd undefined defined

end Instruction

namespace Exchange

/-- A plain board grants whatever it is asked. -/
theorem Willing.run_board {α : Type} {exchange : Exchange α} (willing : exchange.Willing)
    (board : Board) : ∃ value after, exchange.run board = .ok value after := by
  induction exchange generalizing board with
  | done value => exact ⟨value, board, rfl⟩
  | stop reason => exact willing.elim
  | write address value next inductionHypothesis =>
    exact inductionHypothesis willing (board.write address value)
  | input port next inductionHypothesis =>
    exact inductionHypothesis _ (willing _) board
  | output port value next inductionHypothesis =>
    exact inductionHypothesis willing (board.latch port value)

end Exchange

namespace Machine

open Instruction (undefinedOpcodes)

variable {σ : Type} [Host σ]

/-- A cause for a step to fail with a stop. -/
inductive Cause (machine : Machine σ) : Stop → Prop where
  /-- The opcode at the program counter is that of the halt instruction. -/
  | halt (opcode : Host.read machine.host machine.cpu.pc = 0x76) :
      Cause machine (.halt .instruction)
  /-- The opcode at the program counter has no meaning. -/
  | undefined (opcode : Host.read machine.host machine.cpu.pc ∈ undefinedOpcodes) :
      Cause machine
        (.fault (.illegalOpcode (Host.read machine.host machine.cpu.pc) machine.cpu.pc))
  /-- The host refused a request of the instruction. -/
  | refused (request : Request) (fault : Fault)
      (received : Call.request request (some fault) ∈ machine.calls) :
      Cause machine (.fault fault)
  /-- The instruction was executed, and the host objected to how it left the processor. -/
  | objected (extra : UInt8) (cpu : Cpu) (host after : σ) (stop : Stop)
      (executed : machine.next.execute (machine.past machine.next) machine.host =
        ⟨.ok extra, cpu, host⟩)
      (objects : Host.didExecute host (cpu.charge (saturatingAdd machine.next.cycles extra)) =
        .error stop after) :
      Cause machine stop

variable {machine : Machine σ}

/-- The stop that the next instruction calls for is read off its opcode. An opcode without
a meaning is reported with its own address, also at the top of memory. -/
theorem ending_next_eq_some_iff {stop : Stop} :
    machine.next.ending (machine.past machine.next) = some stop ↔
      (Host.read machine.host machine.cpu.pc = 0x76 ∧ stop = .halt .instruction) ∨
        (Host.read machine.host machine.cpu.pc ∈ undefinedOpcodes ∧
          stop = .fault
            (.illegalOpcode (Host.read machine.host machine.cpu.pc) machine.cpu.pc)) := by
  have known : 0x76 ∉ undefinedOpcodes := by decide
  generalize opcode : Host.read machine.host machine.cpu.pc = byte
  by_cases halts : byte = 0x76
  · have next : machine.next = .hlt := by
      rw [Machine.next, opcode, halts]
      rfl
    simp [next, Instruction.ending, halts, known, eq_comm]
  · by_cases undefined : byte ∈ undefinedOpcodes
    · have next : machine.next = .illegal byte := by
        rw [Machine.next, opcode]
        exact Instruction.decode_undefined undefined ..
      have back : (machine.past machine.next).pc - 1 = machine.cpu.pc := by
        rw [next]
        exact UInt16.add_sub_cancel ..
      simp only [next] at back ⊢
      simp [Instruction.ending, back, halts, undefined, eq_comm]
    · have unending : machine.next.ending (machine.past machine.next) = none := by
        rw [Machine.next, opcode]
        exact Instruction.ending_decode_of_defined halts undefined ..
      simp [unending, halts, undefined]

theorem Cause.of_ending {stop : Stop}
    (ends : machine.next.ending (machine.past machine.next) = some stop) :
    Cause machine stop := by
  obtain ⟨opcode, rfl⟩ | ⟨opcode, rfl⟩ := ending_next_eq_some_iff.mp ends
  · exact .halt opcode
  · exact .undefined opcode

/-- An instruction that calls for a stop by itself halts the machine and leaves the host
alone. -/
theorem step_of_ending (canonical : machine.table = .canonical)
    (running : machine.status = .running) {stop : Stop}
    (ends : machine.next.ending (machine.past machine.next) = some stop) :
    machine.step = .error stop
      ⟨machine.host, machine.past machine.next, machine.table, .halted stop⟩ := by
  rw [step_canonical canonical running, Instruction.execute_of_ending ends]
  rfl

/-- Every call of a step that the host objects to is its last. -/
theorem Course.last_of_objected {calls : List Call} {answer : Except Stop UInt8}
    (course : Course machine calls answer) {earlier later : List Call} {call : Call}
    (received : calls = earlier ++ call :: later) (objected : call.objection?.isSome) :
    later = [] := by
  -- All calls but the last are granted requests, and those were not objected to.
  have atEnd (requests : List Request) (last : Call)
      (same : requests.map .granted ++ [last] = earlier ++ call :: later) : later = [] := by
    obtain rfl | ⟨rest, final, rfl⟩ := List.eq_nil_or_concat later
    · rfl
    · have shifted : requests.map .granted ++ [last] = (earlier ++ call :: rest) ++ [final] := by
        rw [same, List.concat_eq_append, List.append_assoc, List.cons_append]
      have before := (List.append_inj' shifted rfl).1
      have inside : call ∈ requests.map .granted := by simp [before]
      obtain ⟨request, -, rfl⟩ := List.mem_map.mp inside
      cases objected
  cases course with
  | ended => simp at received
  | refused requests | passed requests | objected requests => exact atEnd requests _ received

/-- A step fails with a stop exactly if there is a cause for it. -/
theorem step_error_iff (canonical : machine.table = .canonical)
    (running : machine.status = .running) (stop : Stop) :
    machine.step.answer = .error stop ↔ Cause machine stop := by
  have course := (machine.course canonical running).1
  generalize received : machine.calls = calls at course
  constructor
  · intro failed
    rw [failed] at course
    cases course with
    | ended _ ends => exact .of_ending ends
    | refused requests last fault => exact .refused last fault (by simp [received])
    | objected requests extra cpu host after _ unending executed objects =>
      exact .objected extra cpu host after stop executed objects
  · intro cause
    cases cause with
    | halt opcode =>
      rw [step_of_ending canonical running (ending_next_eq_some_iff.mpr (.inl ⟨opcode, rfl⟩))]
      rfl
    | undefined opcode =>
      rw [step_of_ending canonical running (ending_next_eq_some_iff.mpr (.inr ⟨opcode, rfl⟩))]
      rfl
    | refused request fault inside =>
      rw [received] at inside
      generalize machine.step.answer = answer at course ⊢
      cases course with
      | ended => cases inside
      | refused requests last other =>
        obtain ⟨-, rfl⟩ : request = last ∧ fault = other := by
          simpa [Call.granted] using inside
        rfl
      | passed | objected => simp [Call.granted] at inside
    | objected extra cpu host after _ executed objects =>
      rw [step_canonical canonical running, executed]
      simp only [settle, objects]
      rfl

/-- On a plain board a step fails only if the instruction calls for it, and then memory is
as before. -/
theorem step_board {machine after : Machine Board} (canonical : machine.table = .canonical)
    (running : machine.status = .running) {stop : Stop}
    (failed : machine.step = .error stop after) :
    machine.next.ending (machine.past machine.next) = some stop ∧ after.host = machine.host := by
  cases ending : machine.next.ending (machine.past machine.next) with
  | some reason =>
    rw [step_of_ending canonical running ending] at failed
    obtain ⟨rfl, rfl⟩ := EStateM.Result.error.inj failed
    exact ⟨rfl, rfl⟩
  | none =>
    obtain ⟨completion, left, ran⟩ :=
      (Instruction.exchange_willing ending (Host.read machine.host)).run_board machine.host
    rw [step_canonical canonical running, Instruction.execute, ran] at failed
    cases failed

/-- A run on a plain board ends with the halt instruction, or with an opcode without a
meaning that stands in memory at the address it is reported with. -/
theorem run_board (limit : Nat) {machine after : Machine Board} {stop : Stop}
    (canonical : machine.table = .canonical) (running : machine.status = .running)
    (ended : machine.run limit = some (stop, after)) :
    stop = .halt .instruction ∨
      ∃ address, after.host.read address ∈ undefinedOpcodes ∧
        stop = .fault (.illegalOpcode (after.host.read address) address) := by
  induction limit generalizing machine with
  | zero => cases ended
  | succ limit inductionHypothesis =>
    rw [run] at ended
    cases stepped : machine.step with
    | ok cost next =>
      rw [stepped] at ended
      obtain ⟨-, -, -, -, -, -, table, -, status⟩ := step_ok stepped
      exact inductionHypothesis (table.trans canonical) status ended
    | error reason last =>
      rw [stepped] at ended
      obtain ⟨rfl, rfl⟩ : reason = stop ∧ last = after := by simpa using ended
      obtain ⟨ending, same⟩ := step_board canonical running stepped
      rw [same]
      obtain ⟨-, halts⟩ | undefined := ending_next_eq_some_iff.mp ending
      · exact .inl halts
      · exact .inr ⟨machine.cpu.pc, undefined⟩

/-- A running machine stops for exactly the documented causes. A step fails with a stop if
and only if there is a cause for that stop. Of the calls that the host receives, every one
it objects to is the last, and keeping a log of them has no influence on the step. On a
plain board only the instructions themselves stop a run: the halt instruction, or an opcode
without a meaning at the address that is reported. -/
theorem stops_for_cause (canonical : machine.table = .canonical)
    (running : machine.status = .running) :
    (∀ stop, machine.step.answer = .error stop ↔ Cause machine stop) ∧
      (∀ earlier call later, machine.calls = earlier ++ call :: later →
        call.objection?.isSome → later = []) ∧
      (machine.step.answer = machine.watched.step.answer ∧
        machine.step.responder = unwatched machine.table machine.watched.step.responder) ∧
      ∀ (limit : Nat) (board after : Machine Board) (stop : Stop),
        board.table = .canonical → board.status = .running →
          board.run limit = some (stop, after) →
            stop = .halt .instruction ∨
              ∃ address, after.host.read address ∈ undefinedOpcodes ∧
                stop = .fault (.illegalOpcode (after.host.read address) address) := by
  obtain ⟨course, unchanged⟩ := machine.course canonical running
  refine ⟨step_error_iff canonical running, ?_, unchanged, ?_⟩
  · intro earlier call later received objected
    exact course.last_of_objected received objected
  · intro limit board after stop canonical running ended
    exact run_board limit canonical running ended

/-- A cabinet whose program pushes BC across the lower end of the working memory. -/
def pushingIntoRom : Machine Cabinet where
  host := { Cabinet.blank with memory := Memory.blank.load 0 [0xC5] }
  cpu := { b := 0x12, c := 0x34, sp := 0x2001 }
  table := .canonical
  status := .running

/-- A board with an opcode without a meaning in its last byte, where the machine begins. -/
def undefinedAtTop : Machine Board :=
  .startAt .canonical (Board.blank.load 0xFFFF [0xCB]) 0xFFFF

theorem next_pushingIntoRom : pushingIntoRom.next = .push (.register (.pair .bc)) := by
  have opcode : Host.read pushingIntoRom.host 0 = 0xC5 := by
    simp [pushingIntoRom, Host.read, Cabinet.read, Cabinet.memorySize, Memory.read_load]
  change Instruction.decode (Host.read pushingIntoRom.host 0)
    (Host.read pushingIntoRom.host 1) (Host.read pushingIntoRom.host 2) = _
  rw [opcode]
  rfl

theorem calls_pushingIntoRom :
    pushingIntoRom.calls =
      [.granted (.write 0x2000 0x12),
        .request (.write 0x1FFF 0x34) (some (.readOnly 0x1FFF 0x34))] := by
  rw [calls, step_watched rfl, next_pushingIntoRom]
  rfl

/-- The high byte is stored, the low byte is refused, and the machine stops with that
fault. The undefined opcode is reported with the address it was fetched from, although the
program counter has wrapped around. -/
theorem stops_for_cause_at_edges :
    pushingIntoRom.table = .canonical ∧ pushingIntoRom.status = .running ∧
      pushingIntoRom.calls.length = 2 ∧
      pushingIntoRom.step.answer = .error (.fault (.readOnly 0x1FFF 0x34)) ∧
      undefinedAtTop.table = .canonical ∧ undefinedAtTop.status = .running ∧
      undefinedAtTop.step.answer = .error (.fault (.illegalOpcode 0xCB 0xFFFF)) := by
  have refused : Cause pushingIntoRom (.fault (.readOnly 0x1FFF 0x34)) :=
    .refused (.write 0x1FFF 0x34) _ (by simp [calls_pushingIntoRom])
  have top : Host.read undefinedAtTop.host undefinedAtTop.cpu.pc = 0xCB := by
    simp [undefinedAtTop, startAt, Host.read, Board.read, Board.load, Memory.read_load]
  have undefined : Cause undefinedAtTop (.fault (.illegalOpcode 0xCB 0xFFFF)) := by
    have cause : Cause undefinedAtTop (.fault (.illegalOpcode
        (Host.read undefinedAtTop.host undefinedAtTop.cpu.pc) undefinedAtTop.cpu.pc)) :=
      .undefined (by rw [top]; decide)
    rwa [top] at cause
  obtain ⟨pushing, -⟩ := @stops_for_cause _ _ pushingIntoRom rfl rfl
  obtain ⟨fetching, -⟩ := @stops_for_cause _ _ undefinedAtTop rfl rfl
  exact ⟨rfl, rfl, congrArg List.length calls_pushingIntoRom, (pushing _).mpr refused, rfl, rfl,
    (fetching _).mpr undefined⟩

end Machine

end Intel8080
