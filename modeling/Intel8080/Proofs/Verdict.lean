import Intel8080.Diagnostic
import Intel8080.Proofs.Morphisms

/-!
# Two hosts until the verdict

The host of a diagnostic program is a console in all but the unconditional call, and that it
intercepts as the console does unless a text is printed or address 0 is called. So both run a
program in step, whatever it does to its own code, until one of these two calls is executed.
Conditional calls and jumps to the same addresses decide nothing.

Printing a text goes on with the next instruction on a console and is the verdict on the
other host, without the line break. A call to address 0 is executed on a console and ends the
program where it arrives; on the other host it is not executed at all.
-/

namespace Intel8080

namespace Instruction

/-- Whether an instruction is the unconditional call. -/
def isCall : Instruction → Bool
  | call _ => true
  | _ => false

@[simp] theorem isCall_withOperands (low : UInt8) (operand : UInt16) (instruction : Instruction) :
    (instruction.withOperands low operand).isCall = instruction.isCall := by
  cases instruction <;> rfl

/-- No other opcode stands for the unconditional call. -/
theorem isCall_decode {opcode : UInt8} (other : opcode ≠ Console.callOpcode) (low high : UInt8) :
    (decode opcode low high).isCall = false := by
  -- Decided for operand bytes that are zero, since they choose nothing but the operands.
  have all : ∀ bits : BitVec 8,
      (⟨bits⟩ : UInt8) = Console.callOpcode ∨ (decode ⟨bits⟩ 0 0).isCall = false := by
    decide
  rw [decode_eq, isCall_withOperands]
  exact (all opcode.toBitVec).resolve_left other

end Instruction

section Interception

variable {σ : Type}

@[simp] theorem Descriptor.opcode_replacing (opcode : UInt8) (effect : Effect σ) :
    (replacing opcode effect).opcode = opcode := rfl

@[simp] theorem Descriptor.bytes_replacing (opcode : UInt8) (effect : Effect σ) :
    (replacing opcode effect).bytes = (Instruction.decode opcode 0 0).length := rfl

@[simp] theorem Descriptor.cycles_replacing (opcode : UInt8) (effect : Effect σ) :
    (replacing opcode effect).cycles = (Instruction.decode opcode 0 0).cycles := rfl

variable [Host σ]

/-- The effect executes every instruction but the unconditional call. -/
def Effect.InterceptsCalls (effect : Effect σ) : Prop :=
  ∀ instruction cpu host, instruction.isCall = false →
    effect instruction cpu host = instruction.execute cpu host

/-- The table of the instruction set with another effect of the unconditional call. -/
def Table.intercepting (effect : Effect σ) : Table σ :=
  canonical.install (.replacing Console.callOpcode effect)

theorem Table.bytes_intercepting (effect : Effect σ) (opcode : UInt8) :
    ((intercepting effect).get opcode).bytes = (Instruction.decode opcode 0 0).length := by
  rw [intercepting, get_install]
  split
  · rename_i same
    rw [same, Descriptor.bytes_replacing, Descriptor.opcode_replacing]
  · rw [get_canonical, Descriptor.canonical, Descriptor.bytes_replacing]

theorem Table.cycles_intercepting (effect : Effect σ) (opcode : UInt8) :
    ((intercepting effect).get opcode).cycles = (Instruction.decode opcode 0 0).cycles := by
  rw [intercepting, get_install]
  split
  · rename_i same
    rw [same, Descriptor.cycles_replacing, Descriptor.opcode_replacing]
  · rw [get_canonical, Descriptor.canonical, Descriptor.cycles_replacing]

/-- A running machine with such a table lets the effect act on whatever instruction is next. -/
theorem Machine.step_intercepting {machine : Machine σ} {effect : Effect σ}
    (table : machine.table = .intercepting effect) (intercepts : effect.InterceptsCalls)
    (running : machine.status = .running) :
    machine.step = machine.settle machine.next.cycles
      (effect machine.next (machine.past machine.next) machine.host) := by
  have fetched : machine.fetch.instruction = machine.next := by
    apply fetch_instruction_of_bytes
    intro opcode
    rw [table, Table.bytes_intercepting]
  have bytes : (machine.table.get machine.fetch.opcode).bytes = machine.next.length := by
    rw [table, Table.bytes_intercepting]
    exact (Instruction.length_decode ..).symm
  have cycles : (machine.table.get machine.fetch.opcode).cycles = machine.next.cycles := by
    rw [table, Table.cycles_intercepting]
    exact Instruction.cycles_decode ..
  have acts : (machine.table.get machine.fetch.opcode).effect machine.next
      (machine.past machine.next) machine.host =
        effect machine.next (machine.past machine.next) machine.host := by
    rw [table, Table.intercepting, Table.get_install]
    split
    · rfl
    · rename_i other
      have passes : machine.next.isCall = false := Instruction.isCall_decode other ..
      rw [Table.get_canonical, intercepts _ _ _ passes]
      rfl
  rw [step_of_running running, perform_eq_settle, fetched, bytes, cycles]
  exact congrArg _ acts

/-- So does a machine of which the next instruction is known. -/
theorem Machine.step_of_next {machine : Machine σ} {effect : Effect σ}
    (table : machine.table = .intercepting effect) (intercepts : effect.InterceptsCalls)
    (running : machine.status = .running) {instruction : Instruction}
    (next : machine.next = instruction) :
    machine.step = machine.settle instruction.cycles
      (effect instruction (machine.past instruction) machine.host) := by
  subst next
  exact step_intercepting table intercepts running

end Interception

namespace Diagnostic

/-- Everything but the interception of calls is left to the console. -/
theorem morphism_mk : Host.Morphism Diagnostic.mk where
  read _ := rfl
  write _ _ _ := rfl
  input _ _ := rfl
  output _ _ _ := rfl
  didExecute host cpu := by
    simp only [Host.didExecute]
    split <;> rfl

theorem interceptsCalls : callEffect.InterceptsCalls := by
  intro instruction cpu host other
  have apart (target : UInt16) : instruction ≠ .call target := by
    rintro rfl
    cases other
  simp only [callEffect, if_neg (apart _)]

end Diagnostic

theorem Console.interceptsCalls : Console.callEffect.InterceptsCalls := by
  intro instruction cpu host other
  have apart : instruction ≠ .call systemEntry := by
    rintro rfl
    cases other
  simp only [callEffect, if_neg apart]

/-- Printing a text appends it with a line break and leaves a remark. -/
theorem Console.callEffect_line {cpu : Cpu} (prints : cpu.c = 9) (console : Console) :
    Console.callEffect (.call systemEntry) cpu console =
      ⟨.ok 0, cpu, { console with
        printed := console.printed ++ console.textAt cpu.de ++ "\n"
        remarks := console.remarks.push (.line (console.textAt cpu.de)) }⟩ := by
  simp only [callEffect, if_true, serve, prints]
  rfl

/-- Printing a text is the verdict. -/
theorem Diagnostic.callEffect_line {cpu : Cpu} (prints : cpu.c = 9) (console : Console) :
    Diagnostic.callEffect (.call Console.systemEntry) cpu ⟨console⟩ =
      ⟨.error (.halt (verdict (console.textAt cpu.de))), cpu,
        ⟨console.print (console.textAt cpu.de)⟩⟩ := by
  simp only [Diagnostic.callEffect, if_true, prints]
  rfl

/-- An image that fits above its origin is loaded. -/
theorem Console.exists_load {image : List UInt8} (options : Options)
    (fits : image.length ≤ 65536 - options.origin.toNat) :
    ∃ console, Console.load image options = .ok console := by
  rw [load, Memory.loadWithin, if_pos fits]
  exact ⟨_, rfl⟩

namespace Machine

section

variable {σ : Type} [Host σ]

/-- The machine after the given number of steps. -/
def after (machine : Machine σ) : Nat → Machine σ
  | 0 => machine
  | steps + 1 => (machine.after steps).step.responder

/-- Steps do not exchange the table. -/
theorem table_after (machine : Machine σ) (steps : Nat) :
    (machine.after steps).table = machine.table := by
  induction steps with
  | zero => rfl
  | succ steps inductionHypothesis =>
    exact (table_step (machine.after steps)).trans inductionHypothesis

end

/-- Two machines, one on a console and one on the other host, that cannot be told apart. -/
structure Agrees (left : Machine Console) (right : Machine Diagnostic) : Prop where
  cpu : right.cpu = left.cpu
  memory : right.host.console.memory = left.host.memory
  printed : right.host.console.printed = left.host.printed
  status : right.status = left.status
  next : right.next = left.next

variable {machine : Machine Console}

/-- A completed instruction ends the program on a console if it arrives at address 0. -/
theorem settle_console (machine : Machine Console) (base extra : UInt8) (cpu : Cpu)
    (host : Console) :
    machine.settle base ⟨.ok extra, cpu, host⟩ =
      if cpu.pc = 0 then
        .error (.halt .warmBoot) { machine with
          host := host
          cpu := cpu.charge (saturatingAdd base extra)
          status := .halted (.halt .warmBoot) }
      else
        .ok (saturatingAdd base extra) { machine with
          host := host
          cpu := cpu.charge (saturatingAdd base extra) } := by
  by_cases arrives : cpu.pc = 0
  · have objects : Host.didExecute host (cpu.charge (saturatingAdd base extra)) =
        .error (.halt .warmBoot) host :=
      if_pos (beq_of_eq arrives)
    simp only [settle, objects, if_pos arrives]
  · have passes : Host.didExecute host (cpu.charge (saturatingAdd base extra)) = .ok () host :=
      if_neg fun same => arrives (eq_of_beq same)
    simp only [settle, passes, if_neg arrives]

end Machine

end Intel8080
