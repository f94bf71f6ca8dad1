import Intel8080.Board
import Intel8080.Proofs.Cost

/-!
# What an instruction may touch

An instruction that completes changes only what it names. `Footprint` lists what that is:
the registers it writes, the flags it sets, whether it moves the program counter, the
stack pointer or the interrupt latch, and the places outside the processor that it
addresses, in order. Each entry is read off the instruction, or off the instruction and
the processor it begins with; none depends on what the host answers.

That every instruction keeps to its footprint is a statement about its exchange: however
a host answers, a dialogue that ends without a refusal has made exactly the requests of
the footprint, and the final processor agrees with the first one everywhere else.
-/

namespace Intel8080

/-- Where a request is directed: a byte of memory or a port. -/
inductive Place where
  | memory (address : UInt16)
  | inputPort (port : UInt8)
  | outputPort (port : UInt8)
  deriving DecidableEq, Repr

/-- The place that a request is directed to. -/
def Request.place : Request → Place
  | write address _ => .memory address
  | input port => .inputPort port
  | output port _ => .outputPort port

/-- How the stack pointer may change. -/
inductive StackShift where
  /-- Not at all. -/
  | none
  /-- By making room for a word. -/
  | down
  /-- By giving up a word. -/
  | up
  /-- In any way. -/
  | any
  deriving DecidableEq, Repr

/-- Whether a shift leads from one stack pointer to another. -/
def StackShift.Allows : StackShift → UInt16 → UInt16 → Prop
  | none, before, after => after = before
  | down, before, after => after = before - 2
  | up, before, after => after = before + 2
  | any, _, _ => True

/-- Which flags may change. -/
inductive FlagGroup where
  | none
  | carry
  | allButCarry
  | all
  deriving DecidableEq, Repr

/-- Whether the flags outside of a group are the same. -/
def FlagGroup.Spares : FlagGroup → Flags → Flags → Prop
  | none, before, after => after = before
  | carry, before, after => after = { before with carry := after.carry }
  | allButCarry, before, after => after.carry = before.carry
  | all, _, _ => True

/-- The registers behind an operand. -/
def Operand.registers : Operand → List Register
  | register name => [name]
  | memory => []

/-- The registers behind a word register. -/
def WordRegister.registers : WordRegister → List Register
  | pair name => [name.high, name.low]
  | stackPointer => []

/-- The registers behind a stack word. -/
def StackWord.registers : StackWord → List Register
  | register name => name.registers
  | status => [.a]

namespace Instruction

/-- The registers that an instruction may change. -/
def destinations : Instruction → List Register
  | mov target _ | mvi target _ | inr target | dcr target => target.registers
  | accumulate .cmp _ | accumulateImmediate .cmp _ => []
  | accumulate _ _ | accumulateImmediate _ _ => [.a]
  | inx target | dcx target | lxi target _ => target.registers
  | pop target => target.registers
  | rotate _ | daa | cma | lda _ | ldax _ | input _ => [.a]
  | dad _ | lhld _ | xthl => [.h, .l]
  | xchg => [.d, .e, .h, .l]
  | _ => []

/-- The flags that an instruction may change. -/
def affected : Instruction → FlagGroup
  | accumulate _ _ | accumulateImmediate _ _ | daa | pop .status => .all
  | inr _ | dcr _ => .allButCarry
  | dad _ | stc | cmc | rotate _ => .carry
  | _ => .none

/-- Whether an instruction may continue elsewhere, under the given flags. -/
def redirects (flags : Flags) : Instruction → Bool
  | jmp _ | call _ | ret | rst _ | pchl => true
  | jumpIf condition _ | callIf condition _ | returnIf condition => condition.holds flags
  | _ => false

/-- How an instruction may change the stack pointer, under the given flags. -/
def stackShift (flags : Flags) : Instruction → StackShift
  | push _ | call _ | rst _ => .down
  | callIf condition _ => if condition.holds flags then .down else .none
  | pop (.register .stackPointer) => .any
  | pop _ | ret => .up
  | returnIf condition => if condition.holds flags then .up else .none
  | sphl | lxi .stackPointer _ | inx .stackPointer | dcx .stackPointer => .any
  | _ => .none

/-- Whether an instruction sets the interrupt latch. -/
def switchesInterrupts : Instruction → Bool
  | interrupts _ => true
  | _ => false

/-- The bytes that a push from the given processor fills, in order. -/
def pushed (cpu : Cpu) : List Place :=
  [.memory (cpu.sp - 1), .memory (cpu.sp - 2)]

/-- The places outside the processor that an instruction addresses, in order. -/
def places (cpu : Cpu) : Instruction → List Place
  | mov .memory _ | mvi .memory _ | inr .memory | dcr .memory => [.memory cpu.hl]
  | sta address => [.memory address]
  | stax pointer => [.memory (cpu.pair pointer)]
  | shld address => [.memory address, .memory (address + 1)]
  | xthl => [.memory cpu.sp, .memory (cpu.sp + 1)]
  | push _ | call _ | rst _ => pushed cpu
  | callIf condition _ => if condition.holds cpu.flags then pushed cpu else []
  | input port => [.inputPort port]
  | output port => [.outputPort port]
  | _ => []

end Instruction

/-- The traces that an instruction leaves: the processor after it agrees with the one
before it outside of what the instruction may change, and the requests were directed to
the places that it addresses. -/
structure Footprint (instruction : Instruction) (before : Cpu) (requests : List Request)
    (after : Cpu) : Prop where
  cycles : after.cycles = before.cycles
  interrupts : instruction.switchesInterrupts = false → after.interrupts = before.interrupts
  pc : instruction.redirects before.flags = false → after.pc = before.pc
  sp : (instruction.stackShift before.flags).Allows before.sp after.sp
  flags : instruction.affected.Spares before.flags after.flags
  registers : ∀ register, register ∉ instruction.destinations →
    after.get register = before.get register
  places : requests.map Request.place = instruction.places before

namespace Cpu

/-- Two processors that differ in nothing but the byte registers. -/
structure SameControl (before after : Cpu) : Prop where
  sp : after.sp = before.sp
  pc : after.pc = before.pc
  flags : after.flags = before.flags
  interrupts : after.interrupts = before.interrupts
  cycles : after.cycles = before.cycles

theorem sameControl_set (cpu : Cpu) (register : Register) (value : UInt8) :
    cpu.SameControl (cpu.set register value) := by
  cases register <;> exact ⟨rfl, rfl, rfl, rfl, rfl⟩

theorem sameControl_setPair (cpu : Cpu) (name : Pair) (value : UInt16) :
    cpu.SameControl (cpu.setPair name value) := by
  cases name <;> exact ⟨rfl, rfl, rfl, rfl, rfl⟩

/-- Writing a pair is writing its two registers. -/
theorem setPair_eq_set (cpu : Cpu) (name : Pair) (value : UInt16) :
    cpu.setPair name value =
      (cpu.set name.high (highByte value)).set name.low (lowByte value) := by
  cases name <;> rfl

/-- Writing a register leaves the others as they are. -/
theorem get_set_of_not_mem (cpu : Cpu) {written register : Register}
    (outside : register ∉ [written]) (value : UInt8) :
    (cpu.set written value).get register = cpu.get register := by
  rw [get_set, if_neg (mt List.mem_singleton.mpr outside)]

/-- Writing a pair leaves the registers outside of it as they are. -/
theorem get_setPair_of_not_mem (cpu : Cpu) (name : Pair) {register : Register}
    (outside : register ∉ [name.high, name.low]) (value : UInt16) :
    (cpu.setPair name value).get register = cpu.get register := by
  obtain ⟨notHigh, notLow⟩ : register ≠ name.high ∧ register ≠ name.low := by
    simpa using outside
  rw [setPair_eq_set, get_set, if_neg notLow, get_set, if_neg notHigh]

end Cpu

theorem FlagGroup.spares_refl (group : FlagGroup) (flags : Flags) : group.Spares flags flags := by
  cases group <;> trivial

namespace Footprint

variable {instruction : Instruction} {before after : Cpu} {requests : List Request}

/-- An instruction that sets registers and flags only keeps to its footprint if it names
them. -/
theorem of_results (same : Cpu.SameControl { before with flags := after.flags } after)
    (sp : (instruction.stackShift before.flags).Allows before.sp before.sp)
    (flags : instruction.affected.Spares before.flags after.flags)
    (registers : ∀ register, register ∉ instruction.destinations →
      after.get register = before.get register)
    (places : requests.map Request.place = instruction.places before) :
    Footprint instruction before requests after where
  cycles := same.cycles
  interrupts := fun _ => same.interrupts
  pc := fun _ => same.pc
  sp := by rwa [same.sp]
  flags := flags
  registers := registers
  places := places

/-- An instruction that sets registers only keeps to its footprint if it names them. -/
theorem of_registers (same : before.SameControl after)
    (sp : (instruction.stackShift before.flags).Allows before.sp before.sp)
    (registers : ∀ register, register ∉ instruction.destinations →
      after.get register = before.get register)
    (places : instruction.places before = []) : Footprint instruction before [] after := by
  refine of_results ⟨same.sp, same.pc, rfl, same.interrupts, same.cycles⟩ sp ?_ registers
    places.symm
  rw [same.flags]
  exact FlagGroup.spares_refl ..

/-- An instruction that leaves the processor as it was keeps to its footprint if it addresses
its places. -/
theorem unchanged (sp : (instruction.stackShift before.flags).Allows before.sp before.sp)
    (places : requests.map Request.place = instruction.places before) :
    Footprint instruction before requests before :=
  of_results ⟨rfl, rfl, rfl, rfl, rfl⟩ sp (FlagGroup.spares_refl ..) (fun _ _ => rfl) places

end Footprint

namespace Instruction

section

variable (cpu : Cpu) (read : UInt16 → UInt8)

/-- A footprint kept by the exchange of an instruction, however the host answers. -/
def Keeps (instruction : Instruction) (exchange : Exchange Completion) : Prop :=
  exchange.Follows fun requests completion => Footprint instruction cpu requests completion.cpu

/-- A pop changes what it pops into and the stack pointer. -/
theorem pop_keeps (target : StackWord) :
    Keeps cpu (pop target) ((pop target).exchange cpu read) := by
  cases target with
  | status =>
    refine ⟨rfl, fun _ => rfl, fun _ => rfl, rfl, trivial, ?_, rfl⟩
    exact fun register outside => Cpu.get_set_of_not_mem { cpu.drop with flags := _ } outside _
  | register name =>
    cases name with
    | pair name =>
      have same := cpu.drop.sameControl_setPair name (cpu.top read)
      refine ⟨same.cycles, fun _ => same.interrupts, fun _ => same.pc, same.sp, same.flags, ?_,
        rfl⟩
      exact fun register outside => cpu.drop.get_setPair_of_not_mem name outside _
    | stackPointer =>
      exact ⟨rfl, fun _ => rfl, fun _ => rfl, trivial, rfl, fun _ _ => rfl, rfl⟩

/-- A conditional jump is a jump or does nothing. -/
theorem jumpIf_keeps (condition : Condition) (target : UInt16) :
    Keeps cpu (jumpIf condition target) ((jumpIf condition target).exchange cpu read) := by
  cases holds : condition.holds cpu.flags with
  | true =>
    simp only [exchange, holds, if_true]
    exact ⟨rfl, fun _ => rfl, fun stays => Bool.noConfusion (holds.symm.trans stays), rfl, rfl,
      fun _ _ => rfl, rfl⟩
  | false =>
    simp only [exchange, holds]
    exact .unchanged rfl rfl

/-- A conditional call is a call or does nothing. -/
theorem callIf_keeps (condition : Condition) (target : UInt16) :
    Keeps cpu (callIf condition target) ((callIf condition target).exchange cpu read) := by
  cases holds : condition.holds cpu.flags with
  | true =>
    have shift : stackShift cpu.flags (callIf condition target) = .down := if_pos holds
    have places : places cpu (callIf condition target) = pushed cpu := if_pos holds
    simp only [exchange, holds, if_true]
    exact ⟨rfl, fun _ => rfl, fun stays => Bool.noConfusion (holds.symm.trans stays),
      by rw [shift]; rfl, rfl, fun _ _ => rfl, places.symm⟩
  | false =>
    have fails := Bool.eq_false_iff.mp holds
    have shift : stackShift cpu.flags (callIf condition target) = .none := if_neg fails
    have places : places cpu (callIf condition target) = [] := if_neg fails
    simp only [exchange, holds]
    exact .unchanged (by rw [shift]; rfl) places.symm

/-- A conditional return is a return or does nothing. -/
theorem returnIf_keeps (condition : Condition) :
    Keeps cpu (returnIf condition) ((returnIf condition).exchange cpu read) := by
  cases holds : condition.holds cpu.flags with
  | true =>
    have shift : stackShift cpu.flags (returnIf condition) = .up := if_pos holds
    simp only [exchange, holds, if_true]
    exact ⟨rfl, fun _ => rfl, fun stays => Bool.noConfusion (holds.symm.trans stays),
      by rw [shift]; rfl, rfl, fun _ _ => rfl, rfl⟩
  | false =>
    have shift : stackShift cpu.flags (returnIf condition) = .none :=
      if_neg (Bool.eq_false_iff.mp holds)
    simp only [exchange, holds]
    exact .unchanged (by rw [shift]; rfl) rfl

/-- Every instruction keeps to its footprint, however the host answers. -/
theorem exchange_keeps (instruction : Instruction) :
    Keeps cpu instruction (instruction.exchange cpu read) := by
  cases instruction with
  | hlt | illegal => trivial
  | nop | sta | stax | shld | output => exact .unchanged rfl rfl
  | stc | cmc => exact .of_results ⟨rfl, rfl, rfl, rfl, rfl⟩ rfl rfl (fun _ _ => rfl) rfl
  | interrupts =>
    exact ⟨rfl, fun keeps => Bool.noConfusion keeps, fun _ => rfl, rfl, rfl, fun _ _ => rfl, rfl⟩
  | jmp | call | ret | rst | pchl =>
    exact ⟨rfl, fun _ => rfl, fun stays => Bool.noConfusion stays, rfl, rfl, fun _ _ => rfl, rfl⟩
  | push => exact ⟨rfl, fun _ => rfl, fun _ => rfl, rfl, rfl, fun _ _ => rfl, rfl⟩
  | sphl => exact ⟨rfl, fun _ => rfl, fun _ => rfl, trivial, rfl, fun _ _ => rfl, rfl⟩
  | pop target => exact pop_keeps cpu read target
  | jumpIf condition target => exact jumpIf_keeps cpu read condition target
  | callIf condition target => exact callIf_keeps cpu read condition target
  | returnIf condition => exact returnIf_keeps cpu read condition
  | mov target | mvi target =>
    cases target with
    | register name =>
      refine .of_registers (cpu.sameControl_set name _) rfl ?_ rfl
      exact fun register outside => cpu.get_set_of_not_mem outside _
    | memory => exact .unchanged rfl rfl
  | inr target | dcr target =>
    cases target with
    | register name =>
      have same (flags : Flags) (value : UInt8) :=
        Cpu.sameControl_set { cpu with flags } name value
      refine .of_results ⟨(same _ _).sp, (same _ _).pc, rfl, (same _ _).interrupts,
        (same _ _).cycles⟩ rfl ((congrArg Flags.carry (same _ _).flags).trans rfl) ?_ rfl
      exact fun register outside => Cpu.get_set_of_not_mem { cpu with flags := _ } outside _
    | memory => exact .of_results ⟨rfl, rfl, rfl, rfl, rfl⟩ rfl rfl (fun _ _ => rfl) rfl
  | accumulate operation | accumulateImmediate operation =>
    cases operation with
    | cmp => exact .of_results ⟨rfl, rfl, rfl, rfl, rfl⟩ rfl trivial (fun _ _ => rfl) rfl
    | _ =>
      refine .of_results ⟨rfl, rfl, rfl, rfl, rfl⟩ rfl trivial ?_ rfl
      exact fun register outside => Cpu.get_set_of_not_mem { cpu with flags := _ } outside _
  | daa =>
    refine .of_results ⟨rfl, rfl, rfl, rfl, rfl⟩ rfl trivial ?_ rfl
    exact fun register outside => Cpu.get_set_of_not_mem { cpu with flags := _ } outside _
  | rotate =>
    refine .of_results ⟨rfl, rfl, rfl, rfl, rfl⟩ rfl rfl ?_ rfl
    exact fun register outside => Cpu.get_set_of_not_mem { cpu with flags := _ } outside _
  | cma | lda | ldax =>
    refine .of_registers (cpu.sameControl_set .a _) rfl ?_ rfl
    exact fun register outside => cpu.get_set_of_not_mem outside _
  | input port =>
    intro value
    refine .of_results ⟨rfl, rfl, rfl, rfl, rfl⟩ rfl rfl ?_ rfl
    exact fun register outside => cpu.get_set_of_not_mem outside value
  | inx target | dcx target | lxi target =>
    cases target with
    | pair name =>
      refine .of_registers (cpu.sameControl_setPair name _) rfl ?_ rfl
      exact fun register outside => cpu.get_setPair_of_not_mem name outside _
    | stackPointer => exact ⟨rfl, fun _ => rfl, fun _ => rfl, trivial, rfl, fun _ _ => rfl, rfl⟩
  | dad =>
    refine .of_results ⟨rfl, rfl, rfl, rfl, rfl⟩ rfl rfl ?_ rfl
    exact fun register outside =>
      Cpu.get_setPair_of_not_mem { cpu with flags := _ } .hl outside _
  | lhld | xthl =>
    refine .of_results ⟨rfl, rfl, rfl, rfl, rfl⟩ rfl rfl ?_ rfl
    exact fun register outside => cpu.get_setPair_of_not_mem .hl outside _
  | xchg =>
    refine .of_registers ⟨rfl, rfl, rfl, rfl, rfl⟩ rfl ?_ rfl
    intro register outside
    cases register with
    | b | c | a => rfl
    | d | e | h | l => exact absurd (by decide) outside

end

/-- The footprint of every instruction, executed on any host. An instruction that completes
has charged no cycles; it has changed the interrupt latch, the program counter, the stack
pointer, the flags and the registers no further than its kind allows; and what it asked of
its host were requests to the places it addresses. -/
theorem execute_footprint {σ : Type} [Host σ] {instruction : Instruction} {cpu after : Cpu}
    {host afterHost : σ} {extra : UInt8}
    (executed : instruction.execute cpu host = ⟨.ok extra, after, afterHost⟩) :
    Footprint instruction cpu
      ((instruction.exchange cpu (Host.read host)).requests host) after := by
  exact (exchange_keeps cpu (Host.read host) instruction).of_run (run_of_execute executed)

/-- A call that is taken, with the stack at the bottom of memory: it fills the first byte of
memory and then the last, and moves nothing but the stack pointer and the program
counter. -/
theorem execute_footprint_across_zero :
    let call := callIf ⟨.zero, true⟩ 0x1234
    let cpu : Cpu := { b := 7, a := 9, sp := 0x0001, pc := 0x0203, flags := { zero := true } }
    let after : Cpu := { cpu with sp := 0xFFFF, pc := 0x1234 }
    let requests := (call.exchange cpu (Host.read Board.blank)).requests Board.blank
    (∃ host, call.execute cpu Board.blank = ⟨.ok 6, after, host⟩) ∧
      Footprint call cpu requests after ∧
      requests.map Request.place = [.memory 0x0000, .memory 0xFFFF] := by
  intro call cpu after requests
  obtain ⟨host, executed⟩ : ∃ host, call.execute cpu Board.blank = ⟨.ok 6, after, host⟩ :=
    ⟨_, rfl⟩
  have footprint := execute_footprint executed
  exact ⟨⟨host, executed⟩, footprint, footprint.places.trans (by decide)⟩

end Instruction

end Intel8080
