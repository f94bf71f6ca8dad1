import Mathlib.Data.List.Infix
import Intel8080.Machine
import Intel8080.Proofs.Cost
import Intel8080.Proofs.Stack

/-!
# The stack as a list

A program saves words on its stack and takes them back in the opposite order.
`StackMachine` does so without memory: it has a list of words instead. Moves are made on
both, on a machine by executing instructions and requesting interrupts, on the abstract one
by pushing and popping the list. Between them the processor may change in any way that
leaves the stack pointer alone.

On a plain board an approved move does what its kind says, to the word below the stack
pointer or to the word at it, and nothing else. The stack pointer itself has no other part
in a move. On the abstract machine, moves that take back what they save leave the stack as
it was.
-/

namespace Intel8080

/-- What a program saves with a push: a register pair, or the accumulator with the flags. -/
inductive Content where
  | pair (name : Pair)
  | status
  deriving DecidableEq, Repr

/-- The operand of the instructions that push and pop a content. -/
def Content.operand : Content → StackWord
  | pair name => .register (.pair name)
  | status => .status

/-- Whether two processors have the same content. -/
def Content.Same (before after : Cpu) : Content → Prop
  | pair name => after.pair name = before.pair name
  | status => after.a = before.a ∧ after.flags = before.flags

/-- A move that saves a word on the stack. -/
inductive Save where
  | push (content : Content)
  | call (target : UInt16)
  | callIf (condition : Condition) (target : UInt16)
  | rst (number : UInt8)
  /-- An interrupt request at a restart address. -/
  | interrupt (address : UInt8)
  deriving DecidableEq, Repr

/-- A move that takes back the word that was saved last. -/
inductive Restore where
  | pop (content : Content)
  | ret
  | returnIf (condition : Condition)
  deriving DecidableEq, Repr

/-- A move of a program that uses its stack. -/
inductive StackMove where
  | save (save : Save)
  | restore (restore : Restore)
  /-- Any change to the processor, except for the stack pointer. -/
  | adjust (cpu : Cpu)
  deriving DecidableEq, Repr

namespace Save

/-- Whether the move is made: a conditional call must be taken, an interrupt accepted. -/
def approved (cpu : Cpu) : Save → Bool
  | callIf condition _ => condition.holds cpu.flags
  | interrupt address => cpu.interrupts && (Instruction.restartTo? address).isSome
  | _ => true

/-- The word that is saved. -/
def word (cpu : Cpu) : Save → UInt16
  | push content => cpu.getStackWord content.operand
  | _ => cpu.pc

/-- How the processor goes on, apart from the stack pointer. -/
def resume (cpu : Cpu) : Save → Cpu
  | push _ => cpu
  | call target | callIf _ target => { cpu with pc := target }
  | rst number => { cpu with pc := number.toUInt16 * 8 }
  | interrupt address =>
    { cpu with pc := address.toUInt16, interrupts := false, cycles := cpu.cycles + 11 }

/-- Whether the word that is saved is the program counter. -/
def enters : Save → Bool
  | push _ => false
  | _ => true

end Save

namespace Restore

/-- Whether the move is made: a conditional return must be taken. -/
def approved (cpu : Cpu) : Restore → Bool
  | returnIf condition => condition.holds cpu.flags
  | _ => true

/-- How the processor goes on with the word that it takes back, apart from the stack
pointer. -/
def receive (word : UInt16) (cpu : Cpu) : Restore → Cpu
  | pop content => cpu.setStackWord content.operand word
  | _ => { cpu with pc := word }

/-- Whether the word that is taken back becomes the program counter. -/
def leaves : Restore → Bool
  | pop _ => false
  | _ => true

end Restore

namespace StackMove

/-- What a move adds to the depth of the stack. -/
def effect : StackMove → Int
  | save _ => 1
  | restore _ => -1
  | adjust _ => 0

/-- The depth of the stack after some moves. -/
def depth : List StackMove → Int
  | [] => 0
  | move :: rest => move.effect + depth rest

/-- The depth stays between zero and a bound. -/
def Within (deepest : Nat) (moves : List StackMove) : Prop :=
  ∀ made, made <+: moves → 0 ≤ depth made ∧ depth made ≤ deepest

instance (deepest : Nat) (moves : List StackMove) : Decidable (Within deepest moves) :=
  decidable_of_iff (∀ made ∈ moves.inits, 0 ≤ depth made ∧ depth made ≤ deepest)
    (by simp only [Within, List.mem_inits])

/-- Everything is taken back that was saved, and nothing else. -/
def Balanced (moves : List StackMove) : Prop :=
  (∀ made, made <+: moves → 0 ≤ depth made) ∧ depth moves = 0

instance (moves : List StackMove) : Decidable (Balanced moves) :=
  decidable_of_iff ((∀ made ∈ moves.inits, 0 ≤ depth made) ∧ depth moves = 0)
    (by simp only [Balanced, List.mem_inits])

end StackMove

namespace Machine

variable {σ : Type} [Host σ]

/-- Executes an instruction that is given to the processor directly. -/
def carryOut (machine : Machine σ) (instruction : Instruction) : Option (Machine σ) :=
  match instruction.execute machine.cpu machine.host with
  | ⟨.ok _, cpu, host⟩ => some { machine with cpu, host }
  | ⟨.error _, _, _⟩ => none

/-- Saves a word; none if the move is not approved or fails. -/
def save (machine : Machine σ) : Save → Option (Machine σ)
  | .push content => machine.carryOut (.push content.operand)
  | .call target => machine.carryOut (.call target)
  | .callIf condition target =>
    if condition.holds machine.cpu.flags then machine.carryOut (.callIf condition target)
    else none
  | .rst number => machine.carryOut (.rst number)
  | .interrupt address =>
    match machine.interrupt address with
    | .ok true after => some after
    | _ => none

/-- Takes a word back; none if the move is not approved or fails. -/
def restore (machine : Machine σ) : Restore → Option (Machine σ)
  | .pop content => machine.carryOut (.pop content.operand)
  | .ret => machine.carryOut .ret
  | .returnIf condition =>
    if condition.holds machine.cpu.flags then machine.carryOut (.returnIf condition) else none

/-- Makes a move. -/
def makeMove (machine : Machine σ) : StackMove → Option (Machine σ)
  | .save save => machine.save save
  | .restore restore => machine.restore restore
  | .adjust cpu => some { machine with cpu := { cpu with sp := machine.cpu.sp } }

/-- Makes moves one after another. -/
def makeMoves (machine : Machine σ) (moves : List StackMove) : Option (Machine σ) :=
  moves.foldlM makeMove machine

end Machine

/-- A processor with an abstract stack, whose top is the head of a list. -/
structure StackMachine where
  cpu : Cpu
  stack : List UInt16 := []
  deriving DecidableEq, Repr

namespace StackMachine

/-- Saves a word; none if the move is not approved. -/
def save (machine : StackMachine) (save : Save) : Option StackMachine :=
  if save.approved machine.cpu then
    some ⟨save.resume machine.cpu, save.word machine.cpu :: machine.stack⟩
  else none

/-- Takes a word back; none if there is none or the move is not approved. -/
def restore (machine : StackMachine) (restore : Restore) : Option StackMachine :=
  match machine.stack with
  | [] => none
  | word :: rest =>
    if restore.approved machine.cpu then some ⟨restore.receive word machine.cpu, rest⟩ else none

/-- Makes a move. -/
def makeMove (machine : StackMachine) : StackMove → Option StackMachine
  | .save save => machine.save save
  | .restore restore => machine.restore restore
  | .adjust cpu => some { machine with cpu := { cpu with sp := machine.cpu.sp } }

/-- Makes moves one after another. -/
def makeMoves (machine : StackMachine) (moves : List StackMove) : Option StackMachine :=
  moves.foldlM makeMove machine

end StackMachine

namespace Machine

variable {machine : Machine Board}

/-- What an approved save does: the word is pushed, and the processor goes on. -/
theorem save_board (running : machine.status = .running) (save : Save) :
    machine.save save =
      if save.approved machine.cpu then
        some { machine with
          cpu := { save.resume machine.cpu with sp := machine.cpu.sp - 2 }
          host := machine.host.pushed machine.cpu.sp (save.word machine.cpu) }
      else none := by
  cases save with
  | push content | call target | rst number => rfl
  | callIf condition target =>
    cases holds : condition.holds machine.cpu.flags with
    | true =>
      simp only [Machine.save, Save.approved, holds, if_true, carryOut, Instruction.execute,
        Instruction.exchange]
      rfl
    | false => simp [Machine.save, Save.approved, holds]
  | interrupt address =>
    obtain ⟨host, cpu, table, status⟩ := machine
    obtain rfl : status = .running := running
    cases restarts : Instruction.restartTo? address with
    | none => simp [Machine.save, Save.approved, interrupt, restarts]
    | some restart =>
      obtain ⟨number, rfl, entry⟩ := Instruction.eq_rst_of_restartTo? restarts
      cases enabled : cpu.interrupts with
      | false => simp [Machine.save, Save.approved, interrupt, restarts, inject, enabled]
      | true =>
        simp only [Machine.save, Save.approved, interrupt, restarts, inject, enabled, Save.resume,
          ← entry]
        rfl

/-- What an approved restoring move does: the word on top of the stack is received. -/
theorem restore_board (restore : Restore) :
    machine.restore restore =
      if restore.approved machine.cpu then
        some { machine with
          cpu := { restore.receive (wordAt machine.host.read machine.cpu.sp) machine.cpu with
            sp := machine.cpu.sp + 2 } }
      else none := by
  cases restore with
  | pop content =>
    cases content with
    | pair name => cases name <;> rfl
    | status => rfl
  | ret => rfl
  | returnIf condition =>
    cases holds : condition.holds machine.cpu.flags with
    | true =>
      simp only [Machine.restore, Restore.approved, holds, if_true, carryOut, Instruction.execute,
        Instruction.exchange]
      rfl
    | false => simp [Machine.restore, Restore.approved, holds]

end Machine

namespace Save

variable (cpu : Cpu) (sp : UInt16)

/-! The stack pointer says where a word goes, and nothing else. -/

theorem approved_sp (save : Save) : save.approved { cpu with sp } = save.approved cpu := by
  cases save <;> rfl

theorem word_sp (save : Save) : save.word { cpu with sp } = save.word cpu := by
  cases save with
  | push content =>
    cases content with
    | pair name => cases name <;> rfl
    | status => rfl
  | _ => rfl

theorem resume_sp (save : Save) (other : UInt16) :
    { save.resume { cpu with sp } with sp := other } = { save.resume cpu with sp := other } := by
  cases save <;> rfl

end Save

namespace Restore

variable (cpu : Cpu) (sp : UInt16)

theorem approved_sp (restore : Restore) :
    restore.approved { cpu with sp } = restore.approved cpu := by
  cases restore <;> rfl

theorem receive_sp (restore : Restore) (word other : UInt16) :
    { restore.receive word { cpu with sp } with sp := other } =
      { restore.receive word cpu with sp := other } := by
  cases restore with
  | pop content =>
    cases content with
    | pair name => cases name <;> rfl
    | status => rfl
  | _ => rfl

/-- What a push saved is there again after the pop of the same content, whatever the
processor was in between. -/
theorem same_receive (content : Content) (before last : Cpu) :
    content.Same before
      { (pop content).receive ((Save.push content).word before) last with sp } := by
  cases content with
  | pair name =>
    have restored := Cpu.pair_setPair last name (before.pair name)
    cases name <;> exact restored
  | status =>
    have restored := Cpu.setStatus_status before last
    have accumulator : (last.setStatus before.status).a = before.a := by rw [restored]
    have flags : (last.setStatus before.status).flags = before.flags := by rw [restored]
    exact ⟨accumulator, flags⟩

end Restore

namespace StackMove

@[simp] theorem depth_nil : depth [] = 0 := rfl

@[simp] theorem depth_cons (move : StackMove) (rest : List StackMove) :
    depth (move :: rest) = move.effect + depth rest := rfl

@[simp] theorem depth_concat (moves : List StackMove) (move : StackMove) :
    depth (moves ++ [move]) = depth moves + move.effect := by
  induction moves with
  | nil => exact Int.add_comm ..
  | cons first rest inductionHypothesis =>
    rw [List.cons_append, depth_cons, inductionHypothesis, depth_cons, Int.add_assoc]

end StackMove

namespace StackMachine

/-- A move changes the height of the stack by its effect, and takes nothing from the words
at the bottom unless it goes below them. -/
theorem stack_of_makeMove {machine after : StackMachine} {move : StackMove}
    {top bottom : List UInt16} (stack : machine.stack = top ++ bottom)
    (above : 0 ≤ (top.length : Int) + move.effect) (made : machine.makeMove move = some after) :
    ∃ left, after.stack = left ++ bottom ∧ (left.length : Int) = top.length + move.effect := by
  cases move with
  | save save =>
    simp only [makeMove, StackMachine.save] at made
    split at made
    · obtain rfl := Option.some.inj made
      refine ⟨save.word machine.cpu :: top, by rw [stack]; rfl, rfl⟩
    · cases made
  | restore restore =>
    cases top with
    | nil => simp [StackMove.effect] at above
    | cons word rest =>
      simp only [makeMove, StackMachine.restore, stack, List.cons_append] at made
      split at made
      · obtain rfl := Option.some.inj made
        refine ⟨rest, rfl, ?_⟩
        simp only [List.length_cons, StackMove.effect]
        omega
      · cases made
  | adjust cpu =>
    obtain rfl := Option.some.inj made
    exact ⟨top, stack, by simp [StackMove.effect]⟩

theorem stack_of_makeMoves {machine after : StackMachine} {moves : List StackMove}
    {top bottom : List UInt16} (stack : machine.stack = top ++ bottom)
    (above : ∀ made, made <+: moves → 0 ≤ (top.length : Int) + StackMove.depth made)
    (made : machine.makeMoves moves = some after) :
    ∃ left, after.stack = left ++ bottom ∧
      (left.length : Int) = top.length + StackMove.depth moves := by
  -- Only what lies above `bottom` changes, and its height is what bounds the next move.
  induction moves generalizing machine top with
  | nil =>
    obtain rfl := Option.some.inj made
    exact ⟨top, stack, by simp⟩
  | cons move rest inductionHypothesis =>
    simp only [makeMoves, List.foldlM_cons, Option.bind_eq_bind, Option.bind_eq_some_iff] at made
    obtain ⟨next, first, remaining⟩ := made
    have start := above [move] ⟨rest, rfl⟩
    obtain ⟨middle, nextStack, height⟩ := stack_of_makeMove stack (by simpa using start) first
    have later (tail : List StackMove) (inside : tail <+: rest) :
        0 ≤ (middle.length : Int) + StackMove.depth tail := by
      have bound := above (move :: tail) (List.cons_prefix_cons.mpr ⟨rfl, inside⟩)
      rw [StackMove.depth_cons] at bound
      omega
    obtain ⟨left, afterStack, total⟩ := inductionHypothesis nextStack later remaining
    refine ⟨left, afterStack, ?_⟩
    rw [total, height, StackMove.depth_cons]
    omega

/-- Balanced moves leave the stack as it was. -/
theorem stack_of_balanced {machine after : StackMachine} {moves : List StackMove}
    (balanced : StackMove.Balanced moves) (made : machine.makeMoves moves = some after) :
    after.stack = machine.stack := by
  obtain ⟨above, level⟩ := balanced
  obtain ⟨left, stack, height⟩ :=
    stack_of_makeMoves (List.nil_append machine.stack).symm (by simpa using above) made
  rw [level] at height
  obtain rfl : left = [] := by simpa using height
  exact stack

end StackMachine

end Intel8080
