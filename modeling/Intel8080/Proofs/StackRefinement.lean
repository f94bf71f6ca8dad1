import Intel8080.Proofs.StackMoves

/-!
# The stack in memory refines the list

As long as no more is taken from the stack than was saved and the stack does not grow over
the whole memory, a machine on a plain board and the abstract one cannot be told apart. They
decline the same moves, their processors agree but for the stack pointer, which follows from
the depth of the stack, and no other memory is touched.

One move keeps the two machines together, so a sequence of moves does. A move that takes a
word back therefore receives the word that the matching move saved, whatever has been saved
and taken back in between.
-/

namespace Intel8080

/-- A machine that began as `initial` keeps in memory what an abstract machine keeps on its
stack. -/
structure Represents (initial : Machine Board) (deepest : Nat) (moves : List StackMove)
    (machine : Machine Board) (abstract : StackMachine) : Prop where
  running : machine.status = .running
  /-- There are as many words on the stack as the moves have left there. -/
  depth : (abstract.stack.length : Int) = StackMove.depth moves
  /-- The stack pointer is two bytes for each word below where it began. -/
  sp : machine.cpu.sp = pointerAt initial.cpu.sp abstract.stack.length
  /-- The processors agree but for the stack pointer. -/
  cpu : machine.cpu = { abstract.cpu with sp := machine.cpu.sp }
  words : Stacked machine.host.read machine.cpu.sp abstract.stack
  /-- Memory is as it began, except for the bytes that the deepest stack would fill. -/
  outside : ∀ address, ¬ Below initial.cpu.sp (2 * deepest) address →
    machine.host.read address = initial.host.read address

/-- Both machines begin with an empty stack. -/
theorem Represents.initially {initial : Machine Board} (running : initial.status = .running)
    (deepest : Nat) : Represents initial deepest [] initial ⟨initial.cpu, []⟩ where
  running := running
  depth := rfl
  sp := (pointerAt_zero initial.cpu.sp).symm
  cpu := rfl
  words := trivial
  outside := fun _ _ => rfl

namespace Represents

variable {initial machine : Machine Board} {deepest : Nat} {moves : List StackMove}
  {abstract : StackMachine}

/-- A save keeps the two machines together while there is room. -/
theorem save (represents : Represents initial deepest moves machine abstract)
    (room : abstract.stack.length < deepest) (fits : deepest ≤ 32768) (save : Save) :
    Option.Rel (Represents initial deepest (moves ++ [.save save])) (machine.save save)
      (abstract.save save) := by
  have approved : save.approved machine.cpu = save.approved abstract.cpu := by
    rw [represents.cpu, Save.approved_sp]
  have word : save.word machine.cpu = save.word abstract.cpu := by
    rw [represents.cpu, Save.word_sp]
  have resumed (sp : UInt16) :
      { save.resume machine.cpu with sp } = { save.resume abstract.cpu with sp } := by
    rw [represents.cpu, Save.resume_sp]
  rw [Machine.save_board represents.running, StackMachine.save, approved]
  cases save.approved abstract.cpu with
  | false => exact .none
  | true =>
    refine .some ⟨represents.running, ?_, ?_, resumed _, ?_, ?_⟩
    · rw [StackMove.depth_concat, ← represents.depth]
      rfl
    · exact (congrArg (· - 2) represents.sp).trans (pointerAt_succ ..).symm
    · rw [← word]
      exact Board.stacked_pushed represents.words (by omega) _
    · intro address apart
      have filled := @below_of_push initial.cpu.sp _ _ room
      rw [← represents.sp] at filled
      obtain ⟨high, low⟩ := filled
      have notLow : address ≠ machine.cpu.sp - 2 := fun same => apart (same ▸ low)
      have notHigh : address ≠ machine.cpu.sp - 1 := fun same => apart (same ▸ high)
      rw [← represents.outside address apart]
      exact (Board.read_pushed ..).trans (by rw [if_neg notLow, if_neg notHigh])

/-- A restoring move receives the word on top of the abstract stack. -/
theorem restore (represents : Represents initial deepest moves machine abstract)
    (occupied : 0 < abstract.stack.length) (restore : Restore) :
    Option.Rel (Represents initial deepest (moves ++ [.restore restore]))
      (machine.restore restore) (abstract.restore restore) := by
  obtain ⟨cpu, stack⟩ := abstract
  cases stack with
  | nil => cases occupied
  | cons top rest =>
    obtain ⟨here, above⟩ := represents.words
    have approved : restore.approved machine.cpu = restore.approved cpu := by
      rw [represents.cpu, Restore.approved_sp]
    have received (sp : UInt16) :
        { restore.receive top machine.cpu with sp } = { restore.receive top cpu with sp } := by
      rw [represents.cpu, Restore.receive_sp]
    have depth := represents.depth
    have sp := represents.sp
    simp only [List.length_cons, pointerAt_succ] at depth sp
    rw [Machine.restore_board, StackMachine.restore, approved, here]
    cases restore.approved cpu with
    | false => exact .none
    | true =>
      refine .some ⟨represents.running, ?_, ?_, received _, above, represents.outside⟩
      · simp only [StackMove.depth_concat, StackMove.effect, ← depth]
        omega
      · rw [sp, UInt16.sub_add_cancel]

/-- A change to the processor is the same on both machines. -/
theorem adjust (represents : Represents initial deepest moves machine abstract) (cpu : Cpu) :
    Option.Rel (Represents initial deepest (moves ++ [.adjust cpu]))
      (machine.makeMove (.adjust cpu)) (abstract.makeMove (.adjust cpu)) := by
  refine .some ⟨represents.running, ?_, represents.sp, rfl, represents.words,
    represents.outside⟩
  rw [StackMove.depth_concat, ← represents.depth]
  rfl

/-- A move keeps the two machines together if it keeps the depth in bounds. -/
theorem makeMove (represents : Represents initial deepest moves machine abstract)
    (fits : deepest ≤ 32768) (move : StackMove) (least : 0 ≤ StackMove.depth (moves ++ [move]))
    (most : StackMove.depth (moves ++ [move]) ≤ deepest) :
    Option.Rel (Represents initial deepest (moves ++ [move])) (machine.makeMove move)
      (abstract.makeMove move) := by
  rw [StackMove.depth_concat, ← represents.depth] at least most
  cases move with
  | save save =>
    simp only [StackMove.effect] at most
    exact represents.save (by omega) fits save
  | restore restore =>
    simp only [StackMove.effect] at least
    exact represents.restore (by omega) restore
  | adjust cpu => exact represents.adjust cpu

/-- Moves keep the two machines together. -/
theorem makeMoves (fits : deepest ≤ 32768) {later : List StackMove}
    (represents : Represents initial deepest moves machine abstract)
    (within : StackMove.Within deepest (moves ++ later)) :
    Option.Rel (Represents initial deepest (moves ++ later)) (machine.makeMoves later)
      (abstract.makeMoves later) := by
  -- The moves already made grow from step to step; the induction is on those to come.
  induction later generalizing moves machine abstract with
  | nil =>
    rw [List.append_nil]
    exact .some represents
  | cons move rest inductionHypothesis =>
    have regrouped : moves ++ move :: rest = (moves ++ [move]) ++ rest := by simp
    rw [regrouped] at within ⊢
    obtain ⟨least, most⟩ := within (moves ++ [move]) (List.prefix_append ..)
    have step := represents.makeMove fits move least most
    simp only [Machine.makeMoves, StackMachine.makeMoves, List.foldlM_cons]
    generalize machine.makeMove move = concrete at step ⊢
    generalize abstract.makeMove move = ideal at step ⊢
    cases step with
    | none => exact .none
    | some next => exact inductionHypothesis next within

end Represents

/-- What is related to a value is a value. -/
theorem exists_of_rel {α β : Type} {r : α → β → Prop} {concrete : Option α} {ideal : Option β}
    {value : α} (related : Option.Rel r concrete ideal) (reached : concrete = some value) :
    ∃ other, ideal = some other ∧ r value other := by
  cases related with
  | some holds =>
    obtain rfl := Option.some.inj reached
    exact ⟨_, rfl, holds⟩
  | none => cases reached

/-- A restoring move receives the word that the matching save has stored, and leaves the
stack pointer where that save found it. -/
theorem restore_matching {initial : Machine Board} (running : initial.status = .running)
    {deepest : Nat} (fits : deepest ≤ 32768) {earlier inner : List StackMove} {save : Save}
    {restore : Restore}
    (within : StackMove.Within deepest (earlier ++ .save save :: (inner ++ [.restore restore])))
    (balanced : StackMove.Balanced inner) {before entered last after : Machine Board}
    (reached : initial.makeMoves earlier = some before)
    (saved : before.save save = some entered) (moved : entered.makeMoves inner = some last)
    (restored : last.restore restore = some after) :
    after.cpu =
      { restore.receive (save.word before.cpu) last.cpu with sp := before.cpu.sp } := by
  have toBefore : StackMove.Within deepest ([] ++ earlier) :=
    fun made inside => within made (inside.trans (List.prefix_append ..))
  have entering : StackMove.Within deepest (earlier ++ [.save save]) :=
    fun made inside => within made (inside.trans (by simp))
  have toLast : StackMove.Within deepest ((earlier ++ [.save save]) ++ inner) :=
    fun made inside => within made (inside.trans (by simp))
  obtain ⟨idealBefore, -, representsBefore⟩ :=
    exists_of_rel ((Represents.initially running deepest).makeMoves fits toBefore) reached
  obtain ⟨least, most⟩ := entering _ (List.prefix_refl _)
  obtain ⟨idealEntered, idealSaved, representsEntered⟩ :=
    exists_of_rel (representsBefore.makeMove fits (.save save) least most) saved
  obtain ⟨idealLast, idealMoved, representsLast⟩ :=
    exists_of_rel (representsEntered.makeMoves fits toLast) moved
  have word : save.word before.cpu = save.word idealBefore.cpu := by
    rw [representsBefore.cpu, Save.word_sp]
  have stack : idealLast.stack = save.word before.cpu :: idealBefore.stack := by
    rw [StackMachine.stack_of_balanced balanced idealMoved, word]
    simp only [StackMachine.makeMove, StackMachine.save] at idealSaved
    split at idealSaved
    · obtain rfl := Option.some.inj idealSaved
      rfl
    · cases idealSaved
  have words := representsLast.words
  have sp := representsLast.sp
  simp only [stack, List.length_cons, pointerAt_succ, ← representsBefore.sp] at words sp
  have onTop : wordAt last.host.read last.cpu.sp = save.word before.cpu := words.1
  have back : last.cpu.sp + 2 = before.cpu.sp := by rw [sp, UInt16.sub_add_cancel]
  rw [Machine.restore_board, onTop, back] at restored
  split at restored
  · obtain rfl := Option.some.inj restored
    rfl
  · cases restored

/-- The stack in memory refines the list. Whatever moves are made, from whatever state, as
long as the depth of the stack stays between zero and 32768: the machine makes exactly the
moves that the abstract machine makes, and afterwards represents it. A move that takes a
word back receives the one that the matching move saved. So a popped pair or status is the
one that was pushed, and a return continues where the program was left. -/
theorem stack_refines_list {initial : Machine Board} (running : initial.status = .running)
    {deepest : Nat} (fits : deepest ≤ 32768) :
    (∀ moves, StackMove.Within deepest moves →
      Option.Rel (Represents initial deepest moves) (initial.makeMoves moves)
        (StackMachine.makeMoves ⟨initial.cpu, []⟩ moves)) ∧
      ∀ earlier save inner restore before entered last after,
        StackMove.Within deepest (earlier ++ .save save :: (inner ++ [.restore restore])) →
          StackMove.Balanced inner → initial.makeMoves earlier = some before →
            before.save save = some entered → entered.makeMoves inner = some last →
              last.restore restore = some after →
                after.cpu = { restore.receive (save.word before.cpu) last.cpu with
                  sp := before.cpu.sp } ∧
                (∀ content, save = .push content → restore = .pop content →
                  content.Same before.cpu after.cpu) ∧
                (save.enters → restore.leaves → after.cpu.pc = before.cpu.pc) := by
  refine ⟨fun moves within => (Represents.initially running deepest).makeMoves fits within, ?_⟩
  intro earlier save inner restore before entered last after within balanced reached saved moved
    restored
  have received := restore_matching running fits within balanced reached saved moved restored
  refine ⟨received, ?_, ?_⟩
  · rintro content rfl rfl
    rw [received]
    exact Restore.same_receive before.cpu.sp content before.cpu last.cpu
  · intro enters leaves
    rw [received]
    cases restore with
    | pop => cases leaves
    | ret | returnIf =>
      cases save with
      | push => cases enters
      | _ => rfl

/-- A machine whose stack begins one byte above the bottom of memory. -/
def nearBottom : Machine Board :=
  ⟨Board.blank, { a := 0x12, sp := 0x0001, pc := 0x0100, flags := { carry := true } },
    .canonical, .running⟩

/-- A routine that saves the status, calls another one, and ends as it began although the
accumulator and the flags were changed meanwhile. Its stack lies across the top of memory. -/
theorem stack_refines_list_across_zero :
    let inner : List StackMove :=
      [.save (.call 0x0200), .adjust { a := 0x99, pc := 0x0208 }, .restore .ret]
    let moves : List StackMove :=
      [] ++ .save (.push .status) :: (inner ++ [.restore (.pop .status)])
    (nearBottom.status = .running ∧ 2 ≤ 32768 ∧ StackMove.Within 2 moves ∧
      ∃ after, nearBottom.makeMoves moves = some after ∧ after.cpu = nearBottom.cpu ∧
        after.host.read 0x0001 = 0) ∧
      ∃ entered last after, nearBottom.save (.push .status) = some entered ∧
        entered.makeMoves inner = some last ∧ last.restore (.pop .status) = some after ∧
        after.cpu.a = 0x12 ∧ after.cpu.flags = { carry := true } := by
  intro inner moves
  have within : StackMove.Within 2 moves := by decide
  have balanced : StackMove.Balanced inner := by decide
  obtain ⟨refines, matching⟩ :=
    stack_refines_list (rfl : nearBottom.status = .running) (by decide : 2 ≤ 32768)
  constructor
  · have represented := refines moves within
    have abstract : StackMachine.makeMoves ⟨nearBottom.cpu, []⟩ moves =
        some ⟨nearBottom.cpu, []⟩ := by
      decide
    have apart : ¬ Below 0x0001 4 0x0001 := by
      rintro ⟨distance, least, most, same⟩
      have distances := congrArg UInt16.toNat same
      simp only [UInt16.toNat_sub, UInt16.toNat_ofNat', UInt16.reduceToNat] at distances
      omega
    rw [abstract] at represented
    generalize nearBottom.makeMoves moves = reached at represented ⊢
    cases represented with
    | some represents =>
      refine ⟨rfl, by decide, within, _, rfl, ?_, ?_⟩
      · rw [represents.cpu, represents.sp]
        rfl
      · rw [represents.outside 0x0001 apart]
        exact Memory.read_blank 1
  · obtain ⟨entered, saved⟩ : ∃ entered, nearBottom.save (.push .status) = some entered :=
      ⟨_, rfl⟩
    obtain ⟨last, moved⟩ : ∃ last, entered.makeMoves inner = some last := by
      obtain rfl := Option.some.inj saved
      exact ⟨_, rfl⟩
    obtain ⟨after, restored⟩ : ∃ after, last.restore (.pop .status) = some after := ⟨_, rfl⟩
    obtain ⟨-, same, -⟩ :=
      matching [] (.push .status) inner (.pop .status) nearBottom entered last after within
        balanced rfl saved moved restored
    exact ⟨entered, last, after, saved, moved, restored, same .status rfl rfl⟩

end Intel8080
