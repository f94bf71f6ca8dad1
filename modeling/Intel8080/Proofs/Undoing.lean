import Mathlib.Data.List.Rotate
import Intel8080.Proofs.Chains
import Intel8080.Proofs.Locality
import Intel8080.Proofs.Stack

/-!
# Instructions that undo each other

An exchange made twice, a complement taken twice, a step up and a step down leave everything
as it was. So does a store followed by the load from the same place, but for the bytes that
were stored.

The accumulator and the carry are nine bits on a ring. A rotation through the carry moves all
of them by one place, to the left or, which is the same on a ring, by eight places to the
right. A sequence of such rotations is undone as soon as its places add up to full turns, and
this is why one direction undoes the other and why nine rotations in one direction undo
themselves.

Words are stored as two bytes, and the second address may be at the other end of memory. What
is shown of a stored word needs nothing but that its two addresses differ.
-/

namespace Intel8080

namespace Board

variable (board : Board)

/-- Boards that read alike and have the same latches are equal. -/
theorem ext_read {left right : Board} (latches : left.SameLatches right)
    (same : ∀ address, right.read address = left.read address) : right = left := by
  obtain ⟨memory, inputs, outputs⟩ := left
  obtain ⟨other, otherInputs, otherOutputs⟩ := right
  obtain ⟨rfl, rfl⟩ : otherInputs = inputs ∧ otherOutputs = outputs := ⟨latches.1, latches.2⟩
  obtain rfl : other = memory := by
    apply Memory.ext_read
    intro index
    by_cases inside : index < 65536
    · have found := same (UInt16.ofNat index)
      simpa only [read, UInt16.toNat_ofNat_of_lt' inside] using found
    · rw [other.read_of_size_le index (by omega), memory.read_of_size_le index (by omega)]
  rfl

/-- The board after a word was stored, the low byte first. -/
def writeWord (address value : UInt16) : Board :=
  (board.write address (lowByte value)).write (address + 1) (highByte value)

theorem read_writeWord (address value other : UInt16) :
    (board.writeWord address value).read other =
      if other = address + 1 then highByte value
      else if other = address then lowByte value
      else board.read other := by
  simp only [writeWord, read_write]

/-- The two addresses of a word differ, at the top of memory too. -/
theorem ne_succ (address : UInt16) : address ≠ address + 1 := by
  grind

/-- A stored word is found where it was stored. -/
theorem wordAt_writeWord (address value : UInt16) :
    wordAt (board.writeWord address value).read address = value := by
  simp only [wordAt, read_writeWord, if_true, if_neg (ne_succ address), word_highByte_lowByte]

/-- Of two words stored at one address the later one counts. -/
theorem writeWord_writeWord (address value later : UInt16) :
    (board.writeWord address value).writeWord address later = board.writeWord address later := by
  refine ext_read ⟨rfl, rfl⟩ fun other => ?_
  simp only [read_writeWord]
  split
  · rfl
  · split <;> rfl

/-- Storing the word that is there changes nothing. -/
theorem writeWord_wordAt (address : UInt16) :
    board.writeWord address (wordAt board.read address) = board := by
  refine ext_read ⟨rfl, rfl⟩ fun other => ?_
  rw [read_writeWord, wordAt, highByte_word, lowByte_word]
  split
  · subst other
    rfl
  · split
    · subst other
      rfl
    · rfl

/-- A push stores its word two bytes below the stack pointer, although the bytes are written
in the other order. -/
theorem pushed_eq_writeWord (sp value : UInt16) :
    board.pushed sp value = board.writeWord (sp - 2) value := by
  have next : sp - 2 + 1 = sp - 1 := by grind
  refine ext_read ⟨rfl, rfl⟩ fun other => ?_
  rw [read_writeWord, read_pushed, next]
  have apart : sp - 2 ≠ sp - 1 := next ▸ ne_succ (sp - 2)
  by_cases low : other = sp - 2
  · subst other
    rw [if_pos rfl, if_neg apart, if_pos rfl]
  · rw [if_neg low, if_neg low]

end Board

/-- The carry and the bits of a byte, the most significant first: nine bits on a ring. -/
def ring (value : UInt8) (carry : Bool) : List Bool :=
  carry :: (List.range 8).reverse.map value.toBitVec.getLsbD

@[simp] theorem length_ring (value : UInt8) (carry : Bool) : (ring value carry).length = 9 :=
  rfl

/-- The ring determines the byte and the carry. -/
theorem ring_inj {value other : UInt8} {carry otherCarry : Bool}
    (same : ring value carry = ring other otherCarry) : value = other ∧ carry = otherCarry := by
  obtain ⟨carries, bits⟩ := List.cons.inj same
  refine ⟨?_, carries⟩
  apply UInt8.toBitVec_inj.mp
  apply BitVec.eq_of_getLsbD_eq
  intro index inside
  exact List.map_inj_left.mp bits index (by simpa using inside)

namespace Rotation

/-- The rotation takes the carry in as the ninth bit. -/
def IsThroughCarry (rotation : Rotation) : Prop :=
  rotation = ral ∨ rotation = rar

/-- By how many places to the left a rotation through the carry moves the ring. -/
def places : Rotation → Nat
  | rar => 8
  | _ => 1

/-- A rotation through the carry rotates the ring. -/
theorem ring_apply {rotation : Rotation} (through : rotation.IsThroughCarry) (value : UInt8)
    (carry : Bool) :
    ring (rotation.apply value carry).1 (rotation.apply value carry).2 =
      (ring value carry).rotate rotation.places := by
  have left : ∀ (bits : BitVec 8) (carry : Bool),
      ring (ral.apply ⟨bits⟩ carry).1 (ral.apply ⟨bits⟩ carry).2 =
        (ring ⟨bits⟩ carry).rotate 1 := by decide +kernel
  have right : ∀ (bits : BitVec 8) (carry : Bool),
      ring (rar.apply ⟨bits⟩ carry).1 (rar.apply ⟨bits⟩ carry).2 =
        (ring ⟨bits⟩ carry).rotate 8 := by decide +kernel
  obtain rfl | rfl := through
  · exact left value.toBitVec carry
  · exact right value.toBitVec carry

end Rotation

section Turning

variable {σ : Type} [Host σ]

/-- Rotations through the carry, one after another, rotate the ring by their places taken
together and touch nothing else. -/
theorem executeAll_rotations {rotations : List Rotation}
    (through : ∀ rotation ∈ rotations, rotation.IsThroughCarry) (cpu : Cpu) (host : σ) :
    ∃ value carry,
      executeAll (rotations.map .rotate) cpu host =
        .ok ({ cpu with a := value, flags := { cpu.flags with carry } }, host) ∧
      ring value carry =
        (ring cpu.a cpu.flags.carry).rotate (rotations.map Rotation.places).sum := by
  induction rotations generalizing cpu with
  | nil => exact ⟨cpu.a, cpu.flags.carry, rfl, (List.rotate_zero _).symm⟩
  | cons rotation rest inductionHypothesis =>
    obtain ⟨first, others⟩ := List.forall_mem_cons.mp through
    obtain ⟨value, carry, executed, turned⟩ := inductionHypothesis others (cpu.rotate rotation)
    refine ⟨value, carry, executed, ?_⟩
    have once : ring (cpu.rotate rotation).a (cpu.rotate rotation).flags.carry =
        (ring cpu.a cpu.flags.carry).rotate rotation.places :=
      Rotation.ring_apply first cpu.a cpu.flags.carry
    rw [turned, once, List.rotate_rotate, List.map_cons, List.sum_cons]

/-- Full turns restore the accumulator and the carry. -/
theorem executeAll_fullTurns (rotations : List Rotation)
    (through : ∀ rotation ∈ rotations, rotation.IsThroughCarry)
    (full : 9 ∣ (rotations.map Rotation.places).sum) (cpu : Cpu) (host : σ) :
    executeAll (rotations.map .rotate) cpu host = .ok (cpu, host) := by
  obtain ⟨value, carry, executed, turned⟩ := executeAll_rotations through cpu host
  obtain ⟨turns, amount⟩ := full
  have whole : (rotations.map Rotation.places).sum =
      (ring cpu.a cpu.flags.carry).length * turns := amount
  rw [whole, List.rotate_length_mul] at turned
  obtain ⟨rfl, rfl⟩ := ring_inj turned
  exact executed

end Turning

namespace Cpu

/-- HL can be set to what it is. -/
theorem setHL_hl (cpu : Cpu) : cpu.setHL cpu.hl = cpu := by
  simp only [setHL, hl, highByte_word, lowByte_word]

/-- A word register can be set to what it is. -/
theorem setWord_getWord (cpu : Cpu) (register : WordRegister) :
    cpu.setWord register (cpu.getWord register) = cpu := by
  cases register with
  | pair name => cases name <;> simp [setWord, setPair, setHL, setDE, getWord, pair, hl, de]
  | stackPointer => rfl

/-- Of two words put into one register the later one counts. -/
theorem setWord_setWord (cpu : Cpu) (register : WordRegister) (value later : UInt16) :
    (cpu.setWord register value).setWord register later = cpu.setWord register later := by
  cases register with
  | pair name => cases name <;> rfl
  | stackPointer => rfl

end Cpu

/-- On a board, the second instruction takes back all that the first has done to the processor
and to the board. -/
def Undoes (second first : Instruction) : Prop :=
  ∀ (cpu : Cpu) (board : Board), executeAll [first, second] cpu board = .ok (cpu, board)

/-- Storing and loading back. The given bytes are stored and nothing else on the board is
changed; then the load finds everything in the processor as it is there already. -/
def Reloads (store load : Instruction) (cpu : Cpu) (board : Board)
    (stored : List (UInt16 × UInt8)) : Prop :=
  ∃ after, executeAll [store] cpu board = .ok (cpu, after) ∧
    executeAll [store, load] cpu board = .ok (cpu, after) ∧
    (∀ place ∈ stored, after.read place.1 = place.2) ∧
    (∀ address ∉ stored.map Prod.fst, after.read address = board.read address) ∧
    board.SameLatches after

section Undone

/-- Stepping a word register up and down again, or down and up again. -/
theorem undoes_step (target : WordRegister) :
    Undoes (.dcx target) (.inx target) ∧ Undoes (.inx target) (.dcx target) := by
  constructor
  · intro cpu board
    change Except.ok ((cpu.setWord target (cpu.getWord target + 1)).setWord target
      ((cpu.setWord target (cpu.getWord target + 1)).getWord target - 1), board) = _
    rw [Cpu.getWord_setWord, Cpu.setWord_setWord, UInt16.add_sub_cancel, Cpu.setWord_getWord]
  · intro cpu board
    change Except.ok ((cpu.setWord target (cpu.getWord target - 1)).setWord target
      ((cpu.setWord target (cpu.getWord target - 1)).getWord target + 1), board) = _
    rw [Cpu.getWord_setWord, Cpu.setWord_setWord, UInt16.sub_add_cancel, Cpu.setWord_getWord]

/-- Exchanging the top of the stack twice. The second exchange finds the word in memory that
the first one has stored there. -/
theorem undoes_xthl : Undoes .xthl .xthl := by
  intro cpu board
  change Except.ok
    ((cpu.setHL (cpu.top board.read)).setHL
      ((cpu.setHL (cpu.top board.read)).top (board.writeWord cpu.sp cpu.hl).read),
    (board.writeWord cpu.sp cpu.hl).writeWord cpu.sp (cpu.setHL (cpu.top board.read)).hl) = _
  have taken : (cpu.setHL (cpu.top board.read)).top (board.writeWord cpu.sp cpu.hl).read =
      cpu.hl :=
    board.wordAt_writeWord cpu.sp cpu.hl
  have restored : (cpu.setHL (cpu.top board.read)).setHL cpu.hl = cpu := cpu.setHL_hl
  rw [taken, restored, Cpu.hl_setHL, board.writeWord_writeWord, Cpu.top, board.writeWord_wordAt]

/-- Complementing the accumulator twice. -/
theorem undoes_cma : Undoes .cma .cma := by
  intro cpu board
  change Except.ok ({ cpu with a := ~~~(~~~cpu.a) }, board) = _
  rw [UInt8.not_not]

/-- Complementing the carry twice. -/
theorem undoes_cmc : Undoes .cmc .cmc := by
  intro cpu board
  change Except.ok (cpu.setCarry (!(!cpu.flags.carry)), board) = _
  rw [Bool.not_not]
  rfl

/-- Rotating through the carry to and fro. -/
theorem undoes_rotation :
    Undoes (.rotate .rar) (.rotate .ral) ∧ Undoes (.rotate .ral) (.rotate .rar) := by
  constructor
  · intro cpu board
    exact executeAll_fullTurns [.ral, .rar] (by simp [Rotation.IsThroughCarry])
      (by decide) cpu board
  · intro cpu board
    exact executeAll_fullTurns [.rar, .ral] (by simp [Rotation.IsThroughCarry])
      (by decide) cpu board

variable (cpu : Cpu) (board : Board)

/-- Nine rotations through the carry in one direction. -/
theorem executeAll_nine {rotation : Rotation} (through : rotation.IsThroughCarry) :
    executeAll (List.replicate 9 (.rotate rotation)) cpu board = .ok (cpu, board) := by
  have every : ∀ member ∈ List.replicate 9 rotation, member.IsThroughCarry := by
    intro member among
    rw [List.eq_of_mem_replicate among]
    exact through
  have full : 9 ∣ ((List.replicate 9 rotation).map Rotation.places).sum := by
    rw [List.map_replicate, List.sum_replicate_nat]
    exact Nat.dvd_mul_right 9 rotation.places
  have executed := executeAll_fullTurns _ every full cpu board
  rwa [List.map_replicate] at executed

end Undone

section Reloaded

variable {cpu : Cpu} {board : Board} {store load : Instruction}

/-- Two instructions are the second from where the first one ends. -/
theorem executeAll_pair {σ : Type} [Host σ] {first : Instruction} (second : Instruction)
    {cpu next : Cpu} {host after : σ} (executed : executeAll [first] cpu host = .ok (next, after)) :
    executeAll [first, second] cpu host = executeAll [second] next after := by
  rw [executeAll] at executed ⊢
  cases outcome : first.execute cpu host with
  | mk result middle between =>
    rw [outcome] at executed
    cases result with
    | error stop => cases executed
    | ok extra =>
      obtain ⟨rfl, rfl⟩ := Prod.mk.inj (Except.ok.inj executed)
      rfl

/-- A stored byte is loaded back if the load would set the processor to what it is. -/
theorem reloads_byte {address : UInt16} {value : UInt8}
    (stores : executeAll [store] cpu board = .ok (cpu, board.write address value))
    (loads : (board.write address value).read address = value →
      executeAll [load] cpu (board.write address value) =
        .ok (cpu, board.write address value)) :
    Reloads store load cpu board [(address, value)] := by
  have found : (board.write address value).read address = value := by
    rw [Board.read_write, if_pos rfl]
  refine ⟨_, stores, (executeAll_pair load stores).trans (loads found), ?_, ?_, rfl, rfl⟩
  · intro place member
    obtain rfl := List.mem_singleton.mp member
    exact found
  · intro other outside
    rw [Board.read_write, if_neg (by simpa using outside)]

theorem reloads_sta (cpu : Cpu) (board : Board) (address : UInt16) :
    Reloads (.sta address) (.lda address) cpu board [(address, cpu.a)] := by
  apply reloads_byte rfl
  intro found
  change Except.ok ({ cpu with a := (board.write address cpu.a).read address }, _) = _
  rw [found]

theorem reloads_stax (cpu : Cpu) (board : Board) (pointer : Pair) :
    Reloads (.stax pointer) (.ldax pointer) cpu board [(cpu.pair pointer, cpu.a)] := by
  apply reloads_byte rfl
  intro found
  change Except.ok ({ cpu with
    a := (board.write (cpu.pair pointer) cpu.a).read (cpu.pair pointer) }, _) = _
  rw [found]

/-- The address is in HL, and H and L themselves can be stored there and loaded back. -/
theorem reloads_mov (cpu : Cpu) (board : Board) (name : Register) :
    Reloads (.mov .memory (.register name)) (.mov (.register name) .memory) cpu board
      [(cpu.hl, cpu.get name)] := by
  apply reloads_byte rfl
  intro found
  change Except.ok (cpu.set name ((board.write cpu.hl (cpu.get name)).read cpu.hl), _) = _
  have kept : cpu.set name (cpu.get name) = cpu := by
    cases name <;> rfl
  rw [found, kept]

/-- The two bytes of HL, the low one first. -/
theorem reloads_shld (cpu : Cpu) (board : Board) (address : UInt16) :
    Reloads (.shld address) (.lhld address) cpu board
      [(address, cpu.l), (address + 1, cpu.h)] := by
  have stores : executeAll [.shld address] cpu board =
      .ok (cpu, board.writeWord address cpu.hl) := rfl
  have loads : executeAll [.lhld address] cpu (board.writeWord address cpu.hl) =
      .ok (cpu, board.writeWord address cpu.hl) := by
    change Except.ok (cpu.setHL (wordAt (board.writeWord address cpu.hl).read address), _) = _
    rw [board.wordAt_writeWord, cpu.setHL_hl]
  refine ⟨_, stores, (executeAll_pair _ stores).trans loads, ?_, ?_, rfl, rfl⟩
  · simp [Board.read_writeWord, Cpu.hl]
  · intro other outside
    obtain ⟨low, high⟩ : other ≠ address ∧ other ≠ address + 1 := by simpa using outside
    rw [Board.read_writeWord, if_neg high, if_neg low]

end Reloaded

/-- Exchanges, complements, rotations through the carry and steps of word registers are undone
by themselves or by their counterparts, and nine rotations through the carry undo themselves:
the whole processor and the whole board are restored. What is stored at an address is loaded
back from it: the processor stays as it is, and so does the board but for the bytes stored.
A word is pushed as it is written two bytes below the stack pointer. -/
theorem instructions_undone (cpu : Cpu) (board : Board) :
    (Undoes .xchg .xchg ∧ Undoes .xthl .xthl ∧ Undoes .cma .cma ∧ Undoes .cmc .cmc ∧
      Undoes (.rotate .rar) (.rotate .ral) ∧ Undoes (.rotate .ral) (.rotate .rar) ∧
      ∀ target, Undoes (.dcx target) (.inx target) ∧ Undoes (.inx target) (.dcx target)) ∧
    (executeAll (List.replicate 9 (.rotate .ral)) cpu board = .ok (cpu, board) ∧
      executeAll (List.replicate 9 (.rotate .rar)) cpu board = .ok (cpu, board)) ∧
    ((∀ address, Reloads (.shld address) (.lhld address) cpu board
        [(address, cpu.l), (address + 1, cpu.h)]) ∧
      (∀ address, Reloads (.sta address) (.lda address) cpu board [(address, cpu.a)]) ∧
      (∀ pointer, Reloads (.stax pointer) (.ldax pointer) cpu board
        [(cpu.pair pointer, cpu.a)]) ∧
      ∀ name, Reloads (.mov .memory (.register name)) (.mov (.register name) .memory) cpu board
        [(cpu.hl, cpu.get name)]) ∧
    ∀ value, ∃ after,
      (cpu.pushWord value).run board = .ok { cpu with sp := cpu.sp - 2 } after ∧
        Host.writeWord board (cpu.sp - 2) value = .ok () after := by
  refine ⟨?_, ?_, ?_, ?_⟩
  · obtain ⟨leftRight, rightLeft⟩ := undoes_rotation
    exact ⟨fun _ _ => rfl, undoes_xthl, undoes_cma, undoes_cmc, leftRight, rightLeft,
      undoes_step⟩
  · exact ⟨executeAll_nine cpu board (.inl rfl), executeAll_nine cpu board (.inr rfl)⟩
  · exact ⟨reloads_shld cpu board, reloads_sta cpu board, reloads_stax cpu board,
      reloads_mov cpu board⟩
  · intro value
    have pushes : (cpu.pushWord value).run board =
        .ok { cpu with sp := cpu.sp - 2 } (board.pushed cpu.sp value) := rfl
    rw [board.pushed_eq_writeWord] at pushes
    exact ⟨_, pushes, rfl⟩

end Intel8080
