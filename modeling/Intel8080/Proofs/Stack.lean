import Intel8080.Board

/-!
# Words on a stack in memory

A stack grows downwards from where its stack pointer began: each word takes the two bytes
below the one pushed before it, the high byte above the low one. Addresses wrap around, so
a stack may begin anywhere and continue at the top of memory. It only must not grow over
itself, and there is room for 32768 words.

`Stacked` says that given words are found in memory from the stack pointer on. A push adds
one, and changes only the two bytes below the stack pointer.
-/

namespace Intel8080

/-- The stack pointer of a stack of the given depth that began at `sp`. -/
def pointerAt (sp : UInt16) (depth : Nat) : UInt16 :=
  sp - UInt16.ofNat (2 * depth)

/-- An address is one of the `count` bytes below `sp`. -/
def Below (sp : UInt16) (count : Nat) (address : UInt16) : Prop :=
  ∃ distance, 1 ≤ distance ∧ distance ≤ count ∧ address = sp - UInt16.ofNat distance

/-- The words of a stack lie one above the other in memory, from its top on. -/
def Stacked (read : UInt16 → UInt8) (sp : UInt16) : List UInt16 → Prop
  | [] => True
  | top :: rest => wordAt read sp = top ∧ Stacked read (sp + 2) rest

theorem pointerAt_zero (sp : UInt16) : pointerAt sp 0 = sp := by
  simp [pointerAt]

theorem pointerAt_succ (sp : UInt16) (depth : Nat) :
    pointerAt sp (depth + 1) = pointerAt sp depth - 2 := by
  apply UInt16.toNat_inj.1
  simp only [pointerAt, UInt16.toNat_sub, UInt16.toNat_ofNat', UInt16.reduceToNat]
  omega

/-- The two bytes that a push fills are below the stack pointer it began with. -/
theorem below_of_push {sp : UInt16} {depth deepest : Nat} (room : depth < deepest) :
    Below sp (2 * deepest) (pointerAt sp depth - 1) ∧
      Below sp (2 * deepest) (pointerAt sp depth - 2) := by
  have distance (count : Nat) (byte : UInt16) (same : byte.toNat = count) :
      pointerAt sp depth - byte = sp - UInt16.ofNat (2 * depth + count) := by
    apply UInt16.toNat_inj.1
    have := byte.toNat_lt
    simp only [pointerAt, UInt16.toNat_sub, UInt16.toNat_ofNat', same]
    omega
  exact ⟨⟨2 * depth + 1, by omega, by omega, distance 1 1 rfl⟩,
    ⟨2 * depth + 2, by omega, by omega, distance 2 2 rfl⟩⟩

/-- A stack is kept if its bytes are. -/
theorem Stacked.of_read {read other : UInt16 → UInt8} {sp : UInt16} {stack : List UInt16}
    (stacked : Stacked read sp stack)
    (same : ∀ offset, offset < 2 * stack.length →
      other (sp + UInt16.ofNat offset) = read (sp + UInt16.ofNat offset)) :
    Stacked other sp stack := by
  induction stack generalizing sp with
  | nil => trivial
  | cons top rest inductionHypothesis =>
    obtain ⟨here, above⟩ := stacked
    simp only [List.length_cons] at same
    refine ⟨?_, inductionHypothesis above ?_⟩
    · have low : other sp = read sp := by simpa using same 0 (by omega)
      have high : other (sp + 1) = read (sp + 1) := same 1 (by omega)
      rw [wordAt, low, high]
      exact here
    · intro offset inside
      have shifted : sp + 2 + UInt16.ofNat offset = sp + UInt16.ofNat (offset + 2) := by
        apply UInt16.toNat_inj.1
        simp only [UInt16.toNat_add, UInt16.toNat_ofNat', UInt16.reduceToNat]
        omega
      rw [shifted]
      exact same (offset + 2) (by omega)

namespace Board

/-- The board after a word was pushed. -/
def pushed (board : Board) (sp value : UInt16) : Board :=
  (board.write (sp - 1) (highByte value)).write (sp - 2) (lowByte value)

theorem read_pushed (board : Board) (sp value address : UInt16) :
    (board.pushed sp value).read address =
      if address = sp - 2 then lowByte value
      else if address = sp - 1 then highByte value
      else board.read address := by
  simp only [pushed, read_write]

/-- A pushed word is found where the stack pointer then points to. -/
theorem wordAt_pushed (board : Board) (sp value : UInt16) :
    wordAt (board.pushed sp value).read (sp - 2) = value := by
  have next : sp - 2 + 1 = sp - 1 := by grind
  have apart : sp - 1 ≠ sp - 2 := by grind
  simp only [wordAt, next, read_pushed, apart, if_true, if_false, word_highByte_lowByte]

/-- A push keeps the words that are on the stack already, if there is room for one more. -/
theorem stacked_pushed {board : Board} {sp : UInt16} {stack : List UInt16}
    (stacked : Stacked board.read sp stack) (room : stack.length < 32768) (value : UInt16) :
    Stacked (board.pushed sp value).read (sp - 2) (value :: stack) := by
  have up : sp - 2 + 2 = sp := by grind
  refine ⟨board.wordAt_pushed sp value, ?_⟩
  rw [up]
  refine stacked.of_read fun offset inside => ?_
  have apart (byte : UInt16) (small : 1 ≤ byte.toNat ∧ byte.toNat ≤ 2) :
      sp + UInt16.ofNat offset ≠ sp - byte := by
    intro same
    have := congrArg UInt16.toNat same
    simp only [UInt16.toNat_add, UInt16.toNat_sub, UInt16.toNat_ofNat'] at this
    omega
  rw [read_pushed, if_neg (apart 2 (by decide)), if_neg (apart 1 (by decide))]

end Board

end Intel8080
