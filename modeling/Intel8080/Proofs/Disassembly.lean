import Mathlib.Algebra.Ring.Nat
import Mathlib.Data.List.Nodup
import Mathlib.Data.List.TakeWhile
import Intel8080.Proofs.Encoding

/-!
# Reading assembler text

Printing an instruction loses nothing. The proof is a reader: `Instruction.ofText?` finds the
instruction that a text is of, so no two instructions print alike, and with the bytes that
the instruction is encoded in a disassembly gives back what was disassembled.

A text is split at its first blank. What stands before it is a mnemonic, and the mnemonics of
all instructions are pairwise different, those of the conditional ones included; so it gives
the instruction but for its operands, here called its head. The head says of which kind the
operands are, and the names of each kind are pairwise different, too. A name may well occur in
two kinds, such as that of a register and of the pair it begins.
-/

namespace Intel8080

/-- The text before the first occurrence of a mark, and the text behind it. -/
def parts (mark : Char) (text : String) : String × String :=
  (String.ofList (text.toList.takeWhile (· != mark)),
    String.ofList ((text.toList.dropWhile (· != mark)).drop 1))

theorem bne_of_free {mark : Char} {text : String} (free : mark ∉ text.toList) :
    ∀ letter ∈ text.toList, (letter != mark) = true := by
  intro letter member
  rw [bne_iff_ne]
  rintro rfl
  exact free member

/-- What was joined by a mark comes apart where the first part does not contain it. -/
theorem parts_join {mark : Char} {first separator : String} (free : mark ∉ first.toList)
    (marked : separator.toList = [mark]) (second : String) :
    parts mark (first ++ separator ++ second) = (first, second) := by
  have passes := bne_of_free free
  rw [parts, String.toList_append, String.toList_append, marked, List.append_assoc,
    List.takeWhile_append_of_pos passes, List.dropWhile_append_of_pos passes]
  simp only [List.singleton_append, List.takeWhile_cons, List.dropWhile_cons, bne_self_eq_false,
    Bool.false_eq_true, if_false, List.append_nil, List.drop_one, List.tail_cons,
    String.ofList_toList]

/-- A text without the mark is all before it. -/
theorem parts_of_free {mark : Char} {text : String} (free : mark ∉ text.toList) :
    parts mark text = (text, "") := by
  have passes := bne_of_free free
  rw [parts, List.takeWhile_eq_self_iff.mpr passes, List.dropWhile_eq_nil_iff.mpr passes,
    String.ofList_toList]
  rfl

/-- The member of a list that goes by a name. -/
def named {α : Type} (name : α → String) (all : List α) (text : String) : Option α :=
  all.find? fun member => name member == text

/-- Among members of different names each is found by its own. -/
theorem named_name {α : Type} {name : α → String} {all : List α}
    (distinct : (all.map name).Nodup) {member : α} (listed : member ∈ all) :
    named name all (name member) = some member := by
  obtain ⟨found, search⟩ : ∃ found, named name all (name member) = some found := by
    rw [← Option.isSome_iff_exists, named, List.find?_isSome]
    exact ⟨member, listed, beq_self_eq_true _⟩
  rw [named] at search
  have agrees := List.find?_some search
  have sameName : name found = name member := beq_iff_eq.mp agrees
  have same : found = member :=
    List.inj_on_of_nodup_map distinct (List.mem_of_find?_eq_some search) listed sameName
  rw [named, search, same]

namespace Hex

/-- The value of a lower-case digit. -/
def digitValue (letter : Char) : Nat :=
  ((List.range 16).map (digit .lower)).idxOf letter

/-- The number with the given digits, the most significant first. -/
def value (letters : List Char) : Nat :=
  letters.foldl (fun total letter => 16 * total + digitValue letter) 0

theorem digitValue_digit {number : Nat} (small : number < 16) :
    digitValue (digit .lower number) = number := by
  have all : ∀ number : Fin 16, digitValue (digit .lower number) = number := by decide
  exact all ⟨number, small⟩

/-- Digits of a fixed width determine a number up to the matching power of sixteen. -/
theorem value_digits (width number : Nat) :
    value (digits .lower width number) = number % 16 ^ width := by
  induction width generalizing number with
  | zero => exact (Nat.mod_one number).symm
  | succ width inductionHypothesis =>
    have last : digitValue (digit .lower (number % 16)) = number % 16 :=
      digitValue_digit (Nat.mod_lt number (by decide))
    simp only [value, digits, List.foldl_append, List.foldl_cons, List.foldl_nil, last] at *
    rw [inductionHypothesis, Nat.pow_succ', Nat.mod_mul, Nat.add_comm]

end Hex

/-- Reads an immediate byte. -/
def byteOf (text : String) : UInt8 :=
  UInt8.ofNat (Hex.value (text.toList.drop 2))

/-- Reads an address or immediate word. -/
def wordOf (text : String) : UInt16 :=
  UInt16.ofNat (Hex.value (text.toList.drop 2))

/-- Reads a decimal number. -/
def numberOf (text : String) : UInt8 :=
  UInt8.ofNat (Nat.ofDigitChars 10 text.toList 0)

theorem byteOf_byteText (value : UInt8) : byteOf (Instruction.byteText value) = value := by
  have unmarked (rest : List Char) : ("0x".toList ++ rest).drop 2 = rest := rfl
  have small : value.toNat < 16 ^ 2 := value.toNat_lt
  rw [byteOf, Instruction.byteText, Hex.byte, String.toList_append, unmarked,
    String.toList_ofList, Hex.value_digits, Nat.mod_eq_of_lt small, UInt8.ofNat_toNat]

theorem wordOf_wordText (value : UInt16) : wordOf (Instruction.wordText value) = value := by
  have unmarked (rest : List Char) : ("0x".toList ++ rest).drop 2 = rest := rfl
  have small : value.toNat < 16 ^ 4 := value.toNat_lt
  rw [wordOf, Instruction.wordText, Hex.word, String.toList_append, unmarked,
    String.toList_ofList, Hex.value_digits, Nat.mod_eq_of_lt small, UInt16.ofNat_toNat]

theorem numberOf_toString (value : UInt8) : numberOf (toString value.toNat) = value := by
  rw [numberOf]
  change UInt8.ofNat (Nat.ofDigitChars 10 (Nat.repr value.toNat).toList 0) = value
  rw [Nat.repr, String.toList_ofList, Nat.ofDigitChars_ten_toDigits, UInt8.ofNat_toNat]

/-- Reads an operand. -/
def Operand.ofText? : String → Option Operand :=
  named text
    [register .b, register .c, register .d, register .e, register .h, register .l, register .a,
      memory]

theorem Operand.ofText?_text (operand : Operand) : ofText? operand.text = some operand := by
  apply named_name (by decide)
  cases operand with
  | register name => cases name <;> decide
  | memory => decide

/-- Reads a pair. -/
def Pair.ofText? : String → Option Pair :=
  named text [bc, de, hl]

theorem Pair.ofText?_text (name : Pair) : ofText? name.text = some name := by
  apply named_name (by decide)
  cases name <;> decide

/-- Reads a word register. -/
def WordRegister.ofText? : String → Option WordRegister :=
  named text [pair .bc, pair .de, pair .hl, stackPointer]

theorem WordRegister.ofText?_text (name : WordRegister) : ofText? name.text = some name := by
  apply named_name (by decide)
  cases name with
  | pair name => cases name <;> decide
  | stackPointer => decide

/-- Reads what a stack instruction moves. -/
def StackWord.ofText? : String → Option StackWord :=
  named text
    [register (.pair .bc), register (.pair .de), register (.pair .hl), register .stackPointer,
      status]

theorem StackWord.ofText?_text (word : StackWord) : ofText? word.text = some word := by
  apply named_name (by decide)
  cases word with
  | register name =>
    cases name with
    | pair name => cases name <;> decide
    | stackPointer => decide
  | status => decide

namespace AccumulatorOp

/-- The operations of the accumulator. -/
def all : List AccumulatorOp :=
  [add, adc, sub, sbb, ana, xra, ora, cmp]

theorem mem_all (operation : AccumulatorOp) : operation ∈ all := by
  cases operation <;> decide

end AccumulatorOp

namespace Condition

/-- The conditions. -/
def all : List Condition :=
  [⟨.zero, false⟩, ⟨.zero, true⟩, ⟨.carry, false⟩, ⟨.carry, true⟩, ⟨.parity, false⟩,
    ⟨.parity, true⟩, ⟨.sign, false⟩, ⟨.sign, true⟩]

theorem mem_all (condition : Condition) : condition ∈ all := by
  obtain ⟨flag, expected⟩ := condition
  cases flag <;> cases expected <;> decide

end Condition

namespace Instruction

/-- What the mnemonic says of an instruction: all but its operands. -/
def head : Instruction → Instruction
  | illegal _ => illegal 0
  | mov _ _ => mov default default
  | mvi _ _ => mvi default 0
  | accumulate operation _ => accumulate operation default
  | accumulateImmediate operation _ => accumulateImmediate operation 0
  | inr _ => inr default
  | dcr _ => dcr default
  | inx _ => inx default
  | dcx _ => dcx default
  | dad _ => dad default
  | lxi _ _ => lxi default 0
  | lda _ => lda 0
  | sta _ => sta 0
  | ldax _ => ldax default
  | stax _ => stax default
  | lhld _ => lhld 0
  | shld _ => shld 0
  | jmp _ => jmp 0
  | jumpIf condition _ => jumpIf condition 0
  | call _ => call 0
  | callIf condition _ => callIf condition 0
  | rst _ => rst 0
  | push _ => push default
  | pop _ => pop default
  | input _ => input 0
  | output _ => output 0
  | instruction => instruction

/-- The heads of all instructions. -/
def heads : List Instruction :=
  [nop, hlt, illegal 0, mov default default, mvi default 0, inr default, dcr default,
    inx default, dcx default, dad default, lxi default 0, rotate .rlc, rotate .rrc,
    rotate .ral, rotate .rar, daa, cma, stc, cmc, lda 0, sta 0, ldax default, stax default,
    lhld 0, shld 0, jmp 0, call 0, ret, rst 0, push default, pop default, xchg, xthl, pchl,
    sphl, input 0, output 0, interrupts true, interrupts false] ++
  AccumulatorOp.all.map (accumulate · default) ++
  AccumulatorOp.all.map (accumulateImmediate · 0) ++
  Condition.all.map (jumpIf · 0) ++ Condition.all.map (callIf · 0) ++
  Condition.all.map returnIf

theorem mnemonic_head (instruction : Instruction) :
    instruction.head.mnemonic = instruction.mnemonic := by
  cases instruction <;> rfl

theorem head_mem_heads (instruction : Instruction) : instruction.head ∈ heads := by
  have accumulates := AccumulatorOp.mem_all
  have conditional := Condition.mem_all
  cases instruction with
  | rotate rotation => cases rotation <;> decide
  | interrupts enabled => cases enabled <;> decide
  | _ => simp [heads, head, accumulates, conditional]

/-- Heads have different mnemonics. -/
theorem nodup_mnemonic_heads : (heads.map mnemonic).Nodup := by
  decide

/-- No mnemonic contains a blank. -/
theorem blank_not_mem_mnemonic (instruction : Instruction) :
    ' ' ∉ instruction.mnemonic.toList := by
  have all : ∀ head ∈ heads, ' ' ∉ head.mnemonic.toList := by decide
  rw [← mnemonic_head]
  exact all instruction.head instruction.head_mem_heads

/-- Fills the operands into a head from their text. -/
def fill (head : Instruction) (operands : String) : Option Instruction :=
  let (first, second) := parts ',' operands
  match head with
  | illegal _ => some (illegal (byteOf operands))
  | mov _ _ => do return mov (← Operand.ofText? first) (← Operand.ofText? second)
  | mvi _ _ => do return mvi (← Operand.ofText? first) (byteOf second)
  | accumulate operation _ => do return accumulate operation (← Operand.ofText? operands)
  | accumulateImmediate operation _ => some (accumulateImmediate operation (byteOf operands))
  | inr _ => do return inr (← Operand.ofText? operands)
  | dcr _ => do return dcr (← Operand.ofText? operands)
  | inx _ => do return inx (← WordRegister.ofText? operands)
  | dcx _ => do return dcx (← WordRegister.ofText? operands)
  | dad _ => do return dad (← WordRegister.ofText? operands)
  | lxi _ _ => do return lxi (← WordRegister.ofText? first) (wordOf second)
  | lda _ => some (lda (wordOf operands))
  | sta _ => some (sta (wordOf operands))
  | ldax _ => do return ldax (← Pair.ofText? operands)
  | stax _ => do return stax (← Pair.ofText? operands)
  | lhld _ => some (lhld (wordOf operands))
  | shld _ => some (shld (wordOf operands))
  | jmp _ => some (jmp (wordOf operands))
  | jumpIf condition _ => some (jumpIf condition (wordOf operands))
  | call _ => some (call (wordOf operands))
  | callIf condition _ => some (callIf condition (wordOf operands))
  | rst _ => some (rst (numberOf operands))
  | push _ => do return push (← StackWord.ofText? operands)
  | pop _ => do return pop (← StackWord.ofText? operands)
  | input _ => some (input (byteOf operands))
  | output _ => some (output (byteOf operands))
  | instruction => some instruction

/-- Reads the text of an instruction. -/
def ofText? (text : String) : Option Instruction := do
  let (mnemonicText, operands) := parts ' ' text
  let head ← named mnemonic heads mnemonicText
  head.fill operands

/-- The name of a target is free of commas. -/
theorem comma_not_mem_operand (target : Operand) : ',' ∉ target.text.toList := by
  cases target with
  | register name => cases name <;> decide
  | memory => decide

theorem comma_not_mem_wordRegister (target : WordRegister) : ',' ∉ target.text.toList := by
  cases target with
  | pair name => cases name <;> decide
  | stackPointer => decide

/-- The operands of an instruction are those that its text has for its head. -/
theorem fill_head (instruction : Instruction) :
    instruction.head.fill (instruction.operandText.getD "") = some instruction := by
  have separates : ",".toList = [','] := rfl
  cases instruction with
  | mov target source =>
    simp [head, fill, operandText, parts_join (comma_not_mem_operand target) separates,
      Operand.ofText?_text]
  | mvi target value =>
    simp [head, fill, operandText, parts_join (comma_not_mem_operand target) separates,
      Operand.ofText?_text, byteOf_byteText]
  | lxi target value =>
    simp [head, fill, operandText, parts_join (comma_not_mem_wordRegister target) separates,
      WordRegister.ofText?_text, wordOf_wordText]
  | rst number =>
    simp only [head, fill, operandText, Option.getD_some, numberOf_toString]
  | _ =>
    simp [head, fill, operandText, Operand.ofText?_text, WordRegister.ofText?_text,
      Pair.ofText?_text, StackWord.ofText?_text, byteOf_byteText, wordOf_wordText]

/-- The first blank of a text stands between the mnemonic and the operands. -/
theorem parts_text (instruction : Instruction) :
    parts ' ' instruction.text = (instruction.mnemonic, instruction.operandText.getD "") := by
  have free := instruction.blank_not_mem_mnemonic
  cases operands : instruction.operandText with
  | none =>
    rw [text, operands]
    exact parts_of_free free
  | some written =>
    rw [text, operands]
    exact parts_join free rfl written

/-- Every instruction is read back from its text. -/
theorem ofText?_text (instruction : Instruction) :
    ofText? instruction.text = some instruction := by
  have found := named_name nodup_mnemonic_heads instruction.head_mem_heads
  rw [mnemonic_head] at found
  simp only [ofText?, parts_text, found]
  exact instruction.fill_head

/-- Disassembly is lossless. Every instruction is read back from its text, so two of them have
the same text only if they are the same, and the bytes of a window of memory that were decoded
are those of the instruction read back. Windows therefore print alike exactly if they agree in
the opcode and in the operand bytes that the instruction uses. -/
theorem disassembly_lossless :
    (∀ instruction : Instruction, ofText? instruction.text = some instruction) ∧
      (∀ left right : Instruction, left.text = right.text ↔ left = right) ∧
      (∀ opcode low high : UInt8,
        (ofText? (decode opcode low high).text).map bytes =
          some ([opcode, low, high].take (decode opcode low high).length.toNat)) ∧
      ∀ opcode low high other otherLow otherHigh : UInt8,
        (decode opcode low high).text = (decode other otherLow otherHigh).text ↔
          opcode = other ∧
            [low, high].take ((decode opcode low high).length.toNat - 1) =
              [otherLow, otherHigh].take ((decode opcode low high).length.toNat - 1) := by
  have injective (left right : Instruction) : left.text = right.text ↔ left = right := by
    constructor
    · intro same
      apply Option.some.inj
      rw [← left.ofText?_text, same, ofText?_text]
    · exact congrArg text
  refine ⟨ofText?_text, injective, ?_, ?_⟩
  · intro opcode low high
    rw [ofText?_text, Option.map_some, bytes_decode]
  · intro opcode low high other otherLow otherHigh
    rw [injective]
    exact decode_eq_decode_iff opcode low high other otherLow otherHigh

end Instruction

end Intel8080
