import Mathlib.Tactic.IntervalCases
import Intel8080.Proofs.Decoding

/-!
# The grammar of opcodes

The instruction set in the form in which it is usually tabulated. Division cuts an
opcode into three fields: its quarter, its row and its column. The row is read as a whole
where it names an operand, a condition or an operation, and as a pair with one of two
sides where it names a sixteen-bit register. Eight tables give the meaning of a field, and
`read` combines them.

Decoding takes the same division by masks and shifts, and names an opcode as a whole where a
field has an exception. It comes to the same: on every opcode and all operand bytes, decoding
is reading.
-/

namespace Intel8080

namespace Grammar

/-- Bits 6 and 7 of an opcode. -/
def quarter (opcode : UInt8) : Nat :=
  opcode.toNat / 64

/-- Bits 3 to 5 of an opcode. -/
def row (opcode : UInt8) : Nat :=
  opcode.toNat / 8 % 8

/-- Bits 0 to 2 of an opcode. -/
def column (opcode : UInt8) : Nat :=
  opcode.toNat % 8

/-- The byte operands: B, C, D, E, H, L, memory, A. -/
def operand : Nat → Operand
  | 0 => .register .b
  | 1 => .register .c
  | 2 => .register .d
  | 3 => .register .e
  | 4 => .register .h
  | 5 => .register .l
  | 6 => .memory
  | _ => .register .a

/-- The word registers: BC, DE, HL, SP. -/
def wordRegister : Nat → WordRegister
  | 0 => .pair .bc
  | 1 => .pair .de
  | 2 => .pair .hl
  | _ => .stackPointer

/-- The words that are pushed and popped: BC, DE, HL, PSW. -/
def stackWord : Nat → StackWord
  | 0 => .register (.pair .bc)
  | 1 => .register (.pair .de)
  | 2 => .register (.pair .hl)
  | _ => .status

/-- The conditions: NZ, Z, NC, C, PO, PE, P, M. -/
def condition : Nat → Condition
  | 0 => ⟨.zero, false⟩
  | 1 => ⟨.zero, true⟩
  | 2 => ⟨.carry, false⟩
  | 3 => ⟨.carry, true⟩
  | 4 => ⟨.parity, false⟩
  | 5 => ⟨.parity, true⟩
  | 6 => ⟨.sign, false⟩
  | _ => ⟨.sign, true⟩

/-- The operations between the accumulator and another byte: ADD, ADC, SUB, SBB, ANA,
XRA, ORA, CMP. -/
def operation : Nat → AccumulatorOp
  | 0 => .add
  | 1 => .adc
  | 2 => .sub
  | 3 => .sbb
  | 4 => .ana
  | 5 => .xra
  | 6 => .ora
  | _ => .cmp

/-- The instructions on the accumulator and the carry: RLC, RRC, RAL, RAR, DAA, CMA, STC,
CMC. -/
def adjustment : Nat → Instruction
  | 0 => .rotate .rlc
  | 1 => .rotate .rrc
  | 2 => .rotate .ral
  | 3 => .rotate .rar
  | 4 => .daa
  | 5 => .cma
  | 6 => .stc
  | _ => .cmc

/-- The transfers between memory and A or HL, by pair and side: through BC, through DE, of
HL, of A; on the first side a store and on the second a load. -/
def transfer (operand : UInt16) : Nat → Nat → Instruction
  | 0, 0 => .stax .bc
  | 0, _ => .ldax .bc
  | 1, 0 => .stax .de
  | 1, _ => .ldax .de
  | 2, 0 => .shld operand
  | 2, _ => .lhld operand
  | _, 0 => .sta operand
  | _, _ => .lda operand

/-- The fourth column of the last quarter: JMP, none, OUT, IN, XTHL, XCHG, DI, EI. -/
def control (opcode low : UInt8) (operand : UInt16) : Nat → Instruction
  | 0 => .jmp operand
  | 1 => .illegal opcode
  | 2 => .output low
  | 3 => .input low
  | 4 => .xthl
  | 5 => .xchg
  | 6 => .interrupts false
  | _ => .interrupts true

/-- What shares the second column of the last quarter with the pops: RET, none, PCHL,
SPHL. -/
def unpaired (opcode : UInt8) : Nat → Instruction
  | 0 => .ret
  | 1 => .illegal opcode
  | 2 => .pchl
  | _ => .sphl

/-- A word of two operand bytes, the less significant one first. -/
def littleEndian (low high : UInt8) : UInt16 :=
  UInt16.ofNat (low.toNat + 256 * high.toNat)

/-- The first quarter, by column. -/
def first (opcode low : UInt8) (word : UInt16) (row : Nat) : Nat → Instruction
  | 0 => if row = 0 then .nop else .illegal opcode
  | 1 =>
    if row % 2 = 0 then .lxi (wordRegister (row / 2)) word else .dad (wordRegister (row / 2))
  | 2 => transfer word (row / 2) (row % 2)
  | 3 => if row % 2 = 0 then .inx (wordRegister (row / 2)) else .dcx (wordRegister (row / 2))
  | 4 => .inr (operand row)
  | 5 => .dcr (operand row)
  | 6 => .mvi (operand row) low
  | _ => adjustment row

/-- The last quarter, by column. -/
def last (opcode low : UInt8) (word : UInt16) (row : Nat) : Nat → Instruction
  | 0 => .returnIf (condition row)
  | 1 => if row % 2 = 0 then .pop (stackWord (row / 2)) else unpaired opcode (row / 2)
  | 2 => .jumpIf (condition row) word
  | 3 => control opcode low word row
  | 4 => .callIf (condition row) word
  | 5 =>
    if row % 2 = 0 then .push (stackWord (row / 2))
    else if row / 2 = 0 then .call word else .illegal opcode
  | 6 => .accumulateImmediate (operation row) low
  | _ => .rst (UInt8.ofNat row)

/-- The instruction with the given opcode and operand bytes. -/
def read (opcode low high : UInt8) : Instruction :=
  let word := littleEndian low high
  match quarter opcode with
  | 0 => first opcode low word (row opcode) (column opcode)
  | 1 =>
    if row opcode = 6 ∧ column opcode = 6 then .hlt
    else .mov (operand (row opcode)) (operand (column opcode))
  | 2 => .accumulate (operation (row opcode)) (operand (column opcode))
  | _ => last opcode low word (row opcode) (column opcode)

variable (opcode : UInt8)

theorem quarter_lt : quarter opcode < 4 := by
  have := opcode.toNat_lt
  simp only [quarter]
  omega

theorem row_lt : row opcode < 8 :=
  Nat.mod_lt _ (by decide)

theorem column_lt : column opcode < 8 :=
  Nat.mod_lt _ (by decide)

/-- The fields determine the opcode. -/
theorem toNat_eq : opcode.toNat = 64 * quarter opcode + 8 * row opcode + column opcode := by
  simp only [quarter, row, column]
  omega

/-- Shifting an opcode down to its upper bits gives the quarter. -/
theorem shift_quarter : opcode >>> 6 = UInt8.ofNat (quarter opcode) := by
  have quotient : (opcode >>> 6).toNat = quarter opcode := by
    rw [UInt8.toNat_shiftRight]
    exact Nat.shiftRight_eq_div_pow opcode.toNat 6
  rw [← quotient, UInt8.ofNat_toNat]

/-- Shifting and masking the middle bits gives the row. -/
theorem mask_row : (opcode >>> 3) &&& 7 = UInt8.ofNat (row opcode) := by
  have quotient : ((opcode >>> 3) &&& 7).toNat = row opcode := by
    rw [UInt8.toNat_and, UInt8.toNat_shiftRight]
    change opcode.toNat >>> 3 &&& 2 ^ 3 - 1 = opcode.toNat / 2 ^ 3 % 2 ^ 3
    rw [Nat.and_two_pow_sub_one_eq_mod, Nat.shiftRight_eq_div_pow]
  rw [← quotient, UInt8.ofNat_toNat]

/-- Masking the lower bits gives the column. -/
theorem mask_column : opcode &&& 7 = UInt8.ofNat (column opcode) := by
  have remainder : (opcode &&& 7).toNat = column opcode := by
    rw [UInt8.toNat_and]
    change opcode.toNat &&& 2 ^ 3 - 1 = opcode.toNat % 2 ^ 3
    rw [Nat.and_two_pow_sub_one_eq_mod]
  rw [← remainder, UInt8.ofNat_toNat]

/-- Bits 4 and 5 are the pair that the row belongs to. -/
theorem mask_pair : (opcode >>> 4) &&& 3 = UInt8.ofNat (row opcode / 2) := by
  have quotient : ((opcode >>> 4) &&& 3).toNat = row opcode / 2 := by
    rw [UInt8.toNat_and, UInt8.toNat_shiftRight]
    change opcode.toNat >>> 4 &&& 2 ^ 2 - 1 = opcode.toNat / 8 % 8 / 2
    rw [Nat.and_two_pow_sub_one_eq_mod, Nat.shiftRight_eq_div_pow]
    omega
  rw [← quotient, UInt8.ofNat_toNat]

/-- Bit 3 is the side of the row in its pair. -/
theorem mask_side : (opcode &&& 8 == 0) = decide (row opcode % 2 = 0) := by
  have all : ∀ bits : BitVec 8,
      ((⟨bits⟩ : UInt8) &&& 8 == 0) = decide (row ⟨bits⟩ % 2 = 0) := by decide
  exact all opcode.toBitVec

/-- Little-endian words are words. -/
theorem littleEndian_eq (low high : UInt8) : littleEndian low high = word high low := by
  have sum : (word high low).toNat = low.toNat + 256 * high.toNat := by
    rw [toNat_word, Nat.add_comm]
  rw [littleEndian, ← sum, UInt16.ofNat_toNat]

theorem ofField_eq {field : Nat} (bound : field < 8) :
    Operand.ofField (UInt8.ofNat field) = operand field := by
  interval_cases field <;> rfl

theorem destination_eq : Operand.destination opcode = operand (row opcode) := by
  rw [Operand.destination, mask_row, ofField_eq (row_lt opcode)]

theorem source_eq : Operand.source opcode = operand (column opcode) := by
  rw [Operand.source, mask_column, ofField_eq (column_lt opcode)]

theorem wordRegister_eq : WordRegister.ofOpcode opcode = wordRegister (row opcode / 2) := by
  rw [WordRegister.ofOpcode, mask_pair]
  have bound := row_lt opcode
  generalize row opcode = row at bound ⊢
  interval_cases row <;> rfl

theorem stackWord_eq : StackWord.ofOpcode opcode = stackWord (row opcode / 2) := by
  rw [StackWord.ofOpcode, wordRegister_eq]
  have bound := row_lt opcode
  generalize row opcode = row at bound ⊢
  interval_cases row <;> rfl

theorem operation_eq : AccumulatorOp.ofOpcode opcode = operation (row opcode) := by
  rw [AccumulatorOp.ofOpcode, mask_row]
  have bound := row_lt opcode
  generalize row opcode = row at bound ⊢
  interval_cases row <;> rfl

theorem adjustment_eq : Instruction.decodeAccumulator opcode = adjustment (row opcode) := by
  rw [Instruction.decodeAccumulator, mask_row]
  have bound := row_lt opcode
  generalize row opcode = row at bound ⊢
  interval_cases row <;> rfl

theorem transfer_eq (operand : UInt16) :
    Instruction.decodeTransfer opcode operand =
      transfer operand (row opcode / 2) (row opcode % 2) := by
  rw [Instruction.decodeTransfer, mask_row]
  have bound := row_lt opcode
  generalize row opcode = row at bound ⊢
  interval_cases row <;> rfl

theorem control_eq (low : UInt8) (operand : UInt16) :
    Instruction.decodeControl opcode low operand = control opcode low operand (row opcode) := by
  rw [Instruction.decodeControl, mask_row]
  have bound := row_lt opcode
  generalize row opcode = row at bound ⊢
  interval_cases row <;> rfl

theorem condition_eq : Condition.ofOpcode opcode = condition (row opcode) := by
  have all : ∀ bits : BitVec 8, Condition.ofOpcode ⟨bits⟩ = condition (row ⟨bits⟩) := by decide
  exact all opcode.toBitVec

variable {opcode}

/-- In the first quarter, decoding reads the grammar. -/
theorem decodeLow_eq_first (quarter : quarter opcode = 0) (low : UInt8) (word : UInt16) :
    Instruction.decodeLow opcode low word =
      first opcode low word (row opcode) (column opcode) := by
  have fields := toNat_eq opcode
  have bound := column_lt opcode
  rw [Instruction.decodeLow, mask_column]
  simp only [mask_side, decide_eq_true_eq, wordRegister_eq, destination_eq, transfer_eq,
    adjustment_eq]
  generalize column opcode = column at fields bound ⊢
  interval_cases column
  · have same : (opcode == 0) = decide (row opcode = 0) := by
      rw [Bool.eq_iff_iff, beq_iff_eq, decide_eq_true_eq, ← UInt8.toNat_inj, fields, quarter]
      change 64 * 0 + 8 * row opcode + 0 = 0 ↔ row opcode = 0
      omega
    simp only [same, decide_eq_true_eq]
    rfl
  all_goals rfl

/-- In the last quarter, decoding reads the grammar. -/
theorem decodeHigh_eq_last (quarter : quarter opcode = 3) (low : UInt8) (word : UInt16) :
    Instruction.decodeHigh opcode low word =
      last opcode low word (row opcode) (column opcode) := by
  have fields := toNat_eq opcode
  have bound := column_lt opcode
  rw [Instruction.decodeHigh, mask_column]
  simp only [mask_side, mask_pair, mask_row, decide_eq_true_eq, stackWord_eq, condition_eq,
    control_eq, operation_eq]
  generalize column opcode = column at fields bound ⊢
  interval_cases column
  · rfl
  · have rows := row_lt opcode
    generalize row opcode = row at rows ⊢
    interval_cases row <;> rfl
  · rfl
  · rfl
  · rfl
  · by_cases side : row opcode % 2 = 0
    · simp only [last, side, if_true]
      rfl
    · have same : (opcode == 0xCD) = decide (row opcode / 2 = 0) := by
        rw [Bool.eq_iff_iff, beq_iff_eq, decide_eq_true_eq, ← UInt8.toNat_inj, fields, quarter]
        change 64 * 3 + 8 * row opcode + 5 = 205 ↔ row opcode / 2 = 0
        omega
      simp only [last, side, if_false, same, decide_eq_true_eq]
      rfl
  · rfl
  · rfl

/-- Decoding reads the grammar, for every opcode and all operand bytes. -/
theorem decode_eq_read (opcode low high : UInt8) :
    Instruction.decode opcode low high = read opcode low high := by
  have fields := toNat_eq opcode
  have bound := quarter_lt opcode
  rw [Instruction.decode, read, littleEndian_eq, shift_quarter]
  simp only [destination_eq, source_eq, operation_eq]
  rcases (show quarter opcode = 0 ∨ quarter opcode = 1 ∨ quarter opcode = 2 ∨
    quarter opcode = 3 by omega) with first | second | third | fourth
  · simp only [decodeLow_eq_first first, first]
    rfl
  · have same : (opcode == 0x76) = decide (row opcode = 6 ∧ column opcode = 6) := by
      have := column_lt opcode
      rw [Bool.eq_iff_iff, beq_iff_eq, decide_eq_true_eq, ← UInt8.toNat_inj, fields, second]
      change 64 * 1 + 8 * row opcode + column opcode = 118 ↔ _
      omega
    simp only [second, same, decide_eq_true_eq]
    rfl
  · simp only [third]
    rfl
  · simp only [decodeHigh_eq_last fourth, fourth]
    rfl

end Grammar

end Intel8080
