import Intel8080.Proofs.Decoding

/-!
# Decoding by one match after another

Another way to decode, by masks that are tried in order. Opcodes that are matched as a whole
come first, those without a meaning among them; then patterns with one or two fields in them,
and at last the instructions with a byte or a word behind the opcode. An earlier match may hide
a later one, and one does: the halt has the opcode that a move from memory to memory would
have.

Whatever is matched, the operand bytes are only filled in. So the order is right for all
instructions if it is right for the 256 opcodes, and it is: both ways of decoding agree.
-/

namespace Intel8080

namespace Cascade

open Instruction

/-- The pattern of opcodes without a meaning. -/
def empty? (opcode : UInt8) : Option Instruction :=
  if opcode &&& 0xC7 = 0 then some (illegal opcode) else none

/-- The opcodes that are matched as a whole, and those without a meaning. -/
def whole? (opcode : UInt8) : Option Instruction :=
  match opcode with
  | 0x00 => some nop
  | 0xEB => some xchg
  | 0x76 => some hlt
  | 0xC9 => some ret
  | 0xE3 => some xthl
  | 0x07 => some (rotate .rlc)
  | 0x0F => some (rotate .rrc)
  | 0x17 => some (rotate .ral)
  | 0x1F => some (rotate .rar)
  | 0x37 => some stc
  | 0x3F => some cmc
  | 0x27 => some daa
  | 0x2F => some cma
  | 0xE9 => some pchl
  | 0xF9 => some sphl
  | 0xF3 => some (interrupts false)
  | 0xFB => some (interrupts true)
  | 0xCB | 0xD9 | 0xDD | 0xED | 0xFD => some (illegal opcode)
  | _ => empty? opcode

/-- The patterns with a field in bits 3 to 5. -/
def row? (opcode : UInt8) : Option Instruction :=
  match opcode &&& 0xC7 with
  | 0xC7 => some (rst ((opcode >>> 3) &&& 7))
  | 0xC0 => some (returnIf (.ofOpcode opcode))
  | 0x04 => some (inr (.destination opcode))
  | 0x05 => some (dcr (.destination opcode))
  | _ => none

/-- The patterns with a field in bits 4 and 5. -/
def pair? (opcode : UInt8) : Option Instruction :=
  match opcode &&& 0xCF with
  | 0x0B => some (dcx (.ofOpcode opcode))
  | 0x03 => some (inx (.ofOpcode opcode))
  | 0x09 => some (dad (.ofOpcode opcode))
  | 0xC5 => some (push (.ofOpcode opcode))
  | 0xC1 => some (pop (.ofOpcode opcode))
  | _ => none

/-- The patterns with a field in bits 0 to 2, which is shifted to where an operand is read. -/
def column? (opcode : UInt8) : Option Instruction :=
  match opcode &&& 0xF8 with
  | 0x80 => some (accumulate .add (.destination (opcode <<< 3)))
  | 0x88 => some (accumulate .adc (.destination (opcode <<< 3)))
  | 0x90 => some (accumulate .sub (.destination (opcode <<< 3)))
  | 0x98 => some (accumulate .sbb (.destination (opcode <<< 3)))
  | 0xA0 => some (accumulate .ana (.destination (opcode <<< 3)))
  | 0xA8 => some (accumulate .xra (.destination (opcode <<< 3)))
  | 0xB0 => some (accumulate .ora (.destination (opcode <<< 3)))
  | 0xB8 => some (accumulate .cmp (.destination (opcode <<< 3)))
  | _ => none

/-- The moves, with a field of each kind. -/
def move? (opcode : UInt8) : Option Instruction :=
  if opcode &&& 0xC0 = 0x40 then
    some (mov (.destination opcode) (.destination (opcode <<< 3)))
  else none

/-- The patterns with a field in bit 4 alone. -/
def indirect? (opcode : UInt8) : Option Instruction :=
  match opcode &&& 0xEF with
  | 0x0A => some (ldax (if opcode &&& 0x10 ≠ 0 then .de else .bc))
  | 0x02 => some (stax (if opcode &&& 0x10 ≠ 0 then .de else .bc))
  | _ => none

/-- All patterns without an operand behind the opcode, in order. -/
def patterned? (opcode : UInt8) : Option Instruction :=
  row? opcode <|> pair? opcode <|> column? opcode <|> move? opcode <|> indirect? opcode

/-- The pattern with a field and a byte behind the opcode. -/
def immediate? (opcode low : UInt8) : Option Instruction :=
  if opcode &&& 0xC7 = 0x06 then some (mvi (.destination opcode) low) else none

/-- The instructions with a byte behind the opcode. -/
def twoBytes? (opcode low : UInt8) : Option Instruction :=
  match opcode with
  | 0xC6 => some (accumulateImmediate .add low)
  | 0xCE => some (accumulateImmediate .adc low)
  | 0xD6 => some (accumulateImmediate .sub low)
  | 0xDE => some (accumulateImmediate .sbb low)
  | 0xE6 => some (accumulateImmediate .ana low)
  | 0xEE => some (accumulateImmediate .xra low)
  | 0xF6 => some (accumulateImmediate .ora low)
  | 0xFE => some (accumulateImmediate .cmp low)
  | 0xD3 => some (output low)
  | 0xDB => some (input low)
  | _ => immediate? opcode low

/-- The patterns with a field and a word behind the opcode. -/
def extended? (opcode : UInt8) (operand : UInt16) : Option Instruction :=
  if opcode &&& 0xCF = 0x01 then some (lxi (.ofOpcode opcode) operand)
  else if opcode &&& 0xC7 = 0xC2 then some (jumpIf (.ofOpcode opcode) operand)
  else if opcode &&& 0xC7 = 0xC4 then some (callIf (.ofOpcode opcode) operand)
  else none

/-- The instructions with a word behind the opcode. -/
def threeBytes? (opcode : UInt8) (operand : UInt16) : Option Instruction :=
  match opcode with
  | 0x2A => some (lhld operand)
  | 0x22 => some (shld operand)
  | 0x3A => some (lda operand)
  | 0x32 => some (sta operand)
  | 0xC3 => some (jmp operand)
  | 0xCD => some (call operand)
  | _ => extended? opcode operand

/-- The first match, if there is one. -/
def match? (opcode low : UInt8) (operand : UInt16) : Option Instruction :=
  whole? opcode <|> patterned? opcode <|> twoBytes? opcode low <|> threeBytes? opcode operand

/-- The instruction with the given opcode and operand bytes. -/
def decode (opcode low high : UInt8) : Instruction :=
  (match? opcode low (word high low)).getD (illegal opcode)

/-- A match to which the operand bytes make no difference. -/
def Plain (matched : Option Instruction) : Prop :=
  ∀ low operand, matched.map (withOperands low operand) = matched

theorem Plain.orElse {left right : Option Instruction} (first : Plain left)
    (second : Plain right) : Plain (left <|> right) := by
  intro low operand
  cases left with
  | none => exact second low operand
  | some instruction => exact first low operand

variable (opcode : UInt8)

theorem plain_whole? : Plain (whole? opcode) := by
  have empty : Plain (empty? opcode) := by
    intro low operand
    rw [empty?]
    split <;> rfl
  intro low operand
  unfold whole?
  split <;> first | rfl | exact empty low operand

theorem plain_patterned? : Plain (patterned? opcode) := by
  have row : Plain (row? opcode) := by
    intro low operand
    rw [row?]
    split <;> rfl
  have pair : Plain (pair? opcode) := by
    intro low operand
    rw [pair?]
    split <;> rfl
  have column : Plain (column? opcode) := by
    intro low operand
    rw [column?]
    split <;> rfl
  have move : Plain (move? opcode) := by
    intro low operand
    rw [move?]
    split <;> rfl
  have indirect : Plain (indirect? opcode) := by
    intro low operand
    rw [indirect?]
    split <;> rfl
  exact row.orElse (pair.orElse (column.orElse (move.orElse indirect)))

theorem twoBytes?_eq (low : UInt8) (operand : UInt16) :
    twoBytes? opcode low = (twoBytes? opcode 0).map (withOperands low operand) := by
  have immediate : immediate? opcode low =
      (immediate? opcode 0).map (withOperands low operand) := by
    rw [immediate?, immediate?]
    split <;> rfl
  unfold twoBytes?
  split <;> first | rfl | exact immediate

theorem threeBytes?_eq (low : UInt8) (operand : UInt16) :
    threeBytes? opcode operand = (threeBytes? opcode 0).map (withOperands low operand) := by
  have extended : extended? opcode operand =
      (extended? opcode 0).map (withOperands low operand) := by
    simp only [extended?]
    split
    · rfl
    · split
      · rfl
      · split <;> rfl
  unfold threeBytes?
  split <;> first | rfl | exact extended

/-- The opcode chooses the match, and the operand bytes fill it in. -/
theorem match?_eq (low : UInt8) (operand : UInt16) :
    match? opcode low operand = (match? opcode 0 0).map (withOperands low operand) := by
  have whole := plain_whole? opcode low operand
  have patterned := plain_patterned? opcode low operand
  rw [match?, match?, twoBytes?_eq opcode low operand, threeBytes?_eq opcode low operand]
  cases first : whole? opcode with
  | some instruction => exact (first ▸ whole).symm
  | none =>
    cases second : patterned? opcode with
    | some instruction => exact (second ▸ patterned).symm
    | none =>
      cases twoBytes? opcode 0 with
      | some instruction => rfl
      | none => rfl

/-- For each opcode the first match is the instruction that it stands for. -/
theorem decode_zero : decode opcode 0 0 = Instruction.decode opcode 0 0 := by
  have all : ∀ bits : BitVec 8, decode ⟨bits⟩ 0 0 = Instruction.decode ⟨bits⟩ 0 0 := by
    decide +kernel
  exact all opcode.toBitVec

/-- Decoding by one match after another is decoding, for every opcode and all operand
bytes. -/
theorem decode_eq_decode (low high : UInt8) :
    decode opcode low high = Instruction.decode opcode low high := by
  have filled : decode opcode low high =
      (decode opcode 0 0).withOperands low (word high low) := by
    rw [decode, match?_eq]
    exact Option.getD_map (withOperands low (word high low)) (illegal opcode) (match? opcode 0 0)
  rw [filled, decode_zero, ← Instruction.decode_eq]

end Cascade

end Intel8080
