import Mathlib.Data.Nat.Digits.Defs
import Intel8080.Trace
import Intel8080.Proofs.Composition
import Intel8080.Proofs.Disassembly
import Intel8080.Proofs.Fetching
import Intel8080.Proofs.Sessions

/-!
# Trace lines are aligned and lossless

A trace line is a row of columns. Every column but the last two is written in a fixed number
of characters, whatever its value, and different values are written differently; both survive
putting columns side by side, so the row as a whole can be taken apart again. What follows the
bytes of an instruction is its assembler text. It has no fixed width, but the bytes determine
it, and no instruction has a text so long that it does not fit in front of the registers. The
cost has no fixed width either, but it is the last.
-/

namespace Intel8080

/-- Texts that begin with parts of one length agree exactly if they agree in those parts and
in what follows them. -/
theorem append_eq_append_iff_of_length {first other second otherSecond : String}
    (aligned : first.length = other.length) :
    first ++ second = other ++ otherSecond ↔ first = other ∧ second = otherSecond := by
  constructor
  · intro same
    have letters : first.toList ++ second.toList = other.toList ++ otherSecond.toList := by
      rw [← String.toList_append, same, String.toList_append]
    obtain ⟨front, back⟩ :=
      List.append_inj letters (by simpa only [String.length_toList] using aligned)
    exact ⟨String.toList_injective front, String.toList_injective back⟩
  · rintro ⟨rfl, rfl⟩
    rfl

/-- A way to write values in a column: all in the same number of characters, and different
ones differently. -/
structure Column (α : Type) where
  write : α → String
  width : Nat
  length_write : ∀ value, (write value).length = width
  write_injective : Function.Injective write

namespace Column

variable {α β : Type}

/-- The column with a mark behind it. -/
def marked (column : Column α) (mark : String) : Column α where
  write value := column.write value ++ mark
  width := column.width + mark.length
  length_write value := by rw [String.length_append, column.length_write]
  write_injective := by
    intro left right same
    have aligned := (column.length_write left).trans (column.length_write right).symm
    exact column.write_injective ((append_eq_append_iff_of_length aligned).mp same).1

/-- Two columns side by side. -/
def beside (column : Column α) (next : Column β) : Column (α × β) where
  write values := column.write values.1 ++ next.write values.2
  width := column.width + next.width
  length_write values := by rw [String.length_append, column.length_write, next.length_write]
  write_injective := by
    rintro ⟨left, leftNext⟩ ⟨right, rightNext⟩ same
    have aligned := (column.length_write left).trans (column.length_write right).symm
    obtain ⟨front, back⟩ := (append_eq_append_iff_of_length aligned).mp same
    exact Prod.ext (column.write_injective front) (next.write_injective back)

/-- A row that begins with a column agrees with another exactly if the values do and what
follows them. -/
theorem write_append_inj (column : Column α) (left right : α) {rest otherRest : String} :
    column.write left ++ rest = column.write right ++ otherRest ↔
      left = right ∧ rest = otherRest := by
  have aligned := (column.length_write left).trans (column.length_write right).symm
  rw [append_eq_append_iff_of_length aligned, column.write_injective.eq_iff]

/-- Digits of a width that is enough for every value. -/
def hexadecimal (width : Nat) (number : α → Nat) (distinct : Function.Injective number)
    (bounded : ∀ value, number value < 16 ^ width) : Column α where
  write value := String.ofList (Hex.digits .lower width (number value))
  width := width
  length_write value := by rw [String.length_ofList, Hex.length_digits]
  write_injective := by
    intro left right same
    have numbers := congrArg Hex.value (String.ofList_injective same)
    rw [Hex.value_digits, Hex.value_digits, Nat.mod_eq_of_lt (bounded left),
      Nat.mod_eq_of_lt (bounded right)] at numbers
    exact distinct numbers

/-- A byte in two digits. -/
def byte : Column UInt8 :=
  hexadecimal 2 UInt8.toNat (fun _ _ => UInt8.toNat_inj.mp) UInt8.toNat_lt

/-- A word in four digits. -/
def word : Column UInt16 :=
  hexadecimal 4 UInt16.toNat (fun _ _ => UInt16.toNat_inj.mp) UInt16.toNat_lt

/-- No digit is a blank. -/
theorem digit_ne_blank {value : Nat} (small : value < 16) : Hex.digit .lower value ≠ ' ' := by
  have all : ∀ value : Fin 16, Hex.digit .lower value ≠ ' ' := by decide
  exact all ⟨value, small⟩

/-- A byte that is shown does not look like one that is missing. -/
theorem byte_ne_blanks (value : UInt8) : Fetched.columnText (some value) ≠ "   " := by
  intro same
  have letters : Hex.digits .lower 2 value.toNat ++ [' '] = [' ', ' ', ' '] := by
    simpa [Fetched.columnText, Hex.byte] using congrArg String.toList same
  have first : Hex.digit .lower (value.toNat / 16 % 16) = ' ' := (List.cons.inj letters).1
  exact digit_ne_blank (Nat.mod_lt _ (by decide)) first

/-- A byte that need not be there. -/
def shown : Column (Option UInt8) where
  write := Fetched.columnText
  width := 3
  length_write value := by
    cases value with
    | none => rfl
    | some value => exact (byte.marked " ").length_write value
  write_injective := by
    intro left right same
    match left, right with
    | none, none => rfl
    | some left, some right => rw [(byte.marked " ").write_injective same]
    | some left, none => exact absurd same (byte_ne_blanks left)
    | none, some right => exact absurd same.symm (byte_ne_blanks right)

/-- The flags behind a blank. -/
def flags : Column Flags where
  write flags := " " ++ flags.text
  width := 6
  length_write flags := by
    have letters : flags.text.length = 5 := by
      rw [Flags.text, String.length_ofList]
      rfl
    rw [String.length_append, letters]
    rfl
  write_injective := by
    intro left right same
    have letter {set other : Bool} {name : Char} (proper : name ≠ '.')
        (same : (if set then name else '.') = if other then name else '.') : set = other := by
      cases set <;> cases other <;> simp_all [eq_comm]
    have letters := congrArg String.toList same
    simp only [Flags.text, String.toList_append, String.toList_ofList, List.append_cancel_left_eq,
      List.cons.injEq, and_true] at letters
    obtain ⟨zeros, signs, parities, carries, auxes⟩ := letters
    cases left
    cases right
    rw [Flags.mk.injEq]
    exact ⟨letter (by decide) zeros, letter (by decide) signs, letter (by decide) parities,
      letter (by decide) carries, letter (by decide) auxes⟩

end Column

namespace Cpu

/-- What a snapshot shows: the flags, the seven registers in the order of the line, and the
stack pointer. -/
def visible (cpu : Cpu) :
    (((((((Flags × UInt8) × UInt8) × UInt8) × UInt8) × UInt8) × UInt8) × UInt8) × UInt16 :=
  ((((((((cpu.flags, cpu.a), cpu.b), cpu.c), cpu.d), cpu.e), cpu.h), cpu.l), cpu.sp)

/-- The columns of a snapshot. -/
def snapshot : Column
    ((((((((Flags × UInt8) × UInt8) × UInt8) × UInt8) × UInt8) × UInt8) × UInt8) × UInt16) :=
  ((((((((Column.flags.marked "  A $").beside .byte |>.marked " B $").beside .byte
    |>.marked " C $").beside .byte |>.marked " D $").beside .byte |>.marked " E $").beside .byte
    |>.marked " H $").beside .byte |>.marked " L $").beside .byte |>.marked " SP ").beside .word

theorem text_eq_snapshot (cpu : Cpu) : cpu.text = snapshot.write cpu.visible :=
  rfl

/-- Every snapshot has the same width. -/
theorem length_text (cpu : Cpu) : cpu.text.length = 57 :=
  snapshot.length_write cpu.visible

/-- What is visible of a processor are its registers, its flags and its stack pointer. -/
theorem visible_eq_iff (left right : Cpu) :
    left.visible = right.visible ↔
      (∀ register, left.get register = right.get register) ∧ left.flags = right.flags ∧
        left.sp = right.sp := by
  simp only [visible, Prod.mk.injEq]
  constructor
  · rintro ⟨⟨⟨⟨⟨⟨⟨⟨flags, a⟩, b⟩, c⟩, d⟩, e⟩, h⟩, l⟩, sp⟩
    refine ⟨?_, flags, sp⟩
    intro register
    cases register <;> assumption
  · rintro ⟨registers, flags, sp⟩
    exact ⟨⟨⟨⟨⟨⟨⟨⟨flags, registers .a⟩, registers .b⟩, registers .c⟩, registers .d⟩,
      registers .e⟩, registers .h⟩, registers .l⟩, sp⟩

end Cpu

theorem Operand.length_text (operand : Operand) : operand.text.length = 1 := by
  cases operand with
  | register name => cases name <;> rfl
  | memory => rfl

theorem Pair.length_text (name : Pair) : name.text.length = 1 := by
  cases name <;> rfl

theorem WordRegister.length_text_le (name : WordRegister) : name.text.length ≤ 2 := by
  cases name with
  | pair name => exact le_trans name.length_text.le (by decide)
  | stackPointer => exact le_refl 2

theorem StackWord.length_text_le (word : StackWord) : word.text.length ≤ 3 := by
  cases word with
  | register name => exact le_trans name.length_text_le (by decide)
  | status => exact le_refl 3

namespace Instruction

/-- The number of a restart has at most three digits. -/
theorem length_number_le (number : UInt8) : (toString number.toNat).length ≤ 3 := by
  have small : number.toNat < 10 ^ 3 := lt_trans number.toNat_lt (by decide)
  change (String.ofList (Nat.toDigits 10 number.toNat)).length ≤ 3
  rw [String.length_ofList]
  exact Nat.toDigits_length 10 number.toNat 3 (by decide) small

theorem length_text (instruction : Instruction) :
    instruction.text.length =
      instruction.mnemonic.length + (instruction.operandText.map (·.length + 1)).getD 0 := by
  rw [text]
  cases instruction.operandText with
  | none => rfl
  | some operands =>
    rw [String.length_append, String.length_append, Nat.add_assoc, Nat.add_comm _ operands.length]
    rfl

theorem length_byteText (value : UInt8) : (byteText value).length = 4 := by
  have digits : (Hex.byte value).length = 2 := Column.byte.length_write value
  rw [byteText, String.length_append, digits]
  rfl

theorem length_wordText (value : UInt16) : (wordText value).length = 6 := by
  have digits : (Hex.word value).length = 4 := Column.word.length_write value
  rw [wordText, String.length_append, digits]
  rfl

/-- Only that of an illegal opcode has more than four letters. -/
theorem length_mnemonic_le {instruction : Instruction}
    (legal : instruction.head ≠ illegal 0) : instruction.mnemonic.length ≤ 4 := by
  have all : ∀ head ∈ heads, head ≠ illegal 0 → head.mnemonic.length ≤ 4 := by decide
  rw [← mnemonic_head]
  exact all _ instruction.head_mem_heads legal

/-- The operands of an instruction take as much room as a register, a comma and a byte, or
less. Only an immediate word takes more. -/
theorem length_operands_le {instruction : Instruction} {operands : String}
    (written : instruction.operandText = some operands) :
    operands.length ≤ 6 ∨ ∃ target value, instruction = lxi target value := by
  cases instruction with
  | lxi target value => exact .inr ⟨target, value, rfl⟩
  | rst number =>
    obtain rfl := Option.some.inj written
    exact .inl (le_trans (length_number_le number) (by decide))
  | inx target | dcx target | dad target =>
    obtain rfl := Option.some.inj written
    exact .inl (le_trans target.length_text_le (by decide))
  | push word | pop word =>
    obtain rfl := Option.some.inj written
    exact .inl (le_trans word.length_text_le (by decide))
  | _ =>
    have comma : ",".length = 1 := rfl
    cases written
    all_goals
      simp [Operand.length_text, Pair.length_text, length_byteText, length_wordText, comma]

/-- The longest assembler text is that of `lxi sp` with its operand. -/
theorem length_text_le (instruction : Instruction) : instruction.text.length ≤ 13 := by
  rw [length_text]
  -- The longest name has a short operand and the longest operands have a short name.
  by_cases illegible : ∃ opcode, instruction = illegal opcode
  · obtain ⟨opcode, rfl⟩ := illegible
    have name : "illegal".length = 7 := rfl
    simp [mnemonic, operandText, length_byteText, name]
  · have legal : instruction.head ≠ illegal 0 := by
      cases instruction <;> simp_all [head]
    have short := length_mnemonic_le legal
    cases written : instruction.operandText with
    | none => exact le_trans short (by decide)
    | some operands =>
      change instruction.mnemonic.length + (operands.length + 1) ≤ 13
      obtain few | ⟨target, value, rfl⟩ := length_operands_le written
      · omega
      · obtain rfl := Option.some.inj written
        have register := target.length_text_le
        have name : "lxi".length = 3 := rfl
        have comma : ",".length = 1 := rfl
        simp only [mnemonic, String.length_append, length_wordText, name, comma]
        omega

/-- Instructions that were decoded from the same bytes are the same. -/
theorem decode_eq_iff_bytes (opcode low high other otherLow otherHigh : UInt8) :
    decode opcode low high = decode other otherLow otherHigh ↔
      (decode opcode low high).bytes = (decode other otherLow otherHigh).bytes := by
  constructor
  · exact congrArg bytes
  · intro same
    simp only [bytes, opcode_decode, operandBytes_decode, List.cons.injEq] at same
    obtain ⟨rfl, same⟩ := same
    rw [length_decode opcode otherLow otherHigh, ← length_decode opcode low high] at same
    exact (decode_eq_decode_iff ..).mpr ⟨rfl, same⟩

end Instruction

/-- The columns in front of the label: the address and the bytes. -/
def Fetched.columns :
    Column (((UInt16 × Option UInt8) × Option UInt8) × Option UInt8) :=
  (((Column.word.marked "  ").beside .shown).beside .shown).beside .shown |>.marked " "

/-- What the columns in front of the label show. -/
def Fetched.shown (pc : UInt16) (bytes : List UInt8) :
    ((UInt16 × Option UInt8) × Option UInt8) × Option UInt8 :=
  (((pc, bytes[0]?), bytes[1]?), bytes[2]?)

/-- Up to three bytes have room in the columns. -/
theorem Fetched.shown_inj {pc otherPc : UInt16} {bytes otherBytes : List UInt8}
    (room : bytes.length ≤ 3) (otherRoom : otherBytes.length ≤ 3) :
    shown pc bytes = shown otherPc otherBytes ↔ pc = otherPc ∧ bytes = otherBytes := by
  constructor
  · intro same
    simp only [shown, Prod.mk.injEq] at same
    obtain ⟨⟨⟨samePc, first⟩, second⟩, third⟩ := same
    refine ⟨samePc, List.ext_getElem? ?_⟩
    intro index
    match index with
    | 0 => exact first
    | 1 => exact second
    | 2 => exact third
    | beyond + 3 =>
      rw [List.getElem?_eq_none (by omega), List.getElem?_eq_none (by omega)]
  · rintro ⟨rfl, rfl⟩
    rfl

theorem Fetched.text_eq_columns (fetched : Fetched) :
    fetched.text = columns.write (shown fetched.pc fetched.raw) ++ fetched.label :=
  rfl

/-- A tracer that writes the line of every instruction that was completed. -/
def Tracer.lines : Tracer (List String) where
  before written _ _ := written
  after written fetched cpu cost := written ++ [fetched.traceLine cpu cost]

/-- Different costs are written differently. -/
theorem toString_toNat_inj {left right : UInt8} :
    toString left.toNat = toString right.toNat ↔ left = right := by
  constructor
  · intro same
    rw [← numberOf_toString left, same, numberOf_toString]
  · rintro rfl
    rfl

/-- A text that is not too long is filled up to the width. -/
theorem length_padRight {width : Nat} {text : String} (room : text.length ≤ width) :
    (padRight width text).length = width := by
  rw [padRight, String.length_append, String.length_ofList, List.length_replicate]
  omega

namespace Machine

variable {σ τ : Type} [Host σ] [Host τ] {machine after : Machine σ} {other otherAfter : Machine τ}
  {cost otherCost : UInt8}

/-- The lines that are written about the next instruction. -/
def traced (machine : Machine σ) : List String :=
  (machine.stepTraced Tracer.lines []).1

/-- The bytes of the next instruction as they stand in memory. Addresses wrap around at the
top of memory. -/
def bytesAhead (machine : Machine σ) : List UInt8 :=
  (List.range machine.next.length.toNat).map fun offset =>
    Host.read machine.host (machine.cpu.pc + UInt16.ofNat offset)

theorem length_bytesAhead_le (machine : Machine σ) : machine.bytesAhead.length ≤ 3 := by
  rw [bytesAhead, List.length_map, List.length_range]
  exact UInt8.le_iff_toNat_le.mp machine.next.length_bounds.2

/-- The bytes ahead are those that the next instruction was decoded from. -/
theorem bytesAhead_eq (machine : Machine σ) : machine.bytesAhead = machine.next.bytes := by
  have window : (List.range 3).map (fun offset =>
      Host.read machine.host (machine.cpu.pc + UInt16.ofNat offset)) =
      [Host.read machine.host machine.cpu.pc, Host.read machine.host (machine.cpu.pc + 1),
        Host.read machine.host (machine.cpu.pc + 2)] := by
    simp [List.range_succ]
  have room : min machine.next.length.toNat 3 = machine.next.length.toNat :=
    min_eq_left (UInt8.le_iff_toNat_le.mp machine.next.length_bounds.2)
  have decoded : machine.next.bytes = [Host.read machine.host machine.cpu.pc,
      Host.read machine.host (machine.cpu.pc + 1),
      Host.read machine.host (machine.cpu.pc + 2)].take machine.next.length.toNat :=
    Instruction.bytes_decode ..
  rw [decoded, ← window, ← List.map_take, List.take_range, room, bytesAhead]

/-- What is shown of the fetched bytes are all bytes of the instruction. -/
theorem raw_fetch (canonical : machine.table = .canonical) :
    machine.fetch.raw = machine.bytesAhead := by
  have length : machine.fetch.length = machine.fetch.instruction.length :=
    (bytes_next canonical).trans (congrArg _ (fetch_instruction canonical)).symm
  have bounds := machine.fetch.instruction.length_bounds
  have least : 1 ≤ machine.fetch.instruction.length.toNat := UInt8.le_iff_toNat_le.mp bounds.1
  have most : machine.fetch.instruction.length.toNat ≤ 3 := UInt8.le_iff_toNat_le.mp bounds.2
  have decoded : machine.fetch.instruction.bytes =
      [machine.fetch.opcode, machine.fetch.low, machine.fetch.high].take
        machine.fetch.instruction.length.toNat :=
    Instruction.bytes_decode ..
  rw [Fetched.raw, length, min_eq_right most, max_eq_right least, ← decoded,
    fetch_instruction canonical, bytesAhead_eq]

/-- A fetched instruction goes by its assembler text. -/
theorem label_fetch (canonical : machine.table = .canonical) :
    machine.fetch.label = machine.next.text := by
  have name : machine.fetch.name = machine.fetch.instruction.mnemonic := by
    change (machine.table.get machine.fetch.opcode).name = _
    rw [canonical, Table.get_canonical]
    exact (Instruction.mnemonic_decode ..).symm
  rw [Fetched.label, name, beq_self_eq_true, if_pos rfl, fetch_instruction canonical]

/-- The address, the bytes and the text of the next instruction. -/
theorem text_fetch (canonical : machine.table = .canonical) :
    machine.fetch.text =
      Fetched.columns.write (Fetched.shown machine.cpu.pc machine.bytesAhead) ++
        machine.next.text := by
  rw [Fetched.text_eq_columns, raw_fetch canonical, label_fetch canonical]
  rfl

/-- The text of the next instruction has room in front of the registers. -/
theorem length_text_fetch_le (canonical : machine.table = .canonical) :
    machine.fetch.text.length ≤ 29 := by
  rw [text_fetch canonical, String.length_append, Column.length_write]
  exact Nat.add_le_add_left machine.next.length_text_le 16

/-- Machines have instructions of the same bytes in front of them exactly if the instructions
are the same. -/
theorem next_eq_iff_bytesAhead : machine.next = other.next ↔
    machine.bytesAhead = other.bytesAhead := by
  rw [bytesAhead_eq, bytesAhead_eq]
  exact Instruction.decode_eq_iff_bytes ..

/-- A completed step writes one line. -/
theorem traced_of_step (stepped : machine.step = .ok cost after) :
    machine.traced = [machine.fetch.traceLine after.cpu cost] := by
  have running : machine.status = .running := by
    obtain ⟨-, -, -, -, -, -, -, running, -⟩ := step_ok stepped
    exact running
  rw [step_of_running running] at stepped
  simp only [traced, stepTraced, running, stepped, Tracer.lines, List.nil_append]

/-- The registers begin in the same place of every line. -/
theorem length_padRight_fetch (canonical : machine.table = .canonical) :
    (padRight 32 machine.fetch.text).length = 32 :=
  length_padRight (le_trans (length_text_fetch_le canonical) (by decide))

/-- Fetched texts agree, filled up or not, exactly if the address and the bytes do. -/
theorem padRight_fetch_inj (canonical : machine.table = .canonical)
    (otherCanonical : other.table = .canonical) :
    padRight 32 machine.fetch.text = padRight 32 other.fetch.text ↔
      machine.cpu.pc = other.cpu.pc ∧ machine.bytesAhead = other.bytesAhead := by
  rw [← Fetched.shown_inj machine.length_bytesAhead_le other.length_bytesAhead_le]
  constructor
  · intro same
    -- The texts differ in length, so it is the columns in front of them that are compared.
    rw [text_fetch canonical, text_fetch otherCanonical] at same
    simp only [padRight, String.append_assoc] at same
    exact ((Column.write_append_inj ..).mp same).1
  · intro same
    obtain ⟨-, bytes⟩ :=
      (Fetched.shown_inj machine.length_bytesAhead_le other.length_bytesAhead_le).mp same
    rw [text_fetch canonical, text_fetch otherCanonical, same, next_eq_iff_bytesAhead.mpr bytes]

/-- Lines agree exactly if the address and the bytes do, what is visible of the processors, and
the costs. -/
theorem traceLine_inj (canonical : machine.table = .canonical)
    (otherCanonical : other.table = .canonical) (cpu otherCpu : Cpu) (cost otherCost : UInt8) :
    machine.fetch.traceLine cpu cost = other.fetch.traceLine otherCpu otherCost ↔
      (machine.cpu.pc = other.cpu.pc ∧ machine.bytesAhead = other.bytesAhead) ∧
        cpu.visible = otherCpu.visible ∧ cost = otherCost := by
  have aligned : (padRight 32 machine.fetch.text).length = (padRight 32 other.fetch.text).length :=
    (length_padRight_fetch canonical).trans (length_padRight_fetch otherCanonical).symm
  have line (fetched : Fetched) (cpu : Cpu) (cost : UInt8) : fetched.traceLine cpu cost =
      padRight 32 fetched.text ++ (Cpu.snapshot.write cpu.visible ++
        ("  +" ++ toString cost.toNat)) := by
    rw [Fetched.traceLine, cpu.text_eq_snapshot, String.append_assoc, String.append_assoc]
  rw [line, line, append_eq_append_iff_of_length aligned,
    padRight_fetch_inj canonical otherCanonical, Column.write_append_inj,
    append_eq_append_iff_of_length rfl, toString_toNat_inj]
  simp only [true_and]

/-- Trace lines are aligned and lossless. A completed step writes one line. In front there are
the address, the bytes that stood in memory at it and behind it before the step, and the text
of the instruction; this takes at most 29 characters and is filled up to 32. Then there are the
registers, the flags and the stack pointer after the step in 57 characters, and the cost is the
last. Two lines are the same only if they agree in all that. -/
theorem traced_exact (canonical : machine.table = .canonical)
    (otherCanonical : other.table = .canonical) (stepped : machine.step = .ok cost after)
    (otherStepped : other.step = .ok otherCost otherAfter) :
    (machine.traced = [padRight 32 machine.fetch.text ++ after.cpu.text ++ "  +" ++
        toString cost.toNat] ∧
      machine.fetch.text = Hex.word machine.cpu.pc ++ "  " ++
        Fetched.columnText machine.bytesAhead[0]? ++ Fetched.columnText machine.bytesAhead[1]? ++
        Fetched.columnText machine.bytesAhead[2]? ++ " " ++ machine.next.text ∧
      machine.fetch.text.length ≤ 29 ∧ (padRight 32 machine.fetch.text).length = 32 ∧
      after.cpu.text.length = 57) ∧
    (machine.traced = other.traced ↔
      machine.cpu.pc = other.cpu.pc ∧ machine.bytesAhead = other.bytesAhead ∧
        (∀ register, after.cpu.get register = otherAfter.cpu.get register) ∧
        after.cpu.flags = otherAfter.cpu.flags ∧ after.cpu.sp = otherAfter.cpu.sp ∧
        cost = otherCost) := by
  refine ⟨⟨?_, text_fetch canonical, length_text_fetch_le canonical,
    length_padRight_fetch canonical, after.cpu.length_text⟩, ?_⟩
  · exact traced_of_step stepped
  · rw [traced_of_step stepped, traced_of_step otherStepped, List.singleton_inj,
      traceLine_inj canonical otherCanonical, Cpu.visible_eq_iff]
    tauto

/-- The straddling machine with the accumulator set. -/
def laden : Machine Board :=
  { straddling with cpu := { straddling.cpu with a := 0x5A } }

theorem next_straddling : straddling.next = .lxi (.pair .bc) 0x1234 := by
  have bytes : Host.read straddling.host 0xFFFE = 0x01 ∧
      Host.read straddling.host 0xFFFF = 0x34 ∧ Host.read straddling.host 0x0000 = 0x12 := by
    simp [straddling, startAt, Host.read, Board.read, Board.load, Memory.read_load]
  obtain ⟨opcode, low, high⟩ := bytes
  change Instruction.decode (Host.read straddling.host 0xFFFE)
    (Host.read straddling.host 0xFFFF) (Host.read straddling.host 0x0000) = _
  rw [opcode, low, high]
  rfl

/-- The line of an instruction across the top of memory, which tells from the accumulator that
another machine was at work. -/
theorem traced_exact_straddling :
    straddling.traced =
      ["fffe  01 34 12  lxi b,0x1234    " ++
        " .....  A $00 B $12 C $34 D $00 E $00 H $00 L $00 SP 0000" ++ "  +10"] ∧
      straddling.traced ≠ laden.traced := by
  have canonical : straddling.table = .canonical := rfl
  have ladenCanonical : laden.table = .canonical := rfl
  have step : straddling.step = .ok 10 { straddling with
      cpu := { b := 0x12, c := 0x34, pc := 0x0001, cycles := 10 } } := by
    rw [step_canonical canonical rfl, next_straddling]
    rfl
  have ladenStep : laden.step = .ok 10 { straddling with
      cpu := { a := 0x5A, b := 0x12, c := 0x34, pc := 0x0001, cycles := 10 } } := by
    have ahead : laden.next = .lxi (.pair .bc) 0x1234 := next_straddling
    rw [step_canonical ladenCanonical rfl, ahead]
    rfl
  obtain ⟨⟨line, text, -⟩, same⟩ := traced_exact canonical ladenCanonical step ladenStep
  refine ⟨?_, ?_⟩
  · rw [line, text, bytesAhead_eq, next_straddling]
    decide
  · rw [Ne, same]
    rintro ⟨-, -, registers, -⟩
    exact absurd (registers .a) (by decide)

end Machine

end Intel8080
