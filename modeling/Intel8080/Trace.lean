import Intel8080.Machine

/-!
# Trace lines

A traced run prints a line for each instruction that completed: what was fetched,
padded to a fixed column, the registers afterwards, and the cost.
-/

namespace Intel8080

/-- Fills a text with blanks on the right up to a width counted in characters. -/
def padRight (width : Nat) (text : String) : String :=
  text ++ String.ofList (List.replicate (width - text.length) ' ')

namespace Fetched

/-- The bytes of the instruction: its length says how many, but at least one and at
most three. -/
def raw (fetched : Fetched) : List UInt8 :=
  [fetched.opcode, fetched.low, fetched.high].take (max 1 (min 3 fetched.length.toNat))

/-- One of three columns, blank where the instruction has no byte. -/
def columnText : Option UInt8 → String
  | some byte => Hex.byte byte ++ " "
  | none => "   "

/-- What the instruction is called: its assembler text, unless an override gave
the opcode a name of its own. -/
def label (fetched : Fetched) : String :=
  if fetched.name == fetched.instruction.mnemonic then fetched.instruction.text
  else fetched.name

/-- The address, the bytes in three columns and the label. -/
def text (fetched : Fetched) : String :=
  let raw := fetched.raw
  Hex.word fetched.pc ++ "  " ++ columnText raw[0]? ++ columnText raw[1]? ++
    columnText raw[2]? ++ " " ++ fetched.label

/-- The trace line of a completed instruction. -/
def traceLine (fetched : Fetched) (cpu : Cpu) (cost : UInt8) : String :=
  padRight 32 fetched.text ++ cpu.text ++ "  +" ++ toString cost.toNat

end Fetched

end Intel8080
