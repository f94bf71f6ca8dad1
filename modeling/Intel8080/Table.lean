import Intel8080.Execution
import Intel8080.Instruction.Decode
import Intel8080.Instruction.Text
import Intel8080.Text.Quoted

/-!
# The dispatch table

A machine looks up the name, length, base cost and effect of an opcode in a table
of 256 descriptors. The canonical table describes the instruction set itself; a
host may override entries to intercept instructions. A set of overrides is
checked as a whole before any of it takes effect, and since no opcode may occur
twice, the order within a set does not matter.
-/

namespace Intel8080

/-- What executing an opcode means: given the decoded instruction, the processor
and the host, the outcome. -/
abbrev Effect (σ : Type) :=
  Instruction → Cpu → σ → Outcome σ

/-- An entry of the dispatch table. -/
structure Descriptor (σ : Type) where
  opcode : UInt8
  name : String
  /-- How many bytes are fetched, the opcode included. -/
  bytes : UInt8
  /-- The base cost. -/
  cycles : UInt8
  effect : Effect σ

/-- What is wrong with a set of overrides. -/
inductive TableError where
  /-- An opcode occurs for the second time. -/
  | duplicate (opcode : UInt8)
  /-- An entry claims a length that no instruction has. -/
  | length (opcode bytes : UInt8)
  deriving DecidableEq, Repr, Inhabited

/-- The wording of a table error. -/
def TableError.message : TableError → String
  | duplicate opcode => "opcode " ++ Hex.markedByte opcode ++ " is overridden more than once"
  | length opcode bytes =>
    "override for " ++ Hex.markedByte opcode ++ " claims a length of " ++
      toString bytes.toNat ++ " bytes"

namespace Descriptor

variable {σ : Type}

/-- The descriptor of an opcode in the instruction set, with another effect. -/
def replacing (opcode : UInt8) (effect : Effect σ) : Descriptor σ :=
  let instruction := Instruction.decode opcode 0 0
  { opcode
    name := instruction.mnemonic
    bytes := instruction.length
    cycles := instruction.cycles
    effect }

/-- The descriptor of an opcode in the instruction set. -/
def canonical [Host σ] (opcode : UInt8) : Descriptor σ :=
  replacing opcode Instruction.execute

/-- A descriptor with all its fields but the effect, for inspection. The name may be
any text, since an override may have any name. -/
def text (descriptor : Descriptor σ) : String :=
  "Instruction \x7b opcode: " ++ Hex.markedByte descriptor.opcode ++
    ", name: " ++ Quoted.string descriptor.name ++
    ", bytes: " ++ toString descriptor.bytes.toNat ++
    ", cycles: " ++ toString descriptor.cycles.toNat ++ ", .. \x7d"

/-- Whether the claimed length is one that an instruction can have. -/
def hasValidLength (descriptor : Descriptor σ) : Bool :=
  1 ≤ descriptor.bytes && descriptor.bytes ≤ 3

/-- The first entry of a set that is at fault, given the opcodes that precede the
set. An entry's length is examined before its opcode. -/
def firstError? (seen : List UInt8) : List (Descriptor σ) → Option TableError
  | [] => none
  | entry :: rest =>
    if !entry.hasValidLength then some (.length entry.opcode entry.bytes)
    else if seen.contains entry.opcode then some (.duplicate entry.opcode)
    else firstError? (entry.opcode :: seen) rest

end Descriptor

/-- A descriptor for each of the 256 opcodes. -/
structure Table (σ : Type) where
  entries : Vector (Descriptor σ) 256

namespace Table

variable {σ : Type}

/-- The table of the instruction set itself. -/
def canonical [Host σ] : Table σ :=
  ⟨.ofFn fun opcode => .canonical (UInt8.ofNat opcode.val)⟩

/-- The descriptor of an opcode. -/
def get (table : Table σ) (opcode : UInt8) : Descriptor σ :=
  have := opcode.toNat_lt
  table.entries[opcode.toNat]

/-- Installs a descriptor at its own opcode. -/
def install (table : Table σ) (descriptor : Descriptor σ) : Table σ :=
  have := descriptor.opcode.toNat_lt
  ⟨table.entries.set descriptor.opcode.toNat descriptor⟩

/-- Installs a set of overrides, all of them or none. -/
def compose (table : Table σ) (overrides : List (Descriptor σ)) : Except TableError (Table σ) :=
  match Descriptor.firstError? [] overrides with
  | some error => .error error
  | none => .ok (overrides.foldl install table)

@[simp] theorem get_canonical [Host σ] (opcode : UInt8) :
    (canonical : Table σ).get opcode = .canonical opcode := by
  simp [canonical, get]

@[simp] theorem get_install (table : Table σ) (descriptor : Descriptor σ) (opcode : UInt8) :
    (table.install descriptor).get opcode =
      if opcode = descriptor.opcode then descriptor else table.get opcode := by
  by_cases same : opcode = descriptor.opcode
  · simp [install, get, same]
  · have apart : descriptor.opcode.toNat ≠ opcode.toNat :=
      fun equal => same (UInt8.toNat_inj.1 equal.symm)
    simp [install, get, same, apart]

end Table

end Intel8080
