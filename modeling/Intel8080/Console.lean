import Intel8080.Log
import Intel8080.Memory
import Intel8080.Machine

/-!
# A console for stand-alone programs

Enough of an operating system to run diagnostic programs. A program is loaded at
an origin, usually above the first page, and calls the system at address 5 with
the number of a function in C. Function 2 prints the character in E, function 9
the text at DE, which ends at a dollar sign; all others are ignored. Such a call
is intercepted, so it pushes nothing. Arriving at address 0 ends the program.
There are no ports.
-/

namespace Intel8080

namespace Console

/-- The address of the system entry. -/
def systemEntry : UInt16 := 5

/-- The usual origin of a program. -/
def standardOrigin : UInt16 := 0x0100

/-- The dollar sign, which ends a printed text. -/
def terminator : UInt8 := 0x24

/-- Where a program is loaded, and how many bytes at the start of each printed text
are left out. -/
structure Options where
  origin : UInt16 := standardOrigin
  skip : UInt16 := 0
  deriving DecidableEq, Repr, Inhabited

/-- What a call to the system did. -/
inductive Remark where
  /-- It printed a text. -/
  | line (text : String)
  /-- It printed a character. -/
  | character (value : UInt8)
  /-- It asked for a function that does not exist. -/
  | ignored (function : UInt8)
  deriving DecidableEq, Repr, Inhabited

/-- The character that a byte stands for: the one with its code. -/
def charOfByte (value : UInt8) : Char :=
  Char.ofNat value.toNat

/-- How a remark is logged. -/
def Remark.entry : Remark → Log.Entry
  | line text => ⟨.info, text⟩
  | character value => ⟨.debug, Quoted.char (charOfByte value)⟩
  | ignored function =>
    ⟨.debug, "unsupported BDOS function ignored" ++ Log.field "function" function.toNat⟩

end Console

/-- The state of a console. -/
structure Console where
  memory : Memory 65536
  options : Console.Options
  /-- Everything printed so far. -/
  printed : String := ""
  /-- The remarks so far, or since they were last cleared. -/
  remarks : Array Console.Remark := #[]

namespace Console

/-- The opcode of the unconditional call. -/
def callOpcode : UInt8 := 0xCD

/-- The opcode of the unconditional return. -/
def returnOpcode : UInt8 := 0xC9

/-- A console with a program. A return instruction stands at the system entry, for
programs that reach it other than by an intercepted call. -/
def load (image : List UInt8) (options : Options) : Except LoadError Console :=
  let capacity := 65536 - options.origin.toNat
  (Memory.blank.loadWithin options.origin capacity image).map fun memory =>
    { memory := memory.write systemEntry.toNat returnOpcode, options }

/-- Adds a remark. -/
def remark (console : Console) (remark : Remark) : Console :=
  { console with remarks := console.remarks.push remark }

/-- Forgets the remarks so far. -/
def clearRemarks (console : Console) : Console :=
  { console with remarks := #[] }

/-- Appends to the printed text. -/
def print (console : Console) (text : String) : Console :=
  { console with printed := console.printed ++ text }

/-- The text at an address: the bytes from there, less those to be skipped, up to
the terminator or the top of memory. -/
def textAt (console : Console) (address : UInt16) : String :=
  let start := (address + console.options.skip).toNat
  String.ofList ((console.memory.readUntil terminator start (65536 - start)).map charOfByte)

/-- Serves a call to the system. -/
def serve (console : Console) (cpu : Cpu) : Console :=
  match cpu.c with
  | 9 =>
    let text := console.textAt cpu.de
    ((console.remark (.line text)).print text).print "\n"
  | 2 => (console.remark (.character cpu.e)).print (String.singleton (charOfByte cpu.e))
  | function => console.remark (.ignored function)

instance : Host Console where
  read console address := console.memory.read address.toNat
  write console address value :=
    .ok () { console with memory := console.memory.write address.toNat value }
  input console port := .error (.unknownInputPort port) console
  output console port _ := .error (.unknownOutputPort port) console
  didExecute console cpu :=
    if cpu.pc == 0 then .error (.halt .warmBoot) console else .ok () console

/-- The effect of the unconditional call: a call to the system is served in place of
being executed. -/
def callEffect : Effect Console := fun instruction cpu console =>
  if instruction = .call systemEntry then ⟨.ok 0, cpu, console.serve cpu⟩
  else instruction.execute cpu console

/-- The instructions that a console intercepts. -/
def overrides : List (Descriptor Console) :=
  [.replacing callOpcode callEffect]

/-- The dispatch table of a console. -/
def table : Table Console :=
  overrides.foldl .install .canonical

/-- A machine about to run the loaded program. -/
def boot (console : Console) : Machine Console :=
  .startAt table console console.options.origin

/-- Builds this machine from the overrides, which are checked. -/
def assemble (console : Console) : Except TableError (Machine Console) :=
  (Machine.assemble overrides console).map (·.movedTo console.options.origin)

/-- The overrides of a console pass the check. -/
theorem compose_overrides : Table.canonical.compose overrides = .ok table := rfl

theorem assemble_eq (console : Console) : console.assemble = .ok console.boot := by
  simp only [assemble, Machine.assemble, compose_overrides]
  rfl

end Console

end Intel8080
