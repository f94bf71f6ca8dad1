import Intel8080.Console

/-!
# Diagnostic programs that give a verdict

Some diagnostic programs print a single text to say how the processor fared, with
three bytes in front of it that are not part of the text. On this host, which is
otherwise a console, the first printed text is therefore the verdict and ends the
run. A call to address 0 ends it as well, where a jump there would.
-/

namespace Intel8080

/-- A console on which the first printed text is a verdict. -/
structure Diagnostic where
  console : Console

namespace Diagnostic

/-- The text by which a program reports success. -/
def operational : String := " CPU IS OPERATIONAL"

/-- The placement of diagnostic programs. -/
def options : Console.Options where
  skip := 3

/-- A host with a diagnostic program. -/
def load (image : List UInt8) : Except LoadError Diagnostic :=
  (Console.load image options).map fun console => { console }

/-- Regards what happened to the console as having happened to its host. -/
def lift {ε α : Type} : Reply ε Console α → Reply ε Diagnostic α
  | .ok value console => .ok value { console }
  | .error cause console => .error cause { console }

instance : Host Diagnostic where
  read diagnostic address := Host.read diagnostic.console address
  write diagnostic address value := lift (Host.write diagnostic.console address value)
  input diagnostic port := lift (Host.input diagnostic.console port)
  output diagnostic port value := lift (Host.output diagnostic.console port value)
  didExecute diagnostic cpu := lift (Host.didExecute diagnostic.console cpu)

/-- How a run ends whose program printed the given text. -/
def verdict (text : String) : Halt :=
  if text == operational then .passed text else .failed text

/-- The effect of the unconditional call: printing a text gives the verdict, any
other call to the system is served, and a call to address 0 ends the program
before anything is pushed. -/
def callEffect : Effect Diagnostic := fun instruction cpu ⟨console⟩ =>
  if instruction = .call Console.systemEntry then
    if cpu.c == 9 then
      let text := console.textAt cpu.de
      ⟨.error (.halt (verdict text)), cpu, ⟨console.print text⟩⟩
    else ⟨.ok 0, cpu, ⟨console.serve cpu⟩⟩
  else if instruction = .call 0 then ⟨.error (.halt .warmBoot), cpu, ⟨console⟩⟩
  else instruction.execute cpu (Diagnostic.mk console)

/-- The instructions that this host intercepts. -/
def overrides : List (Descriptor Diagnostic) :=
  [.replacing Console.callOpcode callEffect]

/-- The dispatch table of this host. -/
def table : Table Diagnostic :=
  overrides.foldl .install .canonical

/-- A machine about to run the loaded program. -/
def boot (diagnostic : Diagnostic) : Machine Diagnostic :=
  .startAt table diagnostic diagnostic.console.options.origin

/-- Builds this machine from the overrides, which are checked. -/
def assemble (diagnostic : Diagnostic) : Except TableError (Machine Diagnostic) :=
  (Machine.assemble overrides diagnostic).map (·.movedTo diagnostic.console.options.origin)

/-- The overrides of this host pass the check. -/
theorem compose_overrides : Table.canonical.compose overrides = .ok table := rfl

theorem assemble_eq (diagnostic : Diagnostic) : diagnostic.assemble = .ok diagnostic.boot := by
  simp only [assemble, Machine.assemble, compose_overrides]
  rfl

end Diagnostic

end Intel8080
