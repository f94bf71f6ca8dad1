import Intel8080.Diagnostic
import Intel8080.FileTree

/-!
# Running diagnostic programs

A program is run on a console, or on a host that takes its first text as a
verdict, until it stops. It passes if it ended as a successful program does and
printed no error message on the way.
-/

namespace Intel8080

/-- How a diagnostic program fared. -/
structure Diagnosis where
  stop : Stop
  printed : String
  cycles : UInt64
  /-- What the program did to the console. -/
  log : List Log.Entry

/-- Why a program could not be run. -/
inductive Problem where
  /-- Its file could not be read. -/
  | unreadable (rom : String) (error : ReadError)
  /-- It does not fit into memory. -/
  | load (error : LoadError)
  /-- The overrides of its host are at fault. -/
  | table (error : TableError)
  deriving DecidableEq, Repr

/-- The wording of a problem. -/
def Problem.message : Problem → String
  | unreadable rom error => "reading " ++ rom ++ ": " ++ error.message
  | load error => error.message
  | table error => error.message

namespace Diagnosis

/-- The word that announces an error in a program's output. -/
def alarm : List Char := "ERROR".toList

/-- Whether a text contains the alarm. -/
def mentionsAlarm : List Char → Bool
  | [] => false
  | character :: rest => alarm.isPrefixOf (character :: rest) || mentionsAlarm rest

/-- Whether the program passed. -/
def passed (diagnosis : Diagnosis) : Bool :=
  diagnosis.stop.isSuccess && !mentionsAlarm diagnosis.printed.toList

/-- The diagnosis of a run that ended in the given state. -/
def ofConsole (stop : Stop) (cpu : Cpu) (console : Console) : Diagnosis :=
  { stop
    printed := console.printed
    cycles := cpu.cycles
    log := console.remarks.toList.map (·.entry) }

/-- The machine for a diagnostic program, or why there is none. -/
def prepare {σ : Type} (loaded : Except LoadError σ)
    (assemble : σ → Except TableError (Machine σ)) : Except Problem (Machine σ) := do
  let host ← loaded.mapError .load
  (assemble host).mapError .table

/-- Runs a program, for at most the given number of steps. -/
def ofImage (limit : Nat) (halting : Bool) (image : List UInt8) :
    Option (Except Problem Diagnosis) :=
  if halting then
    match prepare (Diagnostic.load image) Diagnostic.assemble with
    | .error problem => some (.error problem)
    | .ok machine =>
      (machine.run limit).map fun (stop, machine) =>
        .ok (ofConsole stop machine.cpu machine.host.console)
  else
    match prepare (Console.load image {}) Console.assemble with
    | .error problem => some (.error problem)
    | .ok machine =>
      (machine.run limit).map fun (stop, machine) =>
        .ok (ofConsole stop machine.cpu machine.host)

end Diagnosis

/-- What is reported about a program, and whether it counts as a failure. -/
structure Report where
  failed : Bool
  line : String
  log : List Log.Entry := []
  deriving DecidableEq, Repr

namespace Report

/-- The report on a program that was run. -/
def ofDiagnosis (rom : String) (diagnosis : Diagnosis) : Report :=
  if diagnosis.passed then
    { failed := false, line := "PASS " ++ rom, log := diagnosis.log }
  else
    { failed := true
      line := "FAIL " ++ rom ++ ": " ++ diagnosis.stop.message
      log := diagnosis.log }

/-- The report on a program that could not be run. -/
def ofProblem (rom : String) (problem : Problem) : Report :=
  { failed := true, line := "FAIL " ++ rom ++ ": " ++ problem.message }

/-- The report on a file: its bytes, or why it could not be read. -/
def ofFile (limit : Nat) (halting : Bool) (rom : String)
    (content : Except ReadError (List UInt8)) : Option Report :=
  match content with
  | .error error => some (ofProblem rom (.unreadable rom error))
  | .ok image =>
    (Diagnosis.ofImage limit halting image).map fun
      | .error problem => ofProblem rom problem
      | .ok diagnosis => ofDiagnosis rom diagnosis

end Report

end Intel8080
