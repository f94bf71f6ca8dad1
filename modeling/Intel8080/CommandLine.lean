/-!
# The command line

Arguments are read from left to right. An argument that begins with a hyphen is an
option, in a long form with two hyphens or as a letter in a cluster behind one;
two hyphens alone end the options. Anything else, a lone hyphen included, is a
plain argument: the first names the command, those behind it belong to the
command. The first mistake ends the reading, and so does a request for help.
-/

namespace Intel8080.CommandLine

/-- What a command line asks for. -/
inductive Command where
  /-- Run diagnostic programs and report on each. -/
  | diagnose (roms : List String) (halting : Bool)
  /-- Run a cabinet program for a number of seconds. -/
  | play (rom : String) (seconds : Nat) (traced : Bool)
  /-- Explain the usage. -/
  | help
  /-- Tell the version. -/
  | version
  deriving DecidableEq, Repr, Inhabited

/-- A command and the options that apply to any command. -/
structure Invocation where
  command : Command
  verbose : Bool := false
  deriving DecidableEq, Repr, Inhabited

/-- What is wrong with a command line. -/
inductive UsageError where
  | missingCommand
  | unknownCommand (name : String)
  | unknownOption (name : String)
  | repeatedOption (name : String)
  | unexpectedValue (name : String)
  | missingValue (name : String)
  | invalidNumber (text : String)
  | emptyArgument
  | missingRom
  | unexpectedArgument (text : String)
  deriving DecidableEq, Repr, Inhabited

/-- The wording of a usage error. -/
def UsageError.message : UsageError → String
  | missingCommand => "a command is required: diag or invaders"
  | unknownCommand name => "unrecognized command '" ++ name ++ "'"
  | unknownOption name => "unexpected option '" ++ name ++ "'"
  | repeatedOption name => "the option '" ++ name ++ "' cannot be used multiple times"
  | unexpectedValue name => "the option '" ++ name ++ "' takes no value"
  | missingValue name => "the option '" ++ name ++ "' requires a value"
  | invalidNumber text => "invalid number of seconds '" ++ text ++ "'"
  | emptyArgument => "the name of a program must not be empty"
  | missingRom => "the name of a program is required"
  | unexpectedArgument text => "unexpected argument '" ++ text ++ "'"

/-- An argument by its outer form. -/
inductive Form where
  /-- Two hyphens alone. -/
  | endOfOptions
  /-- Two hyphens and a name, with a value if an equals sign follows. -/
  | long (name : String) (value : Option String)
  /-- A hyphen and letters. -/
  | cluster (letters : List Char)
  | plain (text : String)
  deriving DecidableEq, Repr

/-- The form of an argument. -/
def Form.ofArgument (argument : String) : Form :=
  match argument.toList with
  | ['-', '-'] => endOfOptions
  | '-' :: '-' :: rest =>
    let name := String.ofList (rest.takeWhile (· != '='))
    match rest.dropWhile (· != '=') with
    | _ :: value => long name (some (String.ofList value))
    | [] => long name none
  | '-' :: letter :: rest => cluster (letter :: rest)
  | _ => plain argument

/-- The number that a text of decimal digits stands for. -/
def digitsToNat? (digits : List Char) : Option Nat :=
  if digits.isEmpty || !digits.all Char.isDigit then none
  else some (digits.foldl (fun total digit => 10 * total + (digit.toNat - 48)) 0)

/-- A count of seconds: decimal digits, with a sign if wanted, below 2^32. -/
def seconds? (text : String) : Option Nat :=
  let value? := match text.toList with
    | '+' :: digits => digitsToNat? digits
    | '-' :: digits => (digitsToNat? digits).filter (· == 0)
    | digits => digitsToNat? digits
  value?.filter (· < 0x100000000)

/-- The options that may stand in some place. -/
inductive Switch where
  | verbose | halting | traced | seconds | help | version
  deriving DecidableEq, Repr

/-- The long name of an option. -/
def Switch.name : Switch → String
  | verbose => "verbose"
  | halting => "halting"
  | traced => "trace"
  | seconds => "seconds"
  | help => "help"
  | version => "version"

/-- The letter of an option that has one. -/
def Switch.letter? : Switch → Option Char
  | verbose => some 'v'
  | help => some 'h'
  | version => some 'V'
  | _ => none

/-- The options understood in front of the command. -/
def topSwitches : List Switch := [.verbose, .help, .version]

/-- The options of a diagnosis. -/
def diagnoseSwitches : List Switch := [.verbose, .halting, .help]

/-- The options of a game. -/
def playSwitches : List Switch := [.verbose, .seconds, .traced, .help]

/-- What has been read of a place's arguments. -/
structure Reading where
  switches : List Switch := []
  seconds : Option Nat := none
  plain : List String := []

/-- Where the reading stands after an argument. -/
inductive Phase where
  | reading (state : Reading)
  /-- The option waits for its value. -/
  | awaiting (state : Reading)
  /-- The rest does not matter. -/
  | settled (command : Command)

/-- Notes an option without a value. -/
def Reading.note (reading : Reading) (switch : Switch) : Except UsageError Phase :=
  match switch with
  | .help => .ok (.settled .help)
  | .version => .ok (.settled .version)
  | _ =>
    if reading.switches.contains switch then .error (.repeatedOption switch.name)
    else
      let reading := { reading with switches := switch :: reading.switches }
      .ok (if switch = .seconds then .awaiting reading else .reading reading)

/-- Receives the value that an option was waiting for. -/
def Reading.receive (reading : Reading) (text : String) : Except UsageError Phase :=
  match seconds? text with
  | some value => .ok (.reading { reading with seconds := some value })
  | none => .error (.invalidNumber text)

/-- Reads an option in its long form. -/
def Reading.long (reading : Reading) (allowed : List Switch) (name : String)
    (value : Option String) : Except UsageError Phase :=
  match allowed.find? (·.name == name), value with
  | none, _ => .error (.unknownOption name)
  | some switch, none => reading.note switch
  | some .seconds, some text => do
    match ← reading.note .seconds with
    | .awaiting reading => reading.receive text
    | other => .ok other
  | some switch, some _ => .error (.unexpectedValue switch.name)

/-- Reads a cluster of letters. -/
def Reading.letters (allowed : List Switch) : List Char → Reading → Except UsageError Phase
  | [], reading => .ok (.reading reading)
  | letter :: rest, reading =>
    match allowed.find? (·.letter? == some letter) with
    | none => .error (.unknownOption (String.singleton letter))
    | some switch => do
      match ← reading.note switch with
      | .reading reading => letters allowed rest reading
      | other => .ok other

/-- Reads a plain argument of a command that takes at most the given number of
them, if there is a bound. -/
def Reading.take (reading : Reading) (bound : Option Nat) (text : String) :
    Except UsageError Phase :=
  if (bound.any (· ≤ reading.plain.length)) then .error (.unexpectedArgument text)
  else if text.isEmpty then .error .emptyArgument
  else .ok (.reading { reading with plain := reading.plain ++ [text] })

/-- Reads the arguments behind a command. -/
def Reading.all (allowed : List Switch) (bound : Option Nat) :
    List String → (onlyPlain : Bool) → Phase → Except UsageError Phase
  | [], _, .awaiting _ => .error (.missingValue Switch.seconds.name)
  | [], _, phase => .ok phase
  | _, _, .settled command => .ok (.settled command)
  | argument :: rest, onlyPlain, .awaiting reading =>
    match Form.ofArgument argument with
    | .plain text => do all allowed bound rest onlyPlain (← reading.receive text)
    | _ => .error (.missingValue Switch.seconds.name)
  | argument :: rest, true, .reading reading => do
    all allowed bound rest true (← reading.take bound argument)
  | argument :: rest, false, .reading reading =>
    match Form.ofArgument argument with
    | .endOfOptions => all allowed bound rest true (.reading reading)
    | .long name value => do all allowed bound rest false (← reading.long allowed name value)
    | .cluster letters => do
      all allowed bound rest false (← Reading.letters allowed letters reading)
    | .plain text => do all allowed bound rest false (← reading.take bound text)

/-- Reads the arguments of a diagnosis. -/
def parseDiagnose (arguments : List String) (verbose : Bool) : Except UsageError Invocation := do
  match ← Reading.all diagnoseSwitches none arguments false (.reading {}) with
  | .settled command => return { command }
  | .reading reading | .awaiting reading =>
    if reading.plain.isEmpty then throw .missingRom
    return {
      command := .diagnose reading.plain (reading.switches.contains .halting)
      verbose := verbose || reading.switches.contains .verbose }

/-- How long a game runs unless told otherwise. -/
def defaultSeconds : Nat := 5

/-- Reads the arguments of a game. -/
def parsePlay (arguments : List String) (verbose : Bool) : Except UsageError Invocation := do
  match ← Reading.all playSwitches (some 1) arguments false (.reading {}) with
  | .settled command => return { command }
  | .reading reading | .awaiting reading =>
    match reading.plain with
    | [] => throw .missingRom
    | rom :: _ =>
      return {
        command := .play rom (reading.seconds.getD defaultSeconds)
          (reading.switches.contains .traced)
        verbose := verbose || reading.switches.contains .verbose }

/-- Reads the arguments of a request for help, which may name a command. -/
def parseHelp : List String → Except UsageError Invocation
  | [] | ["diag"] | ["invaders"] | ["help"] => .ok { command := .help }
  | name :: _ => .error (.unknownCommand name)

/-- Reads the arguments from the command on. -/
def parseCommand (name : String) (arguments : List String) (verbose : Bool) :
    Except UsageError Invocation :=
  match name with
  | "diag" => parseDiagnose arguments verbose
  | "invaders" => parsePlay arguments verbose
  | "help" => parseHelp arguments
  | _ => .error (.unknownCommand name)

/-- Reads the options in front of the command, and then the command. -/
def parseFrom (reading : Reading) : List String → Except UsageError Invocation
  | [] => .error .missingCommand
  | argument :: rest => do
    let phase ← match Form.ofArgument argument with
      | .endOfOptions => .error .missingCommand
      | .long name value => reading.long topSwitches name value
      | .cluster letters => Reading.letters topSwitches letters reading
      | .plain name => return ← parseCommand name rest (reading.switches.contains .verbose)
    match phase with
    | .settled command => return { command }
    | .reading reading | .awaiting reading => parseFrom reading rest

/-- Reads a command line. -/
def parse (arguments : List String) : Except UsageError Invocation :=
  parseFrom {} arguments

/-- The explanation of the usage. -/
def usage : List String := [
  "Run Intel 8080 programs on emulated hosts",
  "",
  "Usage: i8080 [--verbose] diag [--halting] <ROMS>...",
  "       i8080 [--verbose] invaders [--seconds <SECONDS>] [--trace] <ROM>"]

/-- The name and version. -/
def versionText : String := "i8080 0.6.0"

end Intel8080.CommandLine
