import Intel8080.CommandLine
import Intel8080.Diagnosis
import Intel8080.Game
import Intel8080.Trace

/-!
# The program

Reads files, keeps to the clock and prints. Reports go to standard output, all
else to standard error. The exit code is 0 for success, 1 for a failed program
and 2 for a mistake on the command line.
-/

namespace Intel8080.Main

/-- More steps than any run will take. -/
def stepLimit : Nat := 0x4000000000000000

/-- The number of a system error without its sign, which depends on where the error
arose. -/
def systemErrorNumber (code : UInt32) : UInt32 :=
  min code (0 - code)

/-- Why the operating system did not let a file be read. -/
def readErrorOf : IO.Error → ReadError
  | .noFileOrDirectory _ _ _ => .missing
  | .permissionDenied _ _ _ => .permissionDenied
  | .inappropriateType _ code _ =>
    if systemErrorNumber code = 20 then .notDirectory else .isDirectory
  | failure@(.invalidArgument _ code _) =>
    if systemErrorNumber code = 36 then .nameTooLong else .other (toString failure)
  | failure => .other (toString failure)

/-- The content of a file. -/
def readImage (name : String) : IO (Except ReadError (List UInt8)) := do
  try
    let content ← IO.FS.readBinFile name
    return .ok content.toList
  catch failure =>
    return .error (readErrorOf failure)

/-- Which log entries are shown. -/
structure Verbosity where
  debugging : Bool
  tracing : Bool := false

/-- Shows log entries on standard error. -/
def Verbosity.report (verbosity : Verbosity) (entries : List Log.Entry) : IO Unit :=
  for entry in entries do
    if entry.level.isShown verbosity.debugging verbosity.tracing then
      IO.eprintln entry.line

/-- Runs diagnostic programs one after another and reports on each. -/
def diagnose (verbosity : Verbosity) (roms : List String) (halting : Bool) : IO UInt32 := do
  let mut failures := 0
  for rom in roms do
    match Report.ofFile stepLimit halting rom (← readImage rom) with
    | some report =>
      verbosity.report report.log
      IO.println report.line
      if report.failed then failures := failures + 1
    | none =>
      IO.eprintln (rom ++ ": did not come to an end")
      failures := failures + 1
  if failures > 0 then
    IO.eprintln (toString failures ++ " diagnostic(s) failed")
    return 1
  return 0

/-- A duration in seconds with one decimal place. -/
def secondsText (nanos : Nat) : String :=
  let tenths := (nanos + 50000000) / 100000000
  toString (tenths / 10) ++ "." ++ toString (tenths % 10) ++ "s"

/-- Waits until an instant and tells how long that took. -/
def sleepUntil (instant : Nat) : IO Nat := do
  let now ← IO.monoNanosNow
  if instant ≤ now then return 0
  IO.sleep (UInt32.ofNat ((instant - now) / 1000000))
  return instant - now

/-- A log entry with the number of signals that the cabinet had left before it. -/
abbrev Mark := Nat × Log.Entry

/-- Notes what an event has to tell, the newest mark first. Completed instructions
are noted only for a reader who traces. -/
def collect (tracing : Bool) (marks : List Mark) (event : Event) (machine : Machine Cabinet) :
    List Mark :=
  let entry? := match event with
    | .stepped fetched (.ok cost) =>
      if tracing then some ⟨.trace, fetched.traceLine machine.cpu cost⟩ else none
    | other => other.entry?
  match entry? with
  | some entry => (machine.host.signals.size, entry) :: marks
  | none => marks

/-- Shows what happened in a frame, in order. -/
def Verbosity.reportFrame (verbosity : Verbosity) (cabinet : Cabinet) (marks : List Mark)
    (tick? : Option Tick) : IO Unit := do
  let signals := cabinet.signals.toList.map (·.entry)
  verbosity.report (Log.interleave 0 signals marks.reverse)
  match tick? with
  | some tick => verbosity.report [tick.entry]
  | none => pure ()

/-- Plays the remaining frames in real time. Gives the final game with the time
spent waiting, or none if the program failed. -/
def playFrames (verbosity : Verbosity) (deadline idle : Nat) :
    Nat → Game → IO (Option (Game × Nat))
  | 0, game => return some (game, idle)
  | frames + 1, game => do
    let now ← IO.monoNanosNow
    match game.frame (collect verbosity.tracing) stepLimit [] now with
    | none => return none
    | some (marks, .playing ⟨scheduler, machine, total⟩ tick) =>
      verbosity.reportFrame machine.host marks (some tick)
      let game : Game := ⟨scheduler, { machine with host := machine.host.clearSignals }, total⟩
      let waited ← sleepUntil deadline
      let next := deadline + game.scheduler.timing.frameNanos
      playFrames verbosity (max next now) (idle + waited) frames game
    | some (marks, .ended game) =>
      verbosity.reportFrame game.machine.host marks none
      verbosity.report [⟨.info, "program halted"⟩]
      return some (game, idle)
    | some (marks, .failed game stop) =>
      verbosity.reportFrame game.machine.host marks none
      IO.eprintln ("stopped at " ++ Hex.markedWord game.machine.cpu.pc ++ ": " ++ stop.message)
      return none

/-- Runs a cabinet program and prints a summary. -/
def play (verbosity : Verbosity) (rom : String) (seconds : Nat) : IO UInt32 := do
  match ← readImage rom with
  | .error error =>
    IO.eprintln (Problem.unreadable rom error).message
    return 1
  | .ok image =>
    match Cabinet.load image with
    | .error error =>
      IO.eprintln error.message
      return 1
    | .ok cabinet =>
      let timing : Timing := {}
      let started ← IO.monoNanosNow
      match Game.start timing cabinet started with
      | .error error =>
        IO.eprintln error.message
        return 1
      | .ok game =>
        let deadline := started + timing.frameNanos
        match ← playFrames verbosity deadline 0 (Game.frames timing seconds) game with
        | none => return 1
        | some (game, idle) =>
          let elapsed := (← IO.monoNanosNow) - started
          let total := game.total
          IO.println (toString total.cycles ++ " cycles, " ++ toString total.accepted ++
            " of " ++ toString total.presented ++ " interrupts taken, " ++
            toString game.machine.host.litPixels ++ " pixels lit, " ++ secondsText elapsed ++
            " elapsed (" ++ secondsText idle ++ " idle)")
          return 0

end Intel8080.Main

/-- Obeys the command line. -/
def main (arguments : List String) : IO UInt32 := do
  match Intel8080.CommandLine.parse arguments with
  | .error mistake =>
    IO.eprintln ("error: " ++ mistake.message)
    return 2
  | .ok invocation =>
    match invocation.command with
    | .diagnose roms halting =>
      Intel8080.Main.diagnose { debugging := invocation.verbose } roms halting
    | .play rom seconds traced =>
      Intel8080.Main.play { debugging := invocation.verbose, tracing := traced } rom seconds
    | .help =>
      Intel8080.CommandLine.usage.forM IO.println
      return 0
    | .version =>
      IO.println Intel8080.CommandLine.versionText
      return 0
