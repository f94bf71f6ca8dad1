import Intel8080.CommandLine
import Intel8080.Diagnosis
import Intel8080.Game

/-!
# Rehearsals

What a command line comes to, as a function of the files that there are. Nothing
is waited for: a game is played with frames that begin exactly when they are due.
The exit code is 0 for success, 1 for a failed program and 2 for a mistake on the
command line.
-/

namespace Intel8080

/-- What a command line comes to. -/
inductive Rehearsal where
  /-- The command line was not understood. -/
  | refused (mistake : CommandLine.UsageError)
  /-- Information was asked for. -/
  | informed (lines : List String)
  /-- Diagnostic programs were run. -/
  | diagnosed (reports : List Report)
  /-- A game was played until its time was up or its program halted. -/
  | played (game : Game)
  /-- A game could not begin, or its program failed. -/
  | abandoned

namespace Rehearsal

/-- Runs diagnostic programs one after another; none if one exhausts the limit. -/
def diagnose (limit : Nat) (tree : FileTree) (roms : List String) (halting : Bool) :
    Option Rehearsal :=
  (roms.mapM fun rom => Report.ofFile limit halting rom (tree.read rom)).map diagnosed

/-- Plays a game; none if it exhausts the limit. -/
def play (limit : Nat) (tree : FileTree) (rom : String) (seconds : Nat) : Option Rehearsal :=
  match tree.read rom with
  | .error _ => some abandoned
  | .ok image =>
    match Cabinet.load image with
    | .error _ => some abandoned
    | .ok cabinet =>
      let timing : Timing := {}
      match Game.start timing cabinet 0 with
      | .error _ => some abandoned
      | .ok game =>
        (Game.play limit 0 (Game.frames timing seconds) game).map fun
          | .playing game _ | .ended game => played game
          | .failed _ _ => abandoned

/-- What the given arguments come to; none if a program exhausts the limit. -/
def ofArguments (limit : Nat) (tree : FileTree) (arguments : List String) : Option Rehearsal :=
  match CommandLine.parse arguments with
  | .error mistake => some (refused mistake)
  | .ok invocation =>
    match invocation.command with
    | .help => some (informed CommandLine.usage)
    | .version => some (informed [CommandLine.versionText])
    | .diagnose roms halting => diagnose limit tree roms halting
    | .play rom seconds _ => play limit tree rom seconds

/-- The exit code. -/
def exitCode : Rehearsal → UInt32
  | informed _ | played _ => 0
  | diagnosed reports => if reports.any (·.failed) then 1 else 0
  | abandoned => 1
  | refused _ => 2

/-- The information and the reports that are printed. -/
def lines : Rehearsal → List String
  | informed lines => lines
  | diagnosed reports => reports.map (·.line)
  | _ => []

/-- How many pixels the game left lit. -/
def litPixels? : Rehearsal → Option Nat
  | played game => some game.machine.host.litPixels
  | _ => none

end Rehearsal

end Intel8080
