import Intel8080.Cabinet
import Intel8080.Scheduler

/-!
# Playing a cabinet program

A game runs frame by frame: at the beginning of each frame the scheduler lets the
machine catch up with the time. A program that executes the halt instruction ends
the game early; any other stop is a failure.
-/

namespace Intel8080

/-- A game under way. -/
structure Game where
  scheduler : Scheduler
  machine : Machine Cabinet
  total : Tick := {}

/-- What became of a game. -/
inductive GameState where
  /-- It goes on; the tick is that of the last frame. -/
  | playing (game : Game) (tick : Tick)
  /-- The program halted. -/
  | ended (game : Game)
  | failed (game : Game) (stop : Stop)

namespace Game

/-- A game whose time begins at the given instant. A cabinet overrides no entry of
the instruction set. -/
def start (timing : Timing) (cabinet : Cabinet) (now : Nat) : Except TableError Game :=
  (Machine.assemble [] cabinet).map fun machine =>
    { scheduler := Scheduler.start { timing } now, machine }

/-- How many frames a number of seconds has. -/
def frames (timing : Timing) (seconds : Nat) : Nat :=
  seconds * timing.frameRate

/-- Catches up with the given instant, observed; none if the limit on turns is
exhausted. -/
def frame {ω : Type} (observe : ω → Event → Machine Cabinet → ω) (limit : Nat) (seen : ω)
    (game : Game) (now : Nat) : Option (ω × GameState) :=
  let ⟨scheduler, machine, total⟩ := game
  (scheduler.tickObserved observe limit seen machine now).map fun (seen, advance) =>
    match advance.result with
    | .ok tick => (seen, .playing ⟨advance.scheduler, advance.machine, total + tick⟩ tick)
    | .error (.halt .instruction) => (seen, .ended ⟨advance.scheduler, advance.machine, total⟩)
    | .error stop => (seen, .failed ⟨advance.scheduler, advance.machine, total⟩ stop)

/-- Plays a number of frames whose beginnings are exactly one frame apart. -/
def play (limit : Nat) (now : Nat) : Nat → Game → Option GameState
  | 0, game => some (.playing game {})
  | frames + 1, game =>
    let later := now + game.scheduler.timing.frameNanos
    match game.frame (fun _ _ _ => ()) limit () now with
    | none => none
    | some (_, .playing game _) => play limit later frames game
    | some (_, state) => some state

end Game

end Intel8080
