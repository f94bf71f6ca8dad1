import Intel8080.Log
import Intel8080.Machine
import Intel8080.Timing

/-!
# Keeping pace with time

A scheduler turns elapsed time into credit, counted in clock cycles, and lets a
machine run while there is credit left. An instruction is never divided, so the
last one may overdraw the credit; the debt, like the fraction of a cycle that a
duration leaves over, is carried to the next call. Each time the cycles run have
filled another half frame, an interrupt is offered before the next instruction,
at the two restart addresses in turn. An offer that the processor declines is
lost and costs nothing.

Spending the credit is defined turn by turn. A turn is one instruction or one
offer and reports an event; an observer may fold over the events without having
any influence on them. Since an override may cost nothing, no bound on the number
of turns follows from the credit alone, so the caller gives one.
-/

namespace Intel8080

/-- What an advance amounted to. The counts have no bounds here: what becomes of an
advance whose cycles do not fit sixty-four bits, or whose offers do not fit
thirty-two, is told by its counterpart in checked arithmetic, `advanceChecked`. -/
structure Tick where
  /-- Clock cycles run. -/
  cycles : Nat := 0
  /-- Interrupts offered. -/
  presented : Nat := 0
  /-- Interrupts accepted. -/
  accepted : Nat := 0
  deriving DecidableEq, Repr, Inhabited

instance : Add Tick where
  add left right :=
    ⟨left.cycles + right.cycles, left.presented + right.presented,
      left.accepted + right.accepted⟩

/-- How the completion of an advance is logged. -/
def Tick.entry (tick : Tick) : Log.Entry :=
  ⟨.debug, "tick" ++ Log.field "cycles" tick.cycles ++ Log.field "presented" tick.presented ++
    Log.field "accepted" tick.accepted⟩

/-- The state of a scheduler between two advances. -/
structure Scheduler where
  timing : Timing
  /-- Clock cycles that may still be run, or are owed if negative. -/
  credit : Int := 0
  /-- The part of a cycle left over, in units of a nanosecond times the clock rate. -/
  fraction : Nat := 0
  /-- Clock cycles run since the last half-frame boundary. -/
  halfFrame : Nat := 0
  /-- Whether the next offer is the second of the two addresses. -/
  second : Bool := false
  /-- Whether a boundary was crossed for which no offer was made yet. -/
  pending : Bool := false
  /-- The instant, in nanoseconds, up to which time was accounted for. -/
  last : Option Nat := none
  deriving DecidableEq, Repr, Inhabited

/-- One turn of a scheduler. -/
inductive Event where
  /-- An instruction was executed, with its cost or the stop it ended in. -/
  | stepped (fetched : Fetched) (result : Except Stop UInt8)
  /-- The machine had stopped earlier. -/
  | refused (stop : Stop)
  /-- An interrupt was offered and accepted, declined, or failed. -/
  | offered (vector : UInt8) (result : Except Stop Bool)
  deriving Repr

namespace Event

/-- The stop that ends the advance, if the event has one. -/
def stop? : Event → Option Stop
  | stepped _ (.error stop) => some stop
  | refused stop => some stop
  | offered _ (.error stop) => some stop
  | _ => none

/-- How an event is logged, if it is. -/
def entry? : Event → Option Log.Entry
  | offered vector (.ok taken) =>
    some ⟨.trace, "interrupt presented" ++ Log.field "vector" vector.toNat ++
      " taken=" ++ toString taken⟩
  | _ => none

end Event

/-- An advance under way: the scheduler, the machine, and the tick so far. -/
structure Progress (σ : Type) where
  scheduler : Scheduler
  machine : Machine σ
  tick : Tick := {}

/-- A finished advance. If the machine stopped, the turns before that remain in
effect. -/
structure Advance (σ : Type) where
  scheduler : Scheduler
  machine : Machine σ
  result : Except Stop Tick

namespace Scheduler

/-- The most credit that is ever granted: the greatest signed number of sixty-four
bits. -/
def maxCredit : Nat := 0x7FFFFFFFFFFFFFFF

/-- Elapsed time together with the fraction left over from before, in the units of
the fraction. -/
def scaled (scheduler : Scheduler) (elapsedNanos : Nat) : Nat :=
  elapsedNanos * scheduler.timing.clockRate + scheduler.fraction

/-- The whole cycles that fit into elapsed time, up to the limit of credit. -/
def budget (scheduler : Scheduler) (elapsedNanos : Nat) : Nat :=
  min (scheduler.scaled elapsedNanos / Timing.nanosPerSecond) maxCredit

/-- Accounts for elapsed time. Its budget is added to the credit, which keeps to its
limit, and the rest remains as the fraction. -/
def grant (scheduler : Scheduler) (elapsedNanos : Nat) : Scheduler :=
  { scheduler with
    credit := min (scheduler.credit + scheduler.budget elapsedNanos) maxCredit
    fraction := scheduler.scaled elapsedNanos % Timing.nanosPerSecond }

/-- The restart address of the next offer. -/
def vector (scheduler : Scheduler) : UInt8 :=
  if scheduler.second then scheduler.timing.vectors.2 else scheduler.timing.vectors.1

/-- Marks the pending offer as made; the next one is at the other address. -/
def takeOffer (scheduler : Scheduler) : Scheduler :=
  { scheduler with pending := false, second := !scheduler.second }

/-- Spends credit and crosses the half-frame boundary if it has been reached. -/
def spend (scheduler : Scheduler) (cost : Nat) : Scheduler :=
  let credit := scheduler.credit - cost
  let halfFrame := scheduler.halfFrame + cost
  if halfFrame ≥ scheduler.timing.pace then
    { scheduler with credit, halfFrame := halfFrame - scheduler.timing.pace, pending := true }
  else { scheduler with credit, halfFrame }

@[simp] theorem credit_spend (scheduler : Scheduler) (cost : Nat) :
    (scheduler.spend cost).credit = scheduler.credit - cost := by
  simp only [spend]
  split <;> rfl

@[simp] theorem timing_spend (scheduler : Scheduler) (cost : Nat) :
    (scheduler.spend cost).timing = scheduler.timing := by
  simp only [spend]
  split <;> rfl

@[simp] theorem fraction_spend (scheduler : Scheduler) (cost : Nat) :
    (scheduler.spend cost).fraction = scheduler.fraction := by
  simp only [spend]
  split <;> rfl

@[simp] theorem second_spend (scheduler : Scheduler) (cost : Nat) :
    (scheduler.spend cost).second = scheduler.second := by
  simp only [spend]
  split <;> rfl

/-- Starts accounting for time at the given instant. -/
def start (scheduler : Scheduler) (now : Nat) : Scheduler :=
  { scheduler with last := some now }

end Scheduler

namespace Progress

variable {σ : Type} [Host σ]

/-- Offers the pending interrupt. -/
def offer (progress : Progress σ) : Event × Progress σ :=
  let ⟨scheduler, machine, tick⟩ := progress
  let vector := scheduler.vector
  let scheduler := scheduler.takeOffer
  let tick := { tick with presented := tick.presented + 1 }
  let before := machine.cpu.cycles
  match machine.interrupt vector with
  | .ok true machine =>
    let cost := (machine.cpu.cycles - before).toNat
    let tick := { tick with accepted := tick.accepted + 1, cycles := tick.cycles + cost }
    (.offered vector (.ok true), ⟨scheduler.spend cost, machine, tick⟩)
  | .ok false machine => (.offered vector (.ok false), ⟨scheduler, machine, tick⟩)
  | .error stop machine => (.offered vector (.error stop), ⟨scheduler, machine, tick⟩)

/-- Executes the next instruction. -/
def execute (progress : Progress σ) : Event × Progress σ :=
  let ⟨scheduler, machine, tick⟩ := progress
  match machine.status with
  | .halted stop => (.refused stop, ⟨scheduler, machine, tick⟩)
  | .running =>
    let fetched := machine.fetch
    match machine.perform fetched with
    | .ok cost machine =>
      let tick := { tick with cycles := tick.cycles + cost.toNat }
      (.stepped fetched (.ok cost), ⟨scheduler.spend cost.toNat, machine, tick⟩)
    | .error stop machine => (.stepped fetched (.error stop), ⟨scheduler, machine, tick⟩)

/-- Makes the pending offer, or else executes an instruction. -/
def turn (progress : Progress σ) : Event × Progress σ :=
  if progress.scheduler.pending then progress.offer else progress.execute

/-- Takes turns until the credit is spent or the machine stops, at most the given
number of them; none if that does not suffice. The observer sees each event
together with the machine after it. -/
def runObserved {ω : Type} (observe : ω → Event → Machine σ → ω) :
    Nat → ω → Progress σ → Option (ω × Advance σ)
  | limit, seen, progress =>
    if progress.scheduler.credit ≤ 0 then
      some (seen, ⟨progress.scheduler, progress.machine, .ok progress.tick⟩)
    else match limit with
      | 0 => none
      | limit + 1 =>
        let (event, progress) := progress.turn
        let seen := observe seen event progress.machine
        match event.stop? with
        | some stop => some (seen, ⟨progress.scheduler, progress.machine, .error stop⟩)
        | none => runObserved observe limit seen progress

end Progress

namespace Scheduler

variable {σ : Type} [Host σ]

/-- Lets a machine run for the given time, observed. -/
def advanceObserved {ω : Type} (observe : ω → Event → Machine σ → ω) (limit : Nat) (seen : ω)
    (scheduler : Scheduler) (machine : Machine σ) (elapsedNanos : Nat) :
    Option (ω × Advance σ) :=
  Progress.runObserved observe limit seen { scheduler := scheduler.grant elapsedNanos, machine }

/-- Lets a machine run for the given time. -/
def advance (limit : Nat) (scheduler : Scheduler) (machine : Machine σ) (elapsedNanos : Nat) :
    Option (Advance σ) :=
  (advanceObserved (fun _ _ _ => ()) limit () scheduler machine elapsedNanos).map Prod.snd

/-- How much time has passed at an instant since time was last accounted for: none
if it never was, or if the instant is earlier. -/
def elapsedAt (scheduler : Scheduler) (now : Nat) : Nat :=
  match scheduler.last with
  | some last => now - last
  | none => 0

/-- Lets a machine run up to the given instant, observed. -/
def tickObserved {ω : Type} (observe : ω → Event → Machine σ → ω) (limit : Nat) (seen : ω)
    (scheduler : Scheduler) (machine : Machine σ) (now : Nat) : Option (ω × Advance σ) :=
  advanceObserved observe limit seen (scheduler.start now) machine (scheduler.elapsedAt now)

/-- Lets a machine run up to the given instant. -/
def tick (limit : Nat) (scheduler : Scheduler) (machine : Machine σ) (now : Nat) :
    Option (Advance σ) :=
  (tickObserved (fun _ _ _ => ()) limit () scheduler machine now).map Prod.snd

end Scheduler

end Intel8080
