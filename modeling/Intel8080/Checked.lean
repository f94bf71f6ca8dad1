import Mathlib
import Intel8080.Scheduler

/-!
# Checked arithmetic

A scheduler counts in numbers of four widths: time in a hundred and twenty-eight bits without
a sign, credit in sixty-four with one, cycles and the phase in sixty-four and offers in
thirty-two without. Here its arithmetic is carried out with each result checked against its
width. Only a grant saturates. Any other result that does not fit ends the advance as an
overflow, with nothing to go on from: neither a tick nor a stop is returned.
-/

namespace Intel8080

/-- A result that does not fit its width. -/
structure Overflow where
  bits : Nat
  value : Int
  deriving DecidableEq, Repr

/-- A number without a sign, checked against its width. -/
def unsigned (bits : Nat) (value : Int) : Except Overflow Nat :=
  if 0 ≤ value ∧ value < 2 ^ bits then pure value.toNat else throw ⟨bits, value⟩

/-- A number with a sign, checked against its width. -/
def signed (bits : Nat) (value : Int) : Except Overflow Int :=
  if -2 ^ (bits - 1) ≤ value ∧ value < 2 ^ (bits - 1) then pure value else throw ⟨bits, value⟩

/-- The number with a sign in so many bits that comes closest. -/
def saturate (bits : Nat) (value : Int) : Int :=
  max (-2 ^ (bits - 1)) (min value (2 ^ (bits - 1) - 1))

namespace Scheduler

/-- The budget of a duration and the fraction that remains, in checked arithmetic. A budget that
is too large for the credit is cut. -/
def budgetChecked (scheduler : Scheduler) (elapsedNanos : Nat) : Except Overflow (Int × Nat) := do
  let product ← unsigned 128 (elapsedNanos * scheduler.timing.clockRate)
  let scaled ← unsigned 128 (product + scheduler.fraction)
  let cycles := scaled / Timing.nanosPerSecond
  return ((signed 64 cycles).toOption.getD (2 ^ 63 - 1), scaled % Timing.nanosPerSecond)

/-- A grant in checked arithmetic. The sum with the credit saturates. -/
def grantChecked (scheduler : Scheduler) (elapsedNanos : Nat) : Except Overflow Scheduler := do
  let (budget, fraction) ← scheduler.budgetChecked elapsedNanos
  return { scheduler with credit := saturate 64 (scheduler.credit + budget), fraction }

/-- Spending in checked arithmetic. The cycles are counted without a sign; taken off the credit,
they are read with one. -/
def spendChecked (scheduler : Scheduler) (tick : Tick) (cost : Nat) :
    Except Overflow (Scheduler × Tick) := do
  let credit ← signed 64 (scheduler.credit - Int.bmod cost (2 ^ 64))
  let cycles ← unsigned 64 (tick.cycles + cost)
  let halfFrame ← unsigned 64 (scheduler.halfFrame + cost)
  if halfFrame ≥ scheduler.timing.pace then
    let rest ← unsigned 64 (halfFrame - scheduler.timing.pace)
    return ({ scheduler with credit, halfFrame := rest, pending := true }, { tick with cycles })
  else return ({ scheduler with credit, halfFrame }, { tick with cycles })

end Scheduler

namespace Progress

variable {σ : Type} [Host σ]

/-- An offer in checked arithmetic. It is counted before it is known what comes of it. -/
def offerChecked (progress : Progress σ) : Except Overflow (Event × Progress σ) := do
  let ⟨scheduler, machine, tick⟩ := progress
  let vector := scheduler.vector
  let scheduler := scheduler.takeOffer
  let presented ← unsigned 32 (tick.presented + 1)
  let tick := { tick with presented }
  let before := machine.cpu.cycles
  match machine.interrupt vector with
  | .ok true machine =>
    let accepted ← unsigned 32 (tick.accepted + 1)
    let cost := (machine.cpu.cycles - before).toNat
    let (scheduler, tick) ← scheduler.spendChecked { tick with accepted } cost
    return (.offered vector (.ok true), ⟨scheduler, machine, tick⟩)
  | .ok false machine => return (.offered vector (.ok false), ⟨scheduler, machine, tick⟩)
  | .error stop machine => return (.offered vector (.error stop), ⟨scheduler, machine, tick⟩)

/-- The next instruction in checked arithmetic. -/
def executeChecked (progress : Progress σ) : Except Overflow (Event × Progress σ) := do
  let ⟨scheduler, machine, tick⟩ := progress
  match machine.status with
  | .halted stop => return (.refused stop, ⟨scheduler, machine, tick⟩)
  | .running =>
    let fetched := machine.fetch
    match machine.perform fetched with
    | .ok cost machine =>
      let (scheduler, tick) ← scheduler.spendChecked tick cost.toNat
      return (.stepped fetched (.ok cost), ⟨scheduler, machine, tick⟩)
    | .error stop machine =>
      return (.stepped fetched (.error stop), ⟨scheduler, machine, tick⟩)

/-- A turn in checked arithmetic. -/
def turnChecked (progress : Progress σ) : Except Overflow (Event × Progress σ) :=
  if progress.scheduler.pending then progress.offerChecked else progress.executeChecked

/-- A run in checked arithmetic. -/
def runChecked : Nat → Progress σ → Except Overflow (Option (Advance σ))
  | limit, progress =>
    if progress.scheduler.credit ≤ 0 then
      .ok (some ⟨progress.scheduler, progress.machine, .ok progress.tick⟩)
    else match limit with
      | 0 => .ok none
      | limit + 1 => do
        let (event, progress) ← progress.turnChecked
        match event.stop? with
        | some stop => return some ⟨progress.scheduler, progress.machine, .error stop⟩
        | none => runChecked limit progress

end Progress

namespace Scheduler

variable {σ : Type} [Host σ]

/-- An advance in checked arithmetic. -/
def advanceChecked (limit : Nat) (scheduler : Scheduler) (machine : Machine σ)
    (elapsedNanos : Nat) : Except Overflow (Option (Advance σ)) := do
  let scheduler ← scheduler.grantChecked elapsedNanos
  Progress.runChecked limit { scheduler, machine }

/-- A tick in checked arithmetic. -/
def tickChecked (limit : Nat) (scheduler : Scheduler) (machine : Machine σ) (now : Nat) :
    Except Overflow (Option (Advance σ)) :=
  advanceChecked limit (scheduler.start now) machine (scheduler.elapsedAt now)

end Scheduler

end Intel8080
