import Mathlib
import Intel8080.Proofs.Cost
import Intel8080.Proofs.Series

/-!
# Keeping pace

The cycles that are due after a time are the clock rate times that time, rounded
down. What has been run and what may still be run make up exactly what is due, and
the fraction held back is exactly what the rounding left: both balances survive
every turn and every grant. At the end of an advance the credit is spent, and it is
overdrawn by less than the dearest instruction. So the cycles run never lag behind
what is due and lead by at most seventeen, into however many calls the time was cut.
-/

namespace Intel8080

namespace Timing

/-- The whole cycles due after a time in nanoseconds. -/
def due (timing : Timing) (elapsedNanos : Nat) : Nat :=
  elapsedNanos * timing.clockRate / nanosPerSecond

/-- After the given time, the cycles that fall due in each of the durations to come
fit under the limit of credit. -/
def Unsaturated (timing : Timing) : Nat → List Nat → Prop
  | _, [] => True
  | elapsedNanos, duration :: rest =>
    timing.due (elapsedNanos + duration) ≤ timing.due elapsedNanos + Scheduler.maxCredit ∧
      timing.Unsaturated (elapsedNanos + duration) rest

theorem due_mono (timing : Timing) {earlier later : Nat} (ordered : earlier ≤ later) :
    timing.due earlier ≤ timing.due later :=
  Nat.div_le_div_right (Nat.mul_le_mul_right timing.clockRate ordered)

/-- If all that falls due fits under the limit at once, every part of it does. -/
theorem unsaturated_of_due_le {timing : Timing} {elapsedNanos : Nat} {durations : List Nat}
    (fits : timing.due (elapsedNanos + durations.sum) ≤ Scheduler.maxCredit) :
    timing.Unsaturated elapsedNanos durations := by
  induction durations generalizing elapsedNanos with
  | nil => trivial
  | cons duration rest inductionHypothesis =>
    rw [List.sum_cons, ← Nat.add_assoc] at fits
    have first : timing.due (elapsedNanos + duration) ≤
        timing.due (elapsedNanos + duration + rest.sum) :=
      timing.due_mono (Nat.le_add_right _ _)
    exact ⟨by omega, inductionHypothesis fits⟩

end Timing

namespace Progress

variable {σ : Type}

/-- The accounts after a time: what was run and what may still be run make up what is
due, the fraction is what the rounding left, and the debt is less than the dearest
instruction. -/
structure Balanced (timing : Timing) (elapsedNanos : Nat) (progress : Progress σ) : Prop where
  rate : progress.scheduler.timing = timing
  fraction : progress.scheduler.fraction =
    elapsedNanos * timing.clockRate % Timing.nanosPerSecond
  credit : progress.scheduler.credit + progress.tick.cycles = timing.due elapsedNanos
  owed : -18 < progress.scheduler.credit

/-- A scheduler that has accounted for nothing is in balance. -/
theorem balanced_fresh (timing : Timing) (machine : Machine σ) :
    Balanced timing 0 ⟨{ timing }, machine, {}⟩ where
  rate := rfl
  fraction := by simp
  credit := by simp [Timing.due]
  owed := by simp

/-- A turn taken in credit keeps the balance: it moves cycles from the credit to the
tick, and overdraws by less than it costs. -/
theorem Balanced.turn {timing : Timing} {elapsedNanos cost : Nat} {progress next : Progress σ}
    (balanced : Balanced timing elapsedNanos progress) (inCredit : 0 < progress.scheduler.credit)
    (charges : Charges cost progress next) (bounded : cost ≤ 18) :
    Balanced timing elapsedNanos next where
  rate := charges.timing.trans balanced.rate
  fraction := charges.fraction.trans balanced.fraction
  credit := by
    have before := balanced.credit
    rw [charges.credit, charges.cycles]
    omega
  owed := by
    rw [charges.credit]
    omega

/-- A grant whose cycles fit under the limit keeps the balance, the fraction of a
cycle included. -/
theorem Balanced.grant {timing : Timing} {elapsedNanos duration : Nat} {progress : Progress σ}
    (balanced : Balanced timing elapsedNanos progress)
    (settled : progress.scheduler.credit ≤ 0)
    (fits : timing.due (elapsedNanos + duration) ≤
      timing.due elapsedNanos + Scheduler.maxCredit) :
    Balanced timing (elapsedNanos + duration)
      { progress with scheduler := progress.scheduler.grant duration } := by
  obtain ⟨rate, fraction, credit, owed⟩ := balanced
  have whole : timing.due (elapsedNanos + duration) =
      timing.due elapsedNanos + progress.scheduler.wholeCycles duration := by
    simp only [Timing.due, Scheduler.wholeCycles, Scheduler.scaled, rate, fraction,
      Nat.add_mul, Timing.nanosPerSecond]
    omega
  have room : progress.scheduler.HasRoom duration := ⟨by omega, by omega⟩
  rw [Scheduler.grant_of_room room]
  refine ⟨rate, ?_, ?_, ?_⟩
  · simp only [Scheduler.scaled, rate, fraction, Nat.add_mul, Timing.nanosPerSecond]
    omega
  · rw [whole]
    simp only
    omega
  · simp only
    omega

/-- In balance and with no credit left, the cycles run are those due and fewer than
eighteen more. -/
theorem Balanced.cycles_bounds {timing : Timing} {elapsedNanos : Nat} {progress : Progress σ}
    (balanced : Balanced timing elapsedNanos progress) (spent : progress.scheduler.credit ≤ 0) :
    timing.due elapsedNanos ≤ progress.tick.cycles ∧
      progress.tick.cycles ≤ timing.due elapsedNanos + 17 := by
  have account := balanced.credit
  have owed := balanced.owed
  exact ⟨by omega, by omega⟩

variable [Host σ]

/-- The machine has the table of the instruction set, and its counter has advanced by
the cycles of the tick since it showed the given value. -/
structure Charged (begin : UInt64) (progress : Progress σ) : Prop where
  table : progress.machine.table = .canonical
  counter : progress.machine.cpu.cycles = begin + UInt64.ofNat progress.tick.cycles

theorem Charged.turn {begin : UInt64} {cost : Nat} {progress next : Progress σ}
    (charged : Charged begin progress) (charges : Charges cost progress next) :
    Charged begin next where
  table := charges.table.trans charged.table
  counter := by
    rw [charges.counter, charged.counter, charges.cycles, UInt64.ofNat_add, UInt64.add_assoc]

/-- The accounts after a series of advances on a fresh scheduler: they balance for the
whole time, and no credit is left. -/
theorem Series.balanced {ω : Type} {observe : ω → Event → Machine σ → ω} {seen after : ω}
    {timing : Timing} {machine : Machine σ} {durations : List Nat} {advance : Advance σ}
    {tick : Tick}
    (runs : Series observe Scheduler.grant seen ⟨{ timing }, machine, {}⟩ durations after advance)
    (canonical : machine.table = .canonical) (unsaturated : timing.Unsaturated 0 durations)
    (returned : advance.result = .ok tick) :
    Balanced timing durations.sum ⟨advance.scheduler, advance.machine, tick⟩ ∧
      Charged machine.cpu.cycles ⟨advance.scheduler, advance.machine, tick⟩ ∧
      advance.scheduler.credit ≤ 0 := by
  -- The durations still to come determine the time that has passed.
  have kept := runs.invariant
    (fun items _ progress => ∃ elapsed, elapsed + items.sum = durations.sum ∧
      timing.Unsaturated elapsed items ∧ Balanced timing elapsed progress ∧
      Charged machine.cpu.cycles progress)
    ?_ ?_ ?_ (Int.le_refl 0) returned
  · obtain ⟨⟨elapsed, whole, -, balanced, charged⟩, spent⟩ := kept
    obtain rfl : elapsed = durations.sum := whole
    exact ⟨balanced, charged, spent⟩
  · rintro items _ progress event next ⟨elapsed, whole, fits, balanced, charged⟩ inCredit turn
    obtain ⟨cost, bounded, charges⟩ := turn.charges charged.table
    exact ⟨elapsed, whole, fits, balanced.turn inCredit charges bounded, charged.turn charges⟩
  · rintro duration rest _ progress ⟨elapsed, whole, ⟨fits, later⟩, balanced, charged⟩ settled
    refine ⟨elapsed + duration, ?_, later, balanced.grant settled fits, charged.table,
      charged.counter⟩
    rw [← whole, List.sum_cons, Nat.add_assoc]
  · exact ⟨0, Nat.zero_add _, unsaturated, balanced_fresh timing machine, canonical, by simp⟩

end Progress

namespace Scheduler

open Progress

/-- A machine with the table of the instruction set keeps pace: however a time is cut
into advances, the cycles run are at least those due and fewer than eighteen more, and
the counter of the processor has advanced by exactly the cycles run. -/
theorem advanceEach_pace {σ : Type} [Host σ] {timing : Timing} {machine after : Machine σ}
    {limit : Nat} {durations : List Nat} {scheduler : Scheduler} {tick : Tick}
    (canonical : machine.table = .canonical) (unsaturated : timing.Unsaturated 0 durations)
    (returned : advanceEach limit { timing } machine durations =
      some ⟨scheduler, after, .ok tick⟩) :
    timing.due durations.sum ≤ tick.cycles ∧
      tick.cycles ≤ timing.due durations.sum + 17 ∧
      after.cpu.cycles = machine.cpu.cycles + UInt64.ofNat tick.cycles := by
  obtain ⟨balanced, charged, spent⟩ :=
    (series_of_advanceEach returned).balanced canonical unsaturated rfl
  obtain ⟨least, most⟩ := balanced.cycles_bounds spent
  exact ⟨least, most, charged.counter⟩

/-- Two hundred and six milliseconds at a thousand cycles per second, in three calls of
which one takes no time: two hundred and six cycles are due and four more are run. -/
theorem advanceEach_pace_raster :
    let timing : Timing := { clockRate := 1000, frameRate := 20 }
    timing.Unsaturated 0 [73000000, 0, 133000000] ∧
      ∃ scheduler after,
        advanceEach 100 { timing } .raster [73000000, 0, 133000000] =
          some ⟨scheduler, after, .ok ⟨210, 8, 2⟩⟩ ∧
        timing.due 206000000 = 206 ∧ 206 ≤ 210 ∧ 210 ≤ 206 + 17 ∧
        after.cpu.cycles = Machine.raster.cpu.cycles + 210 := by
  intro timing
  have fits : timing.due (0 + [73000000, 0, 133000000].sum) ≤ maxCredit := by decide +kernel
  have unsaturated : timing.Unsaturated 0 [73000000, 0, 133000000] :=
    Timing.unsaturated_of_due_le fits
  obtain ⟨scheduler, after, returned⟩ : ∃ scheduler after,
      advanceEach 100 { timing } .raster [73000000, 0, 133000000] =
        some ⟨scheduler, after, .ok ⟨210, 8, 2⟩⟩ := exists_of_tick (by decide +kernel)
  have due : timing.due [73000000, 0, 133000000].sum = 206 := by decide +kernel
  have canonical : Machine.raster.table = .canonical := rfl
  obtain ⟨least, most, counter⟩ := advanceEach_pace canonical unsaturated returned
  rw [due] at least most
  exact ⟨unsaturated, scheduler, after, returned, due, least, most, counter⟩

end Scheduler

end Intel8080
