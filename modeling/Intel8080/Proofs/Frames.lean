import Mathlib
import Intel8080.Proofs.Offers
import Intel8080.Proofs.Pace
import Intel8080.Proofs.Termination

/-!
# Interrupts per frame

Each frame has two interrupts, one in the middle and one at the end. Time is accounted
for to the fraction of a cycle, but a half frame is rounded down to whole cycles, and
what the rounding cuts off is never made up for. So the boundaries come early, by less
than two cycles a frame, and the lead grows with the time.

The law of two interrupts per frame therefore holds for runs of any length exactly if
nothing is cut off: if the clock rate is a multiple of twice the frame rate. Otherwise
an idle machine is enough to break it. The reference rates are not of this kind.
-/

namespace Intel8080

namespace Timing

/-- The law of two interrupts per frame: when a machine with the table of the instruction
set has run for a whole number of seconds, in any number of advances that all returned
and did not reach the limit of credit, the interrupts offered are two for every frame,
or one more or less. -/
def TwoPerFrame (timing : Timing) : Prop :=
  ∀ (σ : Type) (_ : Host σ) (machine after : Machine σ) (limit seconds : Nat)
    (durations : List Nat) (scheduler : Scheduler) (tick : Tick),
    machine.table = .canonical → durations.sum = seconds * nanosPerSecond →
    timing.Unsaturated 0 durations →
    Scheduler.advanceEach limit { timing } machine durations =
      some ⟨scheduler, after, .ok tick⟩ →
    tick.presented ≤ 2 * timing.frameRate * seconds + 1 ∧
      2 * timing.frameRate * seconds ≤ tick.presented + 1

theorem cyclesPerHalfFrame_eq {timing : Timing} (frames : 1 ≤ timing.frameRate) :
    timing.cyclesPerHalfFrame = timing.clockRate / (2 * timing.frameRate) := by
  rw [cyclesPerHalfFrame, cyclesPerFrame, Nat.max_eq_left frames, Nat.div_div_eq_div_mul,
    Nat.mul_comm]

/-- In a whole number of seconds, a whole number of cycles falls due. -/
theorem due_seconds (timing : Timing) (seconds : Nat) :
    timing.due (seconds * nanosPerSecond) = seconds * timing.clockRate := by
  rw [due, Nat.mul_right_comm]
  exact Nat.mul_div_cancel _ (by decide)

/-- A quarter of a second fits under the limit of credit for every clock rate of sixty-four
bits. -/
theorem unsaturated_quarters {timing : Timing} (rate : timing.clockRate < 2 ^ 64)
    (elapsedNanos count : Nat) :
    timing.Unsaturated elapsedNanos (List.replicate count 250000000) := by
  induction count generalizing elapsedNanos with
  | zero => trivial
  | succ count inductionHypothesis =>
    refine ⟨?_, inductionHypothesis _⟩
    simp only [due, nanosPerSecond, Scheduler.maxCredit, Nat.add_mul]
    omega

end Timing

/-- A machine that does nothing, with its interrupts disabled and all of its memory
zero. -/
structure Machine.Idle (machine : Machine Board) : Prop where
  host : machine.host = .blank
  table : machine.table = .canonical
  running : machine.status = .running
  latch : machine.cpu.interrupts = false

namespace Machine

/-- A fresh machine without a program. -/
def idle : Machine Board :=
  .start .canonical .blank

theorem idle_idle : Idle idle :=
  ⟨rfl, rfl, rfl, rfl⟩

/-- An idle machine finds nothing but empty instructions. -/
theorem Idle.fetch {machine : Machine Board} (idle : machine.Idle) :
    machine.fetch = ⟨machine.cpu.pc, .nop, "nop", 0, 0, 0, 1⟩ := by
  have zero : ∀ address, Host.read machine.host address = 0 := by
    intro address
    rw [idle.host]
    exact Memory.read_blank _
  simp only [Machine.fetch, zero, idle.table, Table.get_canonical]
  rfl

/-- It passes over them and stays idle. -/
theorem Idle.perform {machine : Machine Board} (idle : machine.Idle) :
    ∃ after, machine.perform machine.fetch = .ok 4 after ∧ after.Idle := by
  rw [idle.fetch]
  obtain ⟨host, cpu, table, status⟩ := machine
  obtain ⟨rfl, rfl, rfl, latch⟩ := idle
  simp only [Machine.perform, Table.get_canonical]
  exact ⟨_, rfl, rfl, rfl, rfl, latch⟩

/-- An idle machine declines every offer. -/
theorem Idle.interrupt {machine : Machine Board} (idle : machine.Idle) {address : UInt8}
    (restarts : (Instruction.restartTo? address).isSome) :
    machine.interrupt address = .ok false machine := by
  obtain ⟨restart, found⟩ := Option.isSome_iff_exists.mp restarts
  simp [Machine.interrupt, found, inject, idle.running, idle.latch]

end Machine

namespace Progress

/-- No turn stops an idle machine if there are restarts to be offered. -/
theorem going_of_idle {progress : Progress Board}
    (restarts : progress.scheduler.timing.HasRestarts) (idle : progress.machine.Idle) :
    progress.turn.1.stop? = none := by
  obtain ⟨scheduler, machine, tick⟩ := progress
  by_cases pending : scheduler.pending = true
  · have offered := idle.interrupt restarts.vector
    simp only [turn, pending, if_true, offer, offered]
    rfl
  · obtain ⟨after, performed, -⟩ := idle.perform
    have running : machine.status = .running := idle.running
    simp only [turn, pending, Bool.false_eq_true, if_false, execute, running, performed]
    rfl

/-- A turn leaves an idle machine idle. -/
theorem Turn.idle {progress next : Progress Board} {event : Event}
    (turn : Turn progress event next) (idle : progress.machine.Idle) :
    next.scheduler.timing = progress.scheduler.timing ∧ next.machine.Idle := by
  cases turn with
  | stepped cost machine _ completed =>
    obtain ⟨after, performed, still⟩ := idle.perform
    have stepped : progress.machine.step = .ok 4 after := by
      simp only [Machine.step, idle.running, performed]
    obtain ⟨-, rfl⟩ := EStateM.Result.ok.inj (completed.symm.trans stepped)
    exact ⟨Scheduler.timing_spend .., still⟩
  | accepted machine _ entered =>
    have latch := (Machine.interrupt_ok entered).1
    rw [idle.latch] at latch
    cases latch
  | declined machine _ refused =>
    obtain rfl : machine = progress.machine := (Machine.interrupt_ok refused).2.2
    exact ⟨rfl, idle⟩

/-- Idleness lasts. -/
theorem lasting_idle :
    Lasting fun (timing : Timing) (machine : Machine Board) =>
      timing.HasRestarts ∧ machine.Idle where
  going _ safe := going_of_idle safe.1 safe.2
  charging _ _ safe := safe.2.table ▸ Table.charging_canonical
  turn progress event next turn safe := by
    obtain ⟨timing, idle⟩ := turn.idle safe.2
    exact ⟨timing ▸ safe.1, idle⟩

end Progress

namespace Scheduler

open Progress

/-- An idle machine can be advanced for any durations. -/
theorem exists_advanceEach_idle {timing : Timing} (restarts : timing.HasRestarts)
    (durations : List Nat) :
    ∃ limit scheduler after tick, advanceEach limit { timing } Machine.idle durations =
      some ⟨scheduler, after, .ok tick⟩ := by
  obtain ⟨seen, scheduler, after, tick, runs⟩ := lasting_idle.exists_series
    (fun _ _ _ => ()) () ⟨{ timing }, Machine.idle, {}⟩ durations ⟨restarts, Machine.idle_idle⟩
  obtain ⟨limit, reaches⟩ := runs.computed
  exact ⟨limit, scheduler, after, tick,
    congrArg (Option.map Prod.snd) (reaches limit (Nat.le_refl limit))⟩

/-- The offers made in a time are as many as the half frames in the cycles run, which are
almost those due. -/
theorem presented_bounds {σ : Type} [Host σ] {timing : Timing} {machine after : Machine σ}
    {limit : Nat} {durations : List Nat} {scheduler : Scheduler} {tick : Tick}
    (canonical : machine.table = .canonical) (room : 18 ≤ timing.cyclesPerHalfFrame)
    (unsaturated : timing.Unsaturated 0 durations)
    (returned : advanceEach limit { timing } machine durations =
      some ⟨scheduler, after, .ok tick⟩) :
    timing.due durations.sum / timing.cyclesPerHalfFrame ≤ tick.presented + 1 ∧
      tick.presented ≤ (timing.due durations.sum + 17) / timing.cyclesPerHalfFrame := by
  obtain ⟨balanced, -, spent⟩ :=
    (series_of_advanceEach returned).balanced canonical unsaturated rfl
  obtain ⟨least, most⟩ := balanced.cycles_bounds spent
  obtain ⟨ledger, observed⟩ := exists_observed Ledger.enter { machine } returned
  obtain ⟨inPhase, -⟩ := (series_of_advanceEachObserved observed).recorded canonical room rfl
  have offers : tick.presented + scheduler.pending.toNat =
      tick.cycles / timing.cyclesPerHalfFrame := inPhase.offers
  have flag := Bool.toNat_le scheduler.pending
  have fewest := Nat.div_le_div_right (c := timing.cyclesPerHalfFrame) least
  have greatest := Nat.div_le_div_right (c := timing.cyclesPerHalfFrame) most
  simp only at fewest greatest
  exact ⟨by omega, by omega⟩

end Scheduler

namespace Timing

/-- If nothing is cut off, the law holds: the half frames that fall due in a second are
twice the frames. -/
theorem twoPerFrame_of_dvd {timing : Timing} (frames : 1 ≤ timing.frameRate)
    (room : 18 ≤ timing.cyclesPerHalfFrame) (even : 2 * timing.frameRate ∣ timing.clockRate) :
    timing.TwoPerFrame := by
  intro σ _ machine after limit seconds durations scheduler tick canonical whole unsaturated
    returned
  obtain ⟨fewest, greatest⟩ :=
    Scheduler.presented_bounds canonical room unsaturated returned
  have due : timing.due durations.sum =
      timing.cyclesPerHalfFrame * (2 * timing.frameRate * seconds) := by
    rw [whole, due_seconds, cyclesPerHalfFrame_eq frames, ← Nat.mul_assoc,
      Nat.div_mul_cancel even, Nat.mul_comm]
  have positive : 0 < timing.cyclesPerHalfFrame := by omega
  rw [due, Nat.mul_div_cancel_left _ positive] at fewest
  rw [due, Nat.mul_add_div positive, Nat.div_eq_of_lt (by omega)] at greatest
  exact ⟨by omega, fewest⟩

/-- Three half frames in seconds, as quarters. -/
def drift (timing : Timing) : List Nat :=
  List.replicate (4 * (3 * timing.cyclesPerHalfFrame)) 250000000

theorem sum_drift (timing : Timing) :
    timing.drift.sum = 3 * timing.cyclesPerHalfFrame * nanosPerSecond := by
  simp only [drift, List.sum_replicate_nat, nanosPerSecond]
  omega

/-- If something is cut off, a second has at least one cycle more than the half frames of
its frames, and so there are three boundaries more than half frames once there have been
as many seconds as three half frames have cycles. -/
theorem boundaries_drift {timing : Timing} (frames : 1 ≤ timing.frameRate)
    (positive : 0 < timing.cyclesPerHalfFrame)
    (cut : ¬ 2 * timing.frameRate ∣ timing.clockRate) :
    2 * timing.frameRate * (3 * timing.cyclesPerHalfFrame) + 3 ≤
      timing.due timing.drift.sum / timing.cyclesPerHalfFrame := by
  have rest : 0 < timing.clockRate % (2 * timing.frameRate) :=
    Nat.pos_of_ne_zero fun none => cut (Nat.dvd_of_mod_eq_zero none)
  have parts : 2 * timing.frameRate * timing.cyclesPerHalfFrame + 1 ≤ timing.clockRate := by
    have whole := Nat.div_add_mod timing.clockRate (2 * timing.frameRate)
    rw [← cyclesPerHalfFrame_eq frames] at whole
    omega
  rw [sum_drift, due_seconds, Nat.le_div_iff_mul_le positive]
  calc (2 * timing.frameRate * (3 * timing.cyclesPerHalfFrame) + 3) * timing.cyclesPerHalfFrame
      = 3 * timing.cyclesPerHalfFrame *
          (2 * timing.frameRate * timing.cyclesPerHalfFrame + 1) := by grind
    _ ≤ 3 * timing.cyclesPerHalfFrame * timing.clockRate := Nat.mul_le_mul_left _ parts

/-- The law holds only if nothing is cut off: else an idle machine breaks it. -/
theorem dvd_of_twoPerFrame {timing : Timing} (frames : 1 ≤ timing.frameRate)
    (room : 18 ≤ timing.cyclesPerHalfFrame) (restarts : timing.HasRestarts)
    (rate : timing.clockRate < 2 ^ 64) (law : timing.TwoPerFrame) :
    2 * timing.frameRate ∣ timing.clockRate := by
  refine Decidable.byContradiction fun cut => ?_
  obtain ⟨limit, scheduler, after, tick, returned⟩ :=
    Scheduler.exists_advanceEach_idle restarts timing.drift
  have unsaturated : timing.Unsaturated 0 timing.drift := unsaturated_quarters rate 0 _
  have early := boundaries_drift frames (by omega) cut
  have canonical := Machine.idle_idle.table
  have offered := (Scheduler.presented_bounds canonical room unsaturated returned).1
  have lawful := (law Board _ Machine.idle after limit _ timing.drift scheduler tick canonical
    (sum_drift timing) unsaturated returned).1
  omega

/-- Two interrupts per frame, for runs of any length, are offered exactly by those timings
whose clock rate is a multiple of twice the frame rate. -/
theorem twoPerFrame_iff {timing : Timing} (frames : 1 ≤ timing.frameRate)
    (room : 18 ≤ timing.cyclesPerHalfFrame) (restarts : timing.HasRestarts)
    (rate : timing.clockRate < 2 ^ 64) :
    timing.TwoPerFrame ↔ 2 * timing.frameRate ∣ timing.clockRate := by
  constructor
  · exact dvd_of_twoPerFrame frames room restarts rate
  · exact twoPerFrame_of_dvd frames room

/-- At fifty frames per second the law holds for the clock of two million cycles; at the
reference rate of sixty it does not. -/
theorem twoPerFrame_iff_reference :
    TwoPerFrame { frameRate := 50 } ∧ ¬ TwoPerFrame {} := by
  constructor
  · refine (twoPerFrame_iff ?_ ?_ ?_ ?_).mpr ?_ <;> decide
  · intro law
    have multiple := (twoPerFrame_iff (by decide) (by decide) (by decide) (by decide)).mp law
    exact absurd multiple (by decide)

/-- An idle machine with a clock of thirty-seven cycles and one frame per second is offered
more than a hundred and twenty-one interrupts in a minute. -/
theorem twoPerFrame_fails_after_a_minute :
    ∃ limit scheduler after tick,
      Scheduler.advanceEach limit { timing := { clockRate := 37, frameRate := 1 } }
        Machine.idle [60 * nanosPerSecond] = some ⟨scheduler, after, .ok tick⟩ ∧
      2 * 1 * 60 + 1 < tick.presented := by
  have restarts : HasRestarts { clockRate := 37, frameRate := 1 } := by decide
  obtain ⟨limit, scheduler, after, tick, returned⟩ :=
    Scheduler.exists_advanceEach_idle restarts [60 * nanosPerSecond]
  refine ⟨limit, scheduler, after, tick, returned, ?_⟩
  have due : due { clockRate := 37, frameRate := 1 } [60 * nanosPerSecond].sum = 2220 := by
    decide +kernel
  have unsaturated : Unsaturated { clockRate := 37, frameRate := 1 } 0 [60 * nanosPerSecond] := by
    refine unsaturated_of_due_le ?_
    rw [Nat.zero_add, due]
    decide
  have offered :=
    (Scheduler.presented_bounds Machine.idle_idle.table (by decide) unsaturated returned).1
  have length : cyclesPerHalfFrame { clockRate := 37, frameRate := 1 } = 18 := by decide
  rw [due, length] at offered
  omega

end Timing

end Intel8080
