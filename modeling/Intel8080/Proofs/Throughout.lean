import Mathlib
import Intel8080.Proofs.Cutting
import Intel8080.Proofs.Overflow

/-!
# Adjusted advances, state by state

An adjusted advance comes through the states of the plain one, each adjusted, and then goes on
by itself. So what holds throughout the adjusted one holds throughout the plain one, adjusted,
and throughout what follows; and these are all the states there are.

In particular a turn of the adjusted advance fits if the turn of the plain one does, as long as
its offer can be counted together with those of the tick in hand. The phase is the same in both,
and the cycles are bounded by the credit. So the offers are all that can be too many for a single
call and not for the calls that it was cut into, and if it returns, the tick tells whether they
are.
-/

namespace Intel8080

namespace Progress

open Scheduler

variable {σ ω : Type} [Host σ] {observe : ω → Event → Machine σ → ω}
  {Kind : Scheduler → Prop} {adjust : Scheduler → Scheduler} {condition : Progress σ → Prop}

/-- An adjusted advance comes through the adjusted states of the plain one. -/
theorem Reaches.adjusted (neutral : Neutral Kind adjust) (before : Tick) {start now : Progress σ}
    (reaches : Reaches start now) (kind : Kind start.scheduler) :
    Reaches (start.adjusted adjust before) (now.adjusted adjust before) ∧ Kind now.scheduler := by
  induction reaches with
  | refl => exact ⟨.refl, kind⟩
  | @tail now _ _ follows inductionHypothesis =>
    obtain ⟨reached, kindHere⟩ := inductionHypothesis
    obtain ⟨inCredit, going, rfl⟩ := follows
    have turned := turn_adjusted neutral now before kindHere
    have raised := neutral.raised before kindHere inCredit
    refine ⟨reached.tail ⟨raised, ?_, ?_⟩, (turn_of_going now going).kind neutral kindHere⟩
    · rw [turned]
      exact going
    · rw [turned]

/-- An advance that returned comes through its end. -/
theorem Run.reaches_end {seen after : ω} {start : Progress σ} {ended : Advance σ} {tick : Tick}
    (run : Run observe seen start after ended) (returned : ended.result = .ok tick) :
    Reaches start ⟨ended.scheduler, ended.machine, tick⟩ := by
  induction run with
  | spent seen start exhausted =>
    obtain rfl : start.tick = tick := Except.ok.inj returned
    exact .refl
  | stopped => cases returned
  | turned seen start inCredit going rest inductionHypothesis =>
    exact .head ⟨inCredit, going, rfl⟩ (inductionHypothesis returned)

section Conditions

variable {start : Progress σ} {before : Tick}

/-- What holds throughout an adjusted advance holds at the adjusted states of the plain one. -/
theorem Throughout.of_adjusted (neutral : Neutral Kind adjust)
    (holds : Throughout condition (start.adjusted adjust before)) (kind : Kind start.scheduler) :
    Throughout (fun now => Kind now.scheduler ∧ condition (now.adjusted adjust before)) start := by
  intro now reaches inCredit
  obtain ⟨reached, kindHere⟩ := reaches.adjusted neutral before kind
  exact ⟨kindHere, holds _ reached (neutral.raised before kindHere inCredit)⟩

variable {seen after : ω} {ended : Advance σ}

/-- And it holds throughout what follows the plain one. -/
theorem Throughout.rest (neutral : Neutral Kind adjust)
    (holds : Throughout condition (start.adjusted adjust before)) (kind : Kind start.scheduler)
    (run : Run observe seen start after ended) {tick : Tick} (returned : ended.result = .ok tick) :
    Throughout condition ⟨adjust ended.scheduler, ended.machine, before + tick⟩ := by
  obtain ⟨reached, -⟩ := (run.reaches_end returned).adjusted neutral before kind
  exact fun now reaches inCredit => holds now (reached.trans reaches) inCredit

/-- In credit an adjusted advance comes through its first state, and then through those that the
plain one would come through if it were adjusted after its turn. -/
theorem throughout_adjusted_iff (neutral : Neutral Kind adjust) (kind : Kind start.scheduler)
    (inCredit : 0 < start.scheduler.credit) :
    Throughout condition (start.adjusted adjust before) ↔
      condition (start.adjusted adjust before) ∧ (start.turn.1.stop? = none →
        Throughout condition (start.turn.2.adjusted adjust before)) := by
  rw [throughout_iff (neutral.raised before kind inCredit), turn_adjusted neutral start before kind]

/-- These are all the states that an adjusted advance comes through. -/
theorem Run.throughout_adjusted (neutral : Neutral Kind adjust) (before : Tick)
    (run : Run observe seen start after ended) (kind : Kind start.scheduler)
    (begins : Throughout (fun now => condition (now.adjusted adjust before)) start)
    (goes : ∀ tick, ended.result = .ok tick →
      Throughout condition ⟨adjust ended.scheduler, ended.machine, before + tick⟩) :
    Throughout condition (start.adjusted adjust before) := by
  induction run with
  | spent seen start exhausted => exact goes start.tick rfl
  | stopped seen start stop inCredit halting =>
    refine (throughout_adjusted_iff neutral kind inCredit).mpr
      ⟨begins start .refl inCredit, fun going => ?_⟩
    rw [halting] at going
    cases going
  | turned seen start inCredit going rest inductionHypothesis =>
    refine (throughout_adjusted_iff neutral kind inCredit).mpr
      ⟨begins start .refl inCredit, fun _ => ?_⟩
    exact inductionHypothesis ((turn_of_going start going).kind neutral kind)
      (((throughout_iff inCredit).mp begins).2 going) goes

end Conditions

section Fitting

variable {start : Progress σ} {before : Tick}

omit [Host σ] in
/-- An offer that can be counted on top of earlier ones can be counted. -/
theorem Countable.of_adjusted (neutral : Neutral Kind adjust)
    (countable : (start.adjusted adjust before).Countable) : start.Countable := by
  intro due
  have counted : before.presented + start.tick.presented + 1 < 2 ^ 32 :=
    countable ((neutral.pending _).trans due)
  omega

omit [Host σ] in
/-- With none before, there is nothing more to count. -/
theorem Countable.adjusted (neutral : Neutral Kind adjust) (countable : start.Countable) :
    (start.adjusted adjust {}).Countable := by
  intro due
  have counted := countable ((neutral.pending _).symm.trans due)
  simpa only [Progress.adjusted, Tick.empty_add] using counted

/-- An adjustment leaves the phase as it is, and the turn does the same. -/
theorem roomFor_adjusted_iff (neutral : Neutral Kind adjust) (kind : Kind start.scheduler) :
    (start.adjusted adjust before).RoomFor (start.adjusted adjust before).turn.1 ↔
      start.RoomFor start.turn.1 := by
  rw [turn_adjusted neutral start before kind, RoomFor, RoomFor]
  simp only [Progress.adjusted, neutral.halfFrame]

theorem Fits.of_adjusted (neutral : Neutral Kind adjust) (kind : Kind start.scheduler)
    (fits : (start.adjusted adjust before).Fits) : start.Fits :=
  ⟨fits.countable.of_adjusted neutral, (roomFor_adjusted_iff neutral kind).mp fits.room⟩

theorem Fits.adjusted (neutral : Neutral Kind adjust) (kind : Kind start.scheduler)
    (fits : start.Fits) : (start.adjusted adjust {}).Fits :=
  ⟨fits.countable.adjusted neutral, (roomFor_adjusted_iff neutral kind).mpr fits.room⟩

theorem Throughout.fits_of_adjusted (neutral : Neutral Kind adjust)
    (fits : Throughout Fits (start.adjusted adjust before)) (kind : Kind start.scheduler) :
    Throughout Fits start :=
  (fits.of_adjusted neutral kind).imp fun _ here => here.2.of_adjusted neutral here.1

theorem Throughout.countable_of_adjusted (neutral : Neutral Kind adjust)
    (countable : Throughout Countable (start.adjusted adjust before))
    (kind : Kind start.scheduler) : Throughout Countable start :=
  (countable.of_adjusted neutral kind).imp fun _ here => here.2.of_adjusted neutral

/-- If a plain run fits and so does what follows it, the adjusted run fits as long as its offers
can be counted. -/
theorem Run.fits_adjusted (neutral : Neutral Kind adjust) {seen after : ω} {ended : Advance σ}
    (run : Run observe seen start after ended) (kind : Kind start.scheduler)
    (plain : Throughout Fits start)
    (countable : Throughout Countable (start.adjusted adjust before))
    (goes : ∀ tick, ended.result = .ok tick →
      Throughout Fits ⟨adjust ended.scheduler, ended.machine, before + tick⟩) :
    Throughout Fits (start.adjusted adjust before) := by
  refine run.throughout_adjusted neutral before kind ?_ goes
  intro now reaches inCredit
  obtain ⟨kindHere, counted⟩ := countable.of_adjusted neutral kind now reaches inCredit
  exact ⟨counted, (roomFor_adjusted_iff neutral kindHere).mpr (plain now reaches inCredit).room⟩

end Fitting

/-- A turn counts an offer exactly if one was pending. -/
theorem Turn.presented {now next : Progress σ} {event : Event} (turn : Turn now event next) :
    next.tick.presented = now.tick.presented + now.scheduler.pending.toNat := by
  cases turn with
  | stepped _ _ idle =>
    rw [idle]
    rfl
  | accepted _ due =>
    rw [due]
    rfl
  | declined _ due =>
    rw [due]
    rfl

/-- In an advance that returns all offers can be counted if they are few enough in the end. -/
theorem Run.countable_iff {seen after : ω} {start : Progress σ} {ended : Advance σ} {tick : Tick}
    (run : Run observe seen start after ended) (returned : ended.result = .ok tick)
    (few : start.tick.presented < 2 ^ 32) :
    Throughout Countable start ↔ tick.presented < 2 ^ 32 := by
  induction run with
  | spent seen start exhausted =>
    obtain rfl : start.tick = tick := Except.ok.inj returned
    exact iff_of_true (throughout_of_spent exhausted) few
  | stopped => cases returned
  | turned seen start inCredit going rest inductionHypothesis =>
    have counted := (turn_of_going start going).presented
    have further := (rest.reaches_end returned).vector.1
    rw [throughout_iff inCredit]
    by_cases countable : start.Countable
    · have fewer : start.turn.2.tick.presented < 2 ^ 32 := by
        cases due : start.scheduler.pending with
        | true =>
          have one := countable due
          rw [counted, due]
          exact one
        | false =>
          rw [counted, due]
          exact few
      rw [← inductionHypothesis returned fewer]
      exact ⟨fun holds => holds.2 going, fun later => ⟨countable, fun _ => later⟩⟩
    · refine iff_of_false (fun holds => countable holds.1) ?_
      obtain ⟨due, many⟩ : start.scheduler.pending = true ∧
          ¬ start.tick.presented + 1 < 2 ^ 32 := by simpa [Countable] using countable
      rw [due] at counted
      simp only [Bool.toNat_true] at counted
      simp only at further
      omega

/-- No run is more than two hundred and fifty-five cycles in debt at its end, unless it was so
from the beginning. -/
theorem Run.owed {seen after : ω} {start : Progress σ} {ended : Advance σ}
    (run : Run observe seen start after ended) (owed : -2 ^ 63 ≤ start.scheduler.credit)
    {tick : Tick} (returned : ended.result = .ok tick) : -2 ^ 63 ≤ ended.scheduler.credit := by
  refine (run.invariant (fun _ now => -2 ^ 63 ≤ now.scheduler.credit) ?_ owed returned).1
  intro _ now event next _ inCredit turn
  cases turn with
  | stepped cost machine idle completed =>
    have small := cost.toNat_lt
    rw [credit_spend]
    omega
  | accepted machine due entered =>
    rw [credit_spend, Machine.interrupt_cost entered]
    simp only [takeOffer]
    omega
  | declined => simpa [takeOffer] using inCredit.le.trans' (by decide)

omit [Host σ] in
/-- To begin with a tick in hand is an adjustment, too. -/
theorem adjusted_tick (scheduler : Scheduler) (machine : Machine σ) (tick : Tick) :
    (⟨scheduler, machine, {} + tick⟩ : Progress σ) =
      Progress.adjusted ⟨scheduler, machine, {}⟩ id tick := by
  simp only [Progress.adjusted, Tick.empty_add, Tick.add_empty, id]

/-- Where a first part of a duration has returned there is room for the rest. -/
theorem Run.room_left {first second : Nat} {seen after : ω} {scheduler : Scheduler}
    {machine : Machine σ} {part : Advance σ}
    (slice : Run observe seen ⟨scheduler.grant first, machine, {}⟩ after part)
    (room : scheduler.HasRoom (first + second)) (owed : -2 ^ 63 ≤ scheduler.credit) {tick : Tick}
    (returned : part.result = .ok tick) :
    part.scheduler.HasRoom second ∧ -2 ^ 63 ≤ part.scheduler.credit := by
  obtain ⟨roomFirst, roomSecond⟩ := room.split
  have raised := (neutral_grant first).credit scheduler roomFirst
  exact ⟨(slice.kind (neutral_grant second) roomSecond returned).1,
    slice.owed (owed.trans raised) returned⟩

end Progress

end Intel8080
