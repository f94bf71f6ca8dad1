import Mathlib
import Intel8080.Proofs.Composition
import Intel8080.Proofs.Termination

/-!
# How many turns an advance takes

An advance takes no more turns than twice the credit it was granted, and one more. Every
instruction and every accepted interrupt costs something. A declined offer costs nothing,
but it was for the one boundary that was pending, and only cycles run lead to the next
boundary. So each turn that costs something is preceded by at most one declined offer,
however short the half frame is.

The condition is on the table alone: every opcode has a base cost. It holds of the
instruction set and is kept by overrides that have one.
-/

namespace Intel8080

namespace Table

variable {σ : Type}

/-- Overrides with a base cost leave every opcode with one. -/
theorem Charging.compose {table composed : Table σ} {overrides : List (Descriptor σ)}
    (charging : table.Charging) (costly : ∀ entry ∈ overrides, 1 ≤ entry.cycles.toNat)
    (composes : table.compose overrides = .ok composed) : composed.Charging := by
  obtain ⟨acceptable, rfl⟩ := (compose_eq_ok_iff _ _ _).mp composes
  intro opcode
  by_cases overridden : opcode ∈ overrides.map Descriptor.opcode
  · obtain ⟨entry, member, rfl⟩ := List.mem_map.mp overridden
    rw [get_foldl_install_of_mem table acceptable.distinct member]
    exact costly entry member
  · rw [get_foldl_install_of_not_mem table overridden]
    exact charging opcode

end Table

namespace Event

/-- An interrupt was offered, whatever came of it. -/
def isOffer : Event → Bool
  | offered _ _ => true
  | _ => false

/-- The second event may come directly after the first: it is no offer if the first was
declined. -/
def Spaced (first second : Event) : Prop :=
  first.isDeclined = true → second.isOffer = false

end Event

namespace Progress

variable {σ : Type}

/-- An observer that lists the events in order. -/
def listed (events : List Event) (event : Event) (_ : Machine σ) : List Event :=
  events ++ [event]

variable [Host σ]

/-- There is credit, and a turn that stops nothing leads from one state to the next. -/
def Follows (now next : Progress σ) : Prop :=
  0 < now.scheduler.credit ∧ now.turn.1.stop? = none ∧ now.turn.2 = next

/-- The state is one that an advance comes through. -/
def Reaches (start now : Progress σ) : Prop :=
  Relation.ReflTransGen Follows start now

theorem Follows.turn {now next : Progress σ} (follows : Follows now next) :
    Turn now now.turn.1 next := by
  obtain ⟨-, going, rfl⟩ := follows
  exact turn_of_going now going

/-- A turn is an offer exactly if one is pending. -/
theorem isOffer_turn (progress : Progress σ) :
    progress.turn.1.isOffer = progress.scheduler.pending := by
  obtain ⟨scheduler, machine, tick⟩ := progress
  cases pending : scheduler.pending with
  | true =>
    simp only [turn, pending, if_true, offer]
    split <;> rfl
  | false =>
    simp only [turn, pending, Bool.false_eq_true, if_false, execute]
    split
    · rfl
    · split <;> rfl

/-- An advance goes by one table throughout. -/
theorem Reaches.table {start now : Progress σ} (reaches : Reaches start now) :
    now.machine.table = start.machine.table := by
  induction reaches with
  | refl => rfl
  | tail _ follows inductionHypothesis => exact follows.turn.table.trans inductionHypothesis

/-- One event is listed for each turn of the limit at most. -/
theorem length_listed {limit : Nat} {events after : List Event} {progress : Progress σ}
    {advance : Advance σ}
    (computed : runObserved listed limit events progress = some (after, advance)) :
    after.length ≤ events.length + limit := by
  induction limit generalizing events progress with
  | zero =>
    by_cases exhausted : progress.scheduler.credit ≤ 0
    · rw [runObserved_of_spent _ _ exhausted] at computed
      obtain ⟨rfl, -⟩ := Prod.mk.inj (Option.some.inj computed)
      exact Nat.le_refl _
    · simp [runObserved, exhausted] at computed
  | succ limit inductionHypothesis =>
    by_cases exhausted : progress.scheduler.credit ≤ 0
    · rw [runObserved_of_spent _ _ exhausted] at computed
      obtain ⟨rfl, -⟩ := Prod.mk.inj (Option.some.inj computed)
      exact Nat.le_add_right ..
    · rw [runObserved, if_neg exhausted] at computed
      have gained : (listed events progress.turn.1 progress.turn.2.machine).length =
          events.length + 1 := List.length_append
      cases outcome : progress.turn.1.stop? with
      | some stop =>
        simp only [outcome, Option.some.injEq, Prod.mk.injEq] at computed
        obtain ⟨rfl, -⟩ := computed
        omega
      | none =>
        simp only [outcome] at computed
        have bounded := inductionHypothesis computed
        omega

/-- A turn may be listed behind spaced events if it makes no offer directly after a
declined one. -/
theorem spaced_listed {events : List Event} {progress : Progress σ} (machine : Machine σ)
    (spaced : events.IsChain Event.Spaced)
    (idle : ∀ event ∈ events.getLast?, event.isDeclined = true →
      progress.scheduler.pending = false) :
    (listed events progress.turn.1 machine).IsChain Event.Spaced := by
  refine List.isChain_append.mpr ⟨spaced, List.isChain_singleton _, ?_⟩
  intro last isLast event isNext
  obtain rfl : progress.turn.1 = event := Option.some.inj isNext
  intro declined
  rw [isOffer_turn]
  exact idle last isLast declined

/-- The events of a run are spaced. Induction carries that none is pending if the event
listed last is a declined offer. -/
theorem Run.spaced {events after : List Event} {progress : Progress σ} {advance : Advance σ}
    (run : Run listed events progress after advance) (spaced : events.IsChain Event.Spaced)
    (idle : ∀ event ∈ events.getLast?, event.isDeclined = true →
      progress.scheduler.pending = false) : after.IsChain Event.Spaced := by
  induction run with
  | spent => exact spaced
  | stopped events progress stop _ _ => exact spaced_listed _ spaced idle
  | turned events progress inCredit going rest inductionHypothesis =>
    refine inductionHypothesis (spaced_listed _ spaced idle) ?_
    intro event isLast declined
    obtain rfl : progress.turn.1 = event := by
      rw [listed, List.getLast?_concat] at isLast
      exact Option.some.inj isLast
    exact ((turn_of_going progress going).of_declined declined).2.1

end Progress

namespace Scheduler

open Progress

/-- An advance ends after at most twice the credit that is there to begin with, and one
more, turns, whatever the timing, the scheduler, the duration and the host, as long as
every opcode has a base cost. At each state that it comes through, a declined offer leaves
the credit as it is and everything else lowers it; and no offer comes directly after a
declined one. The table of the instruction set is as required, and so is any composition
with overrides that cost something. -/
theorem advance_terminates {σ : Type} [Host σ] :
    (.canonical : Table σ).Charging ∧
    (∀ (table composed : Table σ) (overrides : List (Descriptor σ)), table.Charging →
      (∀ entry ∈ overrides, 1 ≤ entry.cycles.toNat) →
      table.compose overrides = .ok composed → composed.Charging) ∧
    ∀ (scheduler : Scheduler) (machine : Machine σ) (elapsedNanos : Nat),
      machine.table.Charging →
      let start : Progress σ := { scheduler := scheduler.grant elapsedNanos, machine }
      let bound := 2 * start.scheduler.credit.toNat + 1
      ∃ events advance,
        scheduler.advanceObserved listed bound [] machine elapsedNanos = some (events, advance) ∧
        scheduler.advance bound machine elapsedNanos = some advance ∧
        events.length ≤ bound ∧ events.IsChain Event.Spaced ∧
        ∀ now, Reaches start now → 0 < now.scheduler.credit → now.turn.1.stop? = none →
          if now.turn.1.isDeclined then now.turn.2.scheduler.credit = now.scheduler.credit
          else now.turn.2.scheduler.credit < now.scheduler.credit := by
  refine ⟨Table.charging_canonical, fun _ _ _ charging costly => charging.compose costly, ?_⟩
  intro scheduler machine elapsedNanos charging start bound
  have flag := Bool.toNat_le start.scheduler.pending
  obtain ⟨events, advance, computed⟩ := exists_runObserved listed [] charging
    (show start.weight ≤ bound by simp only [weight]; omega)
  have unobserved : scheduler.advance bound machine elapsedNanos = some advance := by
    rw [Scheduler.advance, advanceObserved,
      runObserved_unobserved (fun _ _ _ => ()) listed bound () [] start, computed]
    rfl
  refine ⟨events, advance, computed, unobserved, by simpa using length_listed computed, ?_, ?_⟩
  · exact (run_of_runObserved computed).spaced List.isChain_nil (by simp)
  · intro now reaches _ going
    have turn := turn_of_going now going
    have charging : now.machine.table.Charging := by
      rw [reaches.table]
      exact charging
    split
    · rename_i declined
      exact (turn.of_declined declined).2.2
    · rename_i effective
      exact turn.credit_lt charging (by simpa using effective)

/-- A half frame of no cycles, an offer pending from the beginning, and a machine that does
nothing for one cycle at a time with its interrupts disabled: of the twenty-one turns that
ten cycles of credit allow, twenty are taken. -/
theorem advance_terminates_crowded :
    let quick : Descriptor Board := { Descriptor.canonical 0x00 with cycles := 1 }
    let table : Table Board := Table.canonical.install quick
    let machine : Machine Board := .start table Board.blank
    let scheduler : Scheduler :=
      { timing := { clockRate := 1000, frameRate := 1000 }, pending := true }
    scheduler.timing.cyclesPerHalfFrame = 0 ∧ Table.canonical.compose [quick] = .ok table ∧
      machine.table.Charging ∧
      ∃ events advance,
        scheduler.advanceObserved listed 21 [] machine 10000000 = some (events, advance) ∧
        events.length = 20 ∧ events.IsChain Event.Spaced := by
  intro quick table machine scheduler
  obtain ⟨canonical, composition, ends⟩ := @advance_terminates Board _
  have composes : Table.canonical.compose [quick] = .ok table := rfl
  have costly : ∀ entry ∈ [quick], 1 ≤ entry.cycles.toNat := by
    intro entry member
    obtain rfl : entry = quick := List.mem_singleton.mp member
    decide
  have charging : machine.table.Charging :=
    composition .canonical table [quick] canonical costly composes
  have turns : (scheduler.advanceObserved listed 21 [] machine 10000000).map
      (fun ended => ended.1.length) = some 20 := by decide +kernel
  have credit : 2 * (scheduler.grant 10000000).credit.toNat + 1 = 21 := by decide +kernel
  obtain ⟨events, advance, computed, -, -, spaced, -⟩ :=
    ends scheduler machine 10000000 charging
  rw [credit] at computed
  rw [computed] at turns
  exact ⟨by decide, composes, charging, events, advance, computed, Option.some.inj turns, spaced⟩

end Scheduler

end Intel8080
