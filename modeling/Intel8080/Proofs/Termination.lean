import Intel8080.Proofs.Cost
import Intel8080.Proofs.Series

/-!
# Advances come to an end

The credit alone does not bound the number of turns, since a declined offer costs
nothing. But no boundary is offered twice. Twice the credit, and one more while an
offer is pending, gets smaller with every turn, as long as every entry of the table
has a base cost.
-/

namespace Intel8080

/-- Every opcode has a base cost. -/
def Table.Charging {σ : Type} (table : Table σ) : Prop :=
  ∀ opcode, 1 ≤ (table.get opcode).cycles.toNat

theorem Table.charging_canonical {σ : Type} [Host σ] : (canonical : Table σ).Charging := by
  intro opcode
  have least := (Instruction.decode opcode 0 0).four_le_cycles
  rw [get_canonical]
  exact Nat.le_trans (by decide) least

/-- An interrupt was offered in vain. -/
def Event.isDeclined : Event → Bool
  | offered _ (.ok false) => true
  | _ => false

namespace Progress

variable {σ ω : Type}

/-- A bound on the turns that can follow. -/
def weight (progress : Progress σ) : Nat :=
  2 * progress.scheduler.credit.toNat + progress.scheduler.pending.toNat

variable [Host σ]

/-- A completed step costs at least the base cost. -/
theorem one_le_of_charging {machine after : Machine σ} {cost : UInt8}
    (charging : machine.table.Charging) (completed : machine.step = .ok cost after) :
    1 ≤ cost.toNat := by
  obtain ⟨extra, _, _, _, charged, _, _, _, _⟩ := Machine.step_ok completed
  have base := charging machine.fetch.opcode
  have bounded := (machine.table.get machine.fetch.opcode).cycles.toNat_lt
  rw [charged, toNat_saturatingAdd]
  omega

/-- A declined offer was pending and is pending no more, and the credit is the same. -/
theorem Turn.of_declined {now next : Progress σ} {event : Event} (turn : Turn now event next)
    (declined : event.isDeclined = true) :
    now.scheduler.pending = true ∧ next.scheduler.pending = false ∧
      next.scheduler.credit = now.scheduler.credit := by
  cases turn with
  | stepped => cases declined
  | accepted => cases declined
  | declined machine due _ => exact ⟨due, rfl, rfl⟩

/-- Any other turn lowers the credit. -/
theorem Turn.credit_lt {now next : Progress σ} {event : Event} (turn : Turn now event next)
    (charging : now.machine.table.Charging) (effective : event.isDeclined = false) :
    next.scheduler.credit < now.scheduler.credit := by
  cases turn with
  | stepped cost machine idle completed =>
    have least := one_le_of_charging charging completed
    rw [Scheduler.credit_spend]
    omega
  | accepted machine due entered =>
    rw [Machine.interrupt_cost entered, Scheduler.credit_spend]
    simp only [Scheduler.takeOffer]
    omega
  | declined => cases effective

/-- A turn taken in credit makes the weight smaller. Lower credit counts twice, for the offer
that may be pending afterwards. -/
theorem Turn.weight_lt {progress next : Progress σ} {event : Event}
    (turn : Turn progress event next) (inCredit : 0 < progress.scheduler.credit)
    (charging : progress.machine.table.Charging) : next.weight < progress.weight := by
  cases outcome : event.isDeclined with
  | true =>
    obtain ⟨due, idle, same⟩ := turn.of_declined outcome
    simp only [weight, due, idle, same, Bool.toNat_true, Bool.toNat_false]
    omega
  | false =>
    have lower := turn.credit_lt charging outcome
    have flag := Bool.toNat_le next.scheduler.pending
    simp only [weight]
    omega

/-- As many turns as the weight allows are enough. Induction is on the limit: each turn
uses up one turn of it and at least as much of the weight. -/
theorem exists_runObserved (observe : ω → Event → Machine σ → ω) {limit : Nat} (seen : ω)
    {progress : Progress σ} (charging : progress.machine.table.Charging)
    (enough : progress.weight ≤ limit) :
    ∃ after advance, runObserved observe limit seen progress = some (after, advance) := by
  induction limit generalizing seen progress with
  | zero =>
    have exhausted : progress.scheduler.credit ≤ 0 := by
      simp only [weight] at enough
      omega
    exact ⟨_, _, runObserved_of_spent 0 seen exhausted⟩
  | succ limit inductionHypothesis =>
    by_cases exhausted : progress.scheduler.credit ≤ 0
    · exact ⟨_, _, runObserved_of_spent _ seen exhausted⟩
    · have inCredit : 0 < progress.scheduler.credit := by omega
      cases outcome : progress.turn.1.stop? with
      | some stop =>
        simp only [runObserved, if_neg exhausted, outcome]
        exact ⟨_, _, rfl⟩
      | none =>
        have turn := turn_of_going progress outcome
        have smaller := turn.weight_lt inCredit charging
        have charging : progress.turn.2.machine.table.Charging := by
          rw [turn.table]
          exact charging
        simp only [runObserved, if_neg exhausted, outcome]
        exact inductionHypothesis _ charging (by omega)

/-- Every run comes to an end if every opcode has a base cost. -/
theorem exists_run (observe : ω → Event → Machine σ → ω) (seen : ω) (progress : Progress σ)
    (charging : progress.machine.table.Charging) :
    ∃ after advance, Run observe seen progress after advance := by
  obtain ⟨after, advance, computed⟩ :=
    exists_runObserved observe seen charging (Nat.le_refl progress.weight)
  exact ⟨after, advance, run_of_runObserved computed⟩

/-- A condition on timing and machine under which no turn stops the machine and every
opcode has a base cost, and which every turn preserves. -/
structure Lasting (Safe : Timing → Machine σ → Prop) : Prop where
  going : ∀ progress : Progress σ, Safe progress.scheduler.timing progress.machine →
    progress.turn.1.stop? = none
  charging : ∀ timing machine, Safe timing machine → machine.table.Charging
  turn : ∀ (progress : Progress σ) event next, Turn progress event next →
    Safe progress.scheduler.timing progress.machine → Safe next.scheduler.timing next.machine

variable {Safe : Timing → Machine σ → Prop}

/-- Under a lasting condition a run returns, and the condition holds at its end. -/
theorem Run.returns {observe : ω → Event → Machine σ → ω} {seen after : ω}
    {progress : Progress σ} {advance : Advance σ}
    (run : Run observe seen progress after advance) (lasting : Lasting Safe)
    (safe : Safe progress.scheduler.timing progress.machine) :
    Safe advance.scheduler.timing advance.machine ∧ ∃ tick, advance.result = .ok tick := by
  have preserved : ∀ (seen : ω) (progress : Progress σ) event next,
      Safe progress.scheduler.timing progress.machine → 0 < progress.scheduler.credit →
      Turn progress event next → Safe next.scheduler.timing next.machine :=
    fun _ progress event next safe _ turn => lasting.turn progress event next turn safe
  cases returned : advance.result with
  | ok tick =>
    obtain ⟨kept, -⟩ := run.invariant
      (fun _ progress => Safe progress.scheduler.timing progress.machine) preserved safe returned
    exact ⟨kept, tick, rfl⟩
  | error stop =>
    obtain ⟨_, last, kept, -, halting, -, -⟩ := run.stopping_turn
      (fun _ progress => Safe progress.scheduler.timing progress.machine) preserved safe returned
    rw [lasting.going last kept] at halting
    cases halting

/-- Under a lasting condition every series of advances returns. -/
theorem Lasting.exists_series (lasting : Lasting Safe) (observe : ω → Event → Machine σ → ω)
    (seen : ω) (progress : Progress σ) (durations : List Nat)
    (safe : Safe progress.scheduler.timing progress.machine) :
    ∃ after scheduler machine tick,
      Series observe Scheduler.grant seen progress durations after
        ⟨scheduler, machine, .ok tick⟩ := by
  induction durations generalizing seen progress with
  | nil => exact ⟨seen, _, _, _, .finished seen progress⟩
  | cons duration rest inductionHypothesis =>
    have charging := lasting.charging _ _ safe
    obtain ⟨middle, ⟨scheduler, machine, result⟩, run⟩ := exists_run observe seen
      ⟨progress.scheduler.grant duration, progress.machine, {}⟩ charging
    obtain ⟨kept, tick, rfl⟩ := run.returns lasting safe
    obtain ⟨after, last, stopped, total, others⟩ :=
      inductionHypothesis middle ⟨scheduler, machine, progress.tick + tick⟩ kept
    exact ⟨after, last, stopped, total, .returned run others⟩

end Progress

end Intel8080
