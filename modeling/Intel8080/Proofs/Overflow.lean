import Intel8080.Checked
import Intel8080.Proofs.Rejections

/-!
# Where an advance overflows

Checked arithmetic that comes to a result has computed the result of numbers without bounds.
So an advance in checked arithmetic is the advance, or an overflow. Which of the two is decided
at each state that the advance comes through, and by two of its counts alone: an offer that is
due must be one of fewer than two to the thirty-second, and the phase must have room for what
the turn runs. The credit cannot overflow, since it is spent only while there is some; and no
more cycles are run than were taken off the credit.

The phase matters only if the half frame is shorter than an instruction. Then one boundary is
crossed at a time, and what was run beyond it stays in the phase, which grows.
-/

namespace Intel8080

section Numbers

theorem unsigned_of_lt {bits value : Nat} (fits : value < 2 ^ bits) :
    unsigned bits value = pure value := by
  have bounded : (value : Int) < 2 ^ bits := by exact_mod_cast fits
  rw [unsigned, if_pos ⟨Int.natCast_nonneg value, bounded⟩, Int.toNat_natCast]

theorem unsigned_add {bits left right : Nat} (fits : left + right < 2 ^ bits) :
    unsigned bits (left + right : Int) = pure (left + right) := by
  rw [← Int.natCast_add]
  exact unsigned_of_lt fits

theorem unsigned_sub {bits left right : Nat} (ordered : right ≤ left) (fits : left < 2 ^ bits) :
    unsigned bits (left - right : Int) = pure (left - right) := by
  rw [← Int.natCast_sub ordered]
  exact unsigned_of_lt (by omega)

theorem signed_of_bounds {bits : Nat} {value : Int} (least : -2 ^ (bits - 1) ≤ value)
    (most : value < 2 ^ (bits - 1)) : signed bits value = pure value :=
  if_pos ⟨least, most⟩

/-- A number that passed the check is unchanged and fits. -/
theorem unsigned_sound {bits number : Nat} {value : Int}
    (passed : unsigned bits value = .ok number) : (number : Int) = value ∧ number < 2 ^ bits := by
  rw [unsigned] at passed
  split at passed
  · rename_i fits
    obtain rfl := Except.ok.inj passed
    have unchanged : (value.toNat : Int) = value := Int.toNat_of_nonneg fits.1
    have bounded : (value.toNat : Int) < 2 ^ bits := unchanged.symm ▸ fits.2
    exact ⟨unchanged, by exact_mod_cast bounded⟩
  · cases passed

theorem signed_sound {bits : Nat} {value number : Int} (passed : signed bits value = .ok number) :
    number = value := by
  rw [signed] at passed
  split at passed
  · exact (Except.ok.inj passed).symm
  · cases passed

/-- A computation with a result has had one in its first part. -/
theorem of_bind_eq_ok {α β : Type} {first : Except Overflow α} {next : α → Except Overflow β}
    {result : β} (computed : (first >>= next) = .ok result) :
    ∃ value, first = .ok value ∧ next value = .ok result := by
  cases first with
  | error overflow => cases computed
  | ok value => exact ⟨value, rfl, computed⟩

end Numbers

/-- The cycles that an event takes off the credit, if it takes any: those of a completed
instruction, or of an accepted interrupt. -/
def Event.cost? : Event → Option Nat
  | stepped _ (.ok cost) => some cost.toNat
  | offered _ (.ok true) => some 11
  | _ => none

theorem Event.cost?_le {event : Event} {cost : Nat} (charged : event.cost? = some cost) :
    cost ≤ 255 := by
  cases event with
  | refused stop => cases charged
  | stepped fetched result =>
    cases result with
    | error stop => cases charged
    | ok spent =>
      obtain rfl := Option.some.inj charged
      exact Nat.le_of_lt_succ spent.toNat_lt
  | offered vector result =>
    rcases result with stop | (_ | _)
    · cases charged
    · cases charged
    · obtain rfl := Option.some.inj charged
      decide

namespace Scheduler

variable {scheduler : Scheduler} {elapsedNanos : Nat}

/-- A budget that is too large for the credit is cut to the largest. -/
theorem cut_eq_min (cycles : Nat) :
    (signed 64 cycles).toOption.getD (2 ^ 63 - 1) = min (cycles : Int) (2 ^ 63 - 1) := by
  rw [signed]
  split
  · rename_i fits
    exact (min_eq_left (show (cycles : Int) ≤ 2 ^ 63 - 1 by omega)).symm
  · rename_i large
    exact (min_eq_right (show (2 ^ 63 - 1 : Int) ≤ cycles by omega)).symm

/-- A duration whose units fit has the budget that it has without bounds. -/
theorem budgetChecked_of_lt (small : scheduler.scaled elapsedNanos < 2 ^ 128) :
    scheduler.budgetChecked elapsedNanos =
      pure (min ↑(scheduler.scaled elapsedNanos / 1000000000) (2 ^ 63 - 1),
        scheduler.scaled elapsedNanos % 1000000000) := by
  have product : unsigned 128 (elapsedNanos * scheduler.timing.clockRate) =
      pure (elapsedNanos * scheduler.timing.clockRate) := by
    rw [← Int.natCast_mul]
    exact unsigned_of_lt (lt_of_le_of_lt (Nat.le_add_right ..) small)
  have sum : unsigned 128 (↑(elapsedNanos * scheduler.timing.clockRate) + scheduler.fraction) =
      pure (scheduler.scaled elapsedNanos) := unsigned_add small
  rw [Scheduler.budgetChecked, product, pure_bind, sum, pure_bind]
  simp only [cut_eq_min, Timing.nanosPerSecond]

/-- And it is granted as it is without bounds. -/
theorem grantChecked_of_lt (small : scheduler.scaled elapsedNanos < 2 ^ 128)
    (owed : -2 ^ 63 ≤ scheduler.credit) :
    scheduler.grantChecked elapsedNanos = pure (scheduler.grant elapsedNanos) := by
  have sum : saturate 64 (scheduler.credit +
      min ↑(scheduler.scaled elapsedNanos / 1000000000) (2 ^ 63 - 1)) =
        (scheduler.grant elapsedNanos).credit := by
    simp only [saturate, Scheduler.grant, Scheduler.budget, maxCredit, Timing.nanosPerSecond]
    omega
  rw [Scheduler.grantChecked, budgetChecked_of_lt small, pure_bind]
  simp only [sum]
  rfl

section Spending

variable {tick : Tick} {cost : Nat}

/-- What is spent in checked arithmetic is spent, and the phase had room for it. -/
theorem spendChecked_sound {outcome : Scheduler × Tick} (small : cost < 2 ^ 63)
    (computed : scheduler.spendChecked tick cost = .ok outcome) :
    outcome = (scheduler.spend cost, { tick with cycles := tick.cycles + cost }) ∧
      scheduler.halfFrame + cost < 2 ^ 64 := by
  have read : Int.bmod cost (2 ^ 64) = cost := Int.bmod_eq_of_le (by omega) (by omega)
  rw [spendChecked, read] at computed
  obtain ⟨credit, spent, computed⟩ := of_bind_eq_ok computed
  obtain ⟨cycles, counted, computed⟩ := of_bind_eq_ok computed
  obtain ⟨halfFrame, carried, computed⟩ := of_bind_eq_ok computed
  obtain rfl := signed_sound spent
  obtain ⟨sum, -⟩ := unsigned_sound counted
  obtain ⟨phase, fits⟩ := unsigned_sound carried
  obtain rfl : cycles = tick.cycles + cost := by omega
  obtain rfl : halfFrame = scheduler.halfFrame + cost := by omega
  refine ⟨?_, fits⟩
  rw [spend]
  split at computed
  · rename_i crossed
    obtain ⟨rest, remains, computed⟩ := of_bind_eq_ok computed
    obtain ⟨difference, -⟩ := unsigned_sound remains
    obtain rfl : rest = scheduler.halfFrame + cost - scheduler.timing.pace := by omega
    rw [if_pos crossed]
    exact (Except.ok.inj computed).symm
  · rename_i within
    rw [if_neg within]
    exact (Except.ok.inj computed).symm

/-- While there is credit, what fits the phase can be spent. -/
theorem spendChecked_of_fits (inCredit : 0 < scheduler.credit)
    (most : scheduler.credit ≤ maxCredit) (small : cost ≤ 255)
    (counted : tick.cycles + cost < 2 ^ 64) (fits : scheduler.halfFrame + cost < 2 ^ 64) :
    scheduler.spendChecked tick cost =
      pure (scheduler.spend cost, { tick with cycles := tick.cycles + cost }) := by
  have read : Int.bmod cost (2 ^ 64) = cost := Int.bmod_eq_of_le (by omega) (by omega)
  have credit : signed 64 (scheduler.credit - cost) = pure (scheduler.credit - cost) := by
    rw [maxCredit] at most
    exact signed_of_bounds (by omega) (by omega)
  rw [spendChecked, read, credit, pure_bind, unsigned_add counted, pure_bind,
    unsigned_add fits, pure_bind, spend]
  split
  · rename_i crossed
    rw [unsigned_sub crossed fits]
    rfl
  · rfl

end Spending

end Scheduler

namespace Progress

open Scheduler

variable {σ : Type} [Host σ] {progress : Progress σ}

/-- The offer that is due, if there is one, can be counted. -/
def Countable (progress : Progress σ) : Prop :=
  progress.scheduler.pending = true → progress.tick.presented + 1 < 2 ^ 32

/-- The phase has room for what an event runs. -/
def RoomFor (progress : Progress σ) (event : Event) : Prop :=
  ∀ cost, event.cost? = some cost → progress.scheduler.halfFrame + cost < 2 ^ 64

omit [Host σ] in
/-- There is always room for an event that takes nothing off the credit. -/
theorem roomFor_of_free {event : Event} (free : event.cost? = none) : progress.RoomFor event := by
  intro cost charged
  rw [free] at charged
  cases charged

/-- The next turn overflows no count: its offer can be counted, and the phase has room. -/
structure Fits (progress : Progress σ) : Prop where
  countable : progress.Countable
  room : progress.RoomFor progress.turn.1

/-- An offer that checked arithmetic has a result for is the offer, and it was counted. -/
theorem offerChecked_sound {outcome : Event × Progress σ}
    (computed : progress.offerChecked = .ok outcome) :
    outcome = progress.offer ∧ progress.tick.presented + 1 < 2 ^ 32 ∧
      progress.RoomFor progress.offer.1 := by
  obtain ⟨scheduler, machine, tick⟩ := progress
  rw [offerChecked] at computed
  obtain ⟨presented, counted, computed⟩ := of_bind_eq_ok computed
  obtain ⟨sum, fits⟩ := unsigned_sound counted
  obtain rfl : presented = tick.presented + 1 := by omega
  cases answer : machine.interrupt scheduler.vector with
  | ok taken after =>
    cases taken with
    | true =>
      simp only [answer] at computed
      obtain ⟨accepted, taken, computed⟩ := of_bind_eq_ok computed
      obtain ⟨total, -⟩ := unsigned_sound taken
      obtain rfl : accepted = tick.accepted + 1 := by omega
      rw [Machine.interrupt_cost answer] at computed
      obtain ⟨spent, spends, computed⟩ := of_bind_eq_ok computed
      obtain ⟨rfl, room⟩ := spendChecked_sound (by decide) spends
      simp only [offer, answer, Machine.interrupt_cost answer]
      refine ⟨(Except.ok.inj computed).symm, fits, ?_⟩
      intro cost charged
      obtain rfl := Option.some.inj charged
      exact room
    | false =>
      simp only [answer] at computed
      simp only [offer, answer]
      exact ⟨(Except.ok.inj computed).symm, fits, roomFor_of_free rfl⟩
  | error stop after =>
    simp only [answer] at computed
    simp only [offer, answer]
    exact ⟨(Except.ok.inj computed).symm, fits, roomFor_of_free rfl⟩

/-- An instruction that checked arithmetic has a result for is the instruction. -/
theorem executeChecked_sound {outcome : Event × Progress σ}
    (computed : progress.executeChecked = .ok outcome) :
    outcome = progress.execute ∧ progress.RoomFor progress.execute.1 := by
  obtain ⟨scheduler, machine, tick⟩ := progress
  rw [executeChecked] at computed
  cases status : machine.status with
  | halted stop =>
    simp only [status] at computed
    simp only [execute, status]
    exact ⟨(Except.ok.inj computed).symm, roomFor_of_free rfl⟩
  | running =>
    cases performed : machine.perform machine.fetch with
    | ok cost after =>
      simp only [status, performed] at computed
      obtain ⟨spent, spends, computed⟩ := of_bind_eq_ok computed
      have small := cost.toNat_lt
      obtain ⟨rfl, room⟩ := spendChecked_sound (by omega) spends
      simp only [execute, status, performed]
      refine ⟨(Except.ok.inj computed).symm, ?_⟩
      intro cost charged
      obtain rfl := Option.some.inj charged
      exact room
    | error stop after =>
      simp only [status, performed] at computed
      simp only [execute, status, performed]
      exact ⟨(Except.ok.inj computed).symm, roomFor_of_free rfl⟩

/-- A turn that checked arithmetic has a result for is the turn, and it fits. -/
theorem turnChecked_sound {outcome : Event × Progress σ}
    (computed : progress.turnChecked = .ok outcome) :
    outcome = progress.turn ∧ progress.Fits := by
  by_cases due : progress.scheduler.pending = true
  · have offers : progress.turn = progress.offer := if_pos due
    rw [turnChecked, if_pos due] at computed
    obtain ⟨same, counted, room⟩ := offerChecked_sound computed
    rw [← offers] at same room
    exact ⟨same, fun _ => counted, room⟩
  · have executes : progress.turn = progress.execute := if_neg due
    rw [turnChecked, if_neg due] at computed
    obtain ⟨same, room⟩ := executeChecked_sound computed
    rw [← executes] at same room
    exact ⟨same, fun offered => absurd offered due, room⟩

section Fitting

variable (inCredit : 0 < progress.scheduler.credit)
  (most : progress.scheduler.credit ≤ maxCredit) (cycles : progress.tick.cycles + 255 < 2 ^ 64)

include inCredit most cycles

theorem offerChecked_of_fits (accepted : progress.tick.accepted ≤ progress.tick.presented)
    (counted : progress.tick.presented + 1 < 2 ^ 32) (room : progress.RoomFor progress.offer.1) :
    progress.offerChecked = pure progress.offer := by
  obtain ⟨scheduler, machine, tick⟩ := progress
  have presented : unsigned 32 (tick.presented + 1) = pure (tick.presented + 1) :=
    unsigned_add counted
  have taken : unsigned 32 (tick.accepted + 1) = pure (tick.accepted + 1) :=
    unsigned_add (lt_of_le_of_lt (Nat.add_le_add_right accepted 1) counted)
  simp only [offerChecked, offer, presented, pure_bind] at room ⊢
  cases answer : machine.interrupt scheduler.vector with
  | ok accepts after =>
    cases accepts with
    | true =>
      have phase : scheduler.takeOffer.halfFrame + 11 < 2 ^ 64 :=
        room 11 (by rw [answer]; rfl)
      have spent := @spendChecked_of_fits scheduler.takeOffer
        ⟨tick.cycles, tick.presented + 1, tick.accepted + 1⟩ 11 inCredit most (by decide)
        (lt_of_le_of_lt (Nat.add_le_add_left (by decide) _) cycles) phase
      simp only [Machine.interrupt_cost answer, taken, pure_bind, spent]
    | false => rfl
  | error stop after => rfl

theorem executeChecked_of_fits (room : progress.RoomFor progress.execute.1) :
    progress.executeChecked = pure progress.execute := by
  obtain ⟨scheduler, machine, tick⟩ := progress
  simp only [executeChecked, execute] at room ⊢
  cases status : machine.status with
  | halted stop => rfl
  | running =>
    simp only [status] at room ⊢
    cases performed : machine.perform machine.fetch with
    | ok cost after =>
      have small : cost.toNat ≤ 255 := Nat.le_of_lt_succ cost.toNat_lt
      have phase : scheduler.halfFrame + cost.toNat < 2 ^ 64 :=
        room cost.toNat (by rw [performed]; rfl)
      have spent := @spendChecked_of_fits scheduler tick cost.toNat inCredit most small
        (lt_of_le_of_lt (Nat.add_le_add_left small _) cycles) phase
      simp only [spent, pure_bind]
    | error stop after => rfl

/-- While there is credit, a turn that fits has a result in checked arithmetic. -/
theorem turnChecked_of_fits (accepted : progress.tick.accepted ≤ progress.tick.presented)
    (fits : progress.Fits) : progress.turnChecked = pure progress.turn := by
  obtain ⟨countable, room⟩ := fits
  by_cases due : progress.scheduler.pending = true
  · have offers : progress.turn = progress.offer := if_pos due
    rw [offers] at room ⊢
    rw [turnChecked, if_pos due]
    exact offerChecked_of_fits inCredit most cycles accepted (countable due) room
  · have executes : progress.turn = progress.execute := if_neg due
    rw [executes] at room ⊢
    rw [turnChecked, if_neg due]
    exact executeChecked_of_fits inCredit most cycles room

end Fitting

/-- A condition holds at every state in credit that an advance comes through. -/
def Throughout (condition : Progress σ → Prop) (start : Progress σ) : Prop :=
  ∀ now, Reaches start now → 0 < now.scheduler.credit → condition now

section Throughout

variable {condition other : Progress σ → Prop} {start : Progress σ}

theorem Throughout.imp (holds : Throughout condition start)
    (implies : ∀ now, condition now → other now) : Throughout other start :=
  fun now reaches inCredit => implies now (holds now reaches inCredit)

/-- Without credit an advance comes through no state. -/
theorem throughout_of_spent (exhausted : start.scheduler.credit ≤ 0) :
    Throughout condition start := by
  intro now reaches inCredit
  obtain rfl | ⟨_, ⟨unspent, -⟩, -⟩ := reaches.cases_head
  · omega
  · omega

/-- In credit it comes through the first state, and if the turn there stops nothing, through
those that the rest comes through. -/
theorem throughout_iff (inCredit : 0 < start.scheduler.credit) :
    Throughout condition start ↔
      condition start ∧ (start.turn.1.stop? = none → Throughout condition start.turn.2) := by
  constructor
  · intro holds
    refine ⟨holds start .refl inCredit, fun going now reaches => ?_⟩
    exact holds now (.head ⟨inCredit, going, rfl⟩ reaches)
  · rintro ⟨here, later⟩ now reaches unspent
    obtain rfl | ⟨next, ⟨-, going, rfl⟩, further⟩ := reaches.cases_head
    · exact here
    · exact later going now further unspent

end Throughout

section Runs

variable {start now : Progress σ}

theorem Turn.accepted_le {event : Event} {next : Progress σ} (turn : Turn now event next)
    (counted : now.tick.accepted ≤ now.tick.presented) :
    next.tick.accepted ≤ next.tick.presented := by
  cases turn with
  | stepped => exact counted
  | accepted => exact Nat.add_le_add_right counted 1
  | declined => exact Nat.le_add_right_of_le counted

/-- No more offers are accepted than made. -/
theorem Reaches.accepted_le (reaches : Reaches start now)
    (counted : start.tick.accepted ≤ start.tick.presented) :
    now.tick.accepted ≤ now.tick.presented := by
  induction reaches with
  | refl => exact counted
  | tail _ follows inductionHypothesis => exact follows.turn.accepted_le inductionHypothesis

/-- Where checked arithmetic has a result, it is that of numbers without bounds, and if the
advance ended, every turn on the way there fitted. -/
theorem runChecked_sound {limit : Nat} {outcome : Option (Advance σ)}
    (computed : runChecked limit start = .ok outcome) :
    (runObserved (fun _ _ _ => ()) limit () start).map Prod.snd = outcome ∧
      (outcome.isSome → Throughout Fits start) := by
  induction limit generalizing start with
  | zero =>
    rw [runChecked] at computed
    rw [runObserved]
    split at computed
    · rename_i exhausted
      rw [if_pos exhausted]
      exact ⟨Except.ok.inj computed, fun _ => throughout_of_spent exhausted⟩
    · rename_i unspent
      obtain rfl := Except.ok.inj computed
      rw [if_neg unspent]
      exact ⟨rfl, fun ended => absurd ended Bool.false_ne_true⟩
  | succ limit inductionHypothesis =>
    rw [runChecked] at computed
    rw [runObserved]
    split at computed
    · rename_i exhausted
      rw [if_pos exhausted]
      exact ⟨Except.ok.inj computed, fun _ => throughout_of_spent exhausted⟩
    · rename_i unspent
      have inCredit : 0 < start.scheduler.credit := by omega
      obtain ⟨turned, result, computed⟩ := of_bind_eq_ok computed
      obtain ⟨rfl, here⟩ := turnChecked_sound result
      rw [if_neg unspent, throughout_iff inCredit]
      cases outcome : start.turn.1.stop? with
      | some stop =>
        simp only [outcome] at computed ⊢
        obtain rfl := Except.ok.inj computed
        exact ⟨rfl, fun _ => ⟨here, fun going => absurd going (Option.some_ne_none stop)⟩⟩
      | none =>
        simp only [outcome] at computed ⊢
        obtain ⟨same, later⟩ := inductionHypothesis computed
        exact ⟨same, fun ended => ⟨here, fun _ => later ended⟩⟩

/-- Where every turn fits, checked arithmetic has a result. Induction is on the limit and goes
from one state of the advance to the next; no state is further in cycles than the credit that
was there in the beginning. -/
theorem Reaches.runChecked_of_fits (reaches : Reaches start now)
    (fresh : start.tick = {}) (most : start.scheduler.credit ≤ maxCredit)
    (fits : Throughout Fits start) (limit : Nat) :
    runChecked limit now = pure ((runObserved (fun _ _ _ => ()) limit () now).map Prod.snd) := by
  induction limit generalizing now with
  | zero =>
    rw [runChecked, runObserved]
    split <;> rfl
  | succ limit inductionHypothesis =>
    rw [runChecked, runObserved]
    split
    · rfl
    · rename_i unspent
      have inCredit : 0 < now.scheduler.credit := by omega
      have account := reaches.account
      have begun : start.tick.cycles = 0 := by rw [fresh]
      have accepted := reaches.accepted_le (by rw [fresh])
      rw [maxCredit] at most
      have turned := turnChecked_of_fits inCredit (by rw [maxCredit]; omega) (by omega) accepted
        (fits now reaches inCredit)
      rw [turned, pure_bind]
      cases outcome : now.turn.1.stop? with
      | some stop => simp only [outcome, Option.map_some]
      | none =>
        simp only [outcome]
        exact inductionHypothesis (reaches.tail ⟨inCredit, outcome, rfl⟩)

end Runs

end Progress

end Intel8080
