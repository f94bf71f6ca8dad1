import Intel8080.Proofs.Offers
import Intel8080.Proofs.Overflow

/-!
# Arithmetic in range

Checked arithmetic gives the advance that numbers without bounds give, if the clock is slow
enough and an instruction crosses one boundary at most.

What a grant needs is that the longest duration fits together with the clock rate. What turns
need is the invariant: the credit is overdrawn by less than the dearest instruction, the phase
stays below the half frame, and cycles are only ever moved from the credit to the tick. These
hold between calls, too, however a call ended.
-/

namespace Intel8080

/-- A half frame is no longer than a second. -/
theorem Timing.cyclesPerHalfFrame_le (timing : Timing) :
    timing.cyclesPerHalfFrame ≤ timing.clockRate :=
  le_trans (Nat.div_le_self ..) (Nat.div_le_self ..)

namespace Scheduler

/-- The longest duration in nanoseconds: one nanosecond short of as many seconds as sixty-four
bits can count. -/
def longest : Nat := 2 ^ 64 * Timing.nanosPerSecond - 1

/-- A scheduler that was given the timing and has been used for any number of advances, of any
machines with the table of the instruction set. Whether they returned or stopped makes no
difference. -/
inductive Employed (timing : Timing) : Scheduler → Prop where
  | fresh : Employed timing { timing }
  | started {scheduler : Scheduler} (employed : Employed timing scheduler) (now : Nat) :
      Employed timing (scheduler.start now)
  | advanced {τ : Type} [Host τ] {scheduler : Scheduler} {machine : Machine τ}
      {elapsedNanos : Nat} {advance : Advance τ} (employed : Employed timing scheduler)
      (canonical : machine.table = .canonical) (fits : elapsedNanos ≤ longest)
      (advances : scheduler.Advances machine elapsedNanos advance) :
      Employed timing advance.scheduler

/-- Everything that a scheduler keeps is in range: besides what holds after every grant, the
debt is less than the dearest instruction, and the phase is less than a half frame. -/
structure InRange (timing : Timing) (scheduler : Scheduler) : Prop where
  rate : scheduler.timing = timing
  settled : scheduler.Settled
  owed : -17 ≤ scheduler.credit
  phase : scheduler.halfFrame < timing.cyclesPerHalfFrame

variable {timing : Timing} {scheduler : Scheduler}

theorem inRange_fresh (room : 18 ≤ timing.cyclesPerHalfFrame) :
    InRange timing { timing } where
  rate := rfl
  settled := ⟨show 0 < Timing.nanosPerSecond by decide, show (0 : Int) ≤ maxCredit by decide⟩
  owed := show (-17 : Int) ≤ 0 by decide
  phase := show 0 < timing.cyclesPerHalfFrame by omega

theorem InRange.grant (inRange : InRange timing scheduler) (elapsedNanos : Nat) :
    InRange timing (scheduler.grant elapsedNanos) where
  rate := inRange.rate
  settled := settled_grant scheduler elapsedNanos
  owed := by
    have owed := inRange.owed
    simp only [Scheduler.grant, maxCredit]
    omega
  phase := inRange.phase

theorem InRange.takeOffer (inRange : InRange timing scheduler) :
    InRange timing scheduler.takeOffer where
  rate := inRange.rate
  settled := inRange.settled.takeOffer
  owed := inRange.owed
  phase := inRange.phase

/-- Spending what an instruction costs crosses one boundary at most. -/
theorem InRange.spend {cost : Nat} (inRange : InRange timing scheduler)
    (room : 18 ≤ timing.cyclesPerHalfFrame) (inCredit : 0 < scheduler.credit)
    (bounded : cost ≤ 18) : InRange timing (scheduler.spend cost) where
  rate := (timing_spend scheduler cost).trans inRange.rate
  settled := inRange.settled.spend cost
  owed := by
    rw [credit_spend]
    omega
  phase := by
    have phase := inRange.phase
    simp only [Scheduler.spend, inRange.rate, Timing.pace_of_room room]
    split
    · simp only
      omega
    · simp only
      omega

/-- In the longest duration, at a clock rate that is low enough, there are few enough units. -/
theorem InRange.scaled_lt (inRange : InRange timing scheduler)
    (slow : timing.clockRate ≤ 18446744073) {elapsedNanos : Nat} (fits : elapsedNanos ≤ longest) :
    scheduler.scaled elapsedNanos < 2 ^ 128 := by
  have fraction : scheduler.fraction < 10 ^ 9 := inRange.settled.fraction
  have product : elapsedNanos * scheduler.timing.clockRate ≤ longest * 18446744073 :=
    Nat.mul_le_mul fits (inRange.rate ▸ slow)
  have room : longest * 18446744073 + 10 ^ 9 ≤ 2 ^ 128 := by decide
  rw [scaled]
  omega

theorem InRange.grantChecked (inRange : InRange timing scheduler)
    (slow : timing.clockRate ≤ 18446744073) {elapsedNanos : Nat} (fits : elapsedNanos ≤ longest) :
    scheduler.grantChecked elapsedNanos = pure (scheduler.grant elapsedNanos) := by
  have owed := inRange.owed
  exact grantChecked_of_lt (inRange.scaled_lt slow fits) (by omega)

/-- The half-frame boundaries of an advance when so many cycles have been run: the one that the
advance before left pending, since its offer is made and counted in this one, and those crossed
since. -/
def boundaries (scheduler : Scheduler) (cycles : Nat) : Nat :=
  scheduler.pending.toNat +
    (scheduler.halfFrame + cycles) / scheduler.timing.cyclesPerHalfFrame

/-- What is spent moves the phase, and a boundary for which an offer becomes pending accounts for
a whole half frame. -/
theorem phase_spend (scheduler : Scheduler) (cost : Nat) (idle : scheduler.pending = false) :
    (scheduler.spend cost).halfFrame +
      scheduler.timing.pace * (scheduler.spend cost).pending.toNat =
        scheduler.halfFrame + cost := by
  rw [Scheduler.spend]
  split
  · simp only [Bool.toNat_true]
    omega
  · simp only [idle, Bool.toNat_false]
    omega

end Scheduler

namespace Progress

open Scheduler

variable {σ : Type} [Host σ]

/-- What holds at every moment of an advance. What was run has been taken off the credit, and it
adds up to the phase and the boundaries that an offer was made for or is pending. -/
structure Sound (timing : Timing) (start now : Progress σ) : Prop where
  canonical : now.machine.table = .canonical
  inRange : now.scheduler.InRange timing
  account : now.scheduler.credit + now.tick.cycles = start.scheduler.credit
  phase : now.scheduler.halfFrame +
      timing.pace * (now.tick.presented + now.scheduler.pending.toNat) =
    start.scheduler.halfFrame + timing.pace * start.scheduler.pending.toNat + now.tick.cycles
  accepted : now.tick.accepted ≤ now.tick.presented

variable {timing : Timing} {start now next : Progress σ} {event : Event}

theorem Sound.turn (sound : Sound timing start now) (room : 18 ≤ timing.cyclesPerHalfFrame)
    (inCredit : 0 < now.scheduler.credit) (turn : Turn now event next) :
    Sound timing start next := by
  obtain ⟨canonical, inRange, account, phase, accepted⟩ := sound
  have table := turn.table.trans canonical
  have balance := turn.account.trans account
  -- A turn that spends is taken with no offer pending, so it can leave one for its own boundary.
  cases turn with
  | stepped cost machine idle completed =>
    obtain ⟨-, most, -⟩ := Machine.step_cost canonical completed
    have carried := phase_spend now.scheduler cost.toNat idle
    rw [inRange.rate] at carried
    rw [idle] at phase
    refine ⟨table, inRange.spend room inCredit most, balance, ?_, accepted⟩
    simp only [Nat.mul_add, Bool.toNat_false] at phase ⊢
    omega
  | accepted machine due entered =>
    have carried := phase_spend now.scheduler.takeOffer
      (machine.cpu.cycles - now.machine.cpu.cycles).toNat rfl
    rw [show now.scheduler.takeOffer.timing = timing from inRange.rate] at carried
    have cost := Machine.interrupt_cost entered
    rw [due] at phase
    have spent := inRange.takeOffer.spend room inCredit (cost.trans_le (by decide))
    refine ⟨table, spent, balance, ?_, Nat.add_le_add_right accepted 1⟩
    simp only [Nat.mul_add, Bool.toNat_true, Scheduler.takeOffer] at phase carried ⊢
    omega
  | declined machine due refused =>
    rw [due] at phase
    exact ⟨table, inRange.takeOffer, balance, phase, Nat.le_add_right_of_le accepted⟩

theorem Reaches.sound (reaches : Reaches start now) (room : 18 ≤ timing.cyclesPerHalfFrame)
    (sound : Sound timing start start) : Sound timing start now := by
  induction reaches with
  | refl => exact sound
  | tail _ follows inductionHypothesis =>
    exact inductionHypothesis.turn room follows.1 follows.turn

/-- An advance begins soundly. -/
theorem sound_start {scheduler : Scheduler} {machine : Machine σ}
    (canonical : machine.table = .canonical) (inRange : scheduler.InRange timing) :
    Sound timing ⟨scheduler, machine, {}⟩ ⟨scheduler, machine, {}⟩ where
  canonical := canonical
  inRange := inRange
  account := by simp
  phase := by simp
  accepted := le_refl _

/-- The cycles run are those taken off the credit. -/
theorem Sound.cycles_le (sound : Sound timing start now) (settled : start.scheduler.Settled) :
    now.tick.cycles ≤ maxCredit + 17 := by
  have account := sound.account
  have owed := sound.inRange.owed
  have most := settled.credit
  omega

/-- An offer was made for every boundary but the pending one: the phase is what remains when the
cycles are divided by the half frame. -/
theorem Sound.boundaries (sound : Sound timing start now) (room : 18 ≤ timing.cyclesPerHalfFrame)
    (rate : start.scheduler.timing = timing) :
    now.tick.presented + now.scheduler.pending.toNat =
      start.scheduler.boundaries now.tick.cycles := by
  have positive : 0 < timing.cyclesPerHalfFrame := by omega
  have phase := sound.phase
  rw [Timing.pace_of_room room] at phase
  obtain ⟨quotient, -⟩ := (Nat.div_mod_unique
    (a := start.scheduler.halfFrame + timing.cyclesPerHalfFrame * start.scheduler.pending.toNat +
      now.tick.cycles) positive).mpr ⟨phase, sound.inRange.phase⟩
  rw [Nat.add_right_comm, Nat.add_mul_div_left _ _ positive, Nat.add_comm] at quotient
  rw [Scheduler.boundaries, rate, quotient]

/-- A turn fits as long as the offer that it makes can be counted. -/
theorem Sound.fits (sound : Sound timing start now) (slow : timing.clockRate ≤ 18446744073)
    (counted : now.tick.presented + now.scheduler.pending.toNat < 2 ^ 32) : now.Fits where
  countable due := by
    rwa [due] at counted
  room cost charged := by
    have phase := sound.inRange.phase
    have second := timing.cyclesPerHalfFrame_le
    have bounded := Event.cost?_le charged
    omega

/-- A turn that stops the advance has at most made an offer. -/
theorem scheduler_of_stop {progress : Progress σ} {stop : Stop}
    (stops : progress.turn.1.stop? = some stop) :
    progress.turn.2.scheduler = progress.scheduler ∨
      progress.turn.2.scheduler = progress.scheduler.takeOffer := by
  obtain ⟨scheduler, machine, tick⟩ := progress
  cases pending : scheduler.pending with
  | true =>
    right
    simp only [turn, pending, if_true, offer] at stops ⊢
    generalize machine.interrupt scheduler.vector = reply at stops ⊢
    cases reply with
    | ok taken after => cases taken <;> cases stops
    | error reason after => rfl
  | false =>
    left
    simp only [turn, pending, Bool.false_eq_true, if_false, execute] at stops ⊢
    cases status : machine.status with
    | halted reason => rfl
    | running =>
      simp only [status] at stops ⊢
      generalize machine.perform machine.fetch = reply at stops ⊢
      cases reply with
      | ok cost after => cases stops
      | error reason after => rfl

/-- However an advance ends, it leaves a scheduler in range. -/
theorem Run.inRange {start : Progress σ} {advance : Advance σ}
    (run : Run (fun _ _ _ => ()) () start () advance) (room : 18 ≤ timing.cyclesPerHalfFrame)
    (sound : Sound timing start start) : advance.scheduler.InRange timing := by
  cases returned : advance.result with
  | ok tick =>
    obtain ⟨kept, -⟩ := run.invariant (fun _ now => Sound timing start now)
      (fun _ _ _ _ sound inCredit turn => sound.turn room inCredit turn) sound returned
    exact kept.inRange
  | error stop =>
    obtain ⟨last, reaches, -, stops, rfl⟩ := run.reaches_last returned
    have kept := (reaches.sound room sound).inRange
    obtain same | offered := scheduler_of_stop stops
    · simpa only [same] using kept
    · simpa only [offered] using kept.takeOffer

end Progress

namespace Scheduler

open Progress

variable {timing : Timing} {scheduler : Scheduler}

/-- A scheduler in use stays in range. -/
theorem Employed.inRange (employed : Employed timing scheduler)
    (room : 18 ≤ timing.cyclesPerHalfFrame) : scheduler.InRange timing := by
  induction employed with
  | fresh => exact inRange_fresh room
  | started _ now inductionHypothesis =>
    obtain ⟨rate, ⟨fraction, credit⟩, owed, phase⟩ := inductionHypothesis
    exact ⟨rate, ⟨fraction, credit⟩, owed, phase⟩
  | @advanced _ _ _ _ elapsedNanos _ _ canonical _ advances inductionHypothesis =>
    exact (advances_iff_run.mp advances).inRange room
      (sound_start canonical (inductionHypothesis.grant elapsedNanos))

/-- If no offer is one too many to be counted, checked arithmetic gives the advance that numbers
without bounds give, whatever the limit on its turns. -/
theorem InRange.advanceChecked {σ : Type} [Host σ] {machine : Machine σ} {elapsedNanos : Nat}
    (inRange : scheduler.InRange timing) (room : 18 ≤ timing.cyclesPerHalfFrame)
    (slow : timing.clockRate ≤ 18446744073) (canonical : machine.table = .canonical)
    (fits : elapsedNanos ≤ longest)
    (few : ∀ now, Reaches { scheduler := scheduler.grant elapsedNanos, machine } now →
      0 < now.scheduler.credit → scheduler.boundaries now.tick.cycles < 2 ^ 32) (limit : Nat) :
    scheduler.advanceChecked limit machine elapsedNanos =
      .ok (scheduler.advance limit machine elapsedNanos) := by
  have sound : Sound timing { scheduler := scheduler.grant elapsedNanos, machine }
      { scheduler := scheduler.grant elapsedNanos, machine } :=
    sound_start canonical (inRange.grant elapsedNanos)
  have every : Throughout Fits { scheduler := scheduler.grant elapsedNanos, machine } := by
    intro now reaches inCredit
    have here := reaches.sound room sound
    have counted : (scheduler.grant elapsedNanos).boundaries now.tick.cycles < 2 ^ 32 :=
      few now reaches inCredit
    rw [← here.boundaries room sound.inRange.rate] at counted
    exact here.fits slow counted
  rw [Scheduler.advanceChecked, inRange.grantChecked slow fits, pure_bind]
  exact Reaches.runChecked_of_fits .refl rfl (settled_grant scheduler elapsedNanos).credit every
    limit

/-- With a faster clock the longest duration is too long. -/
theorem grantChecked_of_fast (fast : 18446744074 ≤ scheduler.timing.clockRate) :
    2 ^ 128 ≤ longest * scheduler.timing.clockRate ∧
      scheduler.grantChecked longest =
        .error ⟨128, longest * scheduler.timing.clockRate⟩ := by
  have least : 2 ^ 128 ≤ longest * 18446744074 := by decide
  have large : 2 ^ 128 ≤ longest * scheduler.timing.clockRate :=
    le_trans least (Nat.mul_le_mul_left longest fast)
  refine ⟨large, ?_⟩
  have exceeds : ¬ (0 ≤ (longest * scheduler.timing.clockRate : Int) ∧
      (longest * scheduler.timing.clockRate : Int) < 2 ^ 128) := by
    rintro ⟨-, small⟩
    exact absurd (show longest * scheduler.timing.clockRate < 2 ^ 128 by exact_mod_cast small)
      (Nat.not_lt.mpr large)
  rw [Scheduler.grantChecked, Scheduler.budgetChecked, unsigned, if_neg exceeds]
  rfl

/-- The arithmetic of a scheduler stays in range, if the clock is slow enough and an instruction
crosses one boundary at most. Take a scheduler that has been used in any way, a machine with the
table of the instruction set, and a duration. The units of the duration fit their width, and the
budget is exactly the whole cycles in them, up to the largest credit. At every moment of the
advance the fraction is less than a cycle, the credit is overdrawn by seventeen at most, the phase
is less than a half frame, the cycles fit their width, and there was an offer for every boundary
met but the pending one. So as long as these are few enough to be counted, carrying out the
advance in checked arithmetic gives what numbers without bounds give. With a clock that is any
faster, the longest duration has too many units. -/
theorem arithmetic_in_range :
    (∀ (timing : Timing) (scheduler : Scheduler),
      timing.clockRate ≤ 18446744073 → 18 ≤ timing.cyclesPerHalfFrame →
      Employed timing scheduler →
      ∀ {σ : Type} [Host σ] (machine : Machine σ) (elapsedNanos : Nat),
        machine.table = .canonical → elapsedNanos ≤ longest →
        let units := elapsedNanos * timing.clockRate + scheduler.fraction
        let start : Progress σ := { scheduler := scheduler.grant elapsedNanos, machine }
        units < 2 ^ 128 ∧
        scheduler.budgetChecked elapsedNanos =
          .ok (min ↑(units / 1000000000) (2 ^ 63 - 1), units % 1000000000) ∧
        (∀ now, Reaches start now →
          now.scheduler.fraction < 1000000000 ∧
          -17 ≤ now.scheduler.credit ∧ now.scheduler.credit ≤ 2 ^ 63 - 1 ∧
          now.scheduler.halfFrame < timing.cyclesPerHalfFrame ∧
          now.tick.cycles < 2 ^ 64 ∧
          now.tick.accepted ≤ now.tick.presented ∧
          now.tick.presented + now.scheduler.pending.toNat =
            scheduler.boundaries now.tick.cycles) ∧
        ((∀ now, Reaches start now → 0 < now.scheduler.credit →
            scheduler.boundaries now.tick.cycles < 2 ^ 32) →
          ∀ limit, scheduler.advanceChecked limit machine elapsedNanos =
            .ok (scheduler.advance limit machine elapsedNanos))) ∧
    ∀ scheduler : Scheduler, 18446744074 ≤ scheduler.timing.clockRate →
      2 ^ 128 ≤ longest * scheduler.timing.clockRate ∧
        scheduler.grantChecked longest =
          .error ⟨128, longest * scheduler.timing.clockRate⟩ := by
  refine ⟨?_, fun scheduler => grantChecked_of_fast⟩
  intro timing scheduler slow room employed σ _ machine elapsedNanos canonical fits units start
  have inRange := employed.inRange room
  have rate := inRange.rate
  have counted : scheduler.scaled elapsedNanos = units := by rw [scaled, rate]
  refine ⟨?_, ?_, ?_, ?_⟩
  · rw [← counted]
    exact inRange.scaled_lt slow fits
  · rw [← counted]
    exact budgetChecked_of_lt (inRange.scaled_lt slow fits)
  · intro now reaches
    have sound := reaches.sound room (sound_start canonical (inRange.grant elapsedNanos))
    obtain ⟨fraction, most⟩ := sound.inRange.settled
    have cycles := sound.cycles_le (settled_grant scheduler elapsedNanos)
    rw [maxCredit] at most cycles
    exact ⟨fraction, sound.inRange.owed, most, sound.inRange.phase, by omega, sound.accepted,
      sound.boundaries room rate⟩
  · intro few limit
    exact inRange.advanceChecked room slow canonical fits few limit

/-- The fastest clock that is slow enough, one frame per second, and the longest duration twice in
succession: whatever the first advance left, the second one gets the largest budget, and nothing
overflows. If the clock is any faster, the first one does. -/
theorem arithmetic_in_range_fastest :
    let timing : Timing := { clockRate := 18446744073, frameRate := 1 }
    let faster : Timing := { timing with clockRate := 18446744074 }
    18 ≤ timing.cyclesPerHalfFrame ∧
      (∃ advance : Advance Board,
        Advances { timing } .raster longest advance ∧
        (∃ rest, advance.scheduler.budgetChecked longest = .ok (2 ^ 63 - 1, rest)) ∧
        ∀ limit, advance.scheduler.advanceChecked limit .raster longest =
          .ok (advance.scheduler.advance limit .raster longest)) ∧
      grantChecked { timing := faster } longest = .error ⟨128, longest * 18446744074⟩ := by
  intro timing faster
  have room : 18 ≤ timing.cyclesPerHalfFrame := by decide
  have canonical : Machine.raster.table = .canonical := rfl
  obtain ⟨_, advance, run⟩ := exists_run (fun _ _ _ => ()) ()
    (⟨grant { timing } longest, .raster, {}⟩ : Progress Board) Table.charging_canonical
  have advances : Advances { timing } .raster longest advance := advances_iff_run.mpr run
  have employed : Employed timing advance.scheduler :=
    .advanced .fresh canonical (le_refl longest) advances
  obtain ⟨ranges, sharp⟩ := arithmetic_in_range
  obtain ⟨-, budget, -, checked⟩ :=
    ranges timing advance.scheduler (by decide) room employed Machine.raster longest canonical
      (le_refl longest)
  have few : ∀ now : Progress Board,
      Reaches { scheduler := advance.scheduler.grant longest, machine := .raster } now →
      0 < now.scheduler.credit → advance.scheduler.boundaries now.tick.cycles < 2 ^ 32 := by
    intro now reaches inCredit
    have account := reaches.account
    have most := (settled_grant advance.scheduler longest).credit
    have inRange := employed.inRange room
    have pace : timing.cyclesPerHalfFrame = 9223372036 := by decide
    have phase := inRange.phase
    have flag := Bool.toNat_le advance.scheduler.pending
    simp only [maxCredit] at account most
    rw [pace] at phase
    rw [boundaries, inRange.rate, pace]
    omega
  have large : (2 ^ 63 - 1 : Int) ≤
      ↑((longest * timing.clockRate + advance.scheduler.fraction) / 1000000000) := by
    have product : 2 ^ 63 * 1000000000 ≤ longest * timing.clockRate := by decide
    omega
  rw [min_eq_right large] at budget
  exact ⟨room, ⟨advance, advances, ⟨_, budget⟩, checked few⟩,
    (sharp { timing := faster } (by decide)).2⟩

end Scheduler

end Intel8080
