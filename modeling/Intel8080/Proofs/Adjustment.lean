import Intel8080.Proofs.Run

/-!
# Runs whose scheduler is adjusted beforehand

A turn consults of its scheduler only the timing, the phase within the half frame
and the two offer flags; credit is subtracted from, and the fraction and the
accounted instant are carried along. An adjustment that leaves alone what a turn
consults, and commutes with what it changes, therefore passes through every turn,
and so does whatever the tick held before.

If an adjustment only ever raises the credit, an adjusted run takes the turns of
the plain one and then goes on by itself. Granting time is such an adjustment as
long as the credit stays below its limit, and so is marking an instant.
-/

namespace Intel8080

namespace Tick

@[ext] theorem ext_fields {left right : Tick} (cycles : left.cycles = right.cycles)
    (presented : left.presented = right.presented)
    (accepted : left.accepted = right.accepted) : left = right := by
  cases left
  cases right
  simp_all

theorem add_assoc (first second third : Tick) :
    first + second + third = first + (second + third) :=
  ext_fields (Nat.add_assoc ..) (Nat.add_assoc ..) (Nat.add_assoc ..)

@[simp] theorem add_empty (tick : Tick) : tick + {} = tick := rfl

@[simp] theorem empty_add (tick : Tick) : {} + tick = tick :=
  ext_fields (Nat.zero_add _) (Nat.zero_add _) (Nat.zero_add _)

end Tick

namespace Scheduler

/-- An adjustment that turns pass through, on schedulers of a kind that turns
preserve. -/
structure Neutral (Kind : Scheduler → Prop) (adjust : Scheduler → Scheduler) : Prop where
  pending : ∀ scheduler, (adjust scheduler).pending = scheduler.pending
  halfFrame : ∀ scheduler, (adjust scheduler).halfFrame = scheduler.halfFrame
  vector : ∀ scheduler, (adjust scheduler).vector = scheduler.vector
  credit : ∀ scheduler, Kind scheduler → scheduler.credit ≤ (adjust scheduler).credit
  takeOffer : ∀ scheduler, (adjust scheduler).takeOffer = adjust scheduler.takeOffer
  spend : ∀ scheduler cost, Kind scheduler →
    (adjust scheduler).spend cost = adjust (scheduler.spend cost)
  kind_takeOffer : ∀ scheduler, Kind scheduler → Kind scheduler.takeOffer
  kind_spend : ∀ scheduler cost, Kind scheduler → Kind (scheduler.spend cost)

/-- Leaving a scheduler as it is. -/
theorem neutral_id : Neutral (fun _ => True) id where
  pending _ := rfl
  halfFrame _ := rfl
  vector _ := rfl
  credit _ _ := Int.le_refl _
  takeOffer _ := rfl
  spend _ _ _ := rfl
  kind_takeOffer _ _ := trivial
  kind_spend _ _ _ := trivial

/-- Marking an instant changes no turn. -/
theorem neutral_start (now : Nat) : Neutral (fun _ => True) (·.start now) where
  pending _ := rfl
  halfFrame _ := rfl
  vector _ := rfl
  credit _ _ := Int.le_refl _
  takeOffer _ := rfl
  spend scheduler cost _ := by
    by_cases crossed : scheduler.halfFrame + cost ≥ scheduler.timing.pace <;>
      simp [spend, start, crossed]
  kind_takeOffer _ _ := trivial
  kind_spend _ _ _ := trivial

/-- The whole cycles that fit into elapsed time, whatever the limit of credit. -/
def wholeCycles (scheduler : Scheduler) (elapsedNanos : Nat) : Nat :=
  scheduler.scaled elapsedNanos / Timing.nanosPerSecond

/-- The budget of a duration fits under the limit of credit, by itself and on top of
the credit there is. -/
def HasRoom (scheduler : Scheduler) (elapsedNanos : Nat) : Prop :=
  scheduler.wholeCycles elapsedNanos ≤ maxCredit ∧
    scheduler.credit + scheduler.wholeCycles elapsedNanos ≤ maxCredit

@[simp] theorem wholeCycles_spend (scheduler : Scheduler) (cost elapsedNanos : Nat) :
    (scheduler.spend cost).wholeCycles elapsedNanos = scheduler.wholeCycles elapsedNanos := by
  simp [wholeCycles, scaled]

/-- Where there is room, the whole budget is added. -/
theorem grant_of_room {scheduler : Scheduler} {elapsedNanos : Nat}
    (room : scheduler.HasRoom elapsedNanos) :
    scheduler.grant elapsedNanos =
      { scheduler with
        credit := scheduler.credit + scheduler.wholeCycles elapsedNanos
        fraction := scheduler.scaled elapsedNanos % Timing.nanosPerSecond } := by
  obtain ⟨alone, together⟩ := room
  have budget : scheduler.budget elapsedNanos = scheduler.wholeCycles elapsedNanos :=
    Nat.min_eq_left alone
  simp only [grant, budget, Int.min_eq_left together]

/-- Spending can only make room. -/
theorem HasRoom.spend {scheduler : Scheduler} {elapsedNanos : Nat}
    (room : scheduler.HasRoom elapsedNanos) (cost : Nat) :
    (scheduler.spend cost).HasRoom elapsedNanos := by
  obtain ⟨alone, together⟩ := room
  refine ⟨by simpa using alone, ?_⟩
  rw [credit_spend, wholeCycles_spend]
  omega

/-- Granting time changes no turn while there is room for its budget. -/
theorem neutral_grant (elapsedNanos : Nat) :
    Neutral (·.HasRoom elapsedNanos) (·.grant elapsedNanos) where
  pending _ := rfl
  halfFrame _ := rfl
  vector _ := rfl
  credit scheduler room := by
    simp only [grant_of_room room]
    omega
  takeOffer _ := rfl
  spend scheduler cost room := by
    have scaledSame : (scheduler.spend cost).scaled elapsedNanos =
        scheduler.scaled elapsedNanos := by
      simp [scaled]
    have reordered : scheduler.credit - cost + scheduler.wholeCycles elapsedNanos =
        scheduler.credit + scheduler.wholeCycles elapsedNanos - cost := by
      omega
    simp only [grant_of_room room, grant_of_room (room.spend cost), scaledSame,
      wholeCycles_spend, credit_spend, reordered]
    simp only [spend]
    split <;> rfl
  kind_takeOffer _ room := room
  kind_spend _ cost room := room.spend cost

/-- The whole cycles of two parts of a duration add up, since the fraction of a cycle
that the first leaves is counted with the second. -/
theorem wholeCycles_add (scheduler : Scheduler) (first second : Nat) :
    scheduler.wholeCycles (first + second) =
      scheduler.wholeCycles first + (scheduler.grant first).wholeCycles second := by
  simp only [wholeCycles, scaled, grant, Nat.add_mul, Timing.nanosPerSecond]
  omega

/-- Room for a duration is room for its first part, and after that part was granted
for the rest. -/
theorem HasRoom.split {scheduler : Scheduler} {first second : Nat}
    (room : scheduler.HasRoom (first + second)) :
    scheduler.HasRoom first ∧ (scheduler.grant first).HasRoom second := by
  obtain ⟨alone, together⟩ := room
  rw [wholeCycles_add] at alone together
  have roomFirst : scheduler.HasRoom first := ⟨by omega, by omega⟩
  have credit : (scheduler.grant first).credit =
      scheduler.credit + scheduler.wholeCycles first := by
    rw [grant_of_room roomFirst]
  exact ⟨roomFirst, by omega, by omega⟩

/-- Granting a duration in two parts grants the whole. -/
theorem grant_grant {scheduler : Scheduler} {first second : Nat}
    (room : scheduler.HasRoom (first + second)) :
    (scheduler.grant first).grant second = scheduler.grant (first + second) := by
  obtain ⟨roomFirst, roomSecond⟩ := room.split
  have credit : scheduler.credit + scheduler.wholeCycles first +
      (scheduler.grant first).wholeCycles second =
        scheduler.credit + scheduler.wholeCycles (first + second) := by
    rw [wholeCycles_add]
    omega
  have fraction : (scheduler.grant first).scaled second % Timing.nanosPerSecond =
      scheduler.scaled (first + second) % Timing.nanosPerSecond := by
    simp only [scaled, grant, Nat.add_mul, Timing.nanosPerSecond]
    omega
  rw [grant_of_room roomSecond, grant_of_room room, fraction, ← credit, grant_of_room roomFirst]

end Scheduler

/-- The advance under way with its scheduler adjusted and its tick added to an
earlier one. -/
def Progress.adjusted {σ : Type} (progress : Progress σ) (adjust : Scheduler → Scheduler)
    (before : Tick) : Progress σ :=
  ⟨adjust progress.scheduler, progress.machine, before + progress.tick⟩

/-- A finished advance with its scheduler adjusted and its tick added to an earlier
one. -/
def Advance.adjusted {σ : Type} (advance : Advance σ) (adjust : Scheduler → Scheduler)
    (before : Tick) : Advance σ :=
  ⟨adjust advance.scheduler, advance.machine, advance.result.map (before + ·)⟩

@[simp] theorem Advance.adjusted_empty {σ : Type} (advance : Advance σ)
    (adjust : Scheduler → Scheduler) :
    advance.adjusted adjust {} = ⟨adjust advance.scheduler, advance.machine, advance.result⟩ := by
  obtain ⟨scheduler, machine, result⟩ := advance
  cases result <;> simp [adjusted, Except.map]

/-- Where there is credit, there still is after an adjustment. -/
theorem Scheduler.Neutral.raised {σ : Type} {Kind : Scheduler → Prop}
    {adjust : Scheduler → Scheduler} (neutral : Neutral Kind adjust) {progress : Progress σ}
    (before : Tick) (kind : Kind progress.scheduler) (inCredit : 0 < progress.scheduler.credit) :
    0 < (progress.adjusted adjust before).scheduler.credit :=
  Int.lt_of_lt_of_le inCredit (neutral.credit _ kind)

namespace Progress

open Scheduler

variable {σ ω : Type} [Host σ] {observe : ω → Event → Machine σ → ω}
  {Kind : Scheduler → Prop} {adjust : Scheduler → Scheduler}

/-- An adjustment passes through a turn. -/
theorem turn_adjusted (neutral : Neutral Kind adjust) (progress : Progress σ) (before : Tick)
    (kind : Kind progress.scheduler) :
    (progress.adjusted adjust before).turn =
      (progress.turn.1, progress.turn.2.adjusted adjust before) := by
  obtain ⟨scheduler, machine, tick⟩ := progress
  by_cases pending : scheduler.pending = true
  · have spends := fun cost => neutral.spend _ cost (neutral.kind_takeOffer _ kind)
    simp only [turn, adjusted, neutral.pending, pending, if_true, offer, neutral.vector]
    cases machine.interrupt scheduler.vector with
    | ok taken after =>
      cases taken with
      | true =>
        simp only [neutral.takeOffer, spends]
        congr 2
        exact Tick.ext_fields (Nat.add_assoc ..) rfl rfl
      | false => simp only [neutral.takeOffer]; rfl
    | error stop after => simp only [neutral.takeOffer]; rfl
  · simp only [turn, adjusted, neutral.pending, pending, Bool.false_eq_true, if_false, execute]
    cases machine.status with
    | halted stop => rfl
    | running =>
      cases machine.perform machine.fetch with
      | ok cost after =>
        simp only [neutral.spend scheduler _ kind]
        congr 2
        exact Tick.ext_fields (Nat.add_assoc ..) rfl rfl
      | error stop after => rfl

/-- A turn preserves the kind of its scheduler. -/
theorem Turn.kind (neutral : Neutral Kind adjust) {progress next : Progress σ} {event : Event}
    (turn : Turn progress event next) (kind : Kind progress.scheduler) :
    Kind next.scheduler := by
  cases turn with
  | stepped => exact neutral.kind_spend _ _ kind
  | accepted => exact neutral.kind_spend _ _ (neutral.kind_takeOffer _ kind)
  | declined => exact neutral.kind_takeOffer _ kind

/-- How an adjusted run goes on from where the plain one ended: not at all after a
stop, and otherwise until the adjusted credit is spent too. -/
def Continues (observe : ω → Event → Machine σ → ω) (adjust : Scheduler → Scheduler)
    (before : Tick) (seen : ω) (ended : Advance σ) (after : ω) (advance : Advance σ) : Prop :=
  match ended.result with
  | .ok tick => Run observe seen ⟨adjust ended.scheduler, ended.machine, before + tick⟩ after advance
  | .error stop => after = seen ∧ advance = ⟨adjust ended.scheduler, ended.machine, .error stop⟩

/-- An adjusted run is the plain run and what follows it. Induction follows the
plain run: each of its turns finds credit in the adjusted run as well and does the
same there. -/
theorem Run.adjusted_iff (neutral : Neutral Kind adjust) (before : Tick)
    {seen middle after : ω} {progress : Progress σ} {ended advance : Advance σ}
    (run : Run observe seen progress middle ended) (kind : Kind progress.scheduler) :
    Run observe seen (progress.adjusted adjust before) after advance ↔
      Continues observe adjust before middle ended after advance := by
  induction run with
  | spent seen progress exhausted => exact Iff.rfl
  | stopped seen progress stop inCredit halting =>
    have turned := turn_adjusted neutral progress before kind
    have raised := neutral.raised before kind inCredit
    rw [run_iff_of_halting raised (by rw [turned]; exact halting), turned]
    exact Iff.rfl
  | turned seen progress inCredit going rest inductionHypothesis =>
    have turned := turn_adjusted neutral progress before kind
    have raised := neutral.raised before kind inCredit
    rw [run_iff_of_going raised (by rw [turned]; exact going), turned]
    exact inductionHypothesis ((turn_of_going progress going).kind neutral kind)

/-- If an adjusted run ends, so does the plain one, on the way there. -/
theorem Run.ends_of_adjusted (neutral : Neutral Kind adjust) {before : Tick}
    {seen after : ω} {progress : Progress σ} {advance : Advance σ}
    (run : Run observe seen (progress.adjusted adjust before) after advance)
    (kind : Kind progress.scheduler) :
    ∃ middle ended, Run observe seen progress middle ended := by
  generalize adjustment : progress.adjusted adjust before = start at run
  induction run generalizing progress with
  | spent seen start exhausted =>
    subst adjustment
    exact ⟨seen, _, .spent seen progress (Int.le_trans (neutral.credit _ kind) exhausted)⟩
  | stopped seen start stop inCredit halting =>
    subst adjustment
    rw [turn_adjusted neutral progress before kind] at halting
    by_cases exhausted : progress.scheduler.credit ≤ 0
    · exact ⟨seen, _, .spent seen progress exhausted⟩
    · exact ⟨_, _, .stopped seen progress stop (by omega) halting⟩
  | turned seen start inCredit going rest inductionHypothesis =>
    subst adjustment
    have turned := turn_adjusted neutral progress before kind
    rw [turned] at going inductionHypothesis
    by_cases exhausted : progress.scheduler.credit ≤ 0
    · exact ⟨seen, _, .spent seen progress exhausted⟩
    · obtain ⟨middle, ended, plain⟩ := inductionHypothesis
        ((turn_of_going progress going).kind neutral kind) rfl
      exact ⟨middle, ended, .turned seen progress (by omega) going plain⟩

/-- A run keeps the kind of its scheduler. -/
theorem Run.kind (neutral : Neutral Kind adjust) {seen after : ω} {progress : Progress σ}
    {advance : Advance σ} (run : Run observe seen progress after advance)
    (kind : Kind progress.scheduler) {tick : Tick} (returned : advance.result = .ok tick) :
    Kind advance.scheduler ∧ advance.scheduler.credit ≤ 0 :=
  run.invariant (fun _ progress => Kind progress.scheduler)
    (fun _ _ _ _ kind _ turn => turn.kind neutral kind) kind returned

/-- An adjustment that leaves the credit as it is adjusts the end of a run and
nothing else. -/
theorem run_adjusted_iff (neutral : Neutral Kind adjust)
    (level : ∀ scheduler, (adjust scheduler).credit = scheduler.credit) (before : Tick)
    {seen after : ω} {progress : Progress σ} {advance : Advance σ}
    (kind : Kind progress.scheduler) :
    Run observe seen (progress.adjusted adjust before) after advance ↔
      ∃ plain, Run observe seen progress after plain ∧
        advance = plain.adjusted adjust before := by
  constructor
  · intro run
    obtain ⟨middle, ⟨scheduler, machine, result⟩, plain⟩ := run.ends_of_adjusted neutral kind
    have follows := (plain.adjusted_iff neutral before kind).mp run
    cases result with
    | ok tick =>
      have exhausted : (adjust scheduler).credit ≤ 0 := by
        rw [level]
        exact (plain.kind neutral kind rfl).2
      cases follows with
      | spent => exact ⟨_, plain, rfl⟩
      | stopped _ _ _ inCredit _ => exact absurd exhausted (Int.not_le.mpr inCredit)
      | turned _ _ inCredit _ _ => exact absurd exhausted (Int.not_le.mpr inCredit)
    | error stop =>
      obtain ⟨rfl, rfl⟩ := follows
      exact ⟨_, plain, rfl⟩
  · rintro ⟨⟨scheduler, machine, result⟩, plain, rfl⟩
    refine (plain.adjusted_iff neutral before kind).mpr ?_
    cases result with
    | ok tick =>
      refine .spent after _ ?_
      rw [level]
      exact (plain.kind neutral kind rfl).2
    | error stop => exact ⟨rfl, rfl⟩

/-- A run that begins with an earlier tick in hand adds its own to it. -/
theorem Run.add_tick (before : Tick) {seen after : ω} {scheduler : Scheduler}
    {machine : Machine σ} {advance : Advance σ}
    (run : Run observe seen ⟨scheduler, machine, {}⟩ after advance) :
    Run observe seen ⟨scheduler, machine, before⟩ after (advance.adjusted id before) :=
  (run_adjusted_iff neutral_id (fun _ => rfl) before trivial).mpr ⟨advance, run, rfl⟩

end Progress

end Intel8080
