import Mathlib
import Intel8080.Proofs.Frames
import Intel8080.Proofs.Ranges
import Intel8080.Proofs.Throughout

/-!
# Time in slices

How a duration is cut into calls makes no difference to the machine. A cut loses nothing: the
fraction of a cycle, the overdrawn credit, the phase within the half frame and a pending offer
are all carried to the next call. A stop is not carried, so the slices are advanced one after
the other up to the first that stops.

Two things must fit. The limit of credit must not be reached, since a saturated grant forgets
time. And a single call counts the offers of all the slices, each of which counts from zero:
these must be few enough for its width, or the single call overflows where the slices return.
All calls are therefore in checked arithmetic here.

Two ways of running are interchangeable if each ends where the other does, in the same machine
with the same answer. Termination is part of this: the sliced run ends if and only if the run
in one piece does.
-/

namespace Intel8080

namespace Advance

variable {σ : Type}

/-- The same machine and the same answer, and the same scheduler unless the machine
stopped. After a stop the schedulers may differ in credit that was never spent. -/
def Agrees (left right : Advance σ) : Prop :=
  left.machine = right.machine ∧ left.result = right.result ∧
    ∀ tick, left.result = .ok tick → left.scheduler = right.scheduler

theorem Agrees.refl (advance : Advance σ) : advance.Agrees advance :=
  ⟨rfl, rfl, fun _ _ => rfl⟩

theorem Agrees.trans {first second third : Advance σ} (left : first.Agrees second)
    (right : second.Agrees third) : first.Agrees third := by
  obtain ⟨machine, result, scheduler⟩ := left
  obtain ⟨machine', result', scheduler'⟩ := right
  refine ⟨machine.trans machine', result.trans result', fun tick returned => ?_⟩
  exact (scheduler tick returned).trans (scheduler' tick (result ▸ returned))

/-- Whatever one way of running arrives at, the other arrives at too. -/
def Interchangeable (left right : Advance σ → Prop) : Prop :=
  (∀ first, left first → ∃ second, right second ∧ first.Agrees second) ∧
    ∀ second, right second → ∃ first, left first ∧ first.Agrees second

theorem Interchangeable.trans {first second third : Advance σ → Prop}
    (left : Interchangeable first second) (right : Interchangeable second third) :
    Interchangeable first third := by
  constructor
  · intro start reached
    obtain ⟨middle, between, agreesLeft⟩ := left.1 start reached
    obtain ⟨last, ended, agreesRight⟩ := right.1 middle between
    exact ⟨last, ended, agreesLeft.trans agreesRight⟩
  · intro last ended
    obtain ⟨middle, between, agreesRight⟩ := right.2 last ended
    obtain ⟨start, reached, agreesLeft⟩ := left.2 middle between
    exact ⟨start, reached, agreesLeft.trans agreesRight⟩

/-- Two advances that agree still do with the same tick before both. -/
theorem Agrees.adjusted {first second : Advance σ} (agrees : first.Agrees second)
    (before : Tick) : (first.adjusted id before).Agrees (second.adjusted id before) := by
  obtain ⟨machine, result, scheduler⟩ := agrees
  refine ⟨machine, congrArg (Except.map (before + ·)) result, fun tick returned => ?_⟩
  cases answer : first.result with
  | ok earlier => exact scheduler earlier answer
  | error stop =>
    rw [Advance.adjusted, answer] at returned
    cases returned

/-- Two advances that stopped in the same machine agree. -/
theorem Agrees.of_stop {machine : Machine σ} {stop : Stop} (one other : Scheduler) :
    Agrees ⟨one, machine, .error stop⟩ ⟨other, machine, .error stop⟩ :=
  ⟨rfl, rfl, fun _ returned => nomatch returned⟩

end Advance

namespace Scheduler

open Progress Advance

/-- The durations between successive instants. -/
def gaps : Nat → List Nat → List Nat
  | _, [] => []
  | last, now :: rest => (now - last) :: gaps now rest

/-- The last of some instants, or the one before them. -/
def latest : Nat → List Nat → Nat
  | last, [] => last
  | _, now :: rest => latest now rest

/-- Instants that never go back lie after the one before them. -/
theorem le_latest {last : Nat} {instants : List Nat}
    (forward : (last :: instants).Pairwise (· ≤ ·)) : last ≤ latest last instants := by
  induction instants generalizing last with
  | nil => exact Nat.le_refl last
  | cons now rest inductionHypothesis =>
    obtain ⟨first, tail⟩ := List.pairwise_cons.mp forward
    exact Nat.le_trans (first now List.mem_cons_self) (inductionHypothesis tail)

/-- The durations between instants that never go back add up to the whole. -/
theorem sum_gaps {last : Nat} {instants : List Nat}
    (forward : (last :: instants).Pairwise (· ≤ ·)) :
    (gaps last instants).sum = latest last instants - last := by
  induction instants generalizing last with
  | nil => simp [gaps, latest]
  | cons now rest inductionHypothesis =>
    obtain ⟨first, tail⟩ := List.pairwise_cons.mp forward
    have step : last ≤ now := first now List.mem_cons_self
    have reaches : now ≤ latest now rest := le_latest tail
    simp only [gaps, latest, List.sum_cons, inductionHypothesis tail]
    omega

variable {σ δ : Type}

/-- Calls one after another, up to the first that stops the machine. Their ticks add up. -/
inductive Calls (call : Scheduler → Machine σ → δ → Advance σ → Prop) :
    Scheduler → Machine σ → List δ → Advance σ → Prop where
  | finished (scheduler : Scheduler) (machine : Machine σ) :
      Calls call scheduler machine [] ⟨scheduler, machine, .ok {}⟩
  | stopped {scheduler after : Scheduler} {machine stopped : Machine σ} {item : δ} {stop : Stop}
      (rest : List δ) (called : call scheduler machine item ⟨after, stopped, .error stop⟩) :
      Calls call scheduler machine (item :: rest) ⟨after, stopped, .error stop⟩
  | returned {scheduler after : Scheduler} {machine left : Machine σ} {item : δ} {tick : Tick}
      {rest : List δ} {later : Advance σ}
      (called : call scheduler machine item ⟨after, left, .ok tick⟩)
      (others : Calls call after left rest later) :
      Calls call scheduler machine (item :: rest) (later.adjusted id tick)

variable [Host σ]

/-- An advance in checked arithmetic ends, under some limit on its turns, with the given
outcome: nothing has overflowed. -/
def AdvancesChecked (scheduler : Scheduler) (machine : Machine σ) (elapsedNanos : Nat)
    (advance : Advance σ) : Prop :=
  ∃ limit, scheduler.advanceChecked limit machine elapsedNanos = .ok (some advance)

/-- So does a tick. -/
def TicksChecked (scheduler : Scheduler) (machine : Machine σ) (now : Nat)
    (advance : Advance σ) : Prop :=
  ∃ limit, scheduler.tickChecked limit machine now = .ok (some advance)

/-- A single call for the duration keeps within its bounds: the limit of credit is not reached,
the debt is not beyond what its width holds, and every offer that is made can be counted. -/
structure Bounded (scheduler : Scheduler) (machine : Machine σ) (elapsedNanos : Nat) :
    Prop where
  room : scheduler.HasRoom elapsedNanos
  owed : -2 ^ 63 ≤ scheduler.credit
  few : Throughout Countable { scheduler := scheduler.grant elapsedNanos, machine }

/-- What a call comes to that still has a second duration to run when its first part has
ended. -/
def Resumes (second : Nat) (part whole : Advance σ) : Prop :=
  match part.result with
  | .ok tick => ∃ rest, part.scheduler.AdvancesChecked part.machine second rest ∧
      whole = rest.adjusted id tick
  | .error stop => whole = ⟨part.scheduler.grant second, part.machine, .error stop⟩

variable {scheduler : Scheduler} {machine : Machine σ}

/-- The units of a duration fit if its whole cycles do. -/
theorem HasRoom.scaled_lt {elapsedNanos : Nat} (room : scheduler.HasRoom elapsedNanos) :
    scheduler.scaled elapsedNanos < 2 ^ 128 := by
  have whole := room.1
  rw [wholeCycles, maxCredit, Timing.nanosPerSecond] at whole
  omega

/-- An advance in checked arithmetic is a run whose turns fit. -/
theorem advancesChecked_iff_run {elapsedNanos : Nat} {advance : Advance σ}
    (room : scheduler.HasRoom elapsedNanos) (owed : -2 ^ 63 ≤ scheduler.credit) :
    scheduler.AdvancesChecked machine elapsedNanos advance ↔
      Run (fun _ _ _ => ()) () ⟨scheduler.grant elapsedNanos, machine, {}⟩ () advance ∧
        Throughout Fits ⟨scheduler.grant elapsedNanos, machine, {}⟩ := by
  have granted := grantChecked_of_lt room.scaled_lt owed
  rw [← advances_iff_run]
  constructor
  · rintro ⟨limit, computed⟩
    rw [Scheduler.advanceChecked, granted, pure_bind] at computed
    obtain ⟨same, fits⟩ := runChecked_sound computed
    exact ⟨⟨limit, same⟩, fits rfl⟩
  · rintro ⟨⟨limit, computed⟩, fits⟩
    have most := (settled_grant scheduler elapsedNanos).credit
    refine ⟨limit, ?_⟩
    rw [Scheduler.advanceChecked, granted, pure_bind,
      Reaches.runChecked_of_fits .refl rfl most fits limit]
    exact congrArg Except.ok computed

/-- Going on in checked arithmetic is going on with a run whose turns fit. -/
theorem resumes_iff {second : Nat} {part whole : Advance σ}
    (bounds : ∀ tick, part.result = .ok tick →
      part.scheduler.HasRoom second ∧ -2 ^ 63 ≤ part.scheduler.credit ∧
        Throughout Countable ⟨part.scheduler.grant second, part.machine, {} + tick⟩) :
    Resumes second part whole ↔
      Continues (fun _ _ _ => ()) (·.grant second) {} () part () whole ∧
        ∀ tick, part.result = .ok tick →
          Throughout Fits ⟨part.scheduler.grant second, part.machine, {} + tick⟩ := by
  obtain ⟨after, left, result⟩ := part
  cases result with
  | ok tick =>
    obtain ⟨room, owed, few⟩ := bounds tick rfl
    rw [adjusted_tick] at few
    simp only [Resumes, Continues, Except.ok.injEq, forall_eq', adjusted_tick,
      advancesChecked_iff_run room owed]
    constructor
    · rintro ⟨rest, ⟨run, fits⟩, rfl⟩
      refine ⟨run.add_tick tick, run.fits_adjusted neutral_id trivial fits few ?_⟩
      intro _ returned
      exact throughout_of_spent (run.kind neutral_id trivial returned).2
    · rintro ⟨follows, fits⟩
      obtain ⟨rest, run, rfl⟩ :=
        (run_adjusted_iff neutral_id (fun _ => rfl) tick trivial).mp follows
      exact ⟨rest, ⟨run, fits.fits_of_adjusted neutral_id trivial⟩, rfl⟩
  | error stop => simp [Resumes, Continues]

/-- An advance for a whole duration is one for its first part and another for the rest, unless
its offers cannot be counted. -/
theorem advancesChecked_add_iff {first second : Nat} (room : scheduler.HasRoom (first + second))
    (owed : -2 ^ 63 ≤ scheduler.credit) {whole : Advance σ} :
    scheduler.AdvancesChecked machine (first + second) whole ↔
      Throughout Countable { scheduler := scheduler.grant (first + second), machine } ∧
        ∃ part, scheduler.AdvancesChecked machine first part ∧ Resumes second part whole := by
  obtain ⟨roomFirst, roomSecond⟩ := room.split
  have neutral := neutral_grant second
  have bounds : ∀ part, Run (fun _ _ _ => ()) () ⟨scheduler.grant first, machine, {}⟩ () part →
      Throughout Countable { scheduler := scheduler.grant (first + second), machine } →
      ∀ tick, part.result = .ok tick →
        part.scheduler.HasRoom second ∧ -2 ^ 63 ≤ part.scheduler.credit ∧
          Throughout Countable ⟨part.scheduler.grant second, part.machine, {} + tick⟩ := by
    intro part slice few tick returned
    obtain ⟨roomLeft, owedLeft⟩ := slice.room_left room owed returned
    rw [← adjusted_grant room] at few
    exact ⟨roomLeft, owedLeft, few.rest neutral roomSecond slice returned⟩
  constructor
  · intro computed
    obtain ⟨run, fits⟩ := (advancesChecked_iff_run room owed).mp computed
    have few := fits.imp fun _ here => here.countable
    obtain ⟨_, part, slice, follows⟩ := (run_grant_add_iff {} room).mp run
    rw [← adjusted_grant room] at fits
    have fitsFirst := fits.fits_of_adjusted neutral roomSecond
    refine ⟨few, part, (advancesChecked_iff_run roomFirst owed).mpr ⟨slice, fitsFirst⟩, ?_⟩
    exact (resumes_iff (bounds part slice few)).mpr
      ⟨follows, fun tick => fits.rest neutral roomSecond slice⟩
  · rintro ⟨few, part, computed, resumes⟩
    obtain ⟨slice, fitsFirst⟩ := (advancesChecked_iff_run roomFirst owed).mp computed
    obtain ⟨follows, goes⟩ := (resumes_iff (bounds part slice few)).mp resumes
    refine (advancesChecked_iff_run room owed).mpr ⟨?_, ?_⟩
    · exact (run_grant_add_iff {} room).mpr ⟨_, part, slice, follows⟩
    · rw [← adjusted_grant room] at few ⊢
      exact slice.fits_adjusted neutral roomSecond fitsFirst few goes

/-- The bounds of a single call are bounds of its first part. -/
theorem Bounded.first {first second : Nat}
    (bounded : scheduler.Bounded machine (first + second)) : scheduler.Bounded machine first := by
  obtain ⟨room, owed, few⟩ := bounded
  obtain ⟨roomFirst, roomSecond⟩ := room.split
  rw [← adjusted_grant room] at few
  exact ⟨roomFirst, owed, few.countable_of_adjusted (neutral_grant second) roomSecond⟩

/-- And where that has returned, of the rest. -/
theorem Bounded.rest {first second : Nat} {after : Scheduler} {left : Machine σ} {tick : Tick}
    (bounded : scheduler.Bounded machine (first + second))
    (part : scheduler.AdvancesChecked machine first ⟨after, left, .ok tick⟩) :
    after.Bounded left second := by
  obtain ⟨room, owed, few⟩ := bounded
  obtain ⟨roomFirst, roomSecond⟩ := room.split
  obtain ⟨slice, -⟩ := (advancesChecked_iff_run roomFirst owed).mp part
  obtain ⟨roomLeft, owedLeft⟩ := slice.room_left room owed rfl
  rw [← adjusted_grant room] at few
  have later := few.rest (neutral_grant second) roomSecond slice rfl
  rw [adjusted_tick] at later
  exact ⟨roomLeft, owedLeft, later.countable_of_adjusted neutral_id trivial⟩

/-- Within the bounds of a single call, cutting it in two makes no difference. -/
theorem Bounded.add_iff {first second : Nat} {whole : Advance σ}
    (bounded : scheduler.Bounded machine (first + second)) :
    scheduler.AdvancesChecked machine (first + second) whole ↔
      ∃ part, scheduler.AdvancesChecked machine first part ∧ Resumes second part whole :=
  (advancesChecked_add_iff bounded.room bounded.owed).trans (and_iff_right bounded.few)

/-- Advances for a number of slices, one after another, and one advance for the sum of their
durations are interchangeable. Induction is on the slices after the first; what remains after a
slice is again a number of slices from where that slice ended. -/
theorem Bounded.slices {slice : Nat} {rest : List Nat}
    (bounded : scheduler.Bounded machine (slice :: rest).sum) :
    Interchangeable (Calls AdvancesChecked scheduler machine (slice :: rest))
      (scheduler.AdvancesChecked machine (slice :: rest).sum) := by
  induction rest generalizing slice scheduler machine with
  | nil =>
    constructor
    · intro advance calls
      cases calls with
      | stopped _ called => exact ⟨_, called, Agrees.refl _⟩
      | returned called others =>
        cases others
        exact ⟨_, called, Agrees.refl _⟩
    · rintro ⟨after, left, result⟩ called
      cases result with
      | ok tick => exact ⟨_, .returned called (.finished after left), Agrees.refl _⟩
      | error stop => exact ⟨_, .stopped [] called, Agrees.refl _⟩
  | cons next rest inductionHypothesis =>
    rw [List.sum_cons] at bounded ⊢
    constructor
    · intro advance calls
      cases calls with
      | @stopped _ after _ left _ stop _ called =>
        have whole := bounded.add_iff.mpr ⟨_, called, rfl⟩
        exact ⟨_, whole, Agrees.of_stop after _⟩
      | returned called others =>
        obtain ⟨later, resumed, agrees⟩ :=
          (inductionHypothesis (bounded.rest called)).1 _ others
        have whole := bounded.add_iff.mpr ⟨_, called, later, resumed, rfl⟩
        exact ⟨_, whole, agrees.adjusted _⟩
    · intro whole computed
      obtain ⟨⟨after, left, result⟩, called, resumes⟩ := bounded.add_iff.mp computed
      cases result with
      | ok tick =>
        obtain ⟨later, resumed, rfl⟩ := resumes
        obtain ⟨advance, others, agrees⟩ :=
          (inductionHypothesis (bounded.rest called)).2 later resumed
        exact ⟨_, .returned called others, agrees.adjusted tick⟩
      | error stop =>
        obtain rfl := resumes
        exact ⟨_, .stopped (next :: rest) called, Agrees.of_stop after _⟩

/-- Marking an instant before an advance marks it at the end. -/
theorem advancesChecked_start_iff {elapsedNanos : Nat} (room : scheduler.HasRoom elapsedNanos)
    (owed : -2 ^ 63 ≤ scheduler.credit) (now : Nat) {ended : Scheduler} {stopped : Machine σ}
    {result : Except Stop Tick} :
    (scheduler.start now).AdvancesChecked machine elapsedNanos ⟨ended, stopped, result⟩ ↔
      ∃ unmarked, ended = unmarked.start now ∧
        scheduler.AdvancesChecked machine elapsedNanos ⟨unmarked, stopped, result⟩ := by
  have neutral := neutral_start now
  have marked : (scheduler.start now).AdvancesChecked machine elapsedNanos
      ⟨ended, stopped, result⟩ ↔ _ ∧ Throughout Fits
        (Progress.adjusted ⟨scheduler.grant elapsedNanos, machine, {}⟩ (·.start now) {}) :=
    advancesChecked_iff_run room owed
  rw [marked, run_start_iff]
  simp only [advancesChecked_iff_run room owed]
  constructor
  · rintro ⟨⟨unmarked, rfl, run⟩, fits⟩
    exact ⟨unmarked, rfl, run, fits.fits_of_adjusted neutral trivial⟩
  · rintro ⟨unmarked, rfl, run, fits⟩
    refine ⟨⟨unmarked, rfl, run⟩, ?_⟩
    refine run.throughout_adjusted neutral {} trivial
      (fits.imp fun _ here => here.adjusted neutral trivial) ?_
    intro tick returned
    exact throughout_of_spent (run.kind neutral trivial returned).2

/-- A mark makes no difference to the bounds. -/
theorem Bounded.of_start {now elapsedNanos : Nat}
    (bounded : (scheduler.start now).Bounded machine elapsedNanos) :
    scheduler.Bounded machine elapsedNanos := by
  obtain ⟨room, owed, few⟩ := bounded
  have few : Throughout Countable
      (Progress.adjusted ⟨scheduler.grant elapsedNanos, machine, {}⟩ (·.start now) {}) := few
  exact ⟨room, owed, few.countable_of_adjusted (neutral_start now) trivial⟩

/-- A tick after a marked instant is an advance by the time since then. -/
theorem ticksChecked_start_iff {last now : Nat} (room : scheduler.HasRoom (now - last))
    (owed : -2 ^ 63 ≤ scheduler.credit) {ended : Scheduler} {stopped : Machine σ}
    {result : Except Stop Tick} :
    (scheduler.start last).TicksChecked machine now ⟨ended, stopped, result⟩ ↔
      ∃ unmarked, ended = unmarked.start now ∧
        scheduler.AdvancesChecked machine (now - last) ⟨unmarked, stopped, result⟩ :=
  advancesChecked_start_iff room owed now

/-- Ticks and the advances for the durations between their instants are interchangeable, once
the last instant is marked. -/
theorem Bounded.gaps {last : Nat} {instants : List Nat}
    (bounded : scheduler.Bounded machine (gaps last instants).sum) :
    Interchangeable (Calls TicksChecked (scheduler.start last) machine instants)
      (Calls AdvancesChecked (scheduler.start (latest last instants)) machine
        (gaps last instants)) := by
  induction instants generalizing last scheduler machine with
  | nil =>
    constructor
    · intro advance calls
      cases calls
      exact ⟨_, .finished _ machine, Agrees.refl _⟩
    · intro advance calls
      cases calls
      exact ⟨_, .finished _ machine, Agrees.refl _⟩
  | cons now rest inductionHypothesis =>
    have bounded : scheduler.Bounded machine ((now - last) + (Scheduler.gaps now rest).sum) :=
      bounded
    have room := bounded.first.room
    have owed := bounded.owed
    constructor
    · intro advance calls
      cases calls with
      | @stopped _ after _ left _ stop _ called =>
        obtain ⟨unmarked, rfl, plain⟩ := (ticksChecked_start_iff room owed).mp called
        have marked := (advancesChecked_start_iff room owed (latest now rest)).mpr
          ⟨unmarked, rfl, plain⟩
        exact ⟨_, .stopped _ marked, Agrees.of_stop _ _⟩
      | returned called others =>
        obtain ⟨unmarked, rfl, plain⟩ := (ticksChecked_start_iff room owed).mp called
        obtain ⟨second, later, agrees⟩ :=
          (inductionHypothesis (bounded.rest plain)).1 _ others
        have marked := (advancesChecked_start_iff room owed (latest now rest)).mpr
          ⟨unmarked, rfl, plain⟩
        exact ⟨_, .returned marked later, agrees.adjusted _⟩
    · intro advance calls
      cases calls with
      | stopped _ called =>
        obtain ⟨unmarked, rfl, plain⟩ := (advancesChecked_start_iff room owed _).mp called
        have ticked := (ticksChecked_start_iff room owed).mpr ⟨unmarked, rfl, plain⟩
        exact ⟨_, .stopped rest ticked, Agrees.of_stop _ _⟩
      | returned called others =>
        obtain ⟨unmarked, rfl, plain⟩ := (advancesChecked_start_iff room owed _).mp called
        obtain ⟨first, earlier, agrees⟩ :=
          (inductionHypothesis (bounded.rest plain)).2 _ others
        have ticked := (ticksChecked_start_iff room owed).mpr ⟨unmarked, rfl, plain⟩
        exact ⟨_, .returned ticked earlier, agrees.adjusted _⟩

/-- Ticks at instants that never go back and a single advance by the time between the first mark
and the last are interchangeable. -/
theorem Bounded.ticks {begin first : Nat} {rest : List Nat}
    (forward : (begin :: first :: rest).Pairwise (· ≤ ·))
    (bounded : (scheduler.start (latest begin (first :: rest))).Bounded machine
      (latest begin (first :: rest) - begin)) :
    Interchangeable (Calls TicksChecked (scheduler.start begin) machine (first :: rest))
      ((scheduler.start (latest begin (first :: rest))).AdvancesChecked machine
        (latest begin (first :: rest) - begin)) := by
  have whole : (Scheduler.gaps begin (first :: rest)).sum =
      latest begin (first :: rest) - begin := sum_gaps forward
  rw [← whole] at bounded ⊢
  exact bounded.of_start.gaps.trans bounded.slices

/-- There is one outcome that an advance in checked arithmetic can have. -/
theorem AdvancesChecked.iff_eq {elapsedNanos : Nat} {advance : Advance σ}
    (room : scheduler.HasRoom elapsedNanos) (owed : -2 ^ 63 ≤ scheduler.credit)
    (computed : scheduler.AdvancesChecked machine elapsedNanos advance) (other : Advance σ) :
    scheduler.AdvancesChecked machine elapsedNanos other ↔ other = advance := by
  constructor
  · intro again
    exact ((advancesChecked_iff_run room owed).mp computed).1.unique
      ((advancesChecked_iff_run room owed).mp again).1
  · rintro rfl
    exact computed

section TwoCalls

variable {first second : Nat} {afterFirst afterSecond : Scheduler}
  {machineFirst machineSecond : Machine σ} {tickFirst tickSecond : Tick} {stop : Stop}

/-- After an advance that returned, another one that returns does what both durations would have
done at once, if there were no bounds on the offers. -/
theorem advances_add (room : scheduler.HasRoom (first + second))
    (owed : -2 ^ 63 ≤ scheduler.credit)
    (part : scheduler.AdvancesChecked machine first ⟨afterFirst, machineFirst, .ok tickFirst⟩)
    (rest : afterFirst.AdvancesChecked machineFirst second
      ⟨afterSecond, machineSecond, .ok tickSecond⟩) :
    scheduler.Advances machine (first + second)
      ⟨afterSecond, machineSecond, .ok (tickFirst + tickSecond)⟩ := by
  obtain ⟨slice, -⟩ := (advancesChecked_iff_run room.split.1 owed).mp part
  obtain ⟨roomLeft, owedLeft⟩ := slice.room_left room owed rfl
  obtain ⟨follows, -⟩ := (advancesChecked_iff_run roomLeft owedLeft).mp rest
  have later : Run (fun _ _ _ => ()) () ⟨afterFirst.grant second, machineFirst, tickFirst⟩ ()
      ⟨afterSecond, machineSecond, .ok (tickFirst + tickSecond)⟩ := follows.add_tick tickFirst
  refine advances_iff_run.mpr ((run_grant_add_iff {} room).mpr ⟨_, _, slice, ?_⟩)
  simpa only [Continues, Tick.empty_add] using later

/-- With the bounds there are, it does so exactly if the offers of both can be counted
together. -/
theorem advancesChecked_add (room : scheduler.HasRoom (first + second))
    (owed : -2 ^ 63 ≤ scheduler.credit)
    (part : scheduler.AdvancesChecked machine first ⟨afterFirst, machineFirst, .ok tickFirst⟩)
    (rest : afterFirst.AdvancesChecked machineFirst second
      ⟨afterSecond, machineSecond, .ok tickSecond⟩) (whole : Advance σ) :
    scheduler.AdvancesChecked machine (first + second) whole ↔
      whole = ⟨afterSecond, machineSecond, .ok (tickFirst + tickSecond)⟩ ∧
        (tickFirst + tickSecond).presented < 2 ^ 32 := by
  have both := advances_iff_run.mp (advances_add room owed part rest)
  have few := both.countable_iff rfl (show 0 < 2 ^ 32 by decide)
  constructor
  · intro computed
    obtain ⟨run, fits⟩ := (advancesChecked_iff_run room owed).mp computed
    exact ⟨both.unique run, few.mp (fits.imp fun _ here => here.countable)⟩
  · rintro ⟨rfl, counted⟩
    exact (advancesChecked_add_iff room owed).mpr ⟨few.mpr counted, _, part, _, rest, rfl⟩

/-- After an advance that stopped, more time would have changed the credit alone. -/
theorem advancesChecked_add_of_stop (room : scheduler.HasRoom (first + second))
    (owed : -2 ^ 63 ≤ scheduler.credit)
    (part : scheduler.AdvancesChecked machine first ⟨afterFirst, machineFirst, .error stop⟩) :
    scheduler.AdvancesChecked machine (first + second)
      ⟨afterFirst.grant second, machineFirst, .error stop⟩ := by
  obtain ⟨roomFirst, roomSecond⟩ := room.split
  have neutral := neutral_grant second
  obtain ⟨slice, fits⟩ := (advancesChecked_iff_run roomFirst owed).mp part
  refine (advancesChecked_add_iff room owed).mpr ⟨?_, _, part, rfl⟩
  rw [← adjusted_grant room]
  refine slice.throughout_adjusted neutral {} roomSecond ?_ fun _ returned => nomatch returned
  exact fits.imp fun _ here => here.countable.adjusted neutral

end TwoCalls

/-- An advance that has come to an outcome has kept within its bounds. -/
theorem AdvancesChecked.bounded {elapsedNanos : Nat} {advance : Advance σ}
    (room : scheduler.HasRoom elapsedNanos) (owed : -2 ^ 63 ≤ scheduler.credit)
    (computed : scheduler.AdvancesChecked machine elapsedNanos advance) :
    scheduler.Bounded machine elapsedNanos :=
  ⟨room, owed, ((advancesChecked_iff_run room owed).mp computed).2.imp fun _ here =>
    here.countable⟩

section Computed

variable {α : Type} (scheduler : Scheduler) (machine : Machine σ) (limit : Nat)

/-- A call of which something was computed has come to an outcome of that kind. -/
theorem exists_of_computed (elapsedNanos : Nat) (view : Advance σ → α) (value : α)
    (computed : (scheduler.advanceChecked limit machine elapsedNanos).toOption.join.map view =
      some value) :
    ∃ whole, scheduler.AdvancesChecked machine elapsedNanos whole ∧ view whole = value := by
  obtain ⟨whole, called, seen⟩ := Option.map_eq_some_iff.mp computed
  refine ⟨whole, ⟨limit, ?_⟩, seen⟩
  match scheduler.advanceChecked limit machine elapsedNanos, called with
  | .ok (some _), rfl => rfl

/-- So have two calls, one after the other. -/
theorem exists_of_computed_twice (first second : Nat) (view : Advance σ → Advance σ → α)
    (value : α)
    (computed : ((scheduler.advanceChecked limit machine first).toOption.join.bind fun part =>
      (part.scheduler.advanceChecked limit part.machine second).toOption.join.map (view part)) =
        some value) :
    ∃ part rest, scheduler.AdvancesChecked machine first part ∧
      part.scheduler.AdvancesChecked part.machine second rest ∧ view part rest = value := by
  obtain ⟨part, called, computed⟩ := Option.bind_eq_some_iff.mp computed
  obtain ⟨_, first, rfl⟩ := exists_of_computed scheduler machine limit first id part
    (by rw [Option.map_id_fun, id, called])
  obtain ⟨rest, second, seen⟩ := exists_of_computed _ _ limit second _ _ computed
  exact ⟨_, rest, first, second, seen⟩

end Computed

/-- An advance that has no outcome in checked arithmetic, although it has one without bounds,
overflows. -/
theorem exists_overflow {elapsedNanos : Nat} {advance : Advance σ}
    (room : scheduler.HasRoom elapsedNanos) (owed : -2 ^ 63 ≤ scheduler.credit)
    (advances : scheduler.Advances machine elapsedNanos advance)
    (none : ¬ scheduler.AdvancesChecked machine elapsedNanos advance) :
    ∃ limit overflow, scheduler.advanceChecked limit machine elapsedNanos = .error overflow := by
  obtain ⟨limit, ended⟩ := advances
  refine ⟨limit, ?_⟩
  cases computed : scheduler.advanceChecked limit machine elapsedNanos with
  | error overflow => exact ⟨overflow, rfl⟩
  | ok outcome =>
    have running := computed
    rw [Scheduler.advanceChecked, grantChecked_of_lt room.scaled_lt owed, pure_bind] at running
    obtain ⟨same, -⟩ := runChecked_sound running
    obtain rfl : outcome = some advance := same.symm.trans ended
    exact absurd ⟨limit, computed⟩ none

/-- If the credit granted is less than the cycles of two to the thirty-second half frames, save
the one begun and the one pending, all offers can be counted. -/
theorem InRange.advancesChecked {timing : Timing} {elapsedNanos : Nat} {advance : Advance σ}
    (inRange : scheduler.InRange timing) (room : 18 ≤ timing.cyclesPerHalfFrame)
    (slow : timing.clockRate ≤ 18446744073) (canonical : machine.table = .canonical)
    (fits : elapsedNanos ≤ longest)
    (few : (scheduler.grant elapsedNanos).credit ≤ ((2 ^ 32 - 2) * timing.cyclesPerHalfFrame : Nat))
    (advances : scheduler.Advances machine elapsedNanos advance) :
    scheduler.AdvancesChecked machine elapsedNanos advance := by
  obtain ⟨limit, computed⟩ := advances
  refine ⟨limit, ?_⟩
  rw [inRange.advanceChecked room slow canonical fits ?_ limit, computed]
  intro now reaches inCredit
  have account := reaches.account
  have phase := inRange.phase
  have flag := Bool.toNat_le scheduler.pending
  have crossed : (scheduler.halfFrame + now.tick.cycles) / timing.cyclesPerHalfFrame <
      2 ^ 32 - 1 := by
    rw [Nat.div_lt_iff_lt_mul (by omega)]
    simp only at account
    omega
  rw [boundaries, inRange.rate]
  omega

/-- An idle machine can be advanced, and again after that, as long as the offers of each advance
can be counted. -/
theorem InRange.idles {timing : Timing} {elapsedNanos : Nat} {machine : Machine Board}
    (inRange : scheduler.InRange timing) (idle : machine.Idle)
    (restarts : timing.HasRestarts) (room : 18 ≤ timing.cyclesPerHalfFrame)
    (slow : timing.clockRate ≤ 18446744073) (fits : elapsedNanos ≤ longest)
    (spent : scheduler.credit ≤ 0)
    (few : timing.due elapsedNanos + 1 ≤ (2 ^ 32 - 2) * timing.cyclesPerHalfFrame) :
    ∃ after left tick, scheduler.AdvancesChecked machine elapsedNanos ⟨after, left, .ok tick⟩ ∧
      after.InRange timing ∧ after.credit ≤ 0 ∧ left.Idle := by
  have rate := inRange.rate
  obtain ⟨_, ⟨after, left, result⟩, run⟩ := exists_run (fun _ _ _ => ()) ()
    (⟨scheduler.grant elapsedNanos, machine, {}⟩ : Progress Board)
    (idle.table ▸ Table.charging_canonical)
  obtain ⟨⟨-, still⟩, tick, rfl⟩ := run.returns lasting_idle ⟨rate.symm ▸ restarts, idle⟩
  have kept := run.inRange room (sound_start idle.table (inRange.grant elapsedNanos))
  have exhausted := (run.kind neutral_id trivial rfl).2
  refine ⟨after, left, tick, ?_, kept, exhausted, still⟩
  refine inRange.advancesChecked room slow idle.table fits ?_ (advances_iff_run.mpr run)
  have fraction := inRange.settled.fraction
  rw [Timing.due, Timing.nanosPerSecond] at few
  rw [Timing.nanosPerSecond] at fraction
  simp only [Scheduler.grant, budget, scaled, rate, Timing.nanosPerSecond]
  omega

/-- A fresh scheduler makes as many offers as there are half frames in the cycles due, or one
less. -/
theorem Advances.presented {timing : Timing} {elapsedNanos : Nat} {after : Scheduler}
    {left : Machine σ} {tick : Tick} (canonical : machine.table = .canonical)
    (room : 18 ≤ timing.cyclesPerHalfFrame) (fits : timing.due elapsedNanos ≤ maxCredit)
    (advances : Advances { timing } machine elapsedNanos ⟨after, left, .ok tick⟩) :
    timing.due elapsedNanos / timing.cyclesPerHalfFrame ≤ tick.presented + 1 := by
  have unsaturated : timing.Unsaturated 0 [elapsedNanos] :=
    Timing.unsaturated_of_due_le (by simpa using fits)
  have series : Series (fun _ _ _ => ()) grant () ⟨{ timing }, machine, {}⟩ [elapsedNanos] ()
      ⟨after, left, .ok ({} + tick)⟩ :=
    .returned (advances_iff_run.mp advances) (.finished () ⟨after, left, {} + tick⟩)
  obtain ⟨limit, reaches⟩ := series.computed
  have returned := congrArg (Option.map Prod.snd) (reaches limit (Nat.le_refl limit))
  have least := (presented_bounds canonical room unsaturated returned).1
  simpa only [Tick.empty_add, List.sum_cons, List.sum_nil, Nat.add_zero] using least

/-- Cutting time into slices makes no difference as long as the limit of credit is out of reach
and all the offers can be counted by a single call. Two advances that return do what one advance
by both durations does, and their ticks add up; only the offers must not add up to two to the
thirty-second, or the single advance has no result. A stop in either part is the stop of the
single advance, in the same machine. Any number of slices, advanced one after another up to the
first that stops, and any ticks at instants that never go back, end exactly where the single
advance ends, and only if it ends. -/
theorem advance_slices (scheduler : Scheduler) (machine : Machine σ) :
    (∀ first second afterFirst machineFirst tickFirst afterSecond machineSecond tickSecond,
      scheduler.HasRoom (first + second) → -2 ^ 63 ≤ scheduler.credit →
      scheduler.AdvancesChecked machine first ⟨afterFirst, machineFirst, .ok tickFirst⟩ →
      afterFirst.AdvancesChecked machineFirst second
        ⟨afterSecond, machineSecond, .ok tickSecond⟩ →
      ∀ whole, scheduler.AdvancesChecked machine (first + second) whole ↔
        whole = ⟨afterSecond, machineSecond, .ok (tickFirst + tickSecond)⟩ ∧
          (tickFirst + tickSecond).presented < 2 ^ 32) ∧
    (∀ first second afterFirst machineFirst stop,
      scheduler.HasRoom (first + second) → -2 ^ 63 ≤ scheduler.credit →
      scheduler.AdvancesChecked machine first ⟨afterFirst, machineFirst, .error stop⟩ →
      ∀ whole, scheduler.AdvancesChecked machine (first + second) whole ↔
        whole = ⟨afterFirst.grant second, machineFirst, .error stop⟩) ∧
    (∀ first second afterFirst machineFirst tickFirst afterSecond machineSecond stop,
      scheduler.Bounded machine (first + second) →
      scheduler.AdvancesChecked machine first ⟨afterFirst, machineFirst, .ok tickFirst⟩ →
      afterFirst.AdvancesChecked machineFirst second
        ⟨afterSecond, machineSecond, .error stop⟩ →
      ∀ whole, scheduler.AdvancesChecked machine (first + second) whole ↔
        whole = ⟨afterSecond, machineSecond, .error stop⟩) ∧
    (∀ slice rest, scheduler.Bounded machine (slice :: rest).sum →
      Interchangeable (Calls AdvancesChecked scheduler machine (slice :: rest))
        (scheduler.AdvancesChecked machine (slice :: rest).sum)) ∧
    (∀ begin first rest, (begin :: first :: rest).Pairwise (· ≤ ·) →
      (scheduler.start (latest begin (first :: rest))).Bounded machine
        (latest begin (first :: rest) - begin) →
      Interchangeable (Calls TicksChecked (scheduler.start begin) machine (first :: rest))
        ((scheduler.start (latest begin (first :: rest))).AdvancesChecked machine
          (latest begin (first :: rest) - begin))) := by
  refine ⟨?_, ?_, ?_, ?_, ?_⟩
  · intro first second afterFirst machineFirst tickFirst afterSecond machineSecond tickSecond
      room owed part rest
    exact advancesChecked_add room owed part rest
  · intro first second afterFirst machineFirst stop room owed part
    exact (advancesChecked_add_of_stop room owed part).iff_eq room owed
  · intro first second afterFirst machineFirst tickFirst afterSecond machineSecond stop
      bounded part rest
    have whole := bounded.add_iff.mpr ⟨_, part, _, rest, rfl⟩
    exact whole.iff_eq bounded.room bounded.owed
  · intro slice rest bounded
    exact bounded.slices
  · intro begin first rest forward bounded
    exact bounded.ticks forward

/-- Two hundred and six milliseconds at a thousand cycles and twenty frames per second, in two
advances, in two ticks and in one piece. The first part ends seven cycles in debt and with an
offer pending. With a second address that is not a restart address, the second offer stops the
machine after fifty-nine cycles: in the first of these parts, or in the second of others. -/
theorem advance_slices_raster :
    let scheduler : Scheduler := { timing := { clockRate := 1000, frameRate := 20 } }
    let rejected : Scheduler :=
      { timing := { clockRate := 1000, frameRate := 20, vectors := (0x08, 0x09) } }
    let stop : Stop := .fault (.invalidVector 0x09)
    (∃ whole, scheduler.AdvancesChecked .raster (73000000 + 133000000) whole ∧
      whole.result = .ok (⟨80, 2, 2⟩ + ⟨130, 6, 0⟩)) ∧
    (∃ whole, rejected.AdvancesChecked .raster (73000000 + 133000000) whole ∧
      whole.result = .error stop) ∧
    (∃ whole, rejected.AdvancesChecked .raster (30000000 + 43000000) whole ∧
      whole.result = .error stop) ∧
    (∃ sliced, Calls AdvancesChecked rejected .raster [30000000, 43000000] sliced ∧
      sliced.result = .error stop) ∧
    (∃ ticked, Calls TicksChecked (scheduler.start 0) .raster [73000000, 206000000] ticked ∧
      ticked.result = .ok ⟨210, 8, 2⟩) := by
  intro scheduler rejected stop
  have room : scheduler.HasRoom (73000000 + 133000000) := ⟨by decide, by decide⟩
  have roomRejected : rejected.HasRoom (73000000 + 133000000) := ⟨by decide, by decide⟩
  have owed : (-2 ^ 63 : Int) ≤ 0 := by decide
  have forward : [0, 73000000, 206000000].Pairwise (· ≤ ·) := by decide
  obtain ⟨returning, -, -, -, ticking⟩ := advance_slices scheduler Machine.raster
  obtain ⟨-, stopping, stoppingLater, slicing, -⟩ := advance_slices rejected Machine.raster
  obtain ⟨⟨_, _, _⟩, ⟨_, _, _⟩, part, rest, results⟩ := exists_of_computed_twice scheduler
    .raster 100 73000000 133000000 (fun part rest : Advance Board => (part.result, rest.result))
    (.ok ⟨80, 2, 2⟩, .ok ⟨130, 6, 0⟩) (by decide +kernel)
  obtain ⟨rfl, rfl⟩ := Prod.mk.inj results
  have whole := (returning _ _ _ _ _ _ _ _ room owed part rest _).mpr ⟨rfl, by decide⟩
  obtain ⟨⟨_, _, _⟩, stopped, rfl⟩ := exists_of_computed rejected .raster 100 73000000
    Advance.result (.error stop) (by decide +kernel)
  have bounded : rejected.Bounded .raster (30000000 + 43000000) :=
    stopped.bounded roomRejected.split.1 owed
  obtain ⟨⟨_, _, _⟩, ⟨_, _, _⟩, before, after, results⟩ := exists_of_computed_twice rejected
    .raster 100 30000000 43000000 (fun part rest : Advance Board => (part.result, rest.result))
    (.ok ⟨34, 0, 0⟩, .error stop) (by decide +kernel)
  obtain ⟨rfl, rfl⟩ := Prod.mk.inj results
  refine ⟨⟨_, whole, rfl⟩, ?_, ?_, ?_, ?_⟩
  · exact ⟨_, (stopping _ _ _ _ _ roomRejected owed stopped _).mpr rfl, rfl⟩
  · exact ⟨_, (stoppingLater _ _ _ _ _ _ _ _ bounded before after _).mpr rfl, rfl⟩
  · obtain ⟨sliced, calls, agrees⟩ := (slicing 30000000 [43000000] bounded).2 _ stopped
    exact ⟨sliced, calls, agrees.2.1⟩
  · have marked := (advancesChecked_start_iff room owed 206000000).mpr ⟨_, rfl, whole⟩
    obtain ⟨ticked, calls, agrees⟩ :=
      (ticking 0 73000000 [206000000] forward (marked.bounded room owed)).2 _ marked
    exact ⟨ticked, calls, agrees.2.1⟩

/-- Six hours. -/
def sixHours : Nat := 6 * 60 * 60 * Timing.nanosPerSecond

/-- With a clock of two million cycles and the shortest half frame, an idle machine is offered more
than two thousand million interrupts in six hours. It can be advanced by six hours and then by
another six, but not by twelve: the offers are too many to be counted. And a slice that was
stopped by an address that is not a restart address must be the last: if the caller goes on with
the next slice, so does the machine. -/
theorem advance_slices_fails :
    let idling : Scheduler := { timing := { clockRate := 2000000, frameRate := 55555 } }
    let rejected : Scheduler :=
      { timing := { clockRate := 1000, frameRate := 20, vectors := (0x09, 0x10) } }
    (idling.HasRoom (sixHours + sixHours) ∧
      (∃ afterFirst machineFirst tickFirst afterSecond machineSecond tickSecond,
        idling.AdvancesChecked .idle sixHours ⟨afterFirst, machineFirst, .ok tickFirst⟩ ∧
        afterFirst.AdvancesChecked machineFirst sixHours
          ⟨afterSecond, machineSecond, .ok tickSecond⟩) ∧
      (∀ whole, ¬ idling.AdvancesChecked .idle (sixHours + sixHours) whole) ∧
      ∃ limit overflow,
        idling.advanceChecked limit .idle (sixHours + sixHours) = .error overflow) ∧
    ∃ part later whole : Advance Board,
      rejected.AdvancesChecked .raster 73000000 part ∧
      part.scheduler.AdvancesChecked part.machine 133000000 later ∧
      rejected.AdvancesChecked .raster (73000000 + 133000000) whole ∧
      part.result = .error (.fault (.invalidVector 0x09)) ∧
      later.machine.cpu.cycles = 75 ∧ whole.machine.cpu.cycles = 34 := by
  intro idling rejected
  constructor
  · have timed : 18 ≤ idling.timing.cyclesPerHalfFrame := by decide
    have slow : idling.timing.clockRate ≤ 18446744073 := by decide
    have restarts : idling.timing.HasRestarts := by decide
    have fits : sixHours ≤ longest := by decide
    have few : idling.timing.due sixHours + 1 ≤
        (2 ^ 32 - 2) * idling.timing.cyclesPerHalfFrame := by decide
    have room : idling.HasRoom (sixHours + sixHours) := ⟨by decide, by decide⟩
    have owed : -2 ^ 63 ≤ idling.credit := by decide
    obtain ⟨afterFirst, machineFirst, tickFirst, part, inRange, spent, idle⟩ :=
      (inRange_fresh timed).idles Machine.idle_idle restarts timed slow fits (Int.le_refl 0) few
    obtain ⟨afterSecond, machineSecond, tickSecond, rest, -⟩ :=
      inRange.idles idle restarts timed slow fits spent few
    have advances := advances_add room owed part rest
    have many : 2 ^ 32 ≤ (tickFirst + tickSecond).presented := by
      have least := advances.presented Machine.idle_idle.table timed (by decide)
      have due : idling.timing.due (sixHours + sixHours) / idling.timing.cyclesPerHalfFrame =
          4800000000 := by decide
      omega
    have none : ∀ whole, ¬ idling.AdvancesChecked .idle (sixHours + sixHours) whole := by
      intro whole computed
      have counted := ((advancesChecked_add room owed part rest whole).mp computed).2
      omega
    exact ⟨room, ⟨_, _, _, _, _, _, part, rest⟩, none,
      exists_overflow room owed advances (none _)⟩
  · obtain ⟨part, later, called, again, seen⟩ := exists_of_computed_twice rejected .raster 100
      73000000 133000000 (fun part later : Advance Board => (part.result, later.machine.cpu.cycles))
      (.error (.fault (.invalidVector 0x09)), 75) (by decide +kernel)
    obtain ⟨stopped, further⟩ := Prod.mk.inj seen
    obtain ⟨whole, single, sooner⟩ := exists_of_computed rejected .raster 100
      (73000000 + 133000000) (fun whole : Advance Board => whole.machine.cpu.cycles) 34
      (by decide +kernel)
    exact ⟨part, later, whole, called, again, single, stopped, further, sooner⟩

end Scheduler

end Intel8080
