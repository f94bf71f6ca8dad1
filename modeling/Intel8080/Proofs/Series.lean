import Intel8080.Board
import Intel8080.Proofs.Adjustment

/-!
# Series of advances

A caller lets a machine run again and again, for given durations, adds up the ticks
and gives up at the first stop. A single limit bounds the turns of every call. As
with a single run, the relation that leaves the limit out holds exactly of what the
bounded series arrives at under some limit.

What the turns preserve, and what preparing each next call preserves, holds when
the whole series returns. The tick of the invariant is the running total.
-/

namespace Intel8080

namespace Progress

variable {σ ω δ : Type}

/-- Calls one after another with a running total, up to the first that stops the
machine; none if the limit of some call does not suffice. -/
def series (call : ω → Scheduler → Machine σ → δ → Option (ω × Advance σ)) :
    ω → Progress σ → List δ → Option (ω × Advance σ)
  | seen, progress, [] =>
    some (seen, ⟨progress.scheduler, progress.machine, .ok progress.tick⟩)
  | seen, progress, item :: rest =>
    match call seen progress.scheduler progress.machine item with
    | none => none
    | some (seen, ⟨scheduler, machine, .ok tick⟩) =>
      series call seen ⟨scheduler, machine, progress.tick + tick⟩ rest
    | some (seen, ⟨scheduler, machine, .error stop⟩) =>
      some (seen, ⟨scheduler, machine, .error stop⟩)

/-- A series whose calls give the same answers whatever was seen gives the same answer
whatever was seen. -/
theorem series_unobserved {ω' : Type}
    {call : ω → Scheduler → Machine σ → δ → Option (ω × Advance σ)}
    {other : ω' → Scheduler → Machine σ → δ → Option (ω' × Advance σ)}
    (same : ∀ seen seen' scheduler machine item,
      (call seen scheduler machine item).map Prod.snd =
        (other seen' scheduler machine item).map Prod.snd)
    (seen : ω) (seen' : ω') (progress : Progress σ) (items : List δ) :
    (series call seen progress items).map Prod.snd =
      (series other seen' progress items).map Prod.snd := by
  induction items generalizing seen seen' progress with
  | nil => rfl
  | cons item rest inductionHypothesis =>
    have answers := same seen seen' progress.scheduler progress.machine item
    simp only [series]
    cases called : call seen progress.scheduler progress.machine item with
    | none =>
      rw [called] at answers
      rw [Option.map_eq_none_iff.mp answers.symm]
      rfl
    | some answer =>
      obtain ⟨middle, scheduler, machine, result⟩ := answer
      rw [called] at answers
      obtain ⟨⟨middle', _⟩, calledOther, rfl⟩ := Option.map_eq_some_iff.mp answers.symm
      rw [calledOther]
      cases result with
      | ok tick => exact inductionHypothesis ..
      | error stop => rfl

end Progress

namespace Scheduler

variable {σ ω : Type}

/-- A computation whose tick is known has returned it. -/
theorem exists_of_tick {computed : Option (Advance σ)} {tick : Tick}
    (returned : (computed.bind fun advance => advance.result.toOption) = some tick) :
    ∃ scheduler machine, computed = some ⟨scheduler, machine, .ok tick⟩ := by
  obtain ⟨⟨scheduler, machine, result⟩, rfl, answered⟩ := Option.bind_eq_some_iff.mp returned
  cases result with
  | ok value =>
    obtain rfl : value = tick := Option.some.inj answered
    exact ⟨scheduler, machine, rfl⟩
  | error stop => cases answered

variable [Host σ]

/-- Lets a machine run for each of the given times in turn, observed. -/
def advanceEachObserved (observe : ω → Event → Machine σ → ω) (limit : Nat) (seen : ω)
    (scheduler : Scheduler) (machine : Machine σ) (durations : List Nat) :
    Option (ω × Advance σ) :=
  Progress.series (fun seen scheduler machine elapsedNanos =>
    scheduler.advanceObserved observe limit seen machine elapsedNanos)
    seen { scheduler, machine } durations

/-- Lets a machine run for each of the given times in turn. -/
def advanceEach (limit : Nat) (scheduler : Scheduler) (machine : Machine σ)
    (durations : List Nat) : Option (Advance σ) :=
  (advanceEachObserved (fun _ _ _ => ()) limit () scheduler machine durations).map Prod.snd

end Scheduler

namespace Progress

variable {σ ω δ : Type} [Host σ] {observe : ω → Event → Machine σ → ω}
  {launch : Scheduler → δ → Scheduler}

/-- Runs one after another, each from the scheduler that its call prepares. -/
inductive Series (observe : ω → Event → Machine σ → ω) (launch : Scheduler → δ → Scheduler) :
    ω → Progress σ → List δ → ω → Advance σ → Prop where
  | finished (seen : ω) (progress : Progress σ) :
      Series observe launch seen progress []
        seen ⟨progress.scheduler, progress.machine, .ok progress.tick⟩
  | stopped {seen after : ω} {progress : Progress σ} {item : δ} (rest : List δ)
      {scheduler : Scheduler} {machine : Machine σ} {stop : Stop}
      (run : Run observe seen ⟨launch progress.scheduler item, progress.machine, {}⟩
        after ⟨scheduler, machine, .error stop⟩) :
      Series observe launch seen progress (item :: rest) after ⟨scheduler, machine, .error stop⟩
  | returned {seen middle after : ω} {progress : Progress σ} {item : δ} {rest : List δ}
      {scheduler : Scheduler} {machine : Machine σ} {tick : Tick} {advance : Advance σ}
      (run : Run observe seen ⟨launch progress.scheduler item, progress.machine, {}⟩
        middle ⟨scheduler, machine, .ok tick⟩)
      (others : Series observe launch middle ⟨scheduler, machine, progress.tick + tick⟩ rest
        after advance) :
      Series observe launch seen progress (item :: rest) after advance

/-- What the bounded series arrives at is a series of runs. -/
theorem series_of_computed {limit : Nat} {seen after : ω} {progress : Progress σ}
    {items : List δ} {advance : Advance σ}
    (computed : series (fun seen scheduler machine item =>
      runObserved observe limit seen { scheduler := launch scheduler item, machine })
      seen progress items = some (after, advance)) :
    Series observe launch seen progress items after advance := by
  induction items generalizing seen progress with
  | nil =>
    obtain ⟨rfl, rfl⟩ : seen = after ∧ _ = advance := by simpa [series] using computed
    exact .finished seen progress
  | cons item rest inductionHypothesis =>
    rw [series] at computed
    split at computed
    · cases computed
    · rename_i middle scheduler machine tick called
      exact .returned (run_of_runObserved called) (inductionHypothesis computed)
    · rename_i middle scheduler machine stop called
      obtain ⟨rfl, rfl⟩ : middle = after ∧ _ = advance := by simpa using computed
      exact .stopped rest (run_of_runObserved called)

/-- The bounded series arrives at the end of a series of runs under every limit from
some number of turns on: the greatest number that any of its runs takes. -/
theorem Series.computed {seen after : ω} {progress : Progress σ} {items : List δ}
    {advance : Advance σ} (runs : Series observe launch seen progress items after advance) :
    ∃ turns, ∀ limit, turns ≤ limit →
      series (fun seen scheduler machine item =>
        runObserved observe limit seen { scheduler := launch scheduler item, machine })
        seen progress items = some (after, advance) := by
  induction runs with
  | finished seen progress => exact ⟨0, fun _ _ => rfl⟩
  | stopped rest run =>
    obtain ⟨turns, reaches⟩ := run.runObserved
    refine ⟨turns, fun limit enough => ?_⟩
    simp only [series, reaches limit enough]
  | returned run others inductionHypothesis =>
    obtain ⟨first, reachesFirst⟩ := run.runObserved
    obtain ⟨later, reachesLater⟩ := inductionHypothesis
    refine ⟨max first later, fun limit enough => ?_⟩
    simp only [series, reachesFirst limit (by omega)]
    exact reachesLater limit (by omega)

/-- What every turn and every call preserve holds when a series returns. The
invariant may speak of the items still to come. Each run starts from an empty tick;
restarted from the running total it does the same, which is what the invariant
follows. -/
theorem Series.invariant {seen after : ω} {progress : Progress σ} {items : List δ}
    {advance : Advance σ} (runs : Series observe launch seen progress items after advance)
    (Inv : List δ → ω → Progress σ → Prop)
    (turn : ∀ items seen progress event next, Inv items seen progress →
      0 < progress.scheduler.credit → Turn progress event next →
      Inv items (observe seen event next.machine) next)
    (call : ∀ item rest seen progress, Inv (item :: rest) seen progress →
      progress.scheduler.credit ≤ 0 →
      Inv rest seen { progress with scheduler := launch progress.scheduler item })
    (initial : Inv items seen progress) (settled : progress.scheduler.credit ≤ 0)
    {tick : Tick} (returned : advance.result = .ok tick) :
    Inv [] after ⟨advance.scheduler, advance.machine, tick⟩ ∧
      advance.scheduler.credit ≤ 0 := by
  induction runs with
  | finished seen progress =>
    obtain rfl : progress.tick = tick := Except.ok.inj returned
    exact ⟨initial, settled⟩
  | stopped rest run => cases returned
  | @returned seen middle after progress item rest scheduler machine first advance run others
      inductionHypothesis =>
    have launched := call item rest seen progress initial settled
    obtain ⟨kept, spent⟩ := (run.add_tick progress.tick).invariant (Inv rest) (turn rest) launched rfl
    exact inductionHypothesis kept spent returned

end Progress

namespace Scheduler

open Progress

variable {σ ω : Type} [Host σ] {observe : ω → Event → Machine σ → ω}

/-- Any observer can watch a series of advances: it ends as it does unobserved. -/
theorem exists_observed (observe : ω → Event → Machine σ → ω) (seen : ω) {limit : Nat}
    {scheduler : Scheduler} {machine : Machine σ} {durations : List Nat} {advance : Advance σ}
    (computed : advanceEach limit scheduler machine durations = some advance) :
    ∃ after, advanceEachObserved observe limit seen scheduler machine durations =
      some (after, advance) := by
  have observed : (advanceEachObserved observe limit seen scheduler machine durations).map
      Prod.snd = some advance := by
    rw [← computed]
    refine series_unobserved (fun _ _ _ _ _ => ?_) ..
    exact runObserved_unobserved ..
  obtain ⟨⟨after, _⟩, reached, rfl⟩ := Option.map_eq_some_iff.mp observed
  exact ⟨after, reached⟩

/-- A bounded series of advances is a series of runs, each after its grant. -/
theorem series_of_advanceEachObserved {limit : Nat} {seen after : ω} {scheduler : Scheduler}
    {machine : Machine σ} {durations : List Nat} {advance : Advance σ}
    (computed : advanceEachObserved observe limit seen scheduler machine durations =
      some (after, advance)) :
    Series observe grant seen { scheduler, machine } durations after advance :=
  series_of_computed computed

/-- The same where nothing is observed. -/
theorem series_of_advanceEach {limit : Nat} {scheduler : Scheduler} {machine : Machine σ}
    {durations : List Nat} {advance : Advance σ}
    (computed : advanceEach limit scheduler machine durations = some advance) :
    Series (fun _ _ _ => ()) grant () { scheduler, machine } durations () advance := by
  obtain ⟨⟨seen, ended⟩, observed, rfl⟩ := Option.map_eq_some_iff.mp computed
  exact series_of_computed observed

end Scheduler

/-- A machine with a program that enables interrupts and spins. The handler at the first
of the default restart addresses enables them again; the handler at the second only
returns, so that from then on every offer is declined. -/
def Machine.raster : Machine Board :=
  .start .canonical (Board.blank.load 0 [0x31, 0x20, 0x00, 0xFB, 0xC3, 0x04, 0x00, 0x00,
    0xFB, 0xC9, 0x00, 0x00, 0x00, 0x00, 0x00, 0x00, 0xC9])

end Intel8080
