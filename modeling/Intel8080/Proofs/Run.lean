import Intel8080.Scheduler

/-!
# Turns and runs of a scheduler

A turn that stops nothing is one of three: an instruction that completed, an
offer that was accepted, an offer that was declined. `Turn` lists them with the
scheduler and the tick that each leaves, so that a proof about turns is a case
analysis and never looks at how a turn is computed.

A run takes turns while there is credit. As a relation it needs no limit: it
holds exactly of what the bounded computation arrives at under some limit, and
then under every larger one. What one turn preserves holds at the end of a run.
-/

namespace Intel8080

namespace Progress

variable {σ ω : Type} [Host σ] {observe : ω → Event → Machine σ → ω}

/-- What a turn has done if it did not stop the machine. An offer is made exactly
when one is pending. -/
inductive Turn (progress : Progress σ) : Event → Progress σ → Prop where
  /-- The next instruction was executed and its cost spent. -/
  | stepped (cost : UInt8) (machine : Machine σ)
      (idle : progress.scheduler.pending = false)
      (completed : progress.machine.step = .ok cost machine) :
      Turn progress (.stepped progress.machine.fetch (.ok cost))
        ⟨progress.scheduler.spend cost.toNat, machine,
          { progress.tick with cycles := progress.tick.cycles + cost.toNat }⟩
  /-- The interrupt was entered; what the counter advanced by was spent. -/
  | accepted (machine : Machine σ)
      (due : progress.scheduler.pending = true)
      (entered : progress.machine.interrupt progress.scheduler.vector = .ok true machine) :
      Turn progress (.offered progress.scheduler.vector (.ok true))
        ⟨progress.scheduler.takeOffer.spend
            (machine.cpu.cycles - progress.machine.cpu.cycles).toNat, machine,
          ⟨progress.tick.cycles + (machine.cpu.cycles - progress.machine.cpu.cycles).toNat,
            progress.tick.presented + 1, progress.tick.accepted + 1⟩⟩
  /-- The offer was lost. -/
  | declined (machine : Machine σ)
      (due : progress.scheduler.pending = true)
      (refused : progress.machine.interrupt progress.scheduler.vector = .ok false machine) :
      Turn progress (.offered progress.scheduler.vector (.ok false))
        ⟨progress.scheduler.takeOffer, machine,
          { progress.tick with presented := progress.tick.presented + 1 }⟩

/-- A turn whose event carries no stop is one of the three. -/
theorem turn_of_going (progress : Progress σ) (going : progress.turn.1.stop? = none) :
    Turn progress progress.turn.1 progress.turn.2 := by
  obtain ⟨scheduler, machine, tick⟩ := progress
  by_cases pending : scheduler.pending = true
  · have offers : turn ⟨scheduler, machine, tick⟩ = offer ⟨scheduler, machine, tick⟩ :=
      if_pos pending
    rw [offers] at going ⊢
    cases answer : machine.interrupt scheduler.vector with
    | ok taken after =>
      cases taken with
      | true =>
        simp only [offer, answer]
        exact .accepted after pending answer
      | false =>
        simp only [offer, answer]
        exact .declined after pending answer
    | error stop after => simp [offer, answer, Event.stop?] at going
  · have executes : turn ⟨scheduler, machine, tick⟩ = execute ⟨scheduler, machine, tick⟩ :=
      if_neg pending
    rw [executes] at going ⊢
    cases status : machine.status with
    | halted stop => simp [execute, status, Event.stop?] at going
    | running =>
      cases performed : machine.perform machine.fetch with
      | ok cost after =>
        have completed : machine.step = .ok cost after := by
          simp only [Machine.step, status, performed]
        simp only [execute, status, performed]
        exact .stepped cost after (by simpa using pending) completed
      | error stop after => simp [execute, status, performed, Event.stop?] at going

/-- Turns taken one after another, from what was seen so far, until the credit is
spent or a turn stops the machine. -/
inductive Run (observe : ω → Event → Machine σ → ω) :
    ω → Progress σ → ω → Advance σ → Prop where
  | spent (seen : ω) (progress : Progress σ) (exhausted : progress.scheduler.credit ≤ 0) :
      Run observe seen progress seen
        ⟨progress.scheduler, progress.machine, .ok progress.tick⟩
  | stopped (seen : ω) (progress : Progress σ) (stop : Stop)
      (inCredit : 0 < progress.scheduler.credit)
      (halting : progress.turn.1.stop? = some stop) :
      Run observe seen progress (observe seen progress.turn.1 progress.turn.2.machine)
        ⟨progress.turn.2.scheduler, progress.turn.2.machine, .error stop⟩
  | turned (seen : ω) (progress : Progress σ) {after : ω} {advance : Advance σ}
      (inCredit : 0 < progress.scheduler.credit)
      (going : progress.turn.1.stop? = none)
      (rest : Run observe (observe seen progress.turn.1 progress.turn.2.machine)
        progress.turn.2 after advance) :
      Run observe seen progress after advance

/-- Without credit no turn is taken, whatever the limit. -/
theorem runObserved_of_spent {progress : Progress σ} (limit : Nat) (seen : ω)
    (exhausted : progress.scheduler.credit ≤ 0) :
    runObserved observe limit seen progress =
      some (seen, ⟨progress.scheduler, progress.machine, .ok progress.tick⟩) := by
  cases limit <;> rw [runObserved, if_pos exhausted]

/-- What the bounded computation arrives at is a run. -/
theorem run_of_runObserved {limit : Nat} {seen after : ω} {progress : Progress σ}
    {advance : Advance σ}
    (computed : runObserved observe limit seen progress = some (after, advance)) :
    Run observe seen progress after advance := by
  induction limit generalizing seen progress with
  | zero =>
    by_cases exhausted : progress.scheduler.credit ≤ 0
    · rw [runObserved_of_spent _ _ exhausted] at computed
      obtain ⟨rfl, rfl⟩ := Prod.mk.inj (Option.some.inj computed)
      exact .spent seen progress exhausted
    · simp [runObserved, exhausted] at computed
  | succ limit inductionHypothesis =>
    by_cases exhausted : progress.scheduler.credit ≤ 0
    · rw [runObserved_of_spent _ _ exhausted] at computed
      obtain ⟨rfl, rfl⟩ := Prod.mk.inj (Option.some.inj computed)
      exact .spent seen progress exhausted
    · have inCredit : 0 < progress.scheduler.credit := by omega
      rw [runObserved, if_neg exhausted] at computed
      cases outcome : progress.turn.1.stop? with
      | some stop =>
        simp only [outcome, Option.some.injEq, Prod.mk.injEq] at computed
        obtain ⟨rfl, rfl⟩ := computed
        exact .stopped seen progress stop inCredit outcome
      | none =>
        simp only [outcome] at computed
        exact .turned seen progress inCredit outcome (inductionHypothesis computed)

/-- The bounded computation arrives at the end of a run under every limit from
some number of turns on. -/
theorem Run.runObserved {seen after : ω} {progress : Progress σ} {advance : Advance σ}
    (run : Run observe seen progress after advance) :
    ∃ turns, ∀ limit, turns ≤ limit →
      runObserved observe limit seen progress = some (after, advance) := by
  induction run with
  | spent seen progress exhausted =>
    exact ⟨0, fun limit _ => runObserved_of_spent limit seen exhausted⟩
  | stopped seen progress stop inCredit halting =>
    refine ⟨1, fun limit enough => ?_⟩
    obtain ⟨limit, rfl⟩ : ∃ fewer, limit = fewer + 1 := ⟨limit - 1, by omega⟩
    have unspent : ¬ progress.scheduler.credit ≤ 0 := by omega
    simp only [Progress.runObserved, if_neg unspent, halting]
  | turned seen progress inCredit going rest inductionHypothesis =>
    obtain ⟨turns, reaches⟩ := inductionHypothesis
    refine ⟨turns + 1, fun limit enough => ?_⟩
    obtain ⟨limit, rfl⟩ : ∃ fewer, limit = fewer + 1 := ⟨limit - 1, by omega⟩
    have unspent : ¬ progress.scheduler.credit ≤ 0 := by omega
    simp only [Progress.runObserved, if_neg unspent, going]
    exact reaches limit (by omega)

/-- A run that begins with a stopping turn is over after it. -/
theorem run_iff_of_halting {seen after : ω} {progress : Progress σ} {advance : Advance σ}
    {stop : Stop} (inCredit : 0 < progress.scheduler.credit)
    (halting : progress.turn.1.stop? = some stop) :
    Run observe seen progress after advance ↔
      after = observe seen progress.turn.1 progress.turn.2.machine ∧
        advance = ⟨progress.turn.2.scheduler, progress.turn.2.machine, .error stop⟩ := by
  constructor
  · intro run
    cases run with
    | spent _ _ exhausted => omega
    | stopped _ _ other _ stops =>
      obtain rfl : stop = other := Option.some.inj (halting.symm.trans stops)
      exact ⟨rfl, rfl⟩
    | turned _ _ _ going _ => simp [halting] at going
  · rintro ⟨rfl, rfl⟩
    exact .stopped seen progress stop inCredit halting

/-- A run that begins with any other turn is that turn and a run from there. -/
theorem run_iff_of_going {seen after : ω} {progress : Progress σ} {advance : Advance σ}
    (inCredit : 0 < progress.scheduler.credit) (going : progress.turn.1.stop? = none) :
    Run observe seen progress after advance ↔
      Run observe (observe seen progress.turn.1 progress.turn.2.machine)
        progress.turn.2 after advance := by
  constructor
  · intro run
    cases run with
    | spent _ _ exhausted => omega
    | stopped _ _ _ _ stops => simp [going] at stops
    | turned _ _ _ _ rest => exact rest
  · exact .turned seen progress inCredit going

/-- There is one end that a run can come to. -/
theorem Run.unique {seen after later : ω} {progress : Progress σ} {advance other : Advance σ}
    (run : Run observe seen progress after advance)
    (again : Run observe seen progress later other) : other = advance := by
  induction run with
  | spent seen progress exhausted =>
    cases again with
    | spent => rfl
    | stopped _ _ _ inCredit => exact absurd exhausted (Int.not_le.mpr inCredit)
    | turned _ _ inCredit => exact absurd exhausted (Int.not_le.mpr inCredit)
  | stopped seen progress stop inCredit halting =>
    exact ((run_iff_of_halting inCredit halting).mp again).2
  | turned seen progress inCredit going rest inductionHypothesis =>
    exact inductionHypothesis ((run_iff_of_going inCredit going).mp again)

/-- An observer has no influence on what it observes. -/
theorem runObserved_unobserved {ω' : Type} (observe : ω → Event → Machine σ → ω)
    (other : ω' → Event → Machine σ → ω') (limit : Nat) (seen : ω) (seen' : ω')
    (progress : Progress σ) :
    (runObserved observe limit seen progress).map Prod.snd =
      (runObserved other limit seen' progress).map Prod.snd := by
  induction limit generalizing seen seen' progress with
  | zero =>
    simp only [Progress.runObserved]
    split <;> rfl
  | succ limit inductionHypothesis =>
    simp only [Progress.runObserved]
    split
    · rfl
    · split
      · rfl
      · exact inductionHypothesis ..

/-- What every turn of a run preserves holds when it returns, and then the credit
is spent. -/
theorem Run.invariant {seen after : ω} {progress : Progress σ} {advance : Advance σ}
    (run : Run observe seen progress after advance) (Inv : ω → Progress σ → Prop)
    (turn : ∀ seen progress event next, Inv seen progress → 0 < progress.scheduler.credit →
      Turn progress event next → Inv (observe seen event next.machine) next)
    (initial : Inv seen progress) {tick : Tick} (returned : advance.result = .ok tick) :
    Inv after ⟨advance.scheduler, advance.machine, tick⟩ ∧ advance.scheduler.credit ≤ 0 := by
  induction run with
  | spent seen progress exhausted =>
    obtain rfl : progress.tick = tick := Except.ok.inj returned
    exact ⟨initial, exhausted⟩
  | stopped seen progress stop inCredit halting => cases returned
  | turned seen progress inCredit going rest inductionHypothesis =>
    exact inductionHypothesis
      (turn seen progress _ _ initial inCredit (turn_of_going progress going)) returned

/-- A run that ends in a stop ends in the turn that caused it, and what every turn
preserves held before that turn. -/
theorem Run.stopping_turn {seen after : ω} {progress : Progress σ} {advance : Advance σ}
    (run : Run observe seen progress after advance) (Inv : ω → Progress σ → Prop)
    (turn : ∀ seen progress event next, Inv seen progress → 0 < progress.scheduler.credit →
      Turn progress event next → Inv (observe seen event next.machine) next)
    (initial : Inv seen progress) {stop : Stop} (returned : advance.result = .error stop) :
    ∃ seen last, Inv seen last ∧ 0 < last.scheduler.credit ∧
      last.turn.1.stop? = some stop ∧ after = observe seen last.turn.1 last.turn.2.machine ∧
      advance = ⟨last.turn.2.scheduler, last.turn.2.machine, .error stop⟩ := by
  induction run with
  | spent seen progress exhausted => cases returned
  | stopped seen progress other inCredit halting =>
    obtain rfl : other = stop := Except.error.inj returned
    exact ⟨seen, progress, initial, inCredit, halting, rfl, rfl⟩
  | turned seen progress inCredit going rest inductionHypothesis =>
    exact inductionHypothesis
      (turn seen progress _ _ initial inCredit (turn_of_going progress going)) returned

end Progress

end Intel8080
