import Mathlib
import Intel8080.Proofs.Bounds
import Intel8080.Proofs.Entry
import Intel8080.Proofs.Sessions
import Intel8080.Proofs.Cutting

/-!
# Offers where there is no restart

A timing may name an address where there is no restart. An offer there is rejected, and the
advance ends in the middle with the machine still running. Nothing is lost by it: the turns
before remain, the credit that was not spent stays for the next call, and the next offer is
at the other address.

A caller that goes on with advances of no time, as often as it takes, therefore arrives where
a tolerant scheduler arrives in one call: a scheduler that takes an offer where there is no
restart for a declined one. Whether an offer was rejected or a host failed with the same
fault is told by the machine, which runs on after the one and is halted by the other.
-/

namespace Intel8080

namespace Advance

variable {σ : Type}

/-- The scheduler had an offer rejected: an invalid vector is reported, and the machine is
running nevertheless. -/
def Rejected (advance : Advance σ) : Prop :=
  (∃ vector, advance.result = .error (.fault (.invalidVector vector))) ∧
    advance.machine.status = .running

theorem not_rejected_of_ok (scheduler : Scheduler) (machine : Machine σ) (tick : Tick) :
    ¬ Rejected ⟨scheduler, machine, .ok tick⟩ := by
  rintro ⟨⟨_, returned⟩, -⟩
  cases returned

theorem not_rejected_of_halted {advance : Advance σ} {stop : Stop}
    (halted : advance.machine.status = .halted stop) : ¬ advance.Rejected := by
  rintro ⟨-, running⟩
  rw [halted] at running
  cases running

/-- All that an advance left but the tick, which a rejected one does not report. -/
def ending (advance : Advance σ) : Scheduler × Machine σ × Except Stop Unit :=
  (advance.scheduler, advance.machine, advance.result.map fun _ => ())

@[simp] theorem ending_adjusted (advance : Advance σ) (before : Tick) :
    (advance.adjusted id before).ending = advance.ending := by
  obtain ⟨scheduler, machine, result⟩ := advance
  cases result <;> rfl

theorem rejected_adjusted (advance : Advance σ) (before : Tick) :
    (advance.adjusted id before).Rejected ↔ advance.Rejected := by
  obtain ⟨scheduler, machine, result⟩ := advance
  cases result <;> simp [Rejected, adjusted, Except.map]

end Advance

namespace Machine

variable {σ : Type}

/-- An attempt that reports a stop has left the machine halted by it. -/
theorem Attempt.halted {α : Type} {machine after : Machine σ} {stop : Stop}
    (attempt : Attempt machine (.error stop after : Reply Stop (Machine σ) α)) :
    after.status = .halted stop := by
  cases attempt with
  | failed _ _ _ halted => exact halted
  | refused _ halted => exact halted

variable [Host σ]

/-- A request at a restart address is an attempt at entering it. -/
theorem attempt_interrupt (machine : Machine σ) {address : UInt8} (restarts : IsRestart address) :
    Attempt machine (machine.interrupt address) := by
  obtain ⟨restart, found⟩ :=
    Option.isSome_iff_exists.mp ((Instruction.isSome_restartTo?_iff address).mpr restarts)
  rw [interrupt, found]
  exact attempt_inject machine restart

/-- A machine that has answered a request is running. -/
theorem running_of_answered {machine after : Machine σ} {address : UInt8} {taken : Bool}
    (answered : machine.interrupt address = .ok taken after) : after.status = .running := by
  by_cases restarts : IsRestart address
  · have attempt := machine.attempt_interrupt restarts
    rw [answered] at attempt
    cases attempt with
    | passed _ _ _ still => exact still
  · rw [interrupt_of_not_isRestart machine restarts] at answered
    cases answered

end Machine

namespace Scheduler

/-- The fraction is less than a cycle and the credit keeps to its limit, as after a grant. -/
structure Settled (scheduler : Scheduler) : Prop where
  fraction : scheduler.fraction < Timing.nanosPerSecond
  credit : scheduler.credit ≤ maxCredit

theorem settled_grant (scheduler : Scheduler) (elapsedNanos : Nat) :
    (scheduler.grant elapsedNanos).Settled :=
  ⟨Nat.mod_lt _ (by decide), Int.min_le_right _ _⟩

/-- A settled scheduler is granted nothing for no time. -/
theorem Settled.grant_zero {scheduler : Scheduler} (settled : scheduler.Settled) :
    scheduler.grant 0 = scheduler := by
  obtain ⟨fraction, credit⟩ := settled
  have budget : scheduler.budget 0 = 0 := by
    rw [budget, scaled, Nat.zero_mul, Nat.zero_add, Nat.div_eq_of_lt fraction, Nat.zero_min]
  simp only [grant, budget, scaled, Nat.zero_mul, Nat.zero_add, Nat.mod_eq_of_lt fraction,
    Nat.cast_zero, Int.add_zero, Int.min_eq_left credit]

theorem Settled.takeOffer {scheduler : Scheduler} (settled : scheduler.Settled) :
    scheduler.takeOffer.Settled :=
  ⟨settled.fraction, settled.credit⟩

theorem Settled.spend {scheduler : Scheduler} (settled : scheduler.Settled) (cost : Nat) :
    (scheduler.spend cost).Settled := by
  obtain ⟨fraction, credit⟩ := settled
  refine ⟨by rwa [fraction_spend], ?_⟩
  rw [credit_spend]
  omega

end Scheduler

namespace Progress

variable {σ ω : Type}

/-- An offer is pending where there is no restart. -/
def Misdirected (progress : Progress σ) : Prop :=
  progress.scheduler.pending = true ∧ ¬ IsRestart progress.scheduler.vector

instance (progress : Progress σ) : Decidable progress.Misdirected :=
  inferInstanceAs (Decidable (_ ∧ _))

/-- An advance can go on from here as if it had just begun: the machine runs, and granting
no time would change nothing. -/
structure Resumable (progress : Progress σ) : Prop where
  running : progress.machine.status = .running
  settled : progress.scheduler.Settled

/-- What becomes of an advance when the pending offer is gone and nothing else has changed. -/
def passOver (progress : Progress σ) : Progress σ :=
  ⟨progress.scheduler.takeOffer, progress.machine,
    { progress.tick with presented := progress.tick.presented + 1 }⟩

theorem Resumable.passOver {progress : Progress σ} (resumable : progress.Resumable) :
    progress.passOver.Resumable :=
  ⟨resumable.running, resumable.settled.takeOffer⟩

variable [Host σ] {observe : ω → Event → Machine σ → ω}

/-- A misdirected offer is rejected, and only the offer is gone. -/
theorem turn_of_misdirected {progress : Progress σ} (misdirected : progress.Misdirected) :
    progress.turn = (.offered progress.scheduler.vector
      (.error (.fault (.invalidVector progress.scheduler.vector))), progress.passOver) := by
  obtain ⟨scheduler, machine, tick⟩ := progress
  obtain ⟨due, nowhere⟩ := misdirected
  have offers : turn ⟨scheduler, machine, tick⟩ = offer ⟨scheduler, machine, tick⟩ := if_pos due
  rw [offers]
  simp only [offer, Machine.interrupt_of_not_isRestart machine nowhere]
  rfl

/-- Any other turn that stops has halted the machine by what it reports. -/
theorem halted_of_stop {progress : Progress σ} {stop : Stop}
    (directed : ¬ progress.Misdirected) (stops : progress.turn.1.stop? = some stop) :
    progress.turn.2.machine.status = .halted stop := by
  obtain ⟨scheduler, machine, tick⟩ := progress
  cases pending : scheduler.pending with
  | true =>
    have restarts : IsRestart scheduler.vector := by
      by_contra nowhere
      exact directed ⟨pending, nowhere⟩
    have attempt := machine.attempt_interrupt restarts
    simp only [turn, pending, if_true, offer] at stops ⊢
    generalize machine.interrupt scheduler.vector = reply at attempt stops ⊢
    cases reply with
    | ok taken after => cases taken <;> cases stops
    | error reason after =>
      obtain rfl : reason = stop := Option.some.inj stops
      exact attempt.halted
  | false =>
    simp only [turn, pending, Bool.false_eq_true, if_false, execute] at stops ⊢
    cases status : machine.status with
    | halted reason =>
      simp only [status] at stops ⊢
      obtain rfl : reason = stop := Option.some.inj stops
      rfl
    | running =>
      have attempt := machine.attempt_step
      rw [Machine.step_of_running status] at attempt
      simp only [status] at stops ⊢
      generalize machine.perform machine.fetch = reply at attempt stops ⊢
      cases reply with
      | ok cost after => cases stops
      | error reason after =>
        obtain rfl : reason = stop := Option.some.inj stops
        exact attempt.halted

/-- A turn that stops nothing leaves a state to go on from. -/
theorem Turn.resumable {now next : Progress σ} {event : Event} (turn : Turn now event next)
    (resumable : now.Resumable) : next.Resumable := by
  obtain ⟨running, settled⟩ := resumable
  cases turn with
  | stepped cost machine _ completed =>
    obtain ⟨_, _, _, _, _, _, _, -, still⟩ := Machine.step_ok completed
    exact ⟨still, settled.spend _⟩
  | accepted machine _ entered =>
    exact ⟨Machine.running_of_answered entered, settled.takeOffer.spend _⟩
  | declined machine _ refused =>
    exact ⟨Machine.running_of_answered refused, settled.takeOffer⟩

/-- Credit turns into cycles run. -/
theorem Turn.account {now next : Progress σ} {event : Event} (turn : Turn now event next) :
    next.scheduler.credit + next.tick.cycles = now.scheduler.credit + now.tick.cycles := by
  cases turn with
  | stepped =>
    simp only [Scheduler.credit_spend]
    omega
  | accepted =>
    simp only [Scheduler.credit_spend, Scheduler.takeOffer]
    omega
  | declined => rfl

/-- A turn that makes no offer leaves the next one at the same address. -/
theorem Turn.vector {now next : Progress σ} {event : Event} (turn : Turn now event next) :
    now.tick.presented ≤ next.tick.presented ∧
      (next.tick.presented = now.tick.presented →
        next.scheduler.vector = now.scheduler.vector) := by
  cases turn with
  | stepped =>
    refine ⟨Nat.le_refl _, fun _ => ?_⟩
    simp only [Scheduler.vector, Scheduler.second_spend, Scheduler.timing_spend]
  | accepted => exact ⟨Nat.le_succ _, fun unoffered => absurd unoffered (Nat.succ_ne_self _)⟩
  | declined => exact ⟨Nat.le_succ _, fun unoffered => absurd unoffered (Nat.succ_ne_self _)⟩

section Reached

variable {start now : Progress σ}

theorem Reaches.resumable (reaches : Reaches start now) (resumable : start.Resumable) :
    now.Resumable := by
  induction reaches with
  | refl => exact resumable
  | tail _ follows inductionHypothesis => exact follows.turn.resumable inductionHypothesis

theorem Reaches.account (reaches : Reaches start now) :
    now.scheduler.credit + now.tick.cycles = start.scheduler.credit + start.tick.cycles := by
  induction reaches with
  | refl => rfl
  | tail _ follows inductionHypothesis => exact follows.turn.account.trans inductionHypothesis

/-- Until an offer is made, the next one is at the same address. -/
theorem Reaches.vector (reaches : Reaches start now) :
    start.tick.presented ≤ now.tick.presented ∧
      (now.tick.presented = start.tick.presented →
        now.scheduler.vector = start.scheduler.vector) := by
  induction reaches with
  | refl => exact ⟨Nat.le_refl _, fun _ => rfl⟩
  | tail _ follows inductionHypothesis =>
    obtain ⟨least, same⟩ := inductionHypothesis
    obtain ⟨further, alike⟩ := follows.turn.vector
    refine ⟨Nat.le_trans least further, fun unoffered => ?_⟩
    exact (alike (by omega)).trans (same (by omega))

/-- A run that ends in a stop came through the state whose turn stopped it. -/
theorem Run.reaches_last {seen after : ω} {advance : Advance σ} {stop : Stop}
    (run : Run observe seen start after advance) (returned : advance.result = .error stop) :
    ∃ last, Reaches start last ∧ 0 < last.scheduler.credit ∧ last.turn.1.stop? = some stop ∧
      advance = ⟨last.turn.2.scheduler, last.turn.2.machine, .error stop⟩ := by
  induction run with
  | spent => cases returned
  | stopped seen start other inCredit halting =>
    obtain rfl : other = stop := Except.error.inj returned
    exact ⟨start, .refl, inCredit, halting, rfl⟩
  | turned seen start inCredit going rest inductionHypothesis =>
    obtain ⟨last, reaches, unspent, halting, ended⟩ := inductionHypothesis returned
    exact ⟨last, .head ⟨inCredit, going, rfl⟩ reaches, unspent, halting, ended⟩

/-- The advance goes on from every state that it comes through. -/
theorem Reaches.run_iff {advance : Advance σ} (reaches : Reaches start now) :
    Run (fun _ _ _ => ()) () start () advance ↔ Run (fun _ _ _ => ()) () now () advance := by
  induction reaches with
  | refl => rfl
  | tail _ follows inductionHypothesis =>
    obtain ⟨inCredit, going, rfl⟩ := follows
    exact inductionHypothesis.trans (run_iff_of_going inCredit going)

end Reached

/-- How an advance ended in a rejected offer. It came through a state in credit at which an
offer was pending where there is no restart. Of this state only the offer is gone: the
machine, the credit, the phase and all else are as they were, and whatever time is granted
next, the next offer is at the other address. -/
structure Rejection (start last : Progress σ) (address : UInt8) (advance : Advance σ) :
    Prop where
  reached : Reaches start last
  inCredit : 0 < last.scheduler.credit
  due : last.scheduler.pending = true
  offered : last.scheduler.vector = address
  nowhere : ¬ IsRestart address
  result : advance.result = .error (.fault (.invalidVector address))
  machine : advance.machine = last.machine
  running : advance.machine.status = .running
  scheduler : advance.scheduler =
    { last.scheduler with pending := false, second := !last.scheduler.second }
  account : advance.scheduler.credit + last.tick.cycles = start.scheduler.credit
  alternates : last.scheduler.timing.vectors =
    if last.scheduler.second then (advance.scheduler.vector, address)
    else (address, advance.scheduler.vector)
  next : ∀ elapsedNanos later,
    Reaches ⟨advance.scheduler.grant elapsedNanos, advance.machine, {}⟩ later →
    later.tick.presented = 0 → later.scheduler.vector = advance.scheduler.vector

section Rejecting

variable {scheduler : Scheduler} {machine : Machine σ} {last : Progress σ}

/-- This is how an advance ends that comes to a misdirected offer. -/
theorem Reaches.rejection (reached : Reaches { scheduler, machine } last)
    (running : last.machine.status = .running) (inCredit : 0 < last.scheduler.credit)
    (misdirected : last.Misdirected) :
    Rejection { scheduler, machine } last last.scheduler.vector
      ⟨last.passOver.scheduler, last.machine,
        .error (.fault (.invalidVector last.scheduler.vector))⟩ where
  reached := reached
  inCredit := inCredit
  due := misdirected.1
  offered := rfl
  nowhere := misdirected.2
  result := rfl
  machine := rfl
  running := running
  scheduler := rfl
  account := by simpa [passOver, Scheduler.takeOffer] using reached.account
  alternates := by
    cases side : last.scheduler.second <;>
      simp [passOver, Scheduler.takeOffer, Scheduler.vector, side]
  next _ _ reaches unoffered := reaches.vector.2 unoffered

/-- And it does end so. -/
theorem Reaches.run_of_misdirected (reached : Reaches { scheduler, machine } last)
    (inCredit : 0 < last.scheduler.credit) (misdirected : last.Misdirected) :
    Run (fun _ _ _ => ()) () { scheduler, machine } ()
      ⟨last.passOver.scheduler, last.machine,
        .error (.fault (.invalidVector last.scheduler.vector))⟩ := by
  have turned := turn_of_misdirected misdirected
  have halting : last.turn.1.stop? = some (.fault (.invalidVector last.scheduler.vector)) := by
    rw [turned]
    rfl
  rw [reached.run_iff, run_iff_of_halting inCredit halting, turned]
  exact ⟨rfl, rfl⟩

/-- An invalid vector is reported by a machine that is halted, or for an offer of the
scheduler's own. -/
theorem Run.rejection {seen after : ω} {advance : Advance σ} {address : UInt8}
    (run : Run observe seen { scheduler, machine } after advance)
    (resumable : Resumable { scheduler, machine })
    (returned : advance.result = .error (.fault (.invalidVector address))) :
    advance.machine.status = .halted (.fault (.invalidVector address)) ∨
      ∃ last, Rejection { scheduler, machine } last address advance := by
  obtain ⟨last, reached, inCredit, halting, rfl⟩ := run.reaches_last returned
  by_cases misdirected : last.Misdirected
  · rw [turn_of_misdirected misdirected] at halting ⊢
    obtain rfl : last.scheduler.vector = address := by simpa [Event.stop?] using halting
    exact .inr ⟨last, reached.rejection (reached.resumable resumable).running inCredit misdirected⟩
  · exact .inl (halted_of_stop misdirected halting)

end Rejecting

/-- A turn of a tolerant scheduler, which takes a misdirected offer for a declined one. -/
def tolerantTurn (progress : Progress σ) : Event × Progress σ :=
  if progress.Misdirected then
    (.offered progress.scheduler.vector (.ok false), progress.passOver)
  else progress.turn

/-- Takes such turns until the credit is spent or the machine stops, at most the given number
of them; none if that does not suffice. -/
def runTolerantly : Nat → Progress σ → Option (Advance σ)
  | limit, progress =>
    if progress.scheduler.credit ≤ 0 then
      some ⟨progress.scheduler, progress.machine, .ok progress.tick⟩
    else match limit with
      | 0 => none
      | limit + 1 =>
        let (event, progress) := progress.tolerantTurn
        match event.stop? with
        | some stop => some ⟨progress.scheduler, progress.machine, .error stop⟩
        | none => runTolerantly limit progress

/-- A tolerant run ends, under some limit on its turns, with the given outcome. -/
def Tolerantly (progress : Progress σ) (advance : Advance σ) : Prop :=
  ∃ limit, runTolerantly limit progress = some advance

section Tolerant

variable {progress : Progress σ} {advance : Advance σ}

theorem tolerantTurn_of_misdirected (misdirected : progress.Misdirected) :
    progress.tolerantTurn =
      (.offered progress.scheduler.vector (.ok false), progress.passOver) :=
  if_pos misdirected

theorem tolerantTurn_of_directed (directed : ¬ progress.Misdirected) :
    progress.tolerantTurn = progress.turn :=
  if_neg directed

theorem runTolerantly_of_spent (limit : Nat) (exhausted : progress.scheduler.credit ≤ 0) :
    runTolerantly limit progress =
      some ⟨progress.scheduler, progress.machine, .ok progress.tick⟩ := by
  cases limit <;> rw [runTolerantly, if_pos exhausted]

theorem tolerantly_of_halting {stop : Stop} (inCredit : 0 < progress.scheduler.credit)
    (halting : progress.tolerantTurn.1.stop? = some stop) :
    progress.Tolerantly
      ⟨progress.tolerantTurn.2.scheduler, progress.tolerantTurn.2.machine, .error stop⟩ := by
  have unspent : ¬ progress.scheduler.credit ≤ 0 := by omega
  exact ⟨1, by simp only [runTolerantly, if_neg unspent, halting]⟩

theorem tolerantly_of_going (inCredit : 0 < progress.scheduler.credit)
    (going : progress.tolerantTurn.1.stop? = none)
    (rest : progress.tolerantTurn.2.Tolerantly advance) : progress.Tolerantly advance := by
  obtain ⟨limit, computed⟩ := rest
  have unspent : ¬ progress.scheduler.credit ≤ 0 := by omega
  exact ⟨limit + 1, by simp only [runTolerantly, if_neg unspent, going, computed]⟩

/-- What the tick held before passes through a tolerant turn. -/
theorem tolerantTurn_adjusted (progress : Progress σ) (before : Tick) :
    (progress.adjusted id before).tolerantTurn =
      (progress.tolerantTurn.1, progress.tolerantTurn.2.adjusted id before) := by
  by_cases misdirected : progress.Misdirected
  · have alike : (progress.adjusted id before).Misdirected := misdirected
    rw [tolerantTurn_of_misdirected misdirected, tolerantTurn_of_misdirected alike]
    rfl
  · have alike : ¬ (progress.adjusted id before).Misdirected := misdirected
    rw [tolerantTurn_of_directed misdirected, tolerantTurn_of_directed alike]
    exact turn_adjusted Scheduler.neutral_id progress before trivial

/-- A tolerant run that begins with an earlier tick in hand adds its own to it. -/
theorem runTolerantly_adjusted (limit : Nat) (progress : Progress σ) (before : Tick) :
    runTolerantly limit (progress.adjusted id before) =
      (runTolerantly limit progress).map (·.adjusted id before) := by
  induction limit generalizing progress with
  | zero =>
    by_cases exhausted : progress.scheduler.credit ≤ 0
    · have alike : (progress.adjusted id before).scheduler.credit ≤ 0 := exhausted
      rw [runTolerantly_of_spent _ exhausted, runTolerantly_of_spent _ alike]
      rfl
    · have alike : ¬ (progress.adjusted id before).scheduler.credit ≤ 0 := exhausted
      simp only [runTolerantly, if_neg exhausted, if_neg alike, Option.map_none]
  | succ limit inductionHypothesis =>
    by_cases exhausted : progress.scheduler.credit ≤ 0
    · have alike : (progress.adjusted id before).scheduler.credit ≤ 0 := exhausted
      rw [runTolerantly_of_spent _ exhausted, runTolerantly_of_spent _ alike]
      rfl
    · have alike : ¬ (progress.adjusted id before).scheduler.credit ≤ 0 := exhausted
      simp only [runTolerantly, if_neg exhausted, if_neg alike, tolerantTurn_adjusted]
      cases progress.tolerantTurn.1.stop? with
      | some stop => rfl
      | none => exact inductionHypothesis _

/-- A tolerant run ends in the same way if it begins with an empty tick. -/
theorem runTolerantly_fresh {limit : Nat} (computed : runTolerantly limit progress = some advance) :
    ∃ plain, runTolerantly limit { scheduler := progress.scheduler, machine := progress.machine } =
      some plain ∧ plain.ending = advance.ending := by
  have whole : runTolerantly limit (Progress.adjusted
      { scheduler := progress.scheduler, machine := progress.machine } id progress.tick) =
        some advance := computed
  rw [runTolerantly_adjusted] at whole
  obtain ⟨plain, begins, rfl⟩ := Option.map_eq_some_iff.mp whole
  exact ⟨plain, begins, (plain.ending_adjusted progress.tick).symm⟩

/-- If every opcode has a base cost, as many turns as the weight allows are enough for a
tolerant run as well. -/
theorem exists_runTolerantly {limit : Nat} (charging : progress.machine.table.Charging)
    (enough : progress.weight ≤ limit) :
    ∃ advance, runTolerantly limit progress = some advance := by
  induction limit generalizing progress with
  | zero =>
    have exhausted : progress.scheduler.credit ≤ 0 := by
      simp only [weight] at enough
      omega
    exact ⟨_, runTolerantly_of_spent _ exhausted⟩
  | succ limit inductionHypothesis =>
    by_cases exhausted : progress.scheduler.credit ≤ 0
    · exact ⟨_, runTolerantly_of_spent _ exhausted⟩
    · have inCredit : 0 < progress.scheduler.credit := by omega
      by_cases misdirected : progress.Misdirected
      · have smaller : progress.passOver.weight < progress.weight := by
          simp [weight, passOver, Scheduler.takeOffer, misdirected.1]
        simp only [runTolerantly, if_neg exhausted, tolerantTurn_of_misdirected misdirected]
        exact inductionHypothesis charging (by omega)
      · simp only [runTolerantly, if_neg exhausted, tolerantTurn_of_directed misdirected]
        cases outcome : progress.turn.1.stop? with
        | some stop => exact ⟨_, rfl⟩
        | none =>
          have turn := turn_of_going progress outcome
          have smaller := turn.weight_lt inCredit charging
          refine inductionHypothesis ?_ (by omega)
          rw [turn.table]
          exact charging

end Tolerant

/-- A run that was not rejected is a tolerant run. One that was rejected is the beginning of
whatever tolerant run goes on from where it ended. -/
theorem Run.tolerantly {seen after : ω} {progress : Progress σ} {advance : Advance σ}
    (run : Run observe seen progress after advance) (resumable : progress.Resumable) :
    (¬ advance.Rejected ∧ progress.Tolerantly advance) ∨
      (advance.Rejected ∧ advance.scheduler.Settled ∧
        ∃ tick, ∀ ended, Tolerantly ⟨advance.scheduler, advance.machine, tick⟩ ended →
          progress.Tolerantly ended) := by
  induction run with
  | spent seen progress exhausted =>
    exact .inl ⟨Advance.not_rejected_of_ok _ _ _, 0, runTolerantly_of_spent 0 exhausted⟩
  | stopped seen progress stop inCredit halting =>
    by_cases misdirected : progress.Misdirected
    · have tolerant := tolerantTurn_of_misdirected misdirected
      rw [turn_of_misdirected misdirected] at halting ⊢
      obtain rfl := Option.some.inj halting
      refine .inr ⟨⟨⟨_, rfl⟩, resumable.running⟩, resumable.passOver.settled,
        progress.passOver.tick, fun ended rest => ?_⟩
      exact tolerantly_of_going inCredit (by rw [tolerant]; rfl) (by rw [tolerant]; exact rest)
    · have halted := halted_of_stop misdirected halting
      refine .inl ⟨Advance.not_rejected_of_halted halted, ?_⟩
      rw [← tolerantTurn_of_directed misdirected] at halting ⊢
      exact tolerantly_of_halting inCredit halting
  | turned seen progress inCredit going rest inductionHypothesis =>
    have directed : ¬ progress.Misdirected := by
      intro misdirected
      rw [turn_of_misdirected misdirected] at going
      cases going
    have later : ∀ ended, progress.turn.2.Tolerantly ended → progress.Tolerantly ended := by
      rw [← tolerantTurn_of_directed directed] at going ⊢
      exact fun ended => tolerantly_of_going inCredit going
    rcases inductionHypothesis ((turn_of_going progress going).resumable resumable) with
      ⟨fine, tolerant⟩ | ⟨rejected, settled, tick, continues⟩
    · exact .inl ⟨fine, later _ tolerant⟩
    · exact .inr ⟨rejected, settled, tick, fun ended rest => later _ (continues ended rest)⟩

end Progress

namespace Scheduler

open Progress

variable {σ : Type} [Host σ]

/-- A tolerant scheduler lets a machine run for the given time and ends, under some limit on
its turns, with the given outcome. -/
def AdvancesTolerantly (scheduler : Scheduler) (machine : Machine σ) (elapsedNanos : Nat)
    (advance : Advance σ) : Prop :=
  Tolerantly { scheduler := scheduler.grant elapsedNanos, machine } advance

/-- An advance, and as often as the scheduler had an offer rejected one more of no time, ends
with the given outcome of the last. -/
inductive Perseveres : Scheduler → Machine σ → Nat → Advance σ → Prop where
  | settled {scheduler : Scheduler} {machine : Machine σ} {elapsedNanos : Nat}
      {advance : Advance σ} (ends : scheduler.Advances machine elapsedNanos advance)
      (fine : ¬ advance.Rejected) : Perseveres scheduler machine elapsedNanos advance
  | again {scheduler : Scheduler} {machine : Machine σ} {elapsedNanos : Nat}
      {rejected advance : Advance σ} (ends : scheduler.Advances machine elapsedNanos rejected)
      (rejection : rejected.Rejected)
      (rest : Perseveres rejected.scheduler rejected.machine 0 advance) :
      Perseveres scheduler machine elapsedNanos advance

section Persevering

variable {scheduler : Scheduler} {machine : Machine σ} {elapsedNanos : Nat}

/-- To persevere for no time once a duration is granted is to persevere for it. -/
theorem Perseveres.of_grant {advance : Advance σ}
    (perseveres : (scheduler.grant elapsedNanos).Perseveres machine 0 advance) :
    scheduler.Perseveres machine elapsedNanos advance := by
  have alike : ∀ ended, (scheduler.grant elapsedNanos).Advances machine 0 ended →
      scheduler.Advances machine elapsedNanos ended := by
    intro ended ends
    rw [advances_iff_run, (scheduler.settled_grant elapsedNanos).grant_zero] at ends
    exact advances_iff_run.mpr ends
  cases perseveres with
  | settled ends fine => exact .settled (alike _ ends) fine
  | again ends rejection rest => exact .again (alike _ ends) rejection rest

/-- A run that is not rejected is persevering enough. -/
theorem perseveres_of_run {advance : Advance σ} (settled : scheduler.Settled)
    (run : Run (fun _ _ _ => ()) () { scheduler, machine } () advance)
    (fine : ¬ advance.Rejected) : scheduler.Perseveres machine 0 advance := by
  refine .settled ?_ fine
  rw [advances_iff_run, settled.grant_zero]
  exact run

/-- After a rejected offer, persevering goes on from where the offer is gone. -/
theorem perseveres_of_misdirected {advance : Advance σ}
    (resumable : Resumable { scheduler, machine }) (inCredit : 0 < scheduler.credit)
    (misdirected : Misdirected { scheduler, machine })
    (rest : scheduler.takeOffer.Perseveres machine 0 advance) :
    scheduler.Perseveres machine 0 advance := by
  have rejected : scheduler.Advances machine 0 ⟨scheduler.takeOffer, machine,
      .error (.fault (.invalidVector scheduler.vector))⟩ := by
    rw [advances_iff_run, resumable.settled.grant_zero]
    exact Reaches.run_of_misdirected .refl inCredit misdirected
  exact .again rejected ⟨⟨_, rfl⟩, resumable.running⟩ rest

section Turned

variable {event : Event} {next : Progress σ} {advance : Advance σ}

/-- An advance that goes on after a turn is one that begins before it, the tick of the turn
added. -/
theorem Advances.before_turn (settled : scheduler.Settled)
    (settledNext : next.scheduler.Settled) (inCredit : 0 < scheduler.credit)
    (turned : Progress.turn { scheduler, machine } = (event, next))
    (going : event.stop? = none) (ends : next.scheduler.Advances next.machine 0 advance) :
    scheduler.Advances machine 0 (advance.adjusted id next.tick) := by
  rw [advances_iff_run, settledNext.grant_zero] at ends
  rw [advances_iff_run, settled.grant_zero]
  refine .turned () _ inCredit (by rw [turned]; exact going) ?_
  rw [turned]
  exact ends.add_tick next.tick

/-- And to persevere after a turn is to persevere from before it. -/
theorem Perseveres.before_turn (settled : scheduler.Settled)
    (settledNext : next.scheduler.Settled) (inCredit : 0 < scheduler.credit)
    (turned : Progress.turn { scheduler, machine } = (event, next))
    (going : event.stop? = none) (rest : next.scheduler.Perseveres next.machine 0 advance) :
    ∃ ended, scheduler.Perseveres machine 0 ended ∧ ended.ending = advance.ending := by
  cases rest with
  | settled ends fine =>
    have whole := ends.before_turn settled settledNext inCredit turned going
    rw [← advance.rejected_adjusted next.tick] at fine
    exact ⟨_, .settled whole fine, advance.ending_adjusted next.tick⟩
  | @again _ _ _ rejected _ ends rejection rest =>
    have whole := ends.before_turn settled settledNext inCredit turned going
    rw [← rejected.rejected_adjusted next.tick] at rejection
    exact ⟨advance, .again whole rejection rest, rfl⟩

end Turned

/-- With no credit there is nothing to persevere for, and no tolerant turn to take. -/
theorem exists_perseveres_of_spent {limit : Nat} {tolerant : Advance σ}
    (settled : scheduler.Settled) (exhausted : scheduler.credit ≤ 0)
    (computed : runTolerantly limit { scheduler, machine } = some tolerant) :
    ∃ advance, scheduler.Perseveres machine 0 advance ∧ advance.ending = tolerant.ending := by
  rw [runTolerantly_of_spent limit exhausted] at computed
  obtain rfl := Option.some.inj computed
  have run := @Run.spent σ Unit _ (fun _ _ _ => ()) () { scheduler, machine } exhausted
  exact ⟨_, perseveres_of_run settled run (Advance.not_rejected_of_ok _ _ _), rfl⟩

/-- Wherever a tolerant run ends, persevering ends. Induction is on the limit of the tolerant
run: a rejected offer is one of its turns and one more advance, and every other turn is one
of the advance under way. -/
theorem exists_perseveres {limit : Nat} {tolerant : Advance σ}
    (resumable : Resumable { scheduler, machine })
    (computed : runTolerantly limit { scheduler, machine } = some tolerant) :
    ∃ advance, scheduler.Perseveres machine 0 advance ∧ advance.ending = tolerant.ending := by
  induction limit generalizing scheduler machine tolerant with
  | zero =>
    by_cases exhausted : scheduler.credit ≤ 0
    · exact exists_perseveres_of_spent resumable.settled exhausted computed
    · simp [runTolerantly, exhausted] at computed
  | succ limit inductionHypothesis =>
    by_cases exhausted : scheduler.credit ≤ 0
    · exact exists_perseveres_of_spent resumable.settled exhausted computed
    · have inCredit : 0 < scheduler.credit := by omega
      simp only [runTolerantly, if_neg exhausted] at computed
      by_cases misdirected : Misdirected { scheduler, machine }
      · rw [tolerantTurn_of_misdirected misdirected] at computed
        obtain ⟨plain, later, same⟩ := runTolerantly_fresh computed
        have next := resumable.passOver
        obtain ⟨advance, rest, alike⟩ := inductionHypothesis ⟨next.running, next.settled⟩ later
        exact ⟨advance, perseveres_of_misdirected resumable inCredit misdirected rest,
          alike.trans same⟩
      · rw [tolerantTurn_of_directed misdirected] at computed
        cases outcome : (Progress.turn { scheduler, machine }).1.stop? with
        | some stop =>
          simp only [outcome] at computed
          obtain rfl := Option.some.inj computed
          exact ⟨_, perseveres_of_run resumable.settled (.stopped () _ stop inCredit outcome)
            (Advance.not_rejected_of_halted (halted_of_stop misdirected outcome)), rfl⟩
        | none =>
          simp only [outcome] at computed
          obtain ⟨plain, later, same⟩ := runTolerantly_fresh computed
          have next := (turn_of_going _ outcome).resumable resumable
          obtain ⟨advance, rest, alike⟩ := inductionHypothesis ⟨next.running, next.settled⟩ later
          obtain ⟨ended, whole, joined⟩ := rest.before_turn resumable.settled next.settled
            inCredit rfl outcome
          exact ⟨ended, whole, joined.trans (alike.trans same)⟩

/-- Wherever persevering ends, a tolerant scheduler ends. Induction is on the advances: each
but the last is the beginning of what is left of the tolerant run. -/
theorem Perseveres.tolerantly {advance : Advance σ}
    (perseveres : scheduler.Perseveres machine elapsedNanos advance)
    (running : machine.status = .running) :
    ∃ tolerant, scheduler.AdvancesTolerantly machine elapsedNanos tolerant ∧
      advance.ending = tolerant.ending := by
  induction perseveres with
  | @settled scheduler machine elapsedNanos advance ends fine =>
    have run := advances_iff_run.mp ends
    rcases run.tolerantly ⟨running, scheduler.settled_grant elapsedNanos⟩ with
      ⟨-, tolerant⟩ | ⟨rejected, -⟩
    · exact ⟨advance, tolerant, rfl⟩
    · exact absurd rejected fine
  | @again scheduler machine elapsedNanos rejected advance ends rejection rest
      inductionHypothesis =>
    have run := advances_iff_run.mp ends
    rcases run.tolerantly ⟨running, scheduler.settled_grant elapsedNanos⟩ with
      ⟨fine, -⟩ | ⟨-, settled, tick, continues⟩
    · exact absurd rejection fine
    · obtain ⟨tolerant, ⟨limit, computed⟩, same⟩ := inductionHypothesis rejection.2
      rw [settled.grant_zero] at computed
      have later : Tolerantly ⟨rejected.scheduler, rejected.machine, tick⟩
          (tolerant.adjusted id tick) := by
        have whole := runTolerantly_adjusted limit
          { scheduler := rejected.scheduler, machine := rejected.machine } tick
        rw [computed] at whole
        exact ⟨limit, whole⟩
      exact ⟨_, continues _ later, same.trans (tolerant.ending_adjusted tick).symm⟩

end Persevering

/-- An invalid vector loses no time. An advance of a running machine that comes to an offer
where there is no restart ends there, rejected; and if an advance reports an invalid vector,
this is how it ended, unless the host failed with the same fault and the machine is halted.
Persevering after rejected offers arrives exactly where a tolerant scheduler arrives in one
call, and only if that arrives anywhere; both arrive if every opcode has a base cost. -/
theorem rejections_lose_no_time {scheduler : Scheduler} {machine : Machine σ}
    {elapsedNanos : Nat} (running : machine.status = .running) :
    let start : Progress σ := { scheduler := scheduler.grant elapsedNanos, machine }
    (∀ last, Reaches start last → 0 < last.scheduler.credit → last.Misdirected →
      ∃ advance, scheduler.Advances machine elapsedNanos advance ∧
        Rejection start last last.scheduler.vector advance) ∧
    (∀ advance address, scheduler.Advances machine elapsedNanos advance →
      advance.result = .error (.fault (.invalidVector address)) →
      advance.machine.status = .halted (.fault (.invalidVector address)) ∨
        ∃ last, Rejection start last address advance) ∧
    (∀ advance, scheduler.Perseveres machine elapsedNanos advance →
      ∃ tolerant, scheduler.AdvancesTolerantly machine elapsedNanos tolerant ∧
        advance.ending = tolerant.ending) ∧
    (∀ tolerant, scheduler.AdvancesTolerantly machine elapsedNanos tolerant →
      ∃ advance, scheduler.Perseveres machine elapsedNanos advance ∧
        advance.ending = tolerant.ending) ∧
    (machine.table.Charging → ∃ advance, scheduler.Perseveres machine elapsedNanos advance) := by
  intro start
  have resumable : start.Resumable := ⟨running, scheduler.settled_grant elapsedNanos⟩
  have arrives : ∀ tolerant, scheduler.AdvancesTolerantly machine elapsedNanos tolerant →
      ∃ advance, scheduler.Perseveres machine elapsedNanos advance ∧
        advance.ending = tolerant.ending := by
    rintro tolerant ⟨limit, computed⟩
    obtain ⟨advance, perseveres, same⟩ := exists_perseveres resumable computed
    exact ⟨advance, perseveres.of_grant, same⟩
  refine ⟨?_, ?_, fun advance perseveres => perseveres.tolerantly running, arrives, ?_⟩
  · intro last reached inCredit misdirected
    have still := (reached.resumable resumable).running
    exact ⟨_, advances_iff_run.mpr (reached.run_of_misdirected inCredit misdirected),
      reached.rejection still inCredit misdirected⟩
  · intro advance address ends returned
    exact (advances_iff_run.mp ends).rejection resumable returned
  · intro charging
    obtain ⟨tolerant, computed⟩ :=
      @exists_runTolerantly σ _ start _ charging (Nat.le_refl _)
    obtain ⟨advance, perseveres, -⟩ := arrives tolerant ⟨_, computed⟩
    exact ⟨advance, perseveres⟩

/-- A tenth of a second with no restart at the first of the two addresses: the advance is
rejected with sixty-six cycles to go, and persevering arrives where a tolerant scheduler does,
which runs one hundred and nine cycles and has two of three offers declined. -/
theorem rejections_lose_no_time_raster :
    let timing : Timing := { clockRate := 1000, frameRate := 20, vectors := (0x03, 0x08) }
    let scheduler : Scheduler := { timing }
    Machine.raster.status = .running ∧
      (∃ advance last, scheduler.Advances .raster 100000000 advance ∧
        Rejection { scheduler := scheduler.grant 100000000, machine := .raster } last 0x03
          advance ∧ advance.scheduler.credit = 66) ∧
      ∃ advance tolerant, scheduler.Perseveres .raster 100000000 advance ∧
        scheduler.AdvancesTolerantly .raster 100000000 tolerant ∧
        advance.ending = tolerant.ending ∧ tolerant.result = .ok ⟨109, 3, 1⟩ := by
  intro timing scheduler
  have running : Machine.raster.status = .running := rfl
  have laws := @rejections_lose_no_time Board _ scheduler .raster 100000000 running
  obtain ⟨-, reports, -, arrives, -⟩ := laws
  refine ⟨running, ?_, ?_⟩
  · obtain ⟨advance, computed, facts⟩ := Option.map_eq_some_iff.mp
      (show (scheduler.advance 100 .raster 100000000).map (fun advance =>
        (advance.scheduler.credit, advance.machine.status, advance.result)) =
          some (66, .running, .error (.fault (.invalidVector 0x03))) by decide +kernel)
    simp only [Prod.mk.injEq] at facts
    obtain ⟨credit, still, returned⟩ := facts
    rcases reports advance 0x03 ⟨100, computed⟩ returned with halted | ⟨last, rejection⟩
    · rw [still] at halted
      cases halted
    · exact ⟨advance, last, ⟨100, computed⟩, rejection, credit⟩
  · obtain ⟨tolerant, computed, returned⟩ := Option.map_eq_some_iff.mp
      (show (runTolerantly 100 { scheduler := scheduler.grant 100000000, machine := .raster }).map
        Advance.result = some (.ok ⟨109, 3, 1⟩) by decide +kernel)
    obtain ⟨advance, perseveres, same⟩ := arrives tolerant ⟨100, computed⟩
    exact ⟨advance, tolerant, perseveres, ⟨100, computed⟩, same, returned⟩

end Scheduler

end Intel8080
