import Intel8080.Proofs.Fetching
import Intel8080.Proofs.Offers
import Intel8080.Proofs.Sessions

/-!
# Halting is for good

Two places set the status, the end of a step that failed and the end of an interrupt that
could not be entered, and every operation looks at it first. So the fates of the single
transactions add up: a machine runs until a transaction fails, and from then on it refuses
whatever it is asked, with the stop of that failure, and nothing about it changes any more.
A scheduler that still has credit to spend on it is refused in the same way.
-/

namespace Intel8080

namespace Machine

variable {σ ω : Type} [Host σ] {machine last : Machine σ} {transactions : List (Transaction ω)}

/-- A session with a halted machine consists of refusals, and the machine stays as it is. -/
theorem Session.of_halted {stop : Stop} (session : Session machine transactions last)
    (halted : machine.status = .halted stop) :
    last = machine ∧
      ∀ transaction ∈ transactions, transaction.answer = transaction.operation.refusal stop := by
  induction session with
  | finished machine => exact ⟨rfl, by simp⟩
  | answered response rest inductionHypothesis =>
    cases response.fate with
    | passed _ running | halted _ _ running =>
      rw [halted] at running
      cases running
    | refused other before answered =>
      obtain rfl : other = stop := Status.halted.inj (before.symm.trans halted)
      obtain ⟨same, refused⟩ := inductionHypothesis halted
      exact ⟨same, List.forall_mem_cons.mpr ⟨answered, refused⟩⟩

/-- A running machine keeps running as long as nothing fails. -/
theorem Session.running (session : Session machine transactions last)
    (running : machine.status = .running)
    (fine : ∀ transaction ∈ transactions, ¬ transaction.Fails) : last.status = .running := by
  induction session with
  | finished machine => exact running
  | answered response rest inductionHypothesis =>
    obtain ⟨first, others⟩ := List.forall_mem_cons.mp fine
    cases response.fate with
    | passed _ _ _ still => exact inductionHypothesis still others
    | halted _ _ _ fails => exact absurd fails first
    | refused _ halted =>
      rw [running] at halted
      cases halted

/-- If something has failed, the machine is halted by the stop that was reported. -/
theorem Session.halted_of_fails (session : Session machine transactions last)
    {transaction : Transaction ω} (occurs : transaction ∈ transactions)
    (fails : transaction.Fails) :
    ∃ stop, transaction.answer = transaction.operation.refusal stop ∧
      last.status = .halted stop := by
  -- Once something has failed, the rest of the session is with a halted machine.
  induction session with
  | finished machine => cases occurs
  | answered response rest inductionHypothesis =>
    rcases List.mem_cons.mp occurs with rfl | later
    · cases response.fate with
      | passed _ _ fine _ => exact absurd fails fine
      | halted stop _ _ _ answered halted =>
        obtain ⟨rfl, -⟩ := rest.of_halted halted
        exact ⟨stop, answered, halted⟩
      | refused stop halted answered =>
        obtain ⟨rfl, -⟩ := rest.of_halted halted
        exact ⟨stop, answered, halted⟩
    · exact inductionHypothesis later

/-- A halted machine responds to everything, and always with its refusal. -/
theorem response_iff_of_halted {stop : Stop} (halted : machine.status = .halted stop)
    (operation : Operation ω) (answer : Answer) (after : Machine σ) :
    machine.Response operation answer after ↔
      answer = operation.refusal stop ∧ after = machine := by
  have refused (answer : Answer) (after : Machine σ)
      (response : machine.Response operation answer after) :
      answer = operation.refusal stop ∧ after = machine := by
    obtain ⟨same, answers⟩ :=
      Session.of_halted (.answered response (.finished after)) halted
    exact ⟨answers _ (List.mem_singleton_self _), same⟩
  constructor
  · exact refused answer after
  · rintro ⟨rfl, rfl⟩
    obtain ⟨answer, after, response⟩ :
        ∃ answer left, after.Response operation answer left := by
      cases operation with
      | step => exact ⟨_, _, .step⟩
      | stepTraced tracer seen => exact ⟨_, _, .stepTraced tracer seen⟩
      | next => exact ⟨_, _, .next⟩
      | run =>
        have stops : after.run 1 = some (stop, after) := by
          rw [run, step_of_halted halted]
        exact ⟨_, _, .run 1 stop after stops⟩
      | interrupt address => exact ⟨_, _, .interrupt address⟩
      | resetTo index => exact ⟨_, _, .resetTo index⟩
    obtain ⟨rfl, rfl⟩ := refused answer _ response
    exact response

end Machine

namespace Progress

variable {σ : Type} [Host σ]

/-- A turn with a halted machine stops with its stop and leaves it as it is. -/
theorem turn_of_halted (progress : Progress σ) {stop : Stop}
    (halted : progress.machine.status = .halted stop)
    (restarts : progress.scheduler.timing.HasRestarts) :
    progress.turn.1.stop? = some stop ∧ progress.turn.2.machine = progress.machine := by
  obtain ⟨scheduler, machine, tick⟩ := progress
  have halted : machine.status = .halted stop := halted
  by_cases pending : scheduler.pending = true
  · obtain ⟨restart, found⟩ := Option.isSome_iff_exists.mp restarts.vector
    have refused : machine.interrupt scheduler.vector = .error stop machine := by
      simp only [Machine.interrupt, found, Machine.inject, halted]
    simp only [turn, pending, if_true, offer, refused]
    exact ⟨rfl, trivial⟩
  · simp only [turn, pending, Bool.false_eq_true, if_false, execute, halted]
    exact ⟨rfl, trivial⟩

end Progress

namespace Scheduler

variable {σ : Type} [Host σ]

/-- An advance with a halted machine is refused with its stop if there is credit, and
otherwise comes to nothing. In both cases it leaves the machine as it is. -/
theorem advance_of_halted {machine : Machine σ} {stop : Stop}
    (halted : machine.status = .halted stop) {scheduler : Scheduler}
    (restarts : scheduler.timing.HasRestarts) (elapsedNanos : Nat) {limit : Nat}
    (enough : 0 < limit) :
    ∃ after, scheduler.advance limit machine elapsedNanos =
      some ⟨after, machine,
        if 0 < (scheduler.grant elapsedNanos).credit then .error stop else .ok {}⟩ := by
  obtain ⟨limit, rfl⟩ : ∃ fewer, limit = fewer + 1 := ⟨limit - 1, by omega⟩
  by_cases inCredit : 0 < (scheduler.grant elapsedNanos).credit
  · have unspent : ¬ (scheduler.grant elapsedNanos).credit ≤ 0 := by omega
    obtain ⟨stops, same⟩ := Progress.turn_of_halted
      { scheduler := scheduler.grant elapsedNanos, machine } halted restarts
    simp only [advance, advanceObserved, Progress.runObserved, if_neg unspent, stops, same,
      if_pos inCredit]
    exact ⟨_, rfl⟩
  · have spent : (scheduler.grant elapsedNanos).credit ≤ 0 := by omega
    simp only [advance, advanceObserved, Progress.runObserved, if_pos spent, if_neg inCredit]
    exact ⟨_, rfl⟩

end Scheduler

namespace Machine

variable {σ ω : Type} [Host σ]

/-- Halting is absorbing. At any point of a session, a machine that began running is still
running if nothing failed so far, however many requests were declined or turned down. If
something has failed, the machine is halted by the stop that was reported; the rest of the
session consists of refusals and does not change the machine. A halted machine responds to
every operation with its refusal, unchanged, and does the same to a scheduler that has
credit to spend. -/
theorem halting_absorbs {machine middle last : Machine σ} {earlier later : List (Transaction ω)}
    (before : Session machine earlier middle) (rest : Session middle later last) :
    (machine.status = .running → (∀ transaction ∈ earlier, ¬ transaction.Fails) →
        middle.status = .running) ∧
      (∀ transaction ∈ earlier, transaction.Fails →
        ∃ stop, transaction.answer = transaction.operation.refusal stop ∧
          middle.status = .halted stop ∧ last = middle ∧
            ∀ other ∈ later, other.answer = other.operation.refusal stop) ∧
      ∀ stop, middle.status = .halted stop →
        (∀ (operation : Operation ω) (answer : Answer) (after : Machine σ),
          middle.Response operation answer after ↔
            answer = operation.refusal stop ∧ after = middle) ∧
          ∀ (scheduler : Scheduler) (elapsedNanos limit : Nat),
            scheduler.timing.HasRestarts → 0 < limit →
              ∃ after, scheduler.advance limit middle elapsedNanos =
                some ⟨after, middle,
                  if 0 < (scheduler.grant elapsedNanos).credit then .error stop
                  else .ok {}⟩ := by
  refine ⟨before.running, ?_, ?_⟩
  · intro transaction occurs fails
    obtain ⟨stop, answered, halted⟩ := before.halted_of_fails occurs fails
    obtain ⟨same, refused⟩ := rest.of_halted halted
    exact ⟨stop, answered, halted, same, refused⟩
  · intro stop halted
    refine ⟨response_iff_of_halted halted, ?_⟩
    intro scheduler elapsedNanos limit restarts enough
    exact Scheduler.advance_of_halted halted restarts elapsedNanos enough

/-- A board whose program is the halt instruction. -/
def haltingAtOnce : Machine Board :=
  .start .canonical (Board.blank.load 0 [0x76])

/-- The machine after its only instruction. -/
def haltedAtOnce : Machine Board :=
  { haltingAtOnce with cpu := { pc := 1 }, status := .halted (.halt .instruction) }

theorem step_haltingAtOnce :
    haltingAtOnce.step = .error (.halt .instruction) haltedAtOnce := by
  have opcode : Host.read haltingAtOnce.host 0 = 0x76 := by
    simp [haltingAtOnce, start, Host.read, Board.read, Board.load, Memory.read_load]
  have next : haltingAtOnce.next = .hlt := by
    change Instruction.decode (Host.read haltingAtOnce.host 0) (Host.read haltingAtOnce.host 1)
      (Host.read haltingAtOnce.host 2) = _
    rw [opcode]
    rfl
  have stepped := @step_canonical _ _ haltingAtOnce rfl rfl
  rw [next] at stepped
  exact stepped

/-- An interrupt is declined and another one turned down, and the machine still runs. Then it
halts, and that is how a sequence of costs ends, a run, a request and an advance. -/
theorem halting_absorbs_at_once :
    let earlier : List (Transaction Unit) :=
      [⟨.interrupt 0x08, .taken false⟩, ⟨.resetTo 8, .stopped (.fault (.invalidVector 8))⟩,
        ⟨.step, .stopped (.halt .instruction)⟩]
    let later : List (Transaction Unit) :=
      [⟨.next, .exhausted⟩, ⟨.run, .stopped (.halt .instruction)⟩,
        ⟨.interrupt 0x08, .stopped (.halt .instruction)⟩]
    Session haltingAtOnce earlier haltedAtOnce ∧ Session haltedAtOnce later haltedAtOnce ∧
      haltedAtOnce.status = .halted (.halt .instruction) ∧
      Timing.HasRestarts {} ∧
      ∃ after, Scheduler.advance 1 { timing := {} } haltedAtOnce 1000000000 =
        some ⟨after, haltedAtOnce, .error (.halt .instruction)⟩ := by
  intro earlier later
  have before : Session haltingAtOnce earlier haltedAtOnce := by
    refine .answered (.interrupt 0x08) (.answered (.resetTo 8) (.answered ?_ (.finished _)))
    have response : haltingAtOnce.Response (.step : Operation Unit) _ _ := .step
    rw [step_haltingAtOnce] at response
    exact response
  have rest : Session haltedAtOnce later haltedAtOnce :=
    .answered .next (.answered (.run 1 _ haltedAtOnce rfl)
      (.answered (.interrupt 0x08) (.finished _)))
  obtain ⟨-, fails, absorbs⟩ := halting_absorbs before rest
  obtain ⟨stop, reported, halted, -, -⟩ :=
    fails ⟨.step, .stopped (.halt .instruction)⟩ (by simp [earlier]) ⟨rfl, rfl⟩
  obtain rfl : stop = .halt .instruction := (Answer.stopped.inj reported).symm
  obtain ⟨-, refuses⟩ := absorbs _ halted
  have restarts : Timing.HasRestarts {} := by decide
  obtain ⟨after, refused⟩ := refuses { timing := {} } 1000000000 1 restarts (by decide)
  have inCredit : 0 < (Scheduler.grant { timing := {} } 1000000000).credit := by decide
  rw [if_pos inCredit] at refused
  exact ⟨before, rest, halted, restarts, after, refused⟩

end Machine

end Intel8080
