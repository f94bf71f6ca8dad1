import Intel8080.Proofs.Adjustment

/-!
# Cutting a run in two

An advance for a duration is a run that begins where the duration has been granted. What the
run does, a run for a first part of the duration does too, until it ends; and from there the
rest of the duration is granted and the run goes on. This needs room for the whole duration in
the credit, since a saturated grant forgets time.
-/

namespace Intel8080

namespace Progress

open Scheduler Advance

variable {σ ω : Type} [Host σ] {observe : ω → Event → Machine σ → ω}

omit [Host σ] in
/-- The state in which an advance for a whole duration begins is that in which one for its first
part begins, with the rest granted as well. -/
theorem adjusted_grant {first second : Nat} {scheduler : Scheduler}
    (room : scheduler.HasRoom (first + second)) (machine : Machine σ) (total : Tick) :
    Progress.adjusted ⟨scheduler.grant first, machine, {}⟩ (·.grant second) total =
      ⟨scheduler.grant (first + second), machine, total⟩ := by
  simp only [Progress.adjusted, grant_grant room, Tick.add_empty]

/-- Running for a whole duration is running for its first part and going on from
there with the rest granted. -/
theorem run_grant_add_iff {first second : Nat} (total : Tick) {seen after : ω}
    {scheduler : Scheduler} {machine : Machine σ} {whole : Advance σ}
    (room : scheduler.HasRoom (first + second)) :
    Run observe seen ⟨scheduler.grant (first + second), machine, total⟩ after whole ↔
      ∃ middle part, Run observe seen ⟨scheduler.grant first, machine, {}⟩ middle part ∧
        Continues observe (·.grant second) total middle part after whole := by
  have neutral := neutral_grant second
  have roomSecond : (scheduler.grant first).HasRoom second := room.split.2
  rw [← adjusted_grant room]
  constructor
  · intro run
    obtain ⟨middle, part, slice⟩ := run.ends_of_adjusted neutral roomSecond
    exact ⟨middle, part, slice, (slice.adjusted_iff neutral total roomSecond).mp run⟩
  · rintro ⟨middle, part, slice, follows⟩
    exact (slice.adjusted_iff neutral total roomSecond).mpr follows

/-- Marking an instant before a run marks it at the end. -/
theorem run_start_iff (now : Nat) {seen after : ω} {scheduler ended : Scheduler}
    {machine stopped : Machine σ} {elapsedNanos : Nat} {result : Except Stop Tick} :
    Run observe seen ⟨(scheduler.start now).grant elapsedNanos, machine, {}⟩ after
        ⟨ended, stopped, result⟩ ↔
      ∃ unmarked, ended = unmarked.start now ∧
        Run observe seen ⟨scheduler.grant elapsedNanos, machine, {}⟩ after
          ⟨unmarked, stopped, result⟩ := by
  have marks : Run observe seen
      (Progress.adjusted ⟨scheduler.grant elapsedNanos, machine, {}⟩ (·.start now) {}) after
        ⟨ended, stopped, result⟩ ↔ _ :=
    run_adjusted_iff (neutral_start now) (fun _ => rfl) {} trivial
  refine marks.trans ?_
  constructor
  · rintro ⟨⟨unmarked, machine, result⟩, run, same⟩
    obtain ⟨rfl, rfl, rfl⟩ := Advance.mk.inj (same.trans (adjusted_empty _ _))
    exact ⟨unmarked, rfl, run⟩
  · rintro ⟨unmarked, rfl, run⟩
    exact ⟨_, run, (adjusted_empty ⟨unmarked, stopped, result⟩ (·.start now)).symm⟩

end Progress

namespace Scheduler

open Progress

variable {σ : Type} [Host σ] {scheduler : Scheduler} {machine : Machine σ}

/-- An advance ends, under some limit on its turns, with the given outcome. -/
def Advances (scheduler : Scheduler) (machine : Machine σ) (elapsedNanos : Nat)
    (advance : Advance σ) : Prop :=
  ∃ limit, scheduler.advance limit machine elapsedNanos = some advance

/-- An advance is a run after its grant. -/
theorem advances_iff_run {elapsedNanos : Nat} {advance : Advance σ} :
    scheduler.Advances machine elapsedNanos advance ↔
      Run (fun _ _ _ => ()) () ⟨scheduler.grant elapsedNanos, machine, {}⟩ () advance := by
  constructor
  · rintro ⟨limit, computed⟩
    obtain ⟨⟨seen, ended⟩, observed, rfl⟩ := Option.map_eq_some_iff.mp computed
    exact run_of_runObserved observed
  · intro run
    obtain ⟨limit, reaches⟩ := run.runObserved
    exact ⟨limit, congrArg (Option.map Prod.snd) (reaches limit (Nat.le_refl limit))⟩

end Scheduler

end Intel8080
