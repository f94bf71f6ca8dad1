import Intel8080.Execution

/-!
# How a dialogue ends

What is claimed of an instruction on every host is claimed of its exchange, whatever the
answers are, and transferred to an actual host once. `Follows` speaks about the requests and
the value in which an exchange ends, `Ends` about the value alone, `Willing` about the
exchange having no stop of its own.
-/

namespace Intel8080

namespace Exchange

variable {α β σ : Type}

/-- However a host answers: if it refuses nothing, a condition holds of the requests it was
made, in order, and of the value in which the exchange ends. -/
def Follows (condition : List Request → α → Prop) : Exchange α → Prop
  | done value => condition [] value
  | stop _ => True
  | write address byte next =>
    next.Follows fun requests => condition (.write address byte :: requests)
  | input port next =>
    ∀ byte, (next byte).Follows fun requests => condition (.input port :: requests)
  | output port byte next =>
    next.Follows fun requests => condition (.output port byte :: requests)

/-- The condition holds of the requests to an actual host and of the value that it leads
to. -/
theorem Follows.of_run [Host σ] {condition : List Request → α → Prop} {exchange : Exchange α}
    (follows : exchange.Follows condition) {host after : σ} {value : α}
    (ran : exchange.run host = .ok value after) : condition (exchange.requests host) value := by
  -- Each request that was granted moves into the condition on those that follow.
  induction exchange generalizing condition host with
  | done result =>
    obtain ⟨rfl, rfl⟩ := EStateM.Result.ok.inj ran
    exact follows
  | stop reason => cases ran
  | write address byte next inductionHypothesis =>
    rw [run] at ran
    rw [requests]
    split at ran
    · exact inductionHypothesis follows ran
    · cases ran
  | input port next inductionHypothesis =>
    rw [run] at ran
    rw [requests]
    split at ran
    · exact inductionHypothesis _ (follows _) ran
    · cases ran
  | output port byte next inductionHypothesis =>
    rw [run] at ran
    rw [requests]
    split at ran
    · exact inductionHypothesis follows ran
    · cases ran

/-- Whatever a host answers, a value in which the exchange ends satisfies a
condition. -/
def Ends (condition : α → Prop) : Exchange α → Prop
  | done value => condition value
  | stop _ => True
  | write _ _ next => next.Ends condition
  | input _ next => ∀ value, (next value).Ends condition
  | output _ _ next => next.Ends condition

@[simp] theorem ends_map (f : α → β) (condition : β → Prop) (exchange : Exchange α) :
    (exchange.map f).Ends condition ↔ exchange.Ends fun value => condition (f value) := by
  induction exchange with
  | done value => rfl
  | stop reason => rfl
  | write address value next inductionHypothesis => exact inductionHypothesis
  | input port next inductionHypothesis => exact forall_congr' inductionHypothesis
  | output port value next inductionHypothesis => exact inductionHypothesis

/-- Applying a function to the value in which an exchange ends changes that value only. -/
theorem run_map [Host σ] (f : α → β) (exchange : Exchange α) (host : σ) :
    (exchange.map f).run host =
      match exchange.run host with
      | .ok value after => .ok (f value) after
      | .error reason after => .error reason after := by
  induction exchange generalizing host with
  | done value => rfl
  | stop reason => rfl
  | write address value next inductionHypothesis =>
    simp only [map, run]
    split
    · exact inductionHypothesis _
    · rfl
  | input port next inductionHypothesis =>
    simp only [map, run]
    split
    · exact inductionHypothesis _ _
    · rfl
  | output port value next inductionHypothesis =>
    simp only [map, run]
    split
    · exact inductionHypothesis _
    · rfl

theorem Ends.follows {condition : α → Prop} {exchange : Exchange α}
    (ends : exchange.Ends condition) : exchange.Follows fun _ => condition := by
  induction exchange with
  | done value => exact ends
  | stop reason => trivial
  | write address value next inductionHypothesis => exact inductionHypothesis ends
  | input port next inductionHypothesis => exact fun value => inductionHypothesis value (ends value)
  | output port value next inductionHypothesis => exact inductionHypothesis ends

/-- The condition holds of the value that an actual host leads to. -/
theorem Ends.of_run [Host σ] {condition : α → Prop} {exchange : Exchange α}
    (ends : exchange.Ends condition) {host after : σ} {value : α}
    (ran : exchange.run host = .ok value after) : condition value :=
  ends.follows.of_run ran

/-- Whatever a host answers, the exchange does not stop of its own accord. -/
def Willing : Exchange α → Prop
  | done _ => True
  | stop _ => False
  | write _ _ next => next.Willing
  | input _ next => ∀ value, (next value).Willing
  | output _ _ next => next.Willing

end Exchange

/-- An instruction that executed has held its dialogue to the end. -/
theorem Instruction.run_of_execute {σ : Type} [Host σ] {instruction : Instruction}
    {cpu after : Cpu} {host afterHost : σ} {extra : UInt8}
    (executed : instruction.execute cpu host = ⟨.ok extra, after, afterHost⟩) :
    (instruction.exchange cpu (Host.read host)).run host = .ok ⟨after, extra⟩ afterHost := by
  rw [execute] at executed
  split at executed
  · rename_i completion left ran
    obtain ⟨same, rfl, rfl⟩ := Outcome.mk.inj executed
    obtain rfl : completion.extra = extra := Except.ok.inj same
    exact ran
  · cases executed

end Intel8080
