import Intel8080.Proofs.Halting
import Intel8080.Proofs.Morphisms
import Intel8080.Proofs.Protection
import Intel8080.Proofs.Watching

/-!
# Strictness only adds a stop

A lenient cabinet drops a write above its memory, and only a signal shows it. A strict cabinet
refuses the write, and the machine in it stops. There is no other difference: as long as nothing
is dropped, a strict cabinet is told from a lenient one by no request.

So two machines that are alike but for strictness are compared dialogue by dialogue. Either
nothing is dropped and they stay alike, or the strict one stops and names the write that the
lenient one dropped first. What happens afterwards to the lenient machine adds further drops
behind this one, and the strict machine stays as it is.
-/

namespace Intel8080

/-- The stop of a machine that wrote where its strict cabinet has no memory. -/
def overrun (address : UInt16) (value : UInt8) : Stop :=
  .fault (.outOfRange address value)

theorem overrun_inj {address other : UInt16} {value written : UInt8} :
    overrun address value = overrun other written ↔
      some (address, value) = some (other, written) := by
  simp [overrun]

/-- The same answer with another value. -/
def Reply.onValue {ε σ α β : Type} (f : α → β) : Reply ε σ α → Reply ε σ β
  | .ok value after => .ok (f value) after
  | .error reason after => .error reason after

@[simp] theorem Reply.responder_onValue {ε σ α β : Type} (f : α → β) (reply : Reply ε σ α) :
    (reply.onValue f).responder = reply.responder := by
  cases reply <;> rfl

namespace Exchange

variable {σ α β : Type} [Host σ]

/-- How a dialogue goes on after an answer. It ends with a refusal. -/
def onward (next : α → Exchange β) : Reply Fault σ α → Reply Stop σ β
  | .ok value after => (next value).run after
  | .error fault after => .error (.fault fault) after

theorem run_write (address : UInt16) (value : UInt8) (next : Exchange α) (host : σ) :
    (write address value next).run host =
      onward (fun _ => next) (Host.write host address value) := by
  rw [run]
  cases Host.write host address value <;> rfl

theorem run_input (port : UInt8) (next : UInt8 → Exchange α) (host : σ) :
    (input port next).run host = onward next (Host.input host port) := by
  rw [run]
  cases Host.input host port <;> rfl

theorem run_output (port value : UInt8) (next : Exchange α) (host : σ) :
    (output port value next).run host =
      onward (fun _ => next) (Host.output host port value) := by
  rw [run]
  cases Host.output host port value <;> rfl

end Exchange

namespace Cabinet

/-- The write that a signal says was dropped. -/
def Signal.drop? : Signal → Option (UInt16 × UInt8)
  | sound _ _ | watchdog _ => none
  | dropped address value => some (address, value)

/-- The writes that were dropped, the first one in front. -/
def drops (cabinet : Cabinet) : List (UInt16 × UInt8) :=
  cabinet.signals.toList.filterMap Signal.drop?

@[simp] theorem drops_signal (cabinet : Cabinet) (signal : Signal) :
    (cabinet.signal signal).drops = cabinet.drops ++ signal.drop?.toList := by
  simp only [drops, Cabinet.signal, Array.toList_push, List.filterMap_append]
  cases signal <;> rfl

theorem head?_of_prefix {drop : UInt16 × UInt8} {drops : List (UInt16 × UInt8)}
    (first : [drop] <+: drops) : drops.head? = some drop := by
  obtain ⟨rest, rfl⟩ := first
  rfl

@[simp] theorem read_makeStrict (cabinet : Cabinet) :
    Host.read cabinet.makeStrict = Host.read cabinet :=
  rfl

/-- What is dropped by a request: the write of a byte above the memory of a lenient cabinet, and
nothing else. -/
def dropped (cabinet : Cabinet) : Request → List (UInt16 × UInt8)
  | .write address value =>
    if memorySize ≤ address.toNat ∧ cabinet.strict = false then [(address, value)] else []
  | .input _ | .output _ _ => []

/-- The drops are recorded in the order of the requests. -/
theorem drops_serve (cabinet : Cabinet) (request : Request) :
    (request.serve cabinet).drops = cabinet.drops ++ cabinet.dropped request := by
  cases request with
  | write address value =>
    have writing := cabinet.writing address value
    rw [Request.serve, dropped]
    generalize Host.write cabinet address value = reply at writing ⊢
    cases writing with
    | stored after least inside bytes rest =>
      rw [if_neg fun above => Nat.not_le.mpr inside above.1, List.append_nil, ← rest]
      rfl
    | readOnly below =>
      have inside : address.toNat < memorySize := Nat.lt_trans below (by decide)
      rw [if_neg fun above => Nat.not_le.mpr inside above.1, List.append_nil]
      rfl
    | outOfRange above strict => simp [strict, Reply.responder]
    | dropped above lenient => simp [above, lenient, Reply.responder, Signal.drop?]
  | input port => rw [Request.serve, responder_input, dropped, List.append_nil]
  | output port value =>
    simp only [Request.serve, Host.output, output, dropped, List.append_nil]
    split
    · rfl
    · rfl
    · simp [Reply.responder, Signal.drop?]
    · simp [Reply.responder, Signal.drop?]
    · simp [Reply.responder, Signal.drop?]
    · rfl

/-- What was dropped stays dropped. -/
theorem lasting_drops (before : List (UInt16 × UInt8)) :
    Lasting fun cabinet => before <+: cabinet.drops where
  serve := by
    intro cabinet request recorded
    rw [drops_serve]
    exact recorded.trans (List.prefix_append ..)
  didExecute := fun _ _ recorded => recorded
  press := fun _ _ recorded => recorded
  release := fun _ _ recorded => recorded

/-- The answers of a lenient cabinet and of its strict counterpart to a request by which nothing
is dropped. -/
structure Alike {α : Type} (cabinet : Cabinet) (lenient strict : Reply Fault Cabinet α) :
    Prop where
  same : strict = lenient.onResponder makeStrict
  drops : lenient.responder.drops = cabinet.drops
  fine : ∀ address value, lenient.answer ≠ .error (.outOfRange address value)

/-- Below the end of the memory nothing is dropped. -/
theorem alike_write (cabinet : Cabinet) {address : UInt16} (value : UInt8)
    (inside : address.toNat < memorySize) :
    cabinet.Alike (Host.write cabinet address value)
      (Host.write cabinet.makeStrict address value) := by
  simp only [Host.write, write, if_pos inside]
  split <;> exact ⟨rfl, rfl, by simp [Reply.answer]⟩

/-- Nor by reading a port. -/
theorem alike_input (cabinet : Cabinet) (port : UInt8) :
    cabinet.Alike (Host.input cabinet port) (Host.input cabinet.makeStrict port) := by
  simp only [Host.input, input]
  split <;> exact ⟨rfl, rfl, by simp [Reply.answer]⟩

/-- Nor by writing one. -/
theorem alike_output (cabinet : Cabinet) (port value : UInt8) :
    cabinet.Alike (Host.output cabinet port value)
      (Host.output cabinet.makeStrict port value) := by
  have drops := cabinet.drops_serve (.output port value)
  rw [dropped, List.append_nil] at drops
  refine ⟨?_, drops, ?_⟩
  · simp only [Host.output, output]
    split <;> rfl
  · simp only [Host.output, output]
    split <;> simp [Reply.answer]

/-- Above the memory the one cabinet drops what the other refuses. -/
theorem write_above {cabinet : Cabinet} {address : UInt16} (value : UInt8)
    (above : memorySize ≤ address.toNat) (lenient : cabinet.strict = false) :
    Host.write cabinet address value = .ok () (cabinet.signal (.dropped address value)) ∧
      Host.write cabinet.makeStrict address value =
        .error (.outOfRange address value) cabinet.makeStrict := by
  have program : ¬ address.toNat < romSize :=
    Nat.not_lt.mpr (Nat.le_trans (by decide) above)
  simp [Host.write, write, program, Nat.not_lt.mpr above, lenient, makeStrict]

/-- How the ends of a dialogue compare, one with a lenient cabinet and one with its strict
counterpart. -/
inductive Parting {α : Type} (before : List (UInt16 × UInt8)) :
    Reply Stop Cabinet α → Reply Stop Cabinet α → Prop where
  /-- Nothing was dropped. -/
  | together (reply : Reply Stop Cabinet α) (drops : reply.responder.drops = before)
      (fine : ∀ address value, reply.answer ≠ .error (overrun address value)) :
      Parting before reply (reply.onResponder makeStrict)
  /-- The strict cabinet refused what the lenient one was the first to drop. -/
  | apart (reply : Reply Stop Cabinet α) (left : Cabinet) (address : UInt16) (value : UInt8)
      (dropped : before ++ [(address, value)] <+: reply.responder.drops) :
      Parting before reply (.error (overrun address value) left)

/-- If nothing was dropped by the request, the rest of the dialogue decides. -/
theorem Alike.onward {α β : Type} {cabinet : Cabinet} {lenient strict : Reply Fault Cabinet α}
    (alike : cabinet.Alike lenient strict) {next : α → Exchange β}
    (rest : ∀ value after, lenient = .ok value after →
      Parting after.drops ((next value).run after) ((next value).run after.makeStrict)) :
    Parting cabinet.drops (Exchange.onward next lenient) (Exchange.onward next strict) := by
  obtain ⟨rfl, drops, fine⟩ := alike
  cases lenient with
  | ok value after => exact drops ▸ rest value after rfl
  | error fault after =>
    refine .together (.error (.fault fault) after) drops fun address value same => ?_
    exact fine address value (congrArg _ (Stop.fault.inj (Except.error.inj same)))

/-- A dialogue that only a refusal can end early parts in one of these ways. -/
theorem parting_run {α : Type} {exchange : Exchange α} (willing : exchange.Willing)
    {cabinet : Cabinet} (lenient : cabinet.strict = false) :
    Parting cabinet.drops (exchange.run cabinet) (exchange.run cabinet.makeStrict) := by
  induction exchange generalizing cabinet with
  | done value => exact .together _ rfl fun _ _ => nofun
  | stop reason => exact willing.elim
  | write address value next inductionHypothesis =>
    simp only [Exchange.run_write]
    have still := (lasting_strict false).serve cabinet (.write address value) lenient
    by_cases inside : address.toNat < memorySize
    · refine (cabinet.alike_write value inside).onward fun _ after granted => ?_
      rw [Request.serve, granted] at still
      exact inductionHypothesis willing still
    · obtain ⟨dropped, refused⟩ := write_above value (Nat.le_of_not_lt inside) lenient
      rw [dropped, refused]
      have kept := (lasting_drops _).toKeeps.dialogue
        (List.prefix_refl (cabinet.signal (.dropped address value)).drops) next
      rw [drops_signal] at kept
      exact .apart _ _ address value kept
  | input port next inductionHypothesis =>
    simp only [Exchange.run_input]
    have still := (lasting_strict false).serve cabinet (.input port) lenient
    refine (cabinet.alike_input port).onward fun value after granted => ?_
    rw [Request.serve, granted] at still
    exact inductionHypothesis value (willing value) still
  | output port value next inductionHypothesis =>
    simp only [Exchange.run_output]
    have still := (lasting_strict false).serve cabinet (.output port value) lenient
    refine (cabinet.alike_output port value).onward fun _ after granted => ?_
    rw [Request.serve, granted] at still
    exact inductionHypothesis willing still

/-- So does the dialogue of an instruction, also if it calls for a stop by itself. -/
theorem parting_instruction {cabinet : Cabinet} (lenient : cabinet.strict = false)
    (instruction : Instruction) (cpu : Cpu) :
    Parting cabinet.drops ((instruction.exchange cpu (Host.read cabinet)).run cabinet)
      ((instruction.exchange cpu (Host.read cabinet)).run cabinet.makeStrict) := by
  cases ending : instruction.ending cpu with
  | none => exact parting_run (Instruction.exchange_willing ending _) lenient
  | some stop =>
    cases instruction with
    | hlt | illegal => exact .together (.error _ cabinet) rfl fun _ _ => nofun
    | _ => cases ending

end Cabinet

namespace Machine

/-- The same machine in a strict cabinet. -/
def tighten (machine : Machine Cabinet) : Machine Cabinet :=
  machine.onHost Cabinet.makeStrict .canonical

/-- A machine in a lenient cabinet, with the table of the instruction set, that was not stopped
by a write above the memory. -/
structure Lenient (machine : Machine Cabinet) : Prop where
  houses : machine.Houses fun cabinet => cabinet.strict = false
  fine : ∀ address value, machine.status ≠ .halted (overrun address value)

/-- The stop of such a machine is another one. -/
theorem Lenient.not_overrun {machine : Machine Cabinet} (lenient : machine.Lenient) {stop : Stop}
    (halted : machine.status = .halted stop) {α : Type} (address : UInt16) (value : UInt8) :
    (.error stop : Except Stop α) ≠ .error (overrun address value) := by
  intro same
  exact lenient.fine address value (halted.trans (congrArg _ (Except.error.inj same)))

/-- How the replies of two machines compare, one in a lenient cabinet and one in its strict
counterpart. -/
inductive Parting {α : Type} (machine : Machine Cabinet) :
    Reply Stop (Machine Cabinet) α → Reply Stop (Machine Cabinet) α → Prop where
  /-- Nothing was dropped, and the machines are still alike. -/
  | together (reply : Reply Stop (Machine Cabinet) α) (lenient : reply.responder.Lenient)
      (drops : reply.responder.host.drops = machine.host.drops)
      (fine : ∀ address value, reply.answer ≠ .error (overrun address value)) :
      Parting machine reply (reply.onResponder tighten)
  /-- The strict machine was stopped by what the lenient one was the first to drop. -/
  | apart (reply : Reply Stop (Machine Cabinet) α) (left : Machine Cabinet) (address : UInt16)
      (value : UInt8)
      (dropped : machine.host.drops ++ [(address, value)] <+: reply.responder.host.drops)
      (halted : left.status = .halted (overrun address value)) :
      Parting machine reply (.error (overrun address value) left)

variable {machine : Machine Cabinet}

/-- What becomes of a running machine when a dialogue ends. A value completes the attempt, for
some answer and with some processor; a stop halts the machine with the processor as it was. -/
def conclude {α β : Type} (finish : α → β × Cpu) (cpu : Cpu) :
    Reply Stop Cabinet α → Reply Stop (Machine Cabinet) β
  | .ok value host => .ok (finish value).1 ⟨host, (finish value).2, .canonical, .running⟩
  | .error stop host => .error stop ⟨host, cpu, .canonical, .halted stop⟩

/-- Replies to a dialogue that part make replies of machines that part. -/
theorem parting_conclude {α β : Type} {lenient strict : Reply Stop Cabinet α}
    (still : lenient.responder.strict = false)
    (parting : Cabinet.Parting machine.host.drops lenient strict) (finish : α → β × Cpu)
    (cpu : Cpu) : machine.Parting (conclude finish cpu lenient) (conclude finish cpu strict) := by
  cases parting with
  | together drops fine =>
    cases lenient with
    | ok value host =>
      exact .together (conclude finish cpu (.ok value host)) ⟨⟨rfl, still⟩, fun _ _ => nofun⟩ drops
        fun _ _ => nofun
    | error stop host =>
      have other (address : UInt16) (value : UInt8) : stop ≠ overrun address value :=
        fun same => fine address value (congrArg Except.error same)
      exact .together (conclude finish cpu (.error stop host))
        ⟨⟨rfl, still⟩, fun address value same => other address value (Status.halted.inj same)⟩
        drops fun address value same => other address value (Except.error.inj same)
  | apart left address value dropped =>
    refine .apart _ _ address value ?_ rfl
    cases lenient <;> exact dropped

/-- A running machine begins a dialogue for its next instruction and concludes it. -/
theorem step_eq_conclude (table : machine.table = .canonical)
    (running : machine.status = .running) :
    machine.step =
      conclude
        (fun completion =>
          (saturatingAdd machine.next.cycles completion.extra,
            completion.cpu.charge (saturatingAdd machine.next.cycles completion.extra)))
        (machine.past machine.next)
        ((machine.next.exchange (machine.past machine.next) (Host.read machine.host)).run
          machine.host) := by
  rw [step_canonical table running, Instruction.execute]
  cases (machine.next.exchange (machine.past machine.next) (Host.read machine.host)).run
      machine.host with
  | ok completion host =>
    simp only [settle, conclude, table, running]
    rfl
  | error stop host => simp only [settle, conclude, table]

/-- So does one that takes a restart. -/
theorem inject_eq_conclude (table : machine.table = .canonical)
    (running : machine.status = .running) (enabled : machine.cpu.interrupts = true)
    (restart : Instruction) :
    machine.inject restart =
      conclude
        (fun completion => (true, completion.cpu.charge (restart.cycles + completion.extra)))
        { machine.cpu with interrupts := false }
        ((restart.exchange { machine.cpu with interrupts := false } (Host.read machine.host)).run
          machine.host) := by
  obtain ⟨host, cpu, _, _⟩ := machine
  obtain rfl : _ = Table.canonical := table
  obtain rfl : _ = Status.running := running
  have enabled : cpu.interrupts = true := enabled
  simp only [inject, Instruction.execute, enabled, Bool.not_true]
  cases (restart.exchange { cpu with interrupts := false } (Host.read host)).run host <;> rfl

@[simp] theorem next_tighten (machine : Machine Cabinet) :
    machine.tighten.next = machine.next := by
  simp only [Machine.next, tighten, onHost, Cabinet.read_makeStrict]

/-- The steps of the two machines part. -/
theorem Lenient.step (lenient : machine.Lenient) :
    machine.Parting machine.step machine.tighten.step := by
  cases status : machine.status with
  | halted stop =>
    have alsoHalted : machine.tighten.status = .halted stop := status
    rw [step_of_halted status, step_of_halted alsoHalted]
    exact .together (.error stop machine) lenient rfl (lenient.not_overrun status)
  | running =>
    obtain ⟨⟨table, host⟩, -⟩ := lenient
    have alsoRunning : machine.tighten.status = .running := status
    rw [step_eq_conclude table status, @step_eq_conclude machine.tighten rfl alsoRunning,
      next_tighten]
    exact parting_conclude ((Cabinet.lasting_strict false).toKeeps.dialogue host _)
      (Cabinet.parting_instruction host _ _) _ _

/-- So do the injections of a restart. -/
theorem Lenient.inject (lenient : machine.Lenient) (restart : Instruction) :
    machine.Parting (machine.inject restart) (machine.tighten.inject restart) := by
  obtain ⟨host, cpu, table, status⟩ := machine
  cases status with
  | halted stop => exact .together (.error stop _) lenient rfl (lenient.not_overrun rfl)
  | running =>
    cases enabled : cpu.interrupts with
    | false =>
      simp only [Machine.inject, tighten, onHost, enabled]
      exact .together (.ok false _) lenient rfl (by simp [Reply.answer])
    | true =>
      obtain ⟨⟨canonical, lax⟩, -⟩ := lenient
      rw [inject_eq_conclude canonical rfl enabled,
        @inject_eq_conclude (tighten ⟨host, cpu, table, .running⟩) rfl rfl enabled]
      exact parting_conclude ((Cabinet.lasting_strict false).toKeeps.dialogue lax _)
        (Cabinet.parting_instruction lax _ _) _ _

/-- So do interrupts. -/
theorem Lenient.interrupt (lenient : machine.Lenient) (address : UInt8) :
    machine.Parting (machine.interrupt address) (machine.tighten.interrupt address) := by
  rw [Machine.interrupt, Machine.interrupt]
  cases Instruction.restartTo? address with
  | some restart => exact lenient.inject restart
  | none => exact .together (.error _ machine) lenient rfl (by simp [Reply.answer, overrun])

/-- So do interrupts by number. -/
theorem Lenient.resetTo (lenient : machine.Lenient) (index : Nat) :
    machine.Parting (machine.resetTo index) (machine.tighten.resetTo index) := by
  rw [Machine.resetTo, Machine.resetTo]
  split
  · exact lenient.inject _
  · exact .together (.error _ machine) lenient rfl (by simp [Reply.answer, overrun])

/-- What is done with a machine in a cabinet from outside. -/
inductive Action where
  | step
  | interrupt (address : UInt8)
  | resetTo (index : Nat)
  | press (key : Key)
  | release (key : Key)
  deriving DecidableEq, Repr

/-- What comes of it. -/
inductive Reaction where
  /-- An instruction was executed at this cost. -/
  | cost (cycles : UInt8)
  /-- An interrupt was accepted or declined. -/
  | taken (accepted : Bool)
  /-- A key was moved. -/
  | moved
  deriving DecidableEq, Repr

/-- Does something with a machine. -/
def act (machine : Machine Cabinet) : Action → Reply Stop (Machine Cabinet) Reaction
  | .step => machine.step.onValue .cost
  | .interrupt address => (machine.interrupt address).onValue .taken
  | .resetTo index => (machine.resetTo index).onValue .taken
  | .press key => .ok .moved { machine with host := machine.host.press key }
  | .release key => .ok .moved { machine with host := machine.host.release key }

/-- Does one thing after the other, whatever comes of it. -/
def acts (machine : Machine Cabinet) :
    List Action → List (Except Stop Reaction) × Machine Cabinet
  | [] => ([], machine)
  | action :: rest =>
    let reply := machine.act action
    let (answers, last) := reply.responder.acts rest
    (reply.answer :: answers, last)

/-- Nothing is done that could not happen to a machine in any cabinet. -/
theorem happens_act (machine : Machine Cabinet) (action : Action) :
    machine.Happens (machine.act action).responder := by
  cases action with
  | step =>
    rw [act, Reply.responder_onValue]
    exact .asked (.step : Operation Unit) _ _ .step
  | interrupt address =>
    rw [act, Reply.responder_onValue]
    exact .asked (.interrupt address : Operation Unit) _ _ (.interrupt address)
  | resetTo index =>
    rw [act, Reply.responder_onValue]
    exact .asked (.resetTo index : Operation Unit) _ _ (.resetTo index)
  | press key => exact .pressed key
  | release key => exact .released key

theorem history_acts (machine : Machine Cabinet) (actions : List Action) :
    Relation.ReflTransGen Happens machine (machine.acts actions).2 := by
  induction actions generalizing machine with
  | nil => exact .refl
  | cons action rest inductionHypothesis =>
    exact .head (machine.happens_act action) (inductionHypothesis _)

/-- A machine that was halted stays halted by the same stop, whatever is done. -/
theorem acts_of_halted {stop : Stop} (halted : machine.status = .halted stop)
    (actions : List Action) : (machine.acts actions).2.status = .halted stop := by
  induction actions generalizing machine with
  | nil => exact halted
  | cons action rest inductionHypothesis =>
    have asked {operation : Operation Unit} {answer : Answer} {after : Machine Cabinet}
        (response : machine.Response operation answer after) : after.status = .halted stop := by
      rw [((response_iff_of_halted halted operation answer after).mp response).2, halted]
    apply inductionHypothesis
    cases action with
    | step =>
      rw [act, Reply.responder_onValue]
      exact asked .step
    | interrupt address =>
      rw [act, Reply.responder_onValue]
      exact asked (.interrupt address)
    | resetTo index =>
      rw [act, Reply.responder_onValue]
      exact asked (.resetTo index)
    | press key | release key => exact halted

/-- Replies that part do so whatever value is shown of them. -/
theorem Parting.onValue {α β : Type} {lenient strict : Reply Stop (Machine Cabinet) α}
    (parting : machine.Parting lenient strict) (f : α → β) :
    machine.Parting (lenient.onValue f) (strict.onValue f) := by
  cases parting with
  | together still drops fine =>
    cases lenient with
    | ok value after => exact .together (.ok (f value) after) still drops fun _ _ => nofun
    | error stop after =>
      refine .together (.error stop after) still drops fun address value same => ?_
      exact fine address value (congrArg Except.error (Except.error.inj same))
  | apart left address value dropped halted =>
    refine .apart _ left address value ?_ halted
    rwa [Reply.responder_onValue]

/-- The two machines part in whatever is done with both. -/
theorem Lenient.act (lenient : machine.Lenient) (action : Action) :
    machine.Parting (machine.act action) (machine.tighten.act action) := by
  cases action with
  | step => exact lenient.step.onValue _
  | interrupt address => exact (lenient.interrupt address).onValue _
  | resetTo index => exact (lenient.resetTo index).onValue _
  | press key =>
    exact .together (.ok Reaction.moved { machine with host := machine.host.press key })
      ⟨⟨lenient.houses.table, lenient.houses.host⟩, lenient.fine⟩ rfl fun _ _ => nofun
  | release key =>
    exact .together (.ok Reaction.moved { machine with host := machine.host.release key })
      ⟨⟨lenient.houses.table, lenient.houses.host⟩, lenient.fine⟩ rfl fun _ _ => nofun

/-- How the two machines compare after any number of actions. -/
inductive Abreast :
    List (Except Stop Reaction) × Machine Cabinet → List (Except Stop Reaction) × Machine Cabinet →
      Prop where
  /-- Nothing was dropped, and they are alike. -/
  | together (answers : List (Except Stop Reaction)) (machine : Machine Cabinet)
      (lenient : machine.Lenient) (undropped : machine.host.drops = []) :
      Abreast (answers, machine) (answers, machine.tighten)
  /-- The strict machine was stopped by the first write that was dropped. -/
  | apart (answers others : List (Except Stop Reaction)) (lenient strict : Machine Cabinet)
      (address : UInt16) (value : UInt8)
      (dropped : [(address, value)] <+: lenient.host.drops)
      (halted : strict.status = .halted (overrun address value)) :
      Abreast (answers, lenient) (others, strict)

/-- They compare alike if both have answered the same before. -/
theorem Abreast.cons {lenient strict : List (Except Stop Reaction) × Machine Cabinet}
    (abreast : Abreast lenient strict) (answer : Except Stop Reaction) :
    Abreast (answer :: lenient.1, lenient.2) (answer :: strict.1, strict.2) := by
  cases abreast with
  | together answers machine still undropped => exact .together _ machine still undropped
  | apart answers others machine strict address value dropped halted =>
    exact .apart _ _ machine strict address value dropped halted

/-- The two machines stay abreast, from any point at which nothing was dropped. -/
theorem Lenient.acts (lenient : machine.Lenient) (undropped : machine.host.drops = [])
    (actions : List Action) :
    Abreast (machine.acts actions) (machine.tighten.acts actions) := by
  induction actions generalizing machine with
  | nil => exact .together [] machine lenient undropped
  | cons action rest inductionHypothesis =>
    have parting := lenient.act action
    have houses := (machine.happens_act action).houses (Cabinet.lasting_strict false)
      lenient.houses
    simp only [Machine.acts]
    generalize machine.act action = reply at parting houses ⊢
    generalize machine.tighten.act action = counterpart at parting ⊢
    cases parting with
    | together still drops fine =>
      rw [Reply.answer_onResponder, Reply.responder_onResponder]
      exact (inductionHypothesis still (drops.trans undropped)).cons reply.answer
    | apart left address value dropped halted =>
      rw [undropped, List.nil_append] at dropped
      have kept := houses_of_history (history_acts reply.responder rest)
        (Cabinet.lasting_drops [(address, value)]) ⟨houses.table, dropped⟩
      exact .apart _ _ _ _ address value kept.host (acts_of_halted halted rest)

/-- The strict machine is stopped by what the lenient one has dropped first. -/
theorem Abreast.halted_iff {lenient strict : List (Except Stop Reaction) × Machine Cabinet}
    (abreast : Abreast lenient strict) (address : UInt16) (value : UInt8) :
    strict.2.status = .halted (overrun address value) ↔
      lenient.2.host.drops.head? = some (address, value) := by
  cases abreast with
  | together answers after still undropped =>
    rw [undropped]
    exact iff_of_false (still.fine address value) nofun
  | apart answers others after left first written dropped halted =>
    rw [halted, Cabinet.head?_of_prefix dropped, Status.halted.injEq]
    exact overrun_inj

/-- If nothing was dropped before, that stop is the answer to what makes the lenient machine
drop something. -/
theorem Parting.answer_iff {α : Type} {lenient strict : Reply Stop (Machine Cabinet) α}
    (parting : machine.Parting lenient strict) (undropped : machine.host.drops = [])
    (address : UInt16) (value : UInt8) :
    strict.answer = .error (overrun address value) ↔
      lenient.responder.host.drops.head? = some (address, value) := by
  cases parting with
  | together still drops fine =>
    rw [Reply.answer_onResponder, drops, undropped]
    exact iff_of_false (fine address value) nofun
  | apart left first written dropped halted =>
    rw [undropped] at dropped
    rw [Cabinet.head?_of_prefix dropped]
    simp only [Reply.answer, Except.error.injEq]
    exact overrun_inj

/-- Strictness only adds a stop. A machine in a cabinet with a program, and the same machine in
the same cabinet made strict, are stepped, interrupted and played in the same way. The strict one
is stopped for a write above its memory if and only if the lenient one has dropped a write, which
is then the one that the stop names. Until then both have given the same answers and differ in
nothing but strictness, and this stop is the answer to whatever makes the lenient machine drop a
write for the first time. -/
theorem strict_adds_stop {rom : List UInt8} (fits : rom.length ≤ Cabinet.romSize) :
    ∃ cabinet, Cabinet.load rom = .ok cabinet ∧
      ∀ machine : Machine Cabinet, machine.host = cabinet → machine.table = .canonical →
        machine.status = .running → ∀ earlier : List Action,
          (∀ address value,
              (machine.tighten.acts earlier).2.status = .halted (overrun address value) ↔
                (machine.acts earlier).2.host.drops.head? = some (address, value)) ∧
            ((∀ address value,
                (machine.tighten.acts earlier).2.status ≠ .halted (overrun address value)) →
              (machine.tighten.acts earlier).1 = (machine.acts earlier).1 ∧
                (machine.tighten.acts earlier).2 = (machine.acts earlier).2.tighten ∧
                ∀ action address value,
                  ((machine.tighten.acts earlier).2.act action).answer =
                      .error (overrun address value) ↔
                    ((machine.acts earlier).2.act action).responder.host.drops.head? =
                      some (address, value)) := by
  refine ⟨_, Cabinet.load_of_fits fits, ?_⟩
  intro machine host table running earlier
  have lenient : machine.Lenient := by
    refine ⟨⟨table, ?_⟩, ?_⟩
    · rw [host]
    · rw [running]
      exact fun _ _ => nofun
  have undropped : machine.host.drops = [] := by
    rw [host]
    rfl
  have abreast := lenient.acts undropped earlier
  refine ⟨abreast.halted_iff, ?_⟩
  generalize machine.acts earlier = reached at abreast ⊢
  generalize machine.tighten.acts earlier = counterpart at abreast ⊢
  intro other
  cases abreast with
  | together answers after still none =>
    exact ⟨rfl, rfl, fun action => (still.act action).answer_iff none⟩
  | apart answers others after strict first written dropped halted =>
    exact absurd halted (other first written)

/-- A program of one instruction, which stores a word across the end of the memory. -/
def storingAcross : List UInt8 :=
  [0x22, 0xFF, 0x3F]

theorem next_storingAcross {machine : Machine Cabinet} (start : machine.cpu.pc = 0)
    (memory : machine.host.memory = Memory.blank.load 0 storingAcross) :
    machine.next = .shld 0x3FFF := by
  have bytes (address : UInt16) (short : address.toNat < 3) :
      Host.read machine.host address = storingAcross[address.toNat]?.getD 0 := by
    have inside : address.toNat < Cabinet.memorySize := Nat.lt_trans short (by decide)
    change machine.host.memory.read (address.toNat % Cabinet.memorySize) = _
    rw [memory, Nat.mod_eq_of_lt inside, Memory.read_load, if_pos ⟨Nat.zero_le _, inside⟩,
      Memory.read_blank, Nat.sub_zero]
  rw [Machine.next, start, bytes 0 (by decide), bytes (0 + 1) (by decide),
    bytes (0 + 2) (by decide)]
  rfl

/-- A key is pressed before this program is executed. Then the lenient machine stores one byte
and drops the other, and this is where the strict machine stops. -/
theorem strict_adds_stop_across :
    storingAcross.length ≤ Cabinet.romSize ∧
      ∃ cabinet, Cabinet.load storingAcross = .ok cabinet ∧
        ∃ machine : Machine Cabinet, machine = start .canonical cabinet ∧
          (machine.acts [.press .coin]).2.host.controls = 0x09 ∧
          ((machine.acts [.press .coin]).2.act .step).responder.host.drops = [(0x4000, 0x00)] ∧
          (machine.tighten.acts [.press .coin]).1 = [.ok .moved] ∧
          ((machine.tighten.acts [.press .coin]).2.act .step).answer =
            .error (overrun 0x4000 0x00) := by
  have fits : storingAcross.length ≤ Cabinet.romSize := by decide
  obtain ⟨cabinet, load, compares⟩ := strict_adds_stop fits
  obtain rfl : { memory := Memory.blank.load 0 storingAcross } = cabinet :=
    Except.ok.inj ((Cabinet.load_of_fits fits).symm.trans load)
  obtain ⟨-, alike⟩ := compares (start .canonical _) rfl rfl rfl [.press .coin]
  obtain ⟨answers, -, stops⟩ := alike fun _ _ => nofun
  generalize pressed : ((start .canonical { memory := Memory.blank.load 0 storingAcross }).acts
    [.press .coin]).2 = machine at stops
  have next : machine.next = .shld 0x3FFF := by
    rw [← pressed]
    exact next_storingAcross rfl rfl
  have drops : (machine.act .step).responder.host.drops = [(0x4000, 0x00)] := by
    have stepped := @step_canonical _ _ machine (pressed ▸ rfl) (pressed ▸ rfl)
    rw [next] at stepped
    rw [act, stepped, ← pressed]
    rfl
  refine ⟨fits, _, load, _, rfl, rfl, ?_, answers, ?_⟩
  · rw [pressed]
    exact drops
  · exact (stops .step 0x4000 0x00).mpr (by rw [drops]; rfl)

end Machine

end Intel8080
