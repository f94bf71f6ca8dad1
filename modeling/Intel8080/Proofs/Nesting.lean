import Intel8080.Proofs.Atomicity
import Intel8080.Proofs.Fetching
import Intel8080.Proofs.Footprint
import Intel8080.Proofs.Series
import Intel8080.Proofs.Sessions

/-!
# Interrupts do not nest

A handler that is interrupted before it has enabled interrupts itself would find the stack in
disorder. What rules this out is the interrupt latch. Only two instructions set or clear it,
an accepted request clears it, and so does one whose return address could not be stored.
The latch thus remembers one thing, which of these happened last.

A machine is used from outside by steps, by requests and by advances of a scheduler, which
are steps and requests in turn. A `Chronicle` enters each of them with the machine before and
after it, also those within an advance, so that a statement about its prefixes is one about
every moment. The laws are proved for histories, chains of genuine occurrences, by following
them from one occurrence to the next.
-/

namespace Intel8080

/-- Something that decides about the interrupt latch. -/
inductive LatchEvent where
  /-- The instruction that enables interrupts was executed. -/
  | enabled
  /-- The instruction that disables them was executed. -/
  | disabled
  /-- A request was accepted. -/
  | accepted
  /-- A request would have been accepted, but the return address was refused. -/
  | faulted
  deriving DecidableEq, Repr

/-- How the event leaves the latch. -/
def LatchEvent.latch : LatchEvent → Bool
  | enabled => true
  | disabled | accepted | faulted => false

/-- Something that was done with a machine: the machine before and after it. -/
inductive Occurrence (σ : Type) where
  /-- It was stepped. -/
  | stepped (before after : Machine σ)
  /-- It was asked to take an interrupt, and answered. -/
  | asked (answer : Except Stop Bool) (before after : Machine σ)

namespace Occurrence

variable {σ : Type}

def before : Occurrence σ → Machine σ
  | stepped before _ | asked _ before _ => before

def after : Occurrence σ → Machine σ
  | stepped _ after | asked _ _ after => after

variable [Host σ]

/-- What an occurrence decides about the latch, if anything. A step of a running machine
executes the instruction in memory at the program counter. A request that halts a running
machine has failed on its way into the handler. -/
def event? : Occurrence σ → Option LatchEvent
  | stepped before _ =>
    match before.status, before.next with
    | .running, .interrupts true => some .enabled
    | .running, .interrupts false => some .disabled
    | _, _ => none
  | asked (.ok true) _ _ => some .accepted
  | asked (.ok false) _ _ => none
  | asked (.error _) before after =>
    if before.isRunning && !after.isRunning then some .faulted else none

/-- The occurrence is a step, or a request by address or by number. -/
inductive Genuine : Occurrence σ → Prop where
  | step (machine : Machine σ) : Genuine (stepped machine machine.step.responder)
  | interrupt (machine : Machine σ) (address : UInt8) :
      Genuine (asked (machine.interrupt address).answer machine
        (machine.interrupt address).responder)
  | resetTo (machine : Machine σ) (index : Nat) :
      Genuine (asked (machine.resetTo index).answer machine (machine.resetTo index).responder)

end Occurrence

namespace Instruction

/-- The latch after an instruction. -/
def latch (before : Bool) : Instruction → Bool
  | interrupts enabled => enabled
  | _ => before

variable {σ : Type} [Host σ]

/-- No instruction but the two that are meant to decides about the latch, whether it completes
or not. -/
theorem interrupts_execute (instruction : Instruction) (cpu : Cpu) (host : σ) :
    (instruction.execute cpu host).cpu.interrupts = instruction.latch cpu.interrupts := by
  cases switches : instruction.switchesInterrupts with
  | true =>
    cases instruction with
    | interrupts enabled => rfl
    | _ => cases switches
  | false =>
    have keeps : instruction.latch cpu.interrupts = cpu.interrupts := by
      cases instruction with
      | interrupts enabled => cases switches
      | _ => rfl
    rw [keeps]
    cases executed : instruction.execute cpu host with
    | mk result after left =>
      cases result with
      | ok extra =>
        have footprint := (exchange_keeps cpu (Host.read host) instruction).of_run
          (run_of_execute executed)
        exact footprint.interrupts switches
      | error stop =>
        obtain ⟨rfl, -⟩ := execute_failure executed
        rfl

end Instruction

namespace Machine

variable {σ : Type} [Host σ] {machine : Machine σ}

/-- A step leaves the latch to the instruction that it executes, also where the host objects
to it afterwards. -/
theorem interrupts_step (canonical : machine.table = .canonical)
    (running : machine.status = .running) :
    machine.step.responder.cpu.interrupts = machine.next.latch machine.cpu.interrupts := by
  have executed :=
    machine.next.interrupts_execute (machine.past machine.next) machine.host
  rw [step_canonical canonical running]
  cases outcome : machine.next.execute (machine.past machine.next) machine.host with
  | mk result cpu host =>
    rw [outcome] at executed
    cases result with
    | error stop => exact executed
    | ok extra =>
      simp only [settle]
      split <;> exact executed

/-- What becomes of a machine that is asked to take an interrupt. -/
inductive Reception (machine : Machine σ) : Reply Stop (Machine σ) Bool → Prop where
  /-- It enters the handler, with interrupts disabled. -/
  | accepted (after : Machine σ) (table : after.table = machine.table)
      (latch : machine.cpu.interrupts = true) (cleared : after.cpu.interrupts = false) :
      Reception machine (.ok true after)
  /-- It is halted on the way, with interrupts disabled already. -/
  | faulted (fault : Fault) (after : Machine σ) (table : after.table = machine.table)
      (running : machine.status = .running) (halted : after.status = .halted (.fault fault))
      (latch : machine.cpu.interrupts = true) (cleared : after.cpu.interrupts = false) :
      Reception machine (.error (.fault fault) after)
  /-- It declines and stays as it is. -/
  | declined : Reception machine (.ok false machine)
  /-- It has stopped, or the request is turned down. -/
  | refused (stop : Stop) : Reception machine (.error stop machine)

theorem reception_inject (machine : Machine σ) (number : UInt8) :
    machine.Reception (machine.inject (.rst number)) := by
  obtain ⟨host, cpu, table, status⟩ := machine
  cases status with
  | halted stop => exact .refused stop
  | running =>
    cases latch : cpu.interrupts with
    | false =>
      simp only [inject, latch, Bool.not_false, if_true]
      exact .declined
    | true =>
      have cleared := (Instruction.rst number).interrupts_execute
        { cpu with interrupts := false } host
      simp only [inject, latch, Bool.not_true, Bool.false_eq_true, if_false]
      cases executed : (Instruction.rst number).execute { cpu with interrupts := false } host with
      | mk result after left =>
        rw [executed] at cleared
        cases result with
        | ok extra => exact .accepted _ rfl latch cleared
        | error stop =>
          obtain ⟨-, calls, failure, -⟩ := Instruction.execute_failure executed
          cases failure with
          | ended _ ends => cases ends
          | refused _ fault => exact .faulted fault _ rfl rfl rfl latch cleared
          | torn _ _ fault _ => exact .faulted fault _ rfl rfl rfl latch cleared

/-- Every request, by address or by number, is received in one of these ways. -/
theorem Inquiry.reception {ω : Type} {operation : Operation ω}
    {reply : Reply Stop (Machine σ) Bool} (inquiry : machine.Inquiry operation reply) :
    machine.Reception reply := by
  cases inquiry with
  | injected number _ => exact machine.reception_inject number
  | rejected fault _ => exact .refused (.fault fault)

end Machine

namespace Occurrence

variable {σ : Type} [Host σ] {occurrence : Occurrence σ}

/-- What an occurrence comes to: the latch follows the event, if there is one, and only a set
latch lets a request get anywhere. -/
structure Proper (occurrence : Occurrence σ) : Prop where
  table : occurrence.after.table = occurrence.before.table
  latch : occurrence.after.cpu.interrupts =
    (occurrence.event?.map LatchEvent.latch).getD occurrence.before.cpu.interrupts
  accepted : occurrence.event? = some .accepted → occurrence.before.cpu.interrupts = true
  faulted : occurrence.event? = some .faulted → occurrence.before.cpu.interrupts = true ∧
    ∃ fault, occurrence.after.status = .halted (.fault fault)

/-- An occurrence that leaves the latch alone decides nothing about it. -/
theorem Proper.of_none (quiet : occurrence.event? = none)
    (table : occurrence.after.table = occurrence.before.table)
    (latch : occurrence.after.cpu.interrupts = occurrence.before.cpu.interrupts) :
    occurrence.Proper where
  table := table
  latch := by rw [quiet, latch, Option.map_none, Option.getD_none]
  accepted happened := by simp [quiet] at happened
  faulted happened := by simp [quiet] at happened

theorem proper_step {machine : Machine σ} (canonical : machine.table = .canonical) :
    Proper (stepped machine machine.step.responder) := by
  have table := machine.table_step
  cases status : machine.status with
  | halted stop =>
    have quiet : (stepped machine machine.step.responder).event? = none := by
      simp only [event?, status]
    apply Proper.of_none quiet table
    simp only [after, before, Machine.step_of_halted status, Reply.responder]
  | running =>
    have latch := Machine.interrupts_step canonical status
    cases next : machine.next with
    | interrupts enabled =>
      rw [next] at latch
      cases enabled with
      | true =>
        have event : (stepped machine machine.step.responder).event? = some .enabled := by
          simp only [event?, status, next]
        exact ⟨table, by rw [event]; exact latch, by simp [event], by simp [event]⟩
      | false =>
        have event : (stepped machine machine.step.responder).event? = some .disabled := by
          simp only [event?, status, next]
        exact ⟨table, by rw [event]; exact latch, by simp [event], by simp [event]⟩
    | _ =>
      rw [next] at latch
      exact .of_none (by simp only [event?, status, next]) table latch

theorem proper_asked {machine : Machine σ} {reply : Reply Stop (Machine σ) Bool}
    (reception : machine.Reception reply) :
    Proper (asked reply.answer machine reply.responder) := by
  cases reception with
  | accepted after table latch cleared =>
    exact ⟨table, cleared, fun _ => latch, fun faulted => by cases faulted⟩
  | faulted fault after table running halted latch cleared =>
    have event : (asked (.error (.fault fault)) machine after).event? = some .faulted := by
      simp [event?, Machine.isRunning, running, halted]
    exact ⟨table, by rw [Reply.answer, Reply.responder, event]; exact cleared,
      fun _ => latch, fun _ => ⟨latch, fault, halted⟩⟩
  | declined => exact .of_none rfl rfl rfl
  | refused stop =>
    refine .of_none ?_ rfl rfl
    simp [event?, Reply.answer, Reply.responder]

/-- Steps and requests are proper occurrences. -/
theorem Genuine.proper (genuine : occurrence.Genuine)
    (canonical : occurrence.before.table = .canonical) : occurrence.Proper := by
  cases genuine with
  | step machine => exact proper_step canonical
  | interrupt machine address =>
    have inquiry := machine.inquiry_interrupt address (ω := Unit)
    exact proper_asked inquiry.reception
  | resetTo machine index =>
    exact proper_asked (machine.inquiry_resetTo index (ω := Unit)).reception

end Occurrence

/-- The events among occurrences, in order. -/
def latchEvents {σ : Type} [Host σ] (occurrences : List (Occurrence σ)) : List LatchEvent :=
  occurrences.filterMap Occurrence.event?

/-- Genuine occurrences that lead from one machine to another. -/
inductive History {σ : Type} [Host σ] : Machine σ → List (Occurrence σ) → Machine σ → Prop where
  | nil (machine : Machine σ) : History machine [] machine
  | cons {occurrence : Occurrence σ} {rest : List (Occurrence σ)} {last : Machine σ}
      (genuine : occurrence.Genuine) (history : History occurrence.after rest last) :
      History occurrence.before (occurrence :: rest) last

namespace History

variable {σ : Type} [Host σ] {first last : Machine σ} {occurrences : List (Occurrence σ)}

/-- What is done after a history goes on with it. -/
theorem concat (history : History first occurrences last) {occurrence : Occurrence σ}
    (genuine : occurrence.Genuine) (continues : occurrence.before = last) :
    History first (occurrences ++ [occurrence]) occurrence.after := by
  induction history with
  | nil =>
    subst continues
    exact .cons genuine (.nil _)
  | cons earlier _ inductionHypothesis => exact .cons earlier (inductionHypothesis continues)

/-- A history has a moment between any two parts of it. -/
theorem split {earlier later : List (Occurrence σ)}
    (history : History first (earlier ++ later) last) :
    ∃ moment, History first earlier moment ∧ History moment later last := by
  induction earlier generalizing first with
  | nil => exact ⟨first, .nil first, history⟩
  | cons occurrence rest inductionHypothesis =>
    cases history with
    | cons genuine history =>
      obtain ⟨moment, before, after⟩ := inductionHypothesis history
      exact ⟨moment, .cons genuine before, after⟩

theorem table (history : History first occurrences last) (canonical : first.table = .canonical) :
    last.table = .canonical := by
  induction history with
  | nil => exact canonical
  | cons genuine _ inductionHypothesis =>
    exact inductionHypothesis ((genuine.proper canonical).table.trans canonical)

/-- The latch remembers the last event. -/
theorem latch (history : History first occurrences last) (canonical : first.table = .canonical) :
    last.cpu.interrupts =
      ((latchEvents occurrences).getLast?.map LatchEvent.latch).getD first.cpu.interrupts := by
  induction history with
  | nil => rfl
  | @cons occurrence rest last genuine _ inductionHypothesis =>
    have proper := genuine.proper canonical
    rw [inductionHypothesis (proper.table.trans canonical), proper.latch, latchEvents,
      latchEvents, List.filterMap_cons]
    cases occurrence.event? with
    | none => rfl
    | some event =>
      rw [List.getLast?_cons]
      cases (rest.filterMap Occurrence.event?).getLast? <;> rfl

/-- A latch that was clear and is set has been set in between. -/
theorem mem_enabled (history : History first occurrences last)
    (canonical : first.table = .canonical) (clear : first.cpu.interrupts = false)
    (set : last.cpu.interrupts = true) : LatchEvent.enabled ∈ latchEvents occurrences := by
  have latch := history.latch canonical
  rw [clear, set] at latch
  cases lastEvent : (latchEvents occurrences).getLast? with
  | none =>
    rw [lastEvent] at latch
    cases latch
  | some event =>
    rw [lastEvent] at latch
    cases event with
    | enabled => exact List.mem_of_getLast? lastEvent
    | disabled | accepted | faulted => cases latch

/-- Each acceptance uses up what an enabling instruction, or the latch at the beginning, has
provided; what the latch holds is not used up yet. -/
theorem count_accepted (history : History first occurrences last)
    (canonical : first.table = .canonical) :
    (latchEvents occurrences).count .accepted + last.cpu.interrupts.toNat ≤
      (latchEvents occurrences).count .enabled + first.cpu.interrupts.toNat := by
  induction history with
  | nil => exact Nat.le_refl _
  | @cons occurrence rest last genuine _ inductionHypothesis =>
    have proper := genuine.proper canonical
    have counted := inductionHypothesis (proper.table.trans canonical)
    rw [proper.latch] at counted
    rw [latchEvents, List.filterMap_cons, ← latchEvents]
    cases happened : occurrence.event? with
    | none =>
      rw [happened] at counted
      exact counted
    | some event =>
      rw [happened] at counted
      cases event with
      | accepted =>
        -- The latch was set, and what it held is used up now.
        rw [proper.accepted happened, List.count_cons_self, List.count_cons_of_ne (by decide),
          Bool.toNat_true]
        change _ ≤ _ + 0 at counted
        omega
      | enabled =>
        rw [List.count_cons_of_ne (by decide), List.count_cons_self]
        change _ ≤ _ + 1 at counted
        omega
      | disabled | faulted =>
        rw [List.count_cons_of_ne (by decide), List.count_cons_of_ne (by decide)]
        change _ ≤ _ + 0 at counted
        omega

end History

/-- A use of a machine from outside. -/
inductive Stimulus where
  | step
  | interrupt (address : UInt8)
  | resetTo (index : Nat)
  /-- An advance by some scheduler, in at most the given number of turns. -/
  | advance (limit : Nat) (scheduler : Scheduler) (elapsedNanos : Nat)

/-- A machine, and what was done with it so far. -/
structure Chronicle (σ : Type) where
  machine : Machine σ
  occurrences : List (Occurrence σ) := []

namespace Chronicle

variable {σ : Type}

/-- Adds an occurrence. -/
def record (chronicle : Chronicle σ) (occurrence : Occurrence σ) : Chronicle σ :=
  ⟨occurrence.after, chronicle.occurrences ++ [occurrence]⟩

/-- Observes the turns of a scheduler. To find the machine halted is a step that it refuses. -/
def enter (chronicle : Chronicle σ) (event : Event) (after : Machine σ) : Chronicle σ :=
  match event with
  | .stepped _ _ | .refused _ => chronicle.record (.stepped chronicle.machine after)
  | .offered _ answer => chronicle.record (.asked answer chronicle.machine after)

variable [Host σ]

/-- Uses the machine and keeps the chronicle. Only an advance may have no outcome, if its limit
is too low. -/
def use (chronicle : Chronicle σ) : Stimulus → Option (Chronicle σ)
  | .step =>
    some (chronicle.record (.stepped chronicle.machine chronicle.machine.step.responder))
  | .interrupt address =>
    let reply := chronicle.machine.interrupt address
    some (chronicle.record (.asked reply.answer chronicle.machine reply.responder))
  | .resetTo index =>
    let reply := chronicle.machine.resetTo index
    some (chronicle.record (.asked reply.answer chronicle.machine reply.responder))
  | .advance limit scheduler elapsedNanos =>
    (scheduler.advanceObserved enter limit chronicle chronicle.machine elapsedNanos).map
      fun (seen, advance) => { seen with machine := advance.machine }

/-- The occurrences lead from a machine to the one in the chronicle. -/
def Continues (first : Machine σ) (chronicle : Chronicle σ) : Prop :=
  History first chronicle.occurrences chronicle.machine

theorem Continues.record {first : Machine σ} {chronicle : Chronicle σ}
    (continues : chronicle.Continues first) {occurrence : Occurrence σ}
    (genuine : occurrence.Genuine) (same : occurrence.before = chronicle.machine) :
    (chronicle.record occurrence).Continues first :=
  History.concat continues genuine same

/-- The turn of a scheduler is entered as the step or the request that it was. -/
theorem Continues.turn {first : Machine σ} {chronicle : Chronicle σ} {progress : Progress σ}
    (continues : chronicle.Continues first) (same : chronicle.machine = progress.machine) :
    (chronicle.enter progress.turn.1 progress.turn.2.machine).Continues first ∧
      (chronicle.enter progress.turn.1 progress.turn.2.machine).machine =
        progress.turn.2.machine := by
  obtain ⟨scheduler, machine, tick⟩ := progress
  obtain ⟨current, occurrences⟩ := chronicle
  obtain rfl : current = machine := same
  rw [Progress.turn]
  split
  · have genuine := Occurrence.Genuine.interrupt current scheduler.vector
    simp only [Progress.offer]
    cases answer : current.interrupt scheduler.vector with
    | ok taken after =>
      rw [answer] at genuine
      cases taken with
      | true => exact ⟨continues.record genuine rfl, rfl⟩
      | false => exact ⟨continues.record genuine rfl, rfl⟩
    | error stop after =>
      rw [answer] at genuine
      exact ⟨continues.record genuine rfl, rfl⟩
  · have genuine := Occurrence.Genuine.step current
    simp only [Progress.execute]
    rw [Machine.step] at genuine
    cases status : current.status with
    | halted stop =>
      rw [status] at genuine
      exact ⟨continues.record genuine rfl, rfl⟩
    | running =>
      rw [status] at genuine
      simp only at genuine ⊢
      cases performed : current.perform current.fetch with
      | ok cost after =>
        rw [performed] at genuine
        exact ⟨continues.record genuine rfl, rfl⟩
      | error stop after =>
        rw [performed] at genuine
        exact ⟨continues.record genuine rfl, rfl⟩

/-- So are all turns of a run. -/
theorem Continues.run {first : Machine σ} {chronicle after : Chronicle σ}
    {progress : Progress σ} {advance : Advance σ} (continues : chronicle.Continues first)
    (same : chronicle.machine = progress.machine)
    (run : Progress.Run enter chronicle progress after advance) :
    History first after.occurrences advance.machine := by
  induction run with
  | spent chronicle progress exhausted => exact same ▸ continues
  | stopped chronicle progress stop inCredit halting =>
    obtain ⟨entered, upToDate⟩ := continues.turn same
    rw [Continues, upToDate] at entered
    exact entered
  | turned chronicle progress inCredit going rest inductionHypothesis =>
    obtain ⟨entered, upToDate⟩ := continues.turn same
    exact inductionHypothesis entered upToDate

/-- However a machine is used, the chronicle stays one. -/
theorem Continues.use {first : Machine σ} {chronicle after : Chronicle σ} {stimulus : Stimulus}
    (continues : chronicle.Continues first) (used : chronicle.use stimulus = some after) :
    after.Continues first := by
  cases stimulus with
  | step =>
    obtain rfl := Option.some.inj used
    exact continues.record (.step chronicle.machine) rfl
  | interrupt address =>
    obtain rfl := Option.some.inj used
    exact continues.record (.interrupt chronicle.machine address) rfl
  | resetTo index =>
    obtain rfl := Option.some.inj used
    exact continues.record (.resetTo chronicle.machine index) rfl
  | advance limit scheduler elapsedNanos =>
    obtain ⟨⟨seen, advance⟩, advanced, rfl⟩ := Option.map_eq_some_iff.mp used
    have run : Progress.Run enter chronicle
        { scheduler := scheduler.grant elapsedNanos, machine := chronicle.machine } seen advance :=
      Progress.run_of_runObserved advanced
    have led : History first seen.occurrences advance.machine := continues.run rfl run
    exact led

theorem Continues.foldlM {first : Machine σ} {chronicle after : Chronicle σ}
    {stimuli : List Stimulus} (continues : chronicle.Continues first)
    (used : stimuli.foldlM Chronicle.use chronicle = some after) : after.Continues first := by
  induction stimuli generalizing chronicle with
  | nil =>
    obtain rfl := Option.some.inj used
    exact continues
  | cons stimulus rest inductionHypothesis =>
    rw [List.foldlM_cons] at used
    obtain ⟨next, once, others⟩ := Option.bind_eq_some_iff.mp used
    exact inductionHypothesis (continues.use once) others

end Chronicle

/-- Interrupts do not nest. Whatever is done with a machine by steps, requests and advances,
at every moment the latch is set exactly if the last event was that interrupts were enabled,
or if there was none and it was set from the beginning; and no more requests were accepted than
enabling instructions executed, save for one on account of the latch at the beginning. Between
any two requests that were accepted such an instruction was executed. A request whose return
address was refused counts as an event because it clears the latch too; it halts the machine. -/
theorem interrupts_never_nest {σ : Type} [Host σ] {machine : Machine σ}
    (canonical : machine.table = .canonical) {stimuli : List Stimulus} {chronicle : Chronicle σ}
    (used : stimuli.foldlM Chronicle.use { machine } = some chronicle) :
    (∀ earlier later, chronicle.occurrences = earlier ++ later →
      ∃ moment, History machine earlier moment ∧ History moment later chronicle.machine ∧
        (moment.cpu.interrupts = true ↔
          (latchEvents earlier).getLast? = some .enabled ∨
            latchEvents earlier = [] ∧ machine.cpu.interrupts = true) ∧
        (latchEvents earlier).count .accepted ≤
          (latchEvents earlier).count .enabled + machine.cpu.interrupts.toNat) ∧
      (∀ earlier first middle second later,
        chronicle.occurrences = earlier ++ first :: (middle ++ second :: later) →
        first.event? = some .accepted → second.event? = some .accepted →
          ∃ occurrence ∈ middle, occurrence.event? = some .enabled) ∧
      ∀ occurrence ∈ chronicle.occurrences, occurrence.event? = some .faulted →
        ∃ fault, occurrence.after.status = .halted (.fault fault) := by
  have begins : Chronicle.Continues machine { machine } := History.nil machine
  have history : History machine chronicle.occurrences chronicle.machine := begins.foldlM used
  refine ⟨?_, ?_, ?_⟩
  · intro earlier later parts
    rw [parts] at history
    obtain ⟨moment, before, after⟩ := history.split
    refine ⟨moment, before, after, ?_, ?_⟩
    · rw [before.latch canonical]
      cases last : (latchEvents earlier).getLast? with
      | none =>
        have empty := List.getLast?_eq_none_iff.mp last
        simp [empty]
      | some event =>
        have some : latchEvents earlier ≠ [] := by
          rintro empty
          simp [empty] at last
        cases event <;> simp [some, LatchEvent.latch]
    · have counted := before.count_accepted canonical
      omega
  · intro earlier first middle second later parts entered reentered
    rw [parts] at history
    obtain ⟨start, before, rest⟩ := history.split
    have canonicalStart := before.table canonical
    cases rest with
    | cons genuine rest =>
      have proper := genuine.proper canonicalStart
      have clear := proper.latch
      rw [entered] at clear
      obtain ⟨finish, between, rest⟩ := rest.split
      have canonicalAfter := proper.table.trans canonicalStart
      cases rest with
      | cons genuine _ =>
        have set := (genuine.proper (between.table canonicalAfter)).accepted reentered
        exact List.mem_filterMap.mp (between.mem_enabled canonicalAfter clear set)
  · intro occurrence member faulted
    obtain ⟨earlier, later, parts⟩ := List.append_of_mem member
    rw [parts] at history
    obtain ⟨moment, before, rest⟩ := history.split
    cases rest with
    | cons genuine _ => exact ((genuine.proper (before.table canonical)).faulted faulted).2

/-- Every kind of use in a row. Of the requests in front of the advance one is accepted, one is
declined while the handler runs, and one is for an address without a restart. -/
def interleaved : List Stimulus :=
  [.step, .step, .interrupt 0x08, .resetTo 2, .interrupt 0x09,
    .advance 20 { timing := { clockRate := 1000, frameRate := 20 } } 73000000]

/-- Three requests are accepted, two of them within the advance, each after the instruction
that enables interrupts. The last one has left the latch clear. -/
theorem interrupts_never_nest_raster :
    Machine.raster.table = .canonical ∧
      ∃ chronicle, interleaved.foldlM Chronicle.use { machine := .raster } = some chronicle ∧
        latchEvents chronicle.occurrences =
          [.enabled, .accepted, .enabled, .accepted, .enabled, .accepted] ∧
        chronicle.machine.cpu.interrupts = false ∧
        (latchEvents chronicle.occurrences).count .accepted ≤
          (latchEvents chronicle.occurrences).count .enabled := by
  have canonical : Machine.raster.table = .canonical := rfl
  obtain ⟨chronicle, used, events⟩ : ∃ chronicle,
      interleaved.foldlM Chronicle.use { machine := .raster } = some chronicle ∧
        latchEvents chronicle.occurrences =
          [.enabled, .accepted, .enabled, .accepted, .enabled, .accepted] := by
    apply Option.map_eq_some_iff.mp
    decide +kernel
  obtain ⟨moments, -, -⟩ := interrupts_never_nest canonical used
  obtain ⟨moment, -, rest, latch, counted⟩ :=
    moments chronicle.occurrences [] (List.append_nil _).symm
  cases rest
  refine ⟨canonical, chronicle, used, events, ?_, counted⟩
  rw [events] at latch
  simpa using latch

end Intel8080
