import Intel8080.Proofs.Cost
import Intel8080.Proofs.Series

/-!
# Offers at the half-frame boundaries

The cycles run, divided by the length of a half frame, give the number of boundaries
passed and the phase since the last one. A scheduler keeps neither sum. It keeps the
phase, a flag for a boundary that has no offer yet, and the side of the next offer;
that these agree with the division at every moment is the invariant.

No instruction crosses two boundaries that are eighteen cycles apart or more, so a
pending offer is made before the next boundary and within eighteen cycles of its own.
What an observer enters of every offer then follows: the instant, the vector, whether it
was taken, and that a declined one left no trace.
-/

namespace Intel8080

namespace Timing

/-- The restart address of an offer, counted from zero. -/
def vectorAt (timing : Timing) (index : Nat) : UInt8 :=
  if index % 2 = 1 then timing.vectors.2 else timing.vectors.1

/-- At both addresses there is a restart. -/
def HasRestarts (timing : Timing) : Prop :=
  (Instruction.restartTo? timing.vectors.1).isSome ∧
    (Instruction.restartTo? timing.vectors.2).isSome

instance (timing : Timing) : Decidable timing.HasRestarts :=
  inferInstanceAs (Decidable (_ ∧ _))

/-- Whichever of the two is next, it is offered at a restart address. -/
theorem HasRestarts.vector {scheduler : Scheduler} (restarts : scheduler.timing.HasRestarts) :
    (Instruction.restartTo? scheduler.vector).isSome := by
  rw [Scheduler.vector]
  split
  · exact restarts.2
  · exact restarts.1

/-- A half frame that is long enough is the one that interrupts are paced by. -/
theorem pace_of_room {timing : Timing} (room : 18 ≤ timing.cyclesPerHalfFrame) :
    timing.pace = timing.cyclesPerHalfFrame :=
  Nat.max_eq_left (by omega)

end Timing

/-- An interrupt offered to a machine. -/
structure Offer (σ : Type) where
  /-- Clock cycles run before it. -/
  cycles : Nat
  vector : UInt8
  taken : Bool
  /-- Clock cycles that the counter of the processor advanced by. -/
  cost : Nat
  /-- The machine that it was offered to. -/
  before : Machine σ
  after : Machine σ

/-- What an observer keeps of an advance: the machine seen last, the cycles run and
the offers made, in order. -/
structure Ledger (σ : Type) where
  machine : Machine σ
  cycles : Nat := 0
  offers : List (Offer σ) := []

/-- Enters an event, with the machine as the event left it. -/
def Ledger.enter {σ : Type} (ledger : Ledger σ) (event : Event) (machine : Machine σ) :
    Ledger σ :=
  match event with
  | .stepped _ (.ok cost) => { ledger with machine, cycles := ledger.cycles + cost.toNat }
  | .offered vector (.ok taken) =>
    let cost := (machine.cpu.cycles - ledger.machine.cpu.cycles).toNat
    let offer := ⟨ledger.cycles, vector, taken, cost, ledger.machine, machine⟩
    { machine, cycles := ledger.cycles + cost, offers := ledger.offers ++ [offer] }
  | _ => { ledger with machine }

/-- An offer is as it should be for the boundary with the given number, counted from
zero: it is made within eighteen cycles of the boundary, at the address whose turn it
is; the interrupt latch decides whether it is taken; if it is not, it costs nothing and
the machine stays exactly as it was. -/
structure Offer.Proper {σ : Type} (timing : Timing) (index : Nat) (offer : Offer σ) : Prop where
  onTime : (index + 1) * timing.cyclesPerHalfFrame ≤ offer.cycles ∧
    offer.cycles ≤ (index + 1) * timing.cyclesPerHalfFrame + 17
  vector : offer.vector = timing.vectorAt index
  taken : offer.taken = offer.before.cpu.interrupts
  cost : offer.cost = if offer.taken then 11 else 0
  declined : offer.taken = false → offer.after = offer.before

/-- What is found in a list after an entry was added was there before or is the
entry. -/
theorem getElem?_concat_cases {α : Type} {entries : List α} {last value : α} {index : Nat}
    (found : (entries ++ [last])[index]? = some value) :
    entries[index]? = some value ∨ index = entries.length ∧ value = last := by
  by_cases earlier : index < entries.length
  · rw [List.getElem?_append_left earlier] at found
    exact .inl found
  · rw [List.getElem?_append_right (by omega), List.getElem?_singleton] at found
    split at found
    · exact .inr ⟨by omega, (Option.some.inj found).symm⟩
    · cases found

namespace Progress

variable {σ : Type}

/-- The phase, the pending offer and the side of the next one agree with the cycles
run and the offers made. A boundary without its offer is less than eighteen cycles
past. -/
structure InPhase (timing : Timing) (progress : Progress σ) : Prop where
  rate : progress.scheduler.timing = timing
  halfFrame : progress.scheduler.halfFrame =
    progress.tick.cycles % timing.cyclesPerHalfFrame
  offers : progress.tick.presented + progress.scheduler.pending.toNat =
    progress.tick.cycles / timing.cyclesPerHalfFrame
  side : progress.scheduler.second = decide (progress.tick.presented % 2 = 1)
  prompt : progress.scheduler.pending = true → progress.scheduler.halfFrame < 18

theorem inPhase_fresh (timing : Timing) (machine : Machine σ) :
    InPhase timing ⟨{ timing }, machine, {}⟩ where
  rate := rfl
  halfFrame := by simp
  offers := by simp
  side := rfl
  prompt := by simp

/-- Granting time moves no boundary. -/
theorem InPhase.grant {timing : Timing} {progress : Progress σ}
    (inPhase : InPhase timing progress) (duration : Nat) :
    InPhase timing { progress with scheduler := progress.scheduler.grant duration } :=
  ⟨inPhase.rate, inPhase.halfFrame, inPhase.offers, inPhase.side, inPhase.prompt⟩

/-- Spending crosses one boundary at most, and then leaves an offer pending for it. -/
theorem InPhase.spend {timing : Timing} {progress : Progress σ} {cost : Nat}
    (machine : Machine σ) (accepted : Nat) (inPhase : InPhase timing progress)
    (room : 18 ≤ timing.cyclesPerHalfFrame) (idle : progress.scheduler.pending = false)
    (bounded : cost ≤ 18) :
    InPhase timing ⟨progress.scheduler.spend cost, machine,
      ⟨progress.tick.cycles + cost, progress.tick.presented, accepted⟩⟩ := by
  obtain ⟨scheduler, before, tick⟩ := progress
  obtain ⟨rate, halfFrame, offers, side, -⟩ := inPhase
  simp only at rate halfFrame offers side idle
  rw [idle, Bool.toNat_false, Nat.add_zero] at offers
  have positive : 0 < timing.cyclesPerHalfFrame := by omega
  have pace : scheduler.timing.pace = timing.cyclesPerHalfFrame := by
    rw [rate, Timing.pace_of_room room]
  have within : scheduler.halfFrame < timing.cyclesPerHalfFrame :=
    halfFrame ▸ Nat.mod_lt _ positive
  have parts : scheduler.halfFrame + timing.cyclesPerHalfFrame * tick.presented = tick.cycles := by
    rw [halfFrame, offers, Nat.mod_add_div]
  -- Quotient and remainder are unique, so it is enough that the new sums add up.
  by_cases crossed : scheduler.halfFrame + cost ≥ timing.cyclesPerHalfFrame
  · obtain ⟨quotient, remainder⟩ := (Nat.div_mod_unique (a := tick.cycles + cost)
      (c := scheduler.halfFrame + cost - timing.cyclesPerHalfFrame)
      (d := tick.presented + 1) positive).mpr ⟨by rw [Nat.mul_add]; omega, by omega⟩
    simp only [Scheduler.spend, pace, if_pos crossed]
    exact ⟨rate, remainder.symm, quotient.symm, side, fun _ => by simp only; omega⟩
  · obtain ⟨quotient, remainder⟩ := (Nat.div_mod_unique (a := tick.cycles + cost)
      (c := scheduler.halfFrame + cost) (d := tick.presented) positive).mpr
      ⟨by omega, by omega⟩
    simp only [Scheduler.spend, pace, if_neg crossed]
    refine ⟨rate, remainder.symm, ?_, side, ?_⟩
    · simp only [idle, quotient, Bool.toNat_false, Nat.add_zero]
    · simp [idle]

/-- Making the pending offer counts it and turns to the other address. -/
theorem InPhase.takeOffer {timing : Timing} {progress : Progress σ} (machine : Machine σ)
    (accepted : Nat) (inPhase : InPhase timing progress)
    (due : progress.scheduler.pending = true) :
    InPhase timing ⟨progress.scheduler.takeOffer, machine,
      ⟨progress.tick.cycles, progress.tick.presented + 1, accepted⟩⟩ := by
  obtain ⟨rate, halfFrame, offers, side, -⟩ := inPhase
  rw [due, Bool.toNat_true] at offers
  refine ⟨rate, halfFrame, offers, ?_, ?_⟩
  · simp only [Scheduler.takeOffer, side]
    rcases Nat.mod_two_eq_zero_or_one progress.tick.presented with even | odd
    · simp [even, Nat.add_mod]
    · simp [odd, Nat.add_mod]
  · simp [Scheduler.takeOffer]

/-- A pending offer is for the boundary passed last, at the address whose turn it is. -/
theorem InPhase.due {timing : Timing} {progress : Progress σ} (inPhase : InPhase timing progress)
    (due : progress.scheduler.pending = true) :
    (progress.tick.presented + 1) * timing.cyclesPerHalfFrame ≤ progress.tick.cycles ∧
      progress.tick.cycles ≤ (progress.tick.presented + 1) * timing.cyclesPerHalfFrame + 17 ∧
      progress.scheduler.vector = timing.vectorAt progress.tick.presented := by
  obtain ⟨rate, halfFrame, offers, side, prompt⟩ := inPhase
  have soon := prompt due
  have parts := Nat.div_add_mod' progress.tick.cycles timing.cyclesPerHalfFrame
  rw [← offers, ← halfFrame, due, Bool.toNat_true] at parts
  refine ⟨by omega, by omega, ?_⟩
  simp [Scheduler.vector, Timing.vectorAt, rate, side]

/-- What an observer entered is what happened, and every offer is as it should be. -/
structure Recorded (timing : Timing) (ledger : Ledger σ) (progress : Progress σ) : Prop where
  machine : ledger.machine = progress.machine
  cycles : ledger.cycles = progress.tick.cycles
  presented : ledger.offers.length = progress.tick.presented
  accepted : ledger.offers.countP Offer.taken = progress.tick.accepted
  proper : ∀ index (offer : Offer σ), ledger.offers[index]? = some offer →
    offer.Proper timing index

/-- A completed instruction is entered with its cost. -/
theorem Recorded.stepped {timing : Timing} {ledger : Ledger σ} {progress : Progress σ}
    (recorded : Recorded timing ledger progress) (fetched : Fetched) (cost : UInt8)
    (scheduler : Scheduler) (machine : Machine σ) :
    Recorded timing (ledger.enter (.stepped fetched (.ok cost)) machine)
      ⟨scheduler, machine, { progress.tick with cycles := progress.tick.cycles + cost.toNat }⟩ :=
  ⟨rfl, congrArg (· + cost.toNat) recorded.cycles, recorded.presented, recorded.accepted,
    recorded.proper⟩

variable [Host σ]

/-- A turn keeps phase, offers and cycles in agreement. -/
theorem InPhase.turn {timing : Timing} {progress next : Progress σ} {event : Event}
    (inPhase : InPhase timing progress) (room : 18 ≤ timing.cyclesPerHalfFrame)
    (canonical : progress.machine.table = .canonical) (turn : Turn progress event next) :
    InPhase timing next := by
  cases turn with
  | stepped cost machine idle completed =>
    obtain ⟨-, most, -⟩ := Machine.step_cost canonical completed
    exact inPhase.spend machine _ room idle most
  | accepted machine due entered =>
    have offered := inPhase.takeOffer machine (progress.tick.accepted + 1) due
    exact offered.spend machine _ room rfl (by simp [Machine.interrupt_cost entered])
  | declined machine due _ => exact inPhase.takeOffer machine _ due

/-- An answered offer is entered as one more proper offer. The phase before it tells
when it was made, and the machine decided by its latch alone. -/
theorem Recorded.offered {timing : Timing} {ledger : Ledger σ} {progress : Progress σ}
    {machine : Machine σ} {taken : Bool} (recorded : Recorded timing ledger progress)
    (inPhase : InPhase timing progress) (due : progress.scheduler.pending = true)
    (answered : progress.machine.interrupt progress.scheduler.vector = .ok taken machine)
    (scheduler : Scheduler) :
    Recorded timing (ledger.enter (.offered progress.scheduler.vector (.ok taken)) machine)
      ⟨scheduler, machine,
        ⟨progress.tick.cycles + (machine.cpu.cycles - progress.machine.cpu.cycles).toNat,
          progress.tick.presented + 1, progress.tick.accepted + taken.toNat⟩⟩ := by
  obtain ⟨seen, cycles, presented, accepted, proper⟩ := recorded
  obtain ⟨earliest, latest, vector⟩ := inPhase.due due
  obtain ⟨latch, -, change⟩ := Machine.interrupt_ok answered
  refine ⟨rfl, ?_, ?_, ?_, ?_⟩
  · simp only [Ledger.enter, cycles, seen]
  · simp only [Ledger.enter, List.length_append, presented, List.length_singleton]
  · cases taken <;> simp [Ledger.enter, accepted]
  · intro index offer found
    rcases getElem?_concat_cases found with earlier | ⟨rfl, rfl⟩
    · exact proper index offer earlier
    · rw [presented]
      refine ⟨?_, vector, ?_, ?_, ?_⟩
      · exact cycles ▸ ⟨earliest, latest⟩
      · exact seen ▸ latch
      · simp only [seen]
        cases taken with
        | true => exact Machine.interrupt_cost answered
        | false => simp [show machine = progress.machine from change]
      · rintro rfl
        exact seen ▸ change

/-- Every turn is entered as it happened. -/
theorem Recorded.turn {timing : Timing} {ledger : Ledger σ} {progress next : Progress σ}
    {event : Event} (recorded : Recorded timing ledger progress)
    (inPhase : InPhase timing progress) (turn : Turn progress event next) :
    Recorded timing (ledger.enter event next.machine) next := by
  cases turn with
  | stepped cost machine _ _ => exact recorded.stepped _ cost _ machine
  | accepted machine due entered => exact recorded.offered inPhase due entered _
  | declined machine due refused =>
    obtain ⟨-, -, same⟩ := Machine.interrupt_ok refused
    obtain rfl : machine = progress.machine := same
    have offered := recorded.offered inPhase due refused progress.scheduler.takeOffer
    rwa [UInt64.sub_self] at offered

/-- After a series of advances on a fresh scheduler, the phase agrees with the cycles
run, and what was entered is what happened. -/
theorem Series.recorded {timing : Timing} {machine : Machine σ} {durations : List Nat}
    {ledger : Ledger σ} {advance : Advance σ} {tick : Tick}
    (runs : Series Ledger.enter Scheduler.grant { machine } ⟨{ timing }, machine, {}⟩ durations
      ledger advance)
    (canonical : machine.table = .canonical) (room : 18 ≤ timing.cyclesPerHalfFrame)
    (returned : advance.result = .ok tick) :
    InPhase timing ⟨advance.scheduler, advance.machine, tick⟩ ∧
      Recorded timing ledger ⟨advance.scheduler, advance.machine, tick⟩ := by
  have kept := runs.invariant
    (fun _ ledger progress => progress.machine.table = .canonical ∧
      InPhase timing progress ∧ Recorded timing ledger progress)
    ?_ ?_ ?_ (Int.le_refl 0) returned
  · exact kept.1.2
  · rintro _ ledger progress event next ⟨canonical, inPhase, recorded⟩ _ turn
    exact ⟨turn.table.trans canonical, inPhase.turn room canonical turn,
      recorded.turn inPhase turn⟩
  · rintro duration _ ledger progress ⟨canonical, inPhase, recorded⟩ _
    exact ⟨canonical, inPhase.grant duration, recorded.machine, recorded.cycles,
      recorded.presented, recorded.accepted, recorded.proper⟩
  · refine ⟨canonical, inPhase_fresh timing machine, rfl, rfl, rfl, rfl, ?_⟩
    intro index offer found
    cases found

end Progress

namespace Scheduler

open Progress

/-- Every half-frame boundary is offered exactly once, in time and at the addresses in
turn. After any series of advances on a fresh scheduler, the offers made and the one
pending are as many as the boundaries in the cycles run, and the phase is the rest. An
observer of the same series enters those cycles and each of those offers, and every
offer is as it should be. -/
theorem advanceEach_offers {σ : Type} [Host σ] {timing : Timing} {machine after : Machine σ}
    {limit : Nat} {durations : List Nat} {scheduler : Scheduler} {tick : Tick}
    (canonical : machine.table = .canonical) (room : 18 ≤ timing.cyclesPerHalfFrame)
    (returned : advanceEach limit { timing } machine durations =
      some ⟨scheduler, after, .ok tick⟩) :
    tick.presented + scheduler.pending.toNat = tick.cycles / timing.cyclesPerHalfFrame ∧
      scheduler.halfFrame = tick.cycles % timing.cyclesPerHalfFrame ∧
      ∃ ledger,
        advanceEachObserved Ledger.enter limit { machine } { timing } machine durations =
          some (ledger, ⟨scheduler, after, .ok tick⟩) ∧
        ledger.cycles = tick.cycles ∧ ledger.offers.length = tick.presented ∧
        ledger.offers.countP Offer.taken = tick.accepted ∧
        ∀ index (offer : Offer σ), ledger.offers[index]? = some offer →
          offer.Proper timing index := by
  obtain ⟨ledger, observed⟩ := exists_observed Ledger.enter { machine } returned
  obtain ⟨inPhase, recorded⟩ :=
    (series_of_advanceEachObserved observed).recorded canonical room rfl
  exact ⟨inPhase.offers, inPhase.halfFrame, ledger, observed, recorded.cycles,
    recorded.presented, recorded.accepted, recorded.proper⟩

/-- Half frames of twenty-five cycles, with the third boundary passed just before the cut
between two advances. Two offers are accepted and six are declined, at addresses in
turn. -/
theorem advanceEach_offers_raster :
    let timing : Timing := { clockRate := 1000, frameRate := 20 }
    18 ≤ timing.cyclesPerHalfFrame ∧
      ∃ scheduler after ledger,
        advanceEach 100 { timing } .raster [73000000, 133000000] =
          some ⟨scheduler, after, .ok ⟨210, 8, 2⟩⟩ ∧
        8 + scheduler.pending.toNat = 210 / 25 ∧ scheduler.halfFrame = 210 % 25 ∧
        advanceEachObserved Ledger.enter 100 { machine := .raster } { timing } .raster
          [73000000, 133000000] = some (ledger, ⟨scheduler, after, .ok ⟨210, 8, 2⟩⟩) ∧
        ledger.offers.length = 8 ∧ ledger.offers.countP Offer.taken = 2 ∧
        ∀ index (offer : Offer Board), ledger.offers[index]? = some offer →
          offer.Proper timing index := by
  intro timing
  have canonical : Machine.raster.table = .canonical := rfl
  have room : 18 ≤ timing.cyclesPerHalfFrame := by decide
  obtain ⟨scheduler, after, returned⟩ : ∃ scheduler after,
      advanceEach 100 { timing } .raster [73000000, 133000000] =
        some ⟨scheduler, after, .ok ⟨210, 8, 2⟩⟩ := exists_of_tick (by decide +kernel)
  obtain ⟨offers, phase, ledger, observed, -, presented, accepted, proper⟩ :=
    advanceEach_offers canonical room returned
  have length : timing.cyclesPerHalfFrame = 25 := by decide
  rw [length] at offers phase
  exact ⟨room, scheduler, after, ledger, returned, offers, phase, observed, presented,
    accepted, proper⟩

end Scheduler

end Intel8080
