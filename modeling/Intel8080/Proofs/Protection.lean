import Mathlib.Logic.Relation
import Intel8080.Cabinet
import Intel8080.Proofs.Requests

/-!
# The memory of a cabinet

The program of a cabinet cannot be changed. Whatever happens to its machine, the lower eight
kilobytes read as the program that was loaded, with zeros behind it, at the addresses of the
first copy and of every other. Nothing that can happen reaches the memory except by writing a
byte, and `Writing` lists the four ways in which that can end: it changes the one byte that it
names, or it changes none.

The copies are for reading only. An address above the memory shows a byte of the working memory,
and a write there is refused or dropped all the same.
-/

namespace Intel8080

namespace Cabinet

/-- How a write of a byte ends. -/
inductive Writing (cabinet : Cabinet) (address : UInt16) (value : UInt8) :
    Reply Fault Cabinet Unit → Prop where
  /-- The byte is stored. It is found at the address and at every other that is the same in the
  first copy, and nothing else is changed. -/
  | stored (after : Cabinet) (least : romSize ≤ address.toNat)
      (inside : address.toNat < memorySize)
      (bytes : ∀ other, Host.read after other =
        if other.toNat % memorySize = address.toNat then value else Host.read cabinet other)
      (rest : { after with memory := cabinet.memory } = cabinet) :
      Writing cabinet address value (.ok () after)
  /-- It belongs to the program. -/
  | readOnly (below : address.toNat < romSize) :
      Writing cabinet address value (.error (.readOnly address value) cabinet)
  /-- There is no memory, and the cabinet is strict about it. -/
  | outOfRange (above : memorySize ≤ address.toNat) (strict : cabinet.strict = true) :
      Writing cabinet address value (.error (.outOfRange address value) cabinet)
  /-- There is no memory, and only a signal shows it. -/
  | dropped (above : memorySize ≤ address.toNat) (lenient : cabinet.strict = false) :
      Writing cabinet address value (.ok () (cabinet.signal (.dropped address value)))

/-- Every write ends in one of these ways. -/
theorem writing (cabinet : Cabinet) (address : UInt16) (value : UInt8) :
    cabinet.Writing address value (Host.write cabinet address value) := by
  change cabinet.Writing address value (cabinet.write address value)
  rw [write]
  split
  · rename_i below
    exact .readOnly below
  · rename_i least
    split
    · rename_i inside
      refine .stored _ (Nat.le_of_not_lt least) inside ?_ rfl
      intro other
      exact (Memory.read_write ..).trans (by simp only [inside, true_and]; rfl)
    · rename_i above
      split
      · rename_i strict
        exact .outOfRange (Nat.le_of_not_lt above) strict
      · rename_i lenient
        exact .dropped (Nat.le_of_not_lt above) (Bool.eq_false_iff.mpr lenient)

/-- Loading succeeds for every program that fits. -/
theorem load_of_fits {rom : List UInt8} (fits : rom.length ≤ romSize) :
    load rom = .ok { memory := Memory.blank.load 0 rom } := by
  rw [load, Memory.loadWithin, if_pos fits]
  rfl

/-- Reading a port changes nothing. -/
@[simp] theorem responder_input (cabinet : Cabinet) (port : UInt8) :
    (Host.input cabinet port).responder = cabinet := by
  simp only [Host.input, input]
  split <;> rfl

/-- Writing a port changes neither the memory nor whether the cabinet is strict. -/
theorem responder_output (cabinet : Cabinet) (port value : UInt8) :
    (Host.output cabinet port value).responder.memory = cabinet.memory ∧
      (Host.output cabinet port value).responder.strict = cabinet.strict := by
  simp only [Host.output, output]
  split <;> exact ⟨rfl, rfl⟩

/-- A condition on cabinets that no request, no look at the processor and no key can break. -/
structure Lasting (condition : Cabinet → Prop) : Prop extends Host.Keeps condition where
  press : ∀ cabinet key, condition cabinet → condition (cabinet.press key)
  release : ∀ cabinet key, condition cabinet → condition (cabinet.release key)

/-- A cabinet does not become strict, and does not cease to be. -/
theorem lasting_strict (strict : Bool) : Lasting fun cabinet => cabinet.strict = strict where
  serve := by
    intro cabinet request same
    cases request with
    | write address value =>
      have writing := cabinet.writing address value
      rw [Request.serve]
      generalize Host.write cabinet address value = reply at writing ⊢
      cases writing with
      | stored after least inside bytes rest => exact (congrArg Cabinet.strict rest).trans same
      | readOnly | outOfRange | dropped => exact same
    | input port =>
      rw [Request.serve, responder_input]
      exact same
    | output port value => exact (cabinet.responder_output port value).2.trans same
  didExecute := fun _ _ same => same
  press := fun _ _ same => same
  release := fun _ _ same => same

/-- The cabinet shows a program in every copy of the lower half of the memory, with zeros behind
it. -/
def Shows (rom : List UInt8) (cabinet : Cabinet) : Prop :=
  ∀ address : UInt16, address.toNat % memorySize < romSize →
    Host.read cabinet address = rom[address.toNat % memorySize]?.getD 0

/-- A cabinet shows the program that it was loaded with. -/
theorem shows_load (rom : List UInt8) (strict : Bool) :
    Shows rom { memory := Memory.blank.load 0 rom, strict } := by
  intro address below
  have inside : address.toNat % memorySize < memorySize := Nat.mod_lt _ (by decide)
  refine (Memory.read_load ..).trans ?_
  rw [if_pos ⟨Nat.zero_le _, inside⟩, Memory.read_blank, Nat.sub_zero]

/-- The program lasts: what is written lies above it. -/
theorem lasting_shows (rom : List UInt8) : Lasting (Shows rom) where
  serve := by
    intro cabinet request shown
    cases request with
    | write address value =>
      have writing := cabinet.writing address value
      rw [Request.serve]
      generalize Host.write cabinet address value = reply at writing ⊢
      cases writing with
      | stored after least inside bytes rest =>
        intro other below
        have apart : other.toNat % memorySize ≠ address.toNat := by omega
        exact (bytes other).trans ((if_neg apart).trans (shown other below))
      | readOnly | outOfRange | dropped => exact shown
    | input port =>
      rw [Request.serve, responder_input]
      exact shown
    | output port value =>
      intro other below
      have memory := (cabinet.responder_output port value).1
      exact (congrArg (·.read (other.toNat % memorySize)) memory).trans (shown other below)
  didExecute := fun _ _ shown => shown
  press := fun _ _ shown => shown
  release := fun _ _ shown => shown

end Cabinet

namespace Machine

/-- What can happen to a machine in a cabinet. Someone may ask it something, let a scheduler run it
for some time, request something of the cabinet directly, or use a key. -/
inductive Happens (machine : Machine Cabinet) : Machine Cabinet → Prop where
  | asked {ω : Type} (operation : Operation ω) (answer : Answer) (after : Machine Cabinet)
      (response : machine.Response operation answer after) : Happens machine after
  | advanced (limit : Nat) (scheduler : Scheduler) (elapsedNanos : Nat)
      (advance : Advance Cabinet)
      (computed : scheduler.advance limit machine elapsedNanos = some advance) :
      Happens machine advance.machine
  | requested (request : Request) :
      Happens machine { machine with host := request.serve machine.host }
  | pressed (key : Key) : Happens machine { machine with host := machine.host.press key }
  | released (key : Key) : Happens machine { machine with host := machine.host.release key }

variable {first last : Machine Cabinet} {condition : Cabinet → Prop}

/-- What lasts holds after anything that can happen. -/
theorem Happens.houses (happens : first.Happens last) (lasting : Cabinet.Lasting condition)
    (houses : first.Houses condition) : last.Houses condition := by
  cases happens with
  | asked operation answer after response => exact lasting.response response houses
  | advanced limit scheduler elapsedNanos advance computed =>
    obtain ⟨_, observed, rfl⟩ := Option.map_eq_some_iff.mp computed
    exact (Progress.run_of_runObserved observed).houses lasting.toKeeps houses
  | requested request => exact ⟨houses.table, lasting.serve first.host request houses.host⟩
  | pressed key => exact ⟨houses.table, lasting.press first.host key houses.host⟩
  | released key => exact ⟨houses.table, lasting.release first.host key houses.host⟩

/-- And after any number of such events. -/
theorem houses_of_history (history : Relation.ReflTransGen Happens first last)
    (lasting : Cabinet.Lasting condition) (houses : first.Houses condition) :
    last.Houses condition := by
  induction history with
  | refl => exact houses
  | tail _ happens inductionHypothesis => exact happens.houses lasting inductionHypothesis

/-- Whatever happens to a machine in a cabinet, strict or not, its program stays as it was loaded,
memory repeats every sixteen kilobytes, and a byte that is written is stored where the working
memory is and nowhere else. -/
theorem program_protected {rom : List UInt8} (fits : rom.length ≤ Cabinet.romSize) :
    ∃ loaded, Cabinet.load rom = .ok loaded ∧
      ∀ cabinet, cabinet = loaded ∨ cabinet = loaded.makeStrict →
        ∀ first last : Machine Cabinet, first.host = cabinet → first.table = .canonical →
          Relation.ReflTransGen Happens first last →
            (∀ address : UInt16, address.toNat < Cabinet.romSize →
                Host.read last.host address = rom[address.toNat]?.getD 0) ∧
              (∀ address, Host.read last.host address = Host.read last.host (address % 0x4000)) ∧
              last.host.strict = cabinet.strict ∧
              ∀ address value,
                last.host.Writing address value (Host.write last.host address value) := by
  refine ⟨_, Cabinet.load_of_fits fits, ?_⟩
  intro cabinet kind first last host table history
  have shown : Cabinet.Shows rom cabinet := by
    rcases kind with rfl | rfl
    · exact Cabinet.shows_load rom false
    · exact Cabinet.shows_load rom true
  subst cabinet
  have program := houses_of_history history (Cabinet.lasting_shows rom) ⟨table, shown⟩
  have strict := houses_of_history history (Cabinet.lasting_strict _) ⟨table, rfl⟩
  refine ⟨?_, ?_, strict.host, last.host.writing⟩
  · intro address below
    have inFirst : address.toNat % Cabinet.memorySize = address.toNat :=
      Nat.mod_eq_of_lt (Nat.lt_trans below (by decide))
    have shows := program.host address
    rw [inFirst] at shows
    exact shows below
  · intro address
    change last.host.memory.read (address.toNat % Cabinet.memorySize) =
      last.host.memory.read ((address % 0x4000).toNat % Cabinet.memorySize)
    rw [UInt16.toNat_mod]
    exact congrArg last.host.memory.read (Nat.mod_mod ..).symm

/-- A program of one instruction, which sets the stack pointer. -/
def settingStack : List UInt8 :=
  [0x31, 0x00, 0x24]

/-- In a strict cabinet this program is executed. Then someone tries to write to the program
and is refused; what is read in its place is as it was, in the first copy and in the second. A
write to a copy of the working memory is refused as well. -/
theorem program_protected_strict :
    settingStack.length ≤ Cabinet.romSize ∧
      ∃ loaded, Cabinet.load settingStack = .ok loaded ∧
        ∃ first last : Machine Cabinet, first = start .canonical loaded.makeStrict ∧
          Relation.ReflTransGen Happens first last ∧
          last.host = (Request.write 0x0001 0xAA).serve first.step.responder.host ∧
          Host.read last.host 0x0002 = 0x24 ∧ Host.read last.host 0x4002 = 0x24 ∧
          Host.read last.host 0x1FFF = 0x00 ∧
          Host.write last.host 0x6000 0x77 = .error (.outOfRange 0x6000 0x77) last.host := by
  have fits : settingStack.length ≤ Cabinet.romSize := by decide
  obtain ⟨loaded, load, protects⟩ := program_protected fits
  let first := start Table.canonical loaded.makeStrict
  have history : Relation.ReflTransGen Happens first
      { first.step.responder with
        host := (Request.write 0x0001 0xAA).serve first.step.responder.host } :=
    .tail (.single (.asked (.step : Operation Unit) _ _ .step)) (.requested (.write 0x0001 0xAA))
  generalize reached : { first.step.responder with
    host := (Request.write 0x0001 0xAA).serve first.step.responder.host } = last at history
  obtain ⟨program, copies, strict, writing⟩ :=
    protects loaded.makeStrict (.inr rfl) first last rfl rfl history
  have second := (copies 0x4002).trans (program 0x0002 (by decide))
  refine ⟨fits, loaded, load, first, last, rfl, history, ?_, program 0x0002 (by decide), second,
    program 0x1FFF (by decide), ?_⟩
  · rw [← reached]
  · have above := writing 0x6000 0x77
    generalize Host.write last.host 0x6000 0x77 = reply at above ⊢
    cases above with
    | stored after least inside => exact absurd inside (by decide)
    | readOnly below => exact absurd below (by decide)
    | outOfRange => rfl
    | dropped _ lenient => cases strict.symm.trans lenient

end Machine

end Intel8080
