import Mathlib.Data.List.Induction
import Intel8080.Proofs.Protection

/-!
# What the ports of a cabinet tell

Of everything that happens to a cabinet its input ports remember very little. The shift register
holds the two values that were sent last to port 4, and shows the byte at the offset that was
sent last to port 2. The control port shows the keys whose latest move was down. `Records` says
so for a history of any length, and every event keeps it, those included that are refused or that
concern the memory.

The ports 3, 5 and 6 leave nothing behind but signals. A history is therefore remembered as well
without the values that were sent there.
-/

namespace Intel8080

/-- The keys of a cabinet. -/
def Key.all : List Key :=
  [coin, start, fire, left, right]

namespace Cabinet

/-- Something that happens to a cabinet: a byte of memory is read, something is requested, or a
key is moved down or up. -/
inductive Event where
  | read (address : UInt16)
  | requested (request : Request)
  | moved (key : Key) (down : Bool)
  deriving DecidableEq, Repr

/-- The cabinet after an event. -/
def handle (cabinet : Cabinet) : Event → Cabinet
  | .read _ => cabinet
  | .requested request => request.serve cabinet
  | .moved key true => cabinet.press key
  | .moved key false => cabinet.release key

/-- The value that an event has sent to a port. -/
def Event.sent? (port : UInt8) : Event → Option UInt8
  | requested (.output target value) => if target = port then some value else none
  | _ => none

/-- Where an event has moved a key. -/
def Event.moved? (key : Key) : Event → Option Bool
  | moved other down => if other = key then some down else none
  | _ => none

/-- What was selected last from a history, or so many times before. -/
def recent {α : Type} (select : Event → Option α) (events : List Event) (back : Nat) :
    Option α :=
  (events.filterMap select).reverse[back]?

/-- The value that was sent last to a port, or so many times before; zero if there is none. -/
def sent (port : UInt8) (events : List Event) (back : Nat) : UInt8 :=
  (recent (Event.sent? port) events back).getD 0

/-- Whether the latest move of a key was down. -/
def held (events : List Event) (key : Key) : Bool :=
  (recent (Event.moved? key) events 0).getD false

/-- The number that shows which keys are held. -/
def panel (held : Key → Bool) : Nat :=
  8 + (Key.all.map fun key => if held key then key.mask.toNat else 0).sum

section History

variable {α : Type} {select : Event → Option α} {events : List Event} {event : Event}

/-- What is selected from the latest event comes before everything else. -/
theorem recent_concat_of_some {value : α} (selected : select event = some value) :
    recent select (events ++ [event]) 0 = some value ∧
      ∀ back, recent select (events ++ [event]) (back + 1) = recent select events back := by
  simp [recent, selected]

/-- Otherwise the latest event makes no difference. -/
theorem recent_concat_of_none (ignored : select event = none) :
    recent select (events ++ [event]) = recent select events := by
  funext back
  simp [recent, ignored]

theorem sent_concat_of_some {port value : UInt8} (selected : event.sent? port = some value) :
    sent port (events ++ [event]) 0 = value ∧
      ∀ back, sent port (events ++ [event]) (back + 1) = sent port events back := by
  obtain ⟨newest, others⟩ := @recent_concat_of_some _ _ events _ _ selected
  refine ⟨?_, ?_⟩
  · rw [sent, newest, Option.getD_some]
  · intro back
    rw [sent, others, sent]

theorem sent_concat_of_none {port : UInt8} (ignored : event.sent? port = none) :
    sent port (events ++ [event]) = sent port events := by
  funext back
  rw [sent, recent_concat_of_none ignored, sent]

theorem held_concat_of_none (ignored : ∀ key, event.moved? key = none) :
    held (events ++ [event]) = held events := by
  funext key
  rw [held, recent_concat_of_none (ignored key), held]

/-- A move is remembered of the key that it is about, and of no other. -/
theorem held_concat_moved (key : Key) (down : Bool) :
    held (events ++ [.moved key down]) = Function.update (held events) key down := by
  funext other
  by_cases same : other = key
  · subst same
    have moved : (Event.moved other down).moved? other = some down := if_pos rfl
    rw [held, (recent_concat_of_some moved).1, Function.update_self]
    rfl
  · have ignored : (Event.moved key down).moved? other = none := if_neg (Ne.symm same)
    rw [held, recent_concat_of_none ignored, Function.update_of_ne same, held]

end History

/-- Setting and clearing the bit of a key shows it as held or not, and every other as before. -/
theorem panel_update (held : Key → Bool) (key : Key) :
    UInt8.ofNat (panel held) ||| key.mask = UInt8.ofNat (panel (Function.update held key true)) ∧
      UInt8.ofNat (panel held) &&& ~~~key.mask =
        UInt8.ofNat (panel (Function.update held key false)) := by
  -- Decided for each of the keys and for all that can be held.
  cases key <;>
  · simp only [panel, Key.all, List.map_cons, List.map_nil, Function.update, reduceCtorEq,
      dite_false, dite_true]
    generalize held .coin = coin, held .start = start, held .fire = fire, held .left = left,
      held .right = right
    revert coin start fire left right
    decide

/-- What a cabinet remembers of its history. -/
structure Records (events : List Event) (cabinet : Cabinet) : Prop where
  shift : cabinet.shift = word (sent 4 events 0) (sent 4 events 1)
  offset : cabinet.offset = sent 2 events 0 &&& 7
  controls : cabinet.controls = UInt8.ofNat (panel (held events))

variable {cabinet after : Cabinet} {events : List Event} {event : Event}

/-- Two cabinets that remember the same. -/
structure SamePorts (cabinet after : Cabinet) : Prop where
  shift : after.shift = cabinet.shift
  offset : after.offset = cabinet.offset
  controls : after.controls = cabinet.controls

/-- An event that is about neither a key nor one of the two ports may change neither. -/
theorem Records.quiet (records : Records events cabinet) (same : cabinet.SamePorts after)
    (shift : event.sent? 4 = none) (offset : event.sent? 2 = none)
    (keys : ∀ key, event.moved? key = none) : Records (events ++ [event]) after where
  shift := by rw [same.shift, records.shift, sent_concat_of_none shift]
  offset := by rw [same.offset, records.offset, sent_concat_of_none offset]
  controls := by rw [same.controls, records.controls, held_concat_of_none keys]

/-- Writing a byte leaves the ports alone, however it ends. -/
theorem samePorts_write (cabinet : Cabinet) (address : UInt16) (value : UInt8) :
    cabinet.SamePorts (Host.write cabinet address value).responder := by
  have writing := cabinet.writing address value
  generalize Host.write cabinet address value = reply at writing ⊢
  cases writing with
  | stored after least inside bytes rest =>
    rw [← rest]
    exact ⟨rfl, rfl, rfl⟩
  | readOnly | outOfRange | dropped => exact ⟨rfl, rfl, rfl⟩

/-- So does a value sent to any other port than these two, whether it is connected or not. -/
theorem samePorts_output (cabinet : Cabinet) {port : UInt8} (value : UInt8) (shift : port ≠ 4)
    (offset : port ≠ 2) : cabinet.SamePorts (Host.output cabinet port value).responder := by
  simp only [Host.output, output]
  split
  · exact absurd rfl offset
  · exact absurd rfl shift
  · exact ⟨rfl, rfl, rfl⟩
  · exact ⟨rfl, rfl, rfl⟩
  · exact ⟨rfl, rfl, rfl⟩
  · exact ⟨rfl, rfl, rfl⟩

/-- A value sent to port 4 moves the one before it to the lower half. -/
theorem Records.shiftIn (records : Records events cabinet) (value : UInt8) :
    Records (events ++ [.requested (.output 4 value)]) (cabinet.shiftIn value) := by
  have selected : (Event.requested (.output 4 value)).sent? 4 = some value := rfl
  obtain ⟨newest, others⟩ := @sent_concat_of_some events _ _ _ selected
  refine ⟨?_, ?_, ?_⟩
  · rw [newest, others, Cabinet.shiftIn, records.shift, highByte_word]
  · rw [sent_concat_of_none rfl]
    exact records.offset
  · rw [held_concat_of_none fun _ => rfl]
    exact records.controls

/-- Of a value sent to port 2 the three lowest bits count. -/
theorem Records.moveWindow (records : Records events cabinet) (value : UInt8) :
    Records (events ++ [.requested (.output 2 value)])
      { cabinet with offset := value &&& 7 } := by
  have selected : (Event.requested (.output 2 value)).sent? 2 = some value := rfl
  obtain ⟨newest, -⟩ := @sent_concat_of_some events _ _ _ selected
  refine ⟨?_, ?_, ?_⟩
  · rw [sent_concat_of_none rfl]
    exact records.shift
  · rw [newest]
  · rw [held_concat_of_none fun _ => rfl]
    exact records.controls

/-- A key leaves the shift register alone. -/
theorem Records.move (records : Records events cabinet) (key : Key) (down : Bool) :
    Records (events ++ [.moved key down]) (cabinet.handle (.moved key down)) := by
  obtain ⟨set, cleared⟩ := panel_update (held events) key
  refine ⟨?_, ?_, ?_⟩
  · rw [sent_concat_of_none rfl]
    cases down <;> exact records.shift
  · rw [sent_concat_of_none rfl]
    cases down <;> exact records.offset
  · rw [held_concat_moved]
    cases down with
    | true => exact (congrArg (· ||| key.mask) records.controls).trans set
    | false => exact (congrArg (· &&& ~~~key.mask) records.controls).trans cleared

/-- Every event is remembered. -/
theorem Records.handle (records : Records events cabinet) (event : Event) :
    Records (events ++ [event]) (cabinet.handle event) := by
  cases event with
  | read address => exact records.quiet ⟨rfl, rfl, rfl⟩ rfl rfl fun _ => rfl
  | requested request =>
    cases request with
    | write address value =>
      exact records.quiet (cabinet.samePorts_write address value) rfl rfl fun _ => rfl
    | input port =>
      rw [Cabinet.handle, Request.serve, responder_input]
      exact records.quiet ⟨rfl, rfl, rfl⟩ rfl rfl fun _ => rfl
    | output port value =>
      by_cases shift : port = 4
      · subst shift
        exact records.shiftIn value
      · by_cases offset : port = 2
        · subst offset
          exact records.moveWindow value
        · exact records.quiet (cabinet.samePorts_output value shift offset) (if_neg shift)
            (if_neg offset) fun _ => rfl
  | moved key down => exact records.move key down

/-- Values sent, keys moved, and among them what a cabinet refuses: ports that are not connected
and a write to the program. -/
def playing : List Event :=
  [.moved .coin true, .requested (.output 4 0xAB), .requested (.output 9 0x01),
    .moved .right true, .requested (.output 4 0xCD), .requested (.input 0),
    .requested (.write 0x0000 0xFF), .requested (.output 2 0x0F), .moved .coin false,
    .requested (.output 3 0x01), .read 0x2000]

end Cabinet

end Intel8080
