import Intel8080.Console
import Intel8080.Proofs.Decoding

/-!
# Composing tables

A set of overrides is acceptable if every length is one that an instruction can have and no
opcode occurs twice. The check walks through the set and reports the first entry at fault;
so which error is reported depends on the order of the entries, but whether there is one does
not. An acceptable set gives every opcode at most one descriptor, and a table is determined
by what it holds for each opcode. Hence the order in which the entries are installed does not
matter either, and two compositions are one, with the later entries in front.

Every table that comes about in this way holds at each opcode a descriptor of that opcode,
with a length from one to three. This is what keeps the operand bytes that a machine fetches
within its reach.
-/

namespace Intel8080

namespace Descriptor

variable {σ : Type}

/-- The descriptor claims a length that an instruction can have. -/
def Fits (descriptor : Descriptor σ) : Prop :=
  1 ≤ descriptor.bytes ∧ descriptor.bytes ≤ 3

theorem hasValidLength_iff (descriptor : Descriptor σ) :
    descriptor.hasValidLength = true ↔ descriptor.Fits := by
  simp [hasValidLength, Fits]

/-- A set of overrides that may be installed. -/
structure Acceptable (overrides : List (Descriptor σ)) : Prop where
  fits : ∀ entry ∈ overrides, entry.Fits
  distinct : (overrides.map opcode).Nodup

/-- What is wrong with an entry behind earlier opcodes. Its length is looked at first. -/
inductive Flaw (earlier : List UInt8) (entry : Descriptor σ) : TableError → Prop where
  | length (unfit : ¬ entry.Fits) : Flaw earlier entry (.length entry.opcode entry.bytes)
  | duplicate (fits : entry.Fits) (occurs : entry.opcode ∈ earlier) :
      Flaw earlier entry (.duplicate entry.opcode)

theorem acceptable_nil : Acceptable ([] : List (Descriptor σ)) :=
  ⟨by simp, by simp⟩

theorem acceptable_cons_iff (entry : Descriptor σ) (rest : List (Descriptor σ)) :
    Acceptable (entry :: rest) ↔
      entry.Fits ∧ Acceptable rest ∧ ∀ other ∈ rest, other.opcode ≠ entry.opcode := by
  constructor
  · rintro ⟨fits, distinct⟩
    obtain ⟨first, others⟩ := List.forall_mem_cons.mp fits
    obtain ⟨absent, restDistinct⟩ := List.nodup_cons.mp distinct
    refine ⟨first, ⟨others, restDistinct⟩, ?_⟩
    intro other member same
    exact absent (List.mem_map.mpr ⟨other, member, same⟩)
  · rintro ⟨first, ⟨others, restDistinct⟩, apart⟩
    refine ⟨List.forall_mem_cons.mpr ⟨first, others⟩, List.nodup_cons.mpr ⟨?_, restDistinct⟩⟩
    intro occurs
    obtain ⟨other, member, same⟩ := List.mem_map.mp occurs
    exact apart other member same

/-- An entry that is not at fault is passed over, and its opcode is remembered. -/
theorem firstError?_cons_of_fine {seen : List UInt8} {entry : Descriptor σ}
    (fits : entry.Fits) (fresh : entry.opcode ∉ seen) (rest : List (Descriptor σ)) :
    firstError? seen (entry :: rest) = firstError? (entry.opcode :: seen) rest := by
  have valid : entry.hasValidLength = true := entry.hasValidLength_iff.mpr fits
  simp [firstError?, valid, fresh]

/-- An entry at fault is reported, whatever follows it. -/
theorem firstError?_cons_of_flaw {seen : List UInt8} {entry : Descriptor σ} {error : TableError}
    (flaw : Flaw seen entry error) (rest : List (Descriptor σ)) :
    firstError? seen (entry :: rest) = some error := by
  cases flaw with
  | length unfit =>
    have invalid : ¬ entry.hasValidLength = true := by rwa [hasValidLength_iff]
    simp [firstError?, invalid]
  | duplicate fits occurs =>
    have valid : entry.hasValidLength = true := entry.hasValidLength_iff.mpr fits
    simp [firstError?, valid, occurs]

/-- An entry is at fault, or it fits and its opcode is new. -/
theorem flaw_or_fine (seen : List UInt8) (entry : Descriptor σ) :
    (∃ error, Flaw seen entry error) ∨ (entry.Fits ∧ entry.opcode ∉ seen) := by
  by_cases fits : entry.Fits
  · by_cases occurs : entry.opcode ∈ seen
    · exact .inl ⟨_, .duplicate fits occurs⟩
    · exact .inr ⟨fits, occurs⟩
  · exact .inl ⟨_, .length fits⟩

/-- Nothing is reported of an acceptable set of new opcodes, and of no other set. -/
theorem firstError?_eq_none_iff (seen : List UInt8) (overrides : List (Descriptor σ)) :
    firstError? seen overrides = none ↔
      Acceptable overrides ∧ ∀ entry ∈ overrides, entry.opcode ∉ seen := by
  induction overrides generalizing seen with
  | nil => simp [firstError?, acceptable_nil]
  | cons entry rest inductionHypothesis =>
    rw [acceptable_cons_iff, List.forall_mem_cons]
    rcases flaw_or_fine seen entry with ⟨error, flaw⟩ | ⟨fits, fresh⟩
    · rw [firstError?_cons_of_flaw flaw]
      constructor
      · intro nothing
        cases nothing
      · rintro ⟨⟨fits, -⟩, unseen, -⟩
        cases flaw with
        | length unfit => exact absurd fits unfit
        | duplicate _ occurs => exact absurd occurs unseen
    · rw [firstError?_cons_of_fine fits fresh, inductionHypothesis]
      -- That the others are new behind this entry says two things about each of them.
      have split : (∀ other ∈ rest, other.opcode ∉ entry.opcode :: seen) ↔
          (∀ other ∈ rest, other.opcode ≠ entry.opcode) ∧
            ∀ other ∈ rest, other.opcode ∉ seen := by
        simp only [List.mem_cons, not_or, forall_and]
      rw [split]
      constructor
      · rintro ⟨acceptable, apart, unseen⟩
        exact ⟨⟨fits, acceptable, apart⟩, fresh, unseen⟩
      · rintro ⟨⟨-, acceptable, apart⟩, -, unseen⟩
        exact ⟨acceptable, apart, unseen⟩

/-- An entry at fault is so behind further opcodes as well. -/
theorem Flaw.mono {earlier others : List UInt8} {entry : Descriptor σ} {error : TableError}
    (flaw : Flaw earlier entry error) (occur : ∀ opcode, opcode ∈ earlier → opcode ∈ others) :
    Flaw others entry error := by
  cases flaw with
  | length unfit => exact .length unfit
  | duplicate fits occurs => exact .duplicate fits (occur _ occurs)

/-- What is reported is the flaw of the first entry that has one. -/
theorem firstError?_eq_some_iff (seen : List UInt8) (overrides : List (Descriptor σ))
    (error : TableError) :
    firstError? seen overrides = some error ↔
      ∃ earlier entry later, overrides = earlier ++ entry :: later ∧
        firstError? seen earlier = none ∧ Flaw (earlier.map opcode ++ seen) entry error := by
  induction overrides generalizing seen with
  | nil => simp [firstError?]
  | cons first rest inductionHypothesis =>
    constructor
    · intro reported
      rcases flaw_or_fine seen first with ⟨other, flaw⟩ | ⟨fits, fresh⟩
      · rw [firstError?_cons_of_flaw flaw] at reported
        obtain rfl : other = error := Option.some.inj reported
        exact ⟨[], first, rest, rfl, rfl, flaw⟩
      · rw [firstError?_cons_of_fine fits fresh, inductionHypothesis] at reported
        obtain ⟨earlier, entry, later, rfl, clean, flaw⟩ := reported
        refine ⟨first :: earlier, entry, later, rfl, ?_, flaw.mono ?_⟩
        · rw [firstError?_cons_of_fine fits fresh, clean]
        · intro opcode
          simp only [List.map_cons, List.cons_append, List.mem_append, List.mem_cons]
          exact or_left_comm.mp
    · rintro ⟨earlier, entry, later, same, clean, flaw⟩
      cases earlier with
      | nil =>
        obtain ⟨rfl, rfl⟩ : first = entry ∧ rest = later := List.cons.inj same
        exact firstError?_cons_of_flaw flaw _
      | cons before earlier =>
        obtain ⟨rfl, rfl⟩ : first = before ∧ rest = earlier ++ entry :: later :=
          List.cons.inj same
        obtain ⟨fits, fresh⟩ : first.Fits ∧ first.opcode ∉ seen := by
          rcases flaw_or_fine seen first with ⟨other, flawed⟩ | fine
          · rw [firstError?_cons_of_flaw flawed] at clean
            cases clean
          · exact fine
        rw [firstError?_cons_of_fine fits fresh] at clean ⊢
        refine (inductionHypothesis _).mpr ⟨earlier, entry, later, rfl, clean, flaw.mono ?_⟩
        intro opcode
        simp only [List.map_cons, List.cons_append, List.mem_append, List.mem_cons]
        exact or_left_comm.mp

end Descriptor

/-- An instruction is one to three bytes long. -/
theorem Instruction.length_bounds (instruction : Instruction) :
    1 ≤ instruction.length ∧ instruction.length ≤ 3 := by
  cases instruction <;> simp only [length] <;> decide

namespace Table

open Descriptor

variable {σ : Type}

/-- A table is determined by what it holds for each opcode. -/
theorem ext_get {left right : Table σ} (same : ∀ opcode, left.get opcode = right.get opcode) :
    left = right := by
  obtain ⟨left⟩ := left
  obtain ⟨right⟩ := right
  congr
  apply Vector.ext
  intro index inside
  have here := same (UInt8.ofNat index)
  simpa [get, Nat.mod_eq_of_lt inside] using here

/-- Installing leaves alone what no entry is for. -/
theorem get_foldl_install_of_not_mem (table : Table σ) {overrides : List (Descriptor σ)}
    {opcode : UInt8} (absent : opcode ∉ overrides.map Descriptor.opcode) :
    (overrides.foldl install table).get opcode = table.get opcode := by
  induction overrides generalizing table with
  | nil => rfl
  | cons entry rest inductionHypothesis =>
    obtain ⟨apart, elsewhere⟩ : opcode ≠ entry.opcode ∧
        opcode ∉ rest.map Descriptor.opcode := by
      simpa only [List.map_cons, List.mem_cons, not_or] using absent
    rw [List.foldl_cons, inductionHypothesis _ elsewhere, get_install, if_neg apart]

/-- Of entries for different opcodes every one is found where it was installed. -/
theorem get_foldl_install_of_mem (table : Table σ) {overrides : List (Descriptor σ)}
    (distinct : (overrides.map opcode).Nodup) {entry : Descriptor σ}
    (member : entry ∈ overrides) :
    (overrides.foldl install table).get entry.opcode = entry := by
  induction overrides generalizing table with
  | nil => cases member
  | cons first rest inductionHypothesis =>
    obtain ⟨absent, restDistinct⟩ := List.nodup_cons.mp distinct
    rw [List.foldl_cons]
    rcases List.mem_cons.mp member with rfl | later
    · rw [get_foldl_install_of_not_mem _ absent, get_install, if_pos rfl]
    · exact inductionHypothesis _ restDistinct later

/-- A set is installed exactly if it is acceptable. -/
theorem compose_eq_ok_iff (table composed : Table σ) (overrides : List (Descriptor σ)) :
    table.compose overrides = .ok composed ↔
      Acceptable overrides ∧ overrides.foldl install table = composed := by
  have acceptable : firstError? [] overrides = none ↔ Acceptable overrides := by
    simp [firstError?_eq_none_iff]
  rw [compose, ← acceptable]
  cases firstError? [] overrides with
  | none => simp
  | some error => simp

/-- Any other set is refused for the flaw of its first entry that has one. -/
theorem compose_eq_error_iff (table : Table σ) (overrides : List (Descriptor σ))
    (error : TableError) :
    table.compose overrides = .error error ↔
      ∃ earlier entry later, overrides = earlier ++ entry :: later ∧
        Acceptable earlier ∧ Flaw (earlier.map opcode) entry error := by
  have reported := firstError?_eq_some_iff [] overrides error
  simp only [firstError?_eq_none_iff, List.append_nil, List.not_mem_nil, not_false_eq_true,
    implies_true, and_true] at reported
  rw [compose, ← reported]
  cases firstError? [] overrides with
  | none => simp
  | some other => simp

/-- Acceptable sets of the same entries are installed alike, in whatever order. -/
theorem compose_perm {table composed : Table σ} {overrides others : List (Descriptor σ)}
    (composes : table.compose overrides = .ok composed) (permuted : overrides.Perm others) :
    table.compose others = .ok composed := by
  rw [compose_eq_ok_iff] at composes ⊢
  obtain ⟨⟨fits, distinct⟩, rfl⟩ := composes
  have opcodes : (overrides.map opcode).Perm (others.map opcode) := permuted.map opcode
  have distinctToo : (others.map opcode).Nodup := opcodes.nodup_iff.mp distinct
  refine ⟨⟨fun entry member => fits entry (permuted.mem_iff.mpr member), distinctToo⟩, ?_⟩
  apply ext_get
  intro opcode
  by_cases overridden : opcode ∈ others.map Descriptor.opcode
  · obtain ⟨entry, member, rfl⟩ := List.mem_map.mp overridden
    rw [get_foldl_install_of_mem table distinctToo member,
      get_foldl_install_of_mem table distinct (permuted.mem_iff.mpr member)]
  · have absent : opcode ∉ overrides.map Descriptor.opcode :=
      fun member => overridden (opcodes.mem_iff.mp member)
    rw [get_foldl_install_of_not_mem table overridden, get_foldl_install_of_not_mem table absent]

/-- The entries of a set that a further set does not replace. -/
def remaining (overrides further : List (Descriptor σ)) : List (Descriptor σ) :=
  overrides.filter fun entry => !(further.map opcode).contains entry.opcode

theorem mem_remaining_iff {overrides further : List (Descriptor σ)} {entry : Descriptor σ} :
    entry ∈ remaining overrides further ↔
      entry ∈ overrides ∧ entry.opcode ∉ further.map opcode := by
  simp [remaining]

/-- Further entries together with what they do not replace are acceptable again. -/
theorem acceptable_remaining {overrides further : List (Descriptor σ)}
    (first : Acceptable overrides) (second : Acceptable further) :
    Acceptable (further ++ remaining overrides further) := by
  constructor
  · intro entry member
    rcases List.mem_append.mp member with new | old
    · exact second.fits entry new
    · exact first.fits entry (mem_remaining_iff.mp old).1
  · have kept : ((remaining overrides further).map opcode).Nodup :=
      first.distinct.sublist (List.filter_sublist.map opcode)
    rw [List.map_append, List.nodup_append]
    refine ⟨second.distinct, kept, ?_⟩
    rintro _ new _ old rfl
    obtain ⟨entry, member, same⟩ := List.mem_map.mp old
    exact (mem_remaining_iff.mp member).2 (same ▸ new)

/-- Two compositions come to one. -/
theorem compose_compose {table composed last : Table σ} {overrides further : List (Descriptor σ)}
    (first : table.compose overrides = .ok composed)
    (second : composed.compose further = .ok last) :
    table.compose (further ++ remaining overrides further) = .ok last := by
  rw [compose_eq_ok_iff] at first second ⊢
  obtain ⟨firstAcceptable, rfl⟩ := first
  obtain ⟨secondAcceptable, rfl⟩ := second
  have together := acceptable_remaining firstAcceptable secondAcceptable
  refine ⟨together, ?_⟩
  apply ext_get
  intro opcode
  by_cases new : opcode ∈ further.map Descriptor.opcode
  · obtain ⟨entry, member, rfl⟩ := List.mem_map.mp new
    rw [get_foldl_install_of_mem _ secondAcceptable.distinct member,
      get_foldl_install_of_mem _ together.distinct (List.mem_append_left _ member)]
  · rw [get_foldl_install_of_not_mem _ new]
    by_cases old : opcode ∈ overrides.map Descriptor.opcode
    · obtain ⟨entry, member, rfl⟩ := List.mem_map.mp old
      have kept : entry ∈ further ++ remaining overrides further :=
        List.mem_append_right _ (mem_remaining_iff.mpr ⟨member, new⟩)
      rw [get_foldl_install_of_mem _ firstAcceptable.distinct member,
        get_foldl_install_of_mem _ together.distinct kept]
    · have absent : opcode ∉ (further ++ remaining overrides further).map Descriptor.opcode := by
        intro occurs
        obtain ⟨entry, member, rfl⟩ := List.mem_map.mp occurs
        rcases List.mem_append.mp member with inFurther | left
        · exact new (List.mem_map_of_mem inFurther)
        · exact old (List.mem_map_of_mem (mem_remaining_iff.mp left).1)
      rw [get_foldl_install_of_not_mem _ old, get_foldl_install_of_not_mem _ absent]

/-- Every descriptor stands at its own opcode and has a length that can be fetched. -/
def WellPlaced (table : Table σ) : Prop :=
  ∀ opcode, (table.get opcode).opcode = opcode ∧ (table.get opcode).Fits

/-- Composition keeps it that way. -/
theorem WellPlaced.compose {table composed : Table σ} {overrides : List (Descriptor σ)}
    (placed : table.WellPlaced) (composes : table.compose overrides = .ok composed) :
    composed.WellPlaced := by
  rw [compose_eq_ok_iff] at composes
  obtain ⟨acceptable, rfl⟩ := composes
  intro opcode
  by_cases overridden : opcode ∈ overrides.map Descriptor.opcode
  · obtain ⟨entry, member, rfl⟩ := List.mem_map.mp overridden
    rw [get_foldl_install_of_mem table acceptable.distinct member]
    exact ⟨rfl, acceptable.fits entry member⟩
  · rw [get_foldl_install_of_not_mem table overridden]
    exact placed opcode

variable [Host σ]

theorem wellPlaced_canonical : (canonical : Table σ).WellPlaced := by
  intro opcode
  rw [get_canonical]
  exact ⟨rfl, Instruction.length_bounds _⟩

/-- A table that composition leads to from the table of the instruction set. -/
inductive Reachable : Table σ → Prop where
  | canonical : Reachable .canonical
  | composed {table composed : Table σ} (overrides : List (Descriptor σ))
      (reachable : Reachable table) (composes : table.compose overrides = .ok composed) :
      Reachable composed

theorem Reachable.wellPlaced {table : Table σ} (reachable : table.Reachable) :
    table.WellPlaced := by
  induction reachable with
  | canonical => exact wellPlaced_canonical
  | composed overrides _ composes inductionHypothesis =>
    exact inductionHypothesis.compose composes

/-- The laws of composition, for any set of overrides over any table that composition leads
to. The set is installed exactly if it is acceptable, and otherwise refused for the flaw of
its first entry that has one. The table holds at every opcode a descriptor of that opcode, of
a length from one to three. If the set is installed, then every override is found at its
opcode and nothing else has changed; the same entries in another order lead to the same
table; and so does, for a further acceptable set, composing once with its entries and those
that it does not replace, in any order. -/
theorem composition_laws {table : Table σ} (reachable : table.Reachable)
    (overrides : List (Descriptor σ)) :
    ((∃ composed, table.compose overrides = .ok composed) ↔ Acceptable overrides) ∧
      (∀ error, table.compose overrides = .error error ↔
        ∃ earlier entry later, overrides = earlier ++ entry :: later ∧
          Acceptable earlier ∧ Flaw (earlier.map opcode) entry error) ∧
      (∀ opcode, (table.get opcode).opcode = opcode ∧ (table.get opcode).Fits) ∧
      ∀ composed, table.compose overrides = .ok composed →
        (∀ entry ∈ overrides, composed.get entry.opcode = entry) ∧
          (∀ opcode, opcode ∉ overrides.map Descriptor.opcode →
            composed.get opcode = table.get opcode) ∧
          (∀ others, overrides.Perm others → table.compose others = .ok composed) ∧
          ∀ further, Acceptable further →
            ∃ last, composed.compose further = .ok last ∧
              ∀ together, (further ++ remaining overrides further).Perm together →
                table.compose together = .ok last := by
  refine ⟨?_, compose_eq_error_iff table overrides, reachable.wellPlaced, ?_⟩
  · constructor
    · rintro ⟨composed, composes⟩
      exact ((compose_eq_ok_iff ..).mp composes).1
    · intro acceptable
      exact ⟨_, (compose_eq_ok_iff ..).mpr ⟨acceptable, rfl⟩⟩
  · intro composed composes
    obtain ⟨acceptable, rfl⟩ := (compose_eq_ok_iff ..).mp composes
    refine ⟨?_, ?_, ?_, ?_⟩
    · intro entry member
      exact get_foldl_install_of_mem table acceptable.distinct member
    · intro opcode absent
      exact get_foldl_install_of_not_mem table absent
    · intro others permuted
      exact compose_perm composes permuted
    · intro further furtherAcceptable
      have second := (compose_eq_ok_iff (overrides.foldl install table) _ further).mpr
        ⟨furtherAcceptable, rfl⟩
      refine ⟨_, second, ?_⟩
      intro together permuted
      exact compose_perm (compose_compose composes second) permuted

/-- A descriptor that gives an opcode without a meaning one: to pass over the next byte. -/
def passing : Descriptor Console :=
  { opcode := 0xED
    name := "pass"
    bytes := 2
    cycles := 9
    effect := fun _ cpu console => ⟨.ok 0, cpu, console⟩ }

/-- The table of a console is itself composed. Over it, a set may give back the unconditional
call and a meaning to another opcode; of two descriptors for one opcode the second is refused
for its length. -/
theorem composition_laws_console :
    Reachable Console.table ∧ Acceptable [passing, .canonical Console.callOpcode] ∧
      (∃ composed, Console.table.compose [.canonical Console.callOpcode, passing] = .ok composed ∧
        composed.get 0xED = passing ∧
        composed.get Console.callOpcode = .canonical Console.callOpcode ∧
        composed.get 0x00 = Console.table.get 0x00) ∧
      Console.table.compose [.canonical 0xD3, { Descriptor.canonical 0xD3 with bytes := 0 }] =
        .error (.length 0xD3 0) := by
  have reachable : Reachable Console.table := .composed Console.overrides .canonical rfl
  have acceptable : Acceptable [passing, .canonical Console.callOpcode] := by
    constructor
    · intro entry member
      obtain rfl | rfl : entry = passing ∨ entry = .canonical Console.callOpcode := by
        simpa only [List.mem_cons, List.not_mem_nil, or_false] using member
      · exact ⟨by decide, by decide⟩
      · exact Instruction.length_bounds _
    · decide
  obtain ⟨installed, -, -, laws⟩ :=
    composition_laws reachable [passing, .canonical Console.callOpcode]
  obtain ⟨composed, composes⟩ := installed.mpr acceptable
  obtain ⟨found, kept, permuted, -⟩ := laws composed composes
  obtain ⟨-, refused, -⟩ := composition_laws reachable
    [.canonical 0xD3, { Descriptor.canonical 0xD3 with bytes := 0 }]
  refine ⟨reachable, acceptable, ⟨composed, ?_, ?_, ?_, ?_⟩, ?_⟩
  · exact permuted _ (List.Perm.swap ..)
  · exact found passing (by simp)
  · exact found (.canonical Console.callOpcode) (by simp)
  · exact kept 0x00 (by decide)
  · have alone : Acceptable [(.canonical 0xD3 : Descriptor Console)] := by
      constructor
      · intro entry member
        obtain rfl : entry = .canonical 0xD3 := List.mem_singleton.mp member
        exact Instruction.length_bounds _
      · decide
    have unfit : ¬ { (Descriptor.canonical 0xD3 : Descriptor Console) with bytes := 0 }.Fits := by
      rintro ⟨positive, -⟩
      exact absurd positive (by decide)
    exact (refused _).mpr ⟨[.canonical 0xD3], _, [], rfl, alone, .length unfit⟩

end Table

end Intel8080
