import Intel8080.Proofs.Verdict

/-!
# What a program prints

A console prints only where a call to the system is executed, and what it then prints is read
off the memory and the processor in front of that call. So the printed text is a transcript of
the run: the texts of the single calls, in the order in which they were executed. Whatever
else an instruction does, on a console it can only change the memory.

Printed bytes stand for the characters with their codes. A text is therefore known by its
bytes, and a program that prints a given text has these very bytes in memory.
-/

namespace Intel8080

namespace Memory

variable {size : Nat}

/-- The bytes from an index up to a terminator, or up to the top if there is none. -/
def upTo (memory : Memory size) (terminator : UInt8) (start : Nat) : List UInt8 :=
  ((List.range' start (size - start)).map memory.read).takeWhile (· != terminator)

/-- Reading byte by byte stops where the terminator stands first. -/
theorem readUntil_eq (memory : Memory size) (terminator : UInt8) (start count : Nat) :
    memory.readUntil terminator start count =
      ((List.range' start count).map memory.read).takeWhile (· != terminator) := by
  induction count generalizing start with
  | zero => rfl
  | succ count inductionHypothesis =>
    rw [readUntil, List.range'_succ, List.map_cons, List.takeWhile_cons]
    by_cases ends : memory.read start = terminator
    · simp [ends]
    · simp [ends, inductionHypothesis]

/-- A text without the terminator that stands in memory in front of one is what is read. -/
theorem upTo_eq {memory : Memory size} {terminator : UInt8} {start : Nat} {text : List UInt8}
    (spelled : (List.range' start text.length).map memory.read = text)
    (absent : terminator ∉ text) (inside : start + text.length < size)
    (ended : memory.read (start + text.length) = terminator) :
    memory.upTo terminator start = text := by
  obtain ⟨rest, enough⟩ : ∃ rest, size - start = text.length + (rest + 1) :=
    ⟨size - start - text.length - 1, by omega⟩
  have proper : ∀ byte ∈ text, (byte != terminator) = true := by
    intro byte member
    simp only [bne_iff_ne]
    rintro rfl
    exact absent member
  rw [upTo, enough, ← List.range'_append_1, List.map_append, spelled,
    List.takeWhile_append_of_pos proper, List.range'_succ, List.map_cons, ended,
    List.takeWhile_cons_of_neg (by simp), List.append_nil]

end Memory

namespace Console

/-- The text that bytes spell. -/
def spell (bytes : List UInt8) : String :=
  String.ofList (bytes.map charOfByte)

/-- The code of the character is the byte. -/
@[simp] theorem toNat_charOfByte (value : UInt8) : (charOfByte value).toNat = value.toNat := by
  have inside : value.toNat < 256 := value.toNat_lt
  have valid : value.toNat.isValidChar := .inl (by omega)
  rw [charOfByte, Char.ofNat, dif_pos valid]
  rfl

/-- Different bytes spell different texts. -/
theorem spell_inj {left right : List UInt8} : spell left = spell right ↔ left = right := by
  constructor
  · intro same
    have chars : left.map charOfByte = right.map charOfByte := String.ofList_injective same
    apply (List.map_inj_right ?_).mp chars
    intro byte other equal
    apply UInt8.toNat_inj.mp
    rw [← toNat_charOfByte byte, equal, toNat_charOfByte]
  · rintro rfl
    rfl

theorem textAt_eq (console : Console) (address : UInt16) :
    console.textAt address =
      spell (console.memory.upTo terminator (address + console.options.skip).toNat) := by
  rw [textAt, Memory.readUntil_eq]
  rfl

/-- A program that was just loaded has printed nothing. -/
theorem fresh_of_load {image : List UInt8} {options : Options} {console : Console}
    (loaded : load image options = .ok console) :
    console.options = options ∧ console.printed = "" := by
  rw [load, Memory.loadWithin] at loaded
  split at loaded
  · obtain rfl := Except.ok.inj loaded
    exact ⟨rfl, rfl⟩
  · cases loaded

/-- What a call to the system prints: function 9 the text at DE, less the bytes to be skipped,
and a line break; function 2 the character in E; any other function nothing. -/
def utterance (skip : UInt16) (memory : Memory 65536) (cpu : Cpu) : String :=
  if cpu.c = 9 then spell (memory.upTo terminator (cpu.de + skip).toNat) ++ "\n"
  else if cpu.c = 2 then spell [cpu.e]
  else ""

/-- Serving a call prints this and leaves a remark. -/
theorem serve_eq (console : Console) (cpu : Cpu) :
    ∃ remarks, console.serve cpu = { console with
      printed := console.printed ++ utterance console.options.skip console.memory cpu
      remarks := remarks } := by
  by_cases line : cpu.c = 9
  · simp only [serve, line, utterance, if_true, ← textAt_eq, ← String.append_assoc]
    exact ⟨_, rfl⟩
  · by_cases shows : cpu.c = 2
    · simp only [serve, shows, utterance, if_true]
      exact ⟨_, rfl⟩
    · simp only [utterance, if_neg line, if_neg shows, String.append_empty]
      rw [serve]
      split
      · contradiction
      · contradiction
      · exact ⟨_, rfl⟩

end Console

namespace Exchange

variable {α : Type}

/-- A dialogue with a console changes its memory at most. -/
theorem run_console (exchange : Exchange α) (console : Console) :
    ∃ memory, (exchange.run console).responder = { console with memory } := by
  induction exchange generalizing console with
  | done value => exact ⟨console.memory, rfl⟩
  | stop reason => exact ⟨console.memory, rfl⟩
  | write address value next inductionHypothesis =>
    exact inductionHypothesis { console with
      memory := console.memory.write address.toNat value }
  | input port next => exact ⟨console.memory, rfl⟩
  | output port value next => exact ⟨console.memory, rfl⟩

end Exchange

/-- So does an instruction that is executed. -/
theorem Instruction.execute_console (instruction : Instruction) (cpu : Cpu) (console : Console) :
    ∃ memory, (instruction.execute cpu console).host = { console with memory } := by
  obtain ⟨memory, same⟩ :=
    (instruction.exchange cpu (Host.read console)).run_console console
  refine ⟨memory, ?_⟩
  rw [← same, execute]
  cases (instruction.exchange cpu (Host.read console)).run console with
  | ok completion after => rfl
  | error stop after => rfl

namespace Machine

section

variable {σ : Type} [Host σ]

/-- The texts that belong to the machines in front of so many steps, one after the other. -/
def transcript (part : Machine σ → String) (machine : Machine σ) (steps : Nat) : String :=
  String.join ((List.range steps).map fun earlier => part (machine.after earlier))

theorem transcript_zero (part : Machine σ → String) (machine : Machine σ) :
    machine.transcript part 0 = "" :=
  rfl

theorem transcript_succ (part : Machine σ → String) (machine : Machine σ) (steps : Nat) :
    machine.transcript part (steps + 1) =
      machine.transcript part steps ++ part (machine.after steps) := by
  simp only [transcript, List.range_succ, List.map_append, List.map_cons, List.map_nil,
    String.join_append, String.join_cons, String.join_nil, String.append_empty]

end

/-- What a machine on a console prints in its next step. -/
def prints (skip : UInt16) (machine : Machine Console) : String :=
  if machine.status = .running ∧ machine.next = .call Console.systemEntry then
    Console.utterance skip machine.host.memory machine.cpu
  else ""

end Machine

end Intel8080
