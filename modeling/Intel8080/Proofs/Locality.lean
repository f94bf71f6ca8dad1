import Intel8080.Board
import Intel8080.Proofs.Composition
import Intel8080.Proofs.Requests

/-!
# What a step depends on

A step reads the bytes of its instruction and the data that the instruction is about, and
nothing else of memory. `dataAddresses` says where the data are; a byte that is only written is
not among them. Two machines that differ in nothing but their memory, and agree there at these
addresses, fetch the same instruction and begin the same dialogue.

On plain boards the dialogue then goes on alike, since a board answers from its latches. What it
leaves is what its requests leave, so at an address that was written both memories hold what was
written there, and at every other address each holds what it held before.
-/

namespace Intel8080

namespace Instruction

/-- The addresses of the data that an instruction reads. -/
def dataAddresses (cpu : Cpu) : Instruction → List UInt16
  | mov _ .memory | accumulate _ .memory | inr .memory | dcr .memory => [cpu.hl]
  | lda address => [address]
  | ldax pointer => [cpu.pair pointer]
  | lhld address => [address, address + 1]
  | pop _ | ret | xthl => [cpu.sp, cpu.sp + 1]
  | returnIf condition => if condition.holds cpu.flags then [cpu.sp, cpu.sp + 1] else []
  | _ => []

/-- Where the program counter points to is of no importance for the data. -/
@[simp] theorem dataAddresses_pc (instruction : Instruction) (cpu : Cpu) (pc : UInt16) :
    instruction.dataAddresses { cpu with pc } = instruction.dataAddresses cpu := by
  cases instruction with
  | mov target source => cases source <;> rfl
  | accumulate operation source => cases source <;> rfl
  | inr target | dcr target => cases target <;> rfl
  | _ => rfl

/-- A word depends on its two bytes. -/
theorem wordAt_congr {read other : UInt16 → UInt8} {address : UInt16}
    (same : ∀ byte ∈ [address, address + 1], other byte = read byte) :
    wordAt other address = wordAt read address := by
  have low := same address (by simp)
  have high := same (address + 1) (by simp)
  rw [wordAt, wordAt, low, high]

/-- What an instruction asks and where it leads depends on its data alone. -/
theorem exchange_congr (instruction : Instruction) (cpu : Cpu) {read other : UInt16 → UInt8}
    (same : ∀ address ∈ instruction.dataAddresses cpu, other address = read address) :
    instruction.exchange cpu other = instruction.exchange cpu read := by
  have byte (address : UInt16) (reads : instruction.dataAddresses cpu = [address]) :
      other address = read address :=
    same address (by rw [reads]; exact List.mem_singleton_self address)
  have word (address : UInt16) (reads : instruction.dataAddresses cpu = [address, address + 1]) :
      wordAt other address = wordAt read address :=
    wordAt_congr (reads ▸ same)
  cases instruction with
  | mov target source | accumulate operation source =>
    cases source with
    | register name => rfl
    | memory => simp only [exchange, Cpu.operand, byte cpu.hl rfl]
  | inr target | dcr target =>
    cases target with
    | register name => rfl
    | memory => simp only [exchange, Cpu.operand, byte cpu.hl rfl]
  | lda address => simp only [exchange, byte address rfl]
  | ldax pointer => simp only [exchange, byte (cpu.pair pointer) rfl]
  | lhld address => simp only [exchange, word address rfl]
  | pop | xthl => simp only [exchange, Cpu.top, word cpu.sp rfl]
  | ret => simp only [exchange, Cpu.leave, Cpu.top, word cpu.sp rfl]
  | returnIf condition =>
    by_cases holds : condition.holds cpu.flags
    · simp only [exchange, Cpu.leave, Cpu.top, word cpu.sp (if_pos holds)]
    · simp only [exchange, if_neg holds]
  | _ => rfl

end Instruction

namespace Board

/-- Two boards with the same latches. -/
structure SameLatches (left right : Board) : Prop where
  inputs : right.inputs = left.inputs
  outputs : right.outputs = left.outputs

/-- Memory has no influence on the latches. -/
theorem sameLatches_write (board : Board) (address : UInt16) (value : UInt8) :
    board.SameLatches (board.write address value) :=
  ⟨rfl, rfl⟩

/-- A request changes both in the same way. -/
theorem SameLatches.serve {left right : Board} (same : SameLatches left right)
    (request : Request) : SameLatches (request.serve left) (request.serve right) := by
  cases request with
  | write address value => exact ⟨same.inputs, same.outputs⟩
  | input port => exact same
  | output port value =>
    exact ⟨same.inputs, congrArg (·.write port.toNat value) same.outputs⟩

/-- So do any number of requests. -/
theorem SameLatches.foldl_serve {left right : Board} (same : SameLatches left right)
    (requests : List Request) :
    SameLatches (requests.foldl Request.serve left) (requests.foldl Request.serve right) := by
  induction requests generalizing left right with
  | nil => exact same
  | cons request rest inductionHypothesis => exact inductionHypothesis (same.serve request)

/-- Boards with the same latches give the same answers, so they are asked the same. -/
theorem SameLatches.run {α : Type} {left right : Board} (same : SameLatches left right)
    (exchange : Exchange α) :
    (exchange.run right).answer = (exchange.run left).answer ∧
      exchange.requests right = exchange.requests left := by
  induction exchange generalizing left right with
  | done value => exact ⟨rfl, rfl⟩
  | stop reason => exact ⟨rfl, rfl⟩
  | write address value next inductionHypothesis =>
    obtain ⟨answer, requests⟩ := inductionHypothesis (same.serve (.write address value))
    exact ⟨answer, congrArg (Request.write address value :: ·) requests⟩
  | input port next inductionHypothesis =>
    have read : right.inputs.read port.toNat = left.inputs.read port.toNat := by rw [same.inputs]
    obtain ⟨answer, requests⟩ := inductionHypothesis (left.inputs.read port.toNat) same
    simp only [Exchange.run, Exchange.requests, Host.input, read]
    exact ⟨answer, congrArg (Request.input port :: ·) requests⟩
  | output port value next inductionHypothesis =>
    obtain ⟨answer, requests⟩ := inductionHypothesis (same.serve (.output port value))
    exact ⟨answer, congrArg (Request.output port value :: ·) requests⟩

/-- A byte that is not written keeps its value. -/
theorem read_foldl_serve (board : Board) {requests : List Request} {address : UInt16}
    (unwritten : ∀ value, Request.write address value ∉ requests) :
    (requests.foldl Request.serve board).read address = board.read address := by
  induction requests generalizing board with
  | nil => rfl
  | cons request rest inductionHypothesis =>
    have later (value : UInt8) : Request.write address value ∉ rest :=
      fun member => unwritten value (List.mem_cons_of_mem request member)
    rw [List.foldl_cons, inductionHypothesis _ later]
    cases request with
    | write written value =>
      have apart : address ≠ written := by
        rintro rfl
        exact unwritten value List.mem_cons_self
      exact (read_write board written address value).trans (if_neg apart)
    | input port | output port value => rfl

/-- A byte on which two boards agree, or which is written, is afterwards the same on both. -/
theorem read_foldl_serve_congr {left right : Board} {requests : List Request} {address : UInt16}
    (agrees : right.read address = left.read address ∨
      ∃ value, Request.write address value ∈ requests) :
    (requests.foldl Request.serve right).read address =
      (requests.foldl Request.serve left).read address := by
  induction requests generalizing left right with
  | nil => simpa using agrees
  | cons request rest inductionHypothesis =>
    apply inductionHypothesis
    cases request with
    | write written value =>
      change (right.write written value).read address = (left.write written value).read address ∨ _
      rw [read_write, read_write]
      by_cases here : address = written
      · exact .inl (by rw [if_pos here, if_pos here])
      · rw [if_neg here, if_neg here]
        simpa [here] using agrees
    | input port | output port value =>
      change right.read address = left.read address ∨ _
      simpa using agrees

end Board

namespace Machine

/-- Two machines that may differ in their memory, but not in their processors, their status or
their latches. -/
structure SameButMemory (left right : Machine Board) : Prop where
  cpu : right.cpu = left.cpu
  status : right.status = left.status
  latches : left.host.SameLatches right.host

/-- The next instruction of a machine writes at an address. -/
def Writes (machine : Machine Board) (address : UInt16) : Prop :=
  ∃ value, .write address value ∈ machine.requests

variable {left right : Machine Board}

/-- The bytes of the instruction decide what is fetched. -/
theorem next_congr (same : left.SameButMemory right)
    (code : ∀ offset < left.next.length.toNat,
      right.host.read (left.cpu.pc + UInt16.ofNat offset) =
        left.host.read (left.cpu.pc + UInt16.ofNat offset)) :
    right.next = left.next := by
  have length : left.next.length =
      (Instruction.decode (left.host.read left.cpu.pc) 0 0).length :=
    Instruction.length_decode ..
  obtain ⟨least, -⟩ := left.next.length_bounds
  have opcode : right.host.read left.cpu.pc = left.host.read left.cpu.pc := by
    simpa using code 0 (UInt8.le_iff_toNat_le.mp least)
  have low : 1 < left.next.length →
      right.host.read (left.cpu.pc + 1) = left.host.read (left.cpu.pc + 1) :=
    fun long => code 1 (UInt8.lt_iff_toNat_lt.mp long)
  have high : 2 < left.next.length →
      right.host.read (left.cpu.pc + 2) = left.host.read (left.cpu.pc + 2) :=
    fun long => code 2 (UInt8.lt_iff_toNat_lt.mp long)
  rw [length] at low high
  -- Both are decoded as if the bytes behind the instruction were zero.
  change Instruction.decode (right.host.read right.cpu.pc) (right.host.read (right.cpu.pc + 1))
      (right.host.read (right.cpu.pc + 2)) =
    Instruction.decode (left.host.read left.cpu.pc) (left.host.read (left.cpu.pc + 1))
      (left.host.read (left.cpu.pc + 2))
  rw [same.cpu, opcode, ← Instruction.decode_ignores _ (right.host.read (left.cpu.pc + 1)),
    ← Instruction.decode_ignores _ (left.host.read (left.cpu.pc + 1))]
  congr 1
  · exact ite_congr rfl low fun _ => rfl
  · exact ite_congr rfl high fun _ => rfl

/-- On a plain board a step is its instruction, and the board is what the requests leave. -/
theorem step_on_board {machine : Machine Board} (canonical : machine.table = .canonical)
    (running : machine.status = .running) :
    machine.step = machine.settle machine.next.cycles
        (machine.next.execute (machine.past machine.next) machine.host) ∧
      machine.step.responder.host = machine.requests.foldl Request.serve machine.host := by
  refine ⟨step_canonical canonical running, ?_⟩
  rw [step_canonical canonical running, requests, ← Instruction.host_execute]
  cases machine.next.execute (machine.past machine.next) machine.host with
  | mk result cpu host => cases result <;> rfl

/-- The same dialogue with boards that have the same latches has outcomes that differ in nothing
but memory. -/
theorem execute_congr {instruction : Instruction} {cpu : Cpu} {left right : Board}
    (latches : left.SameLatches right)
    (exchange : instruction.exchange cpu right.read = instruction.exchange cpu left.read) :
    (instruction.execute cpu right).result = (instruction.execute cpu left).result ∧
      (instruction.execute cpu right).cpu = (instruction.execute cpu left).cpu ∧
      instruction.requests cpu right = instruction.requests cpu left := by
  obtain ⟨answer, requests⟩ := latches.run (instruction.exchange cpu left.read)
  have readLeft : Host.read left = left.read := rfl
  have readRight : Host.read right = right.read := rfl
  simp only [Instruction.execute, Instruction.requests, readLeft, readRight, exchange]
  refine ⟨?_, ?_, requests⟩ <;>
  · generalize (instruction.exchange cpu left.read).run right = other at answer
    generalize (instruction.exchange cpu left.read).run left = reply at answer
    cases reply <;> cases other <;> cases answer <;> rfl

/-- Outcomes that differ in nothing but memory are settled alike. -/
theorem SameButMemory.settle (same : left.SameButMemory right) (base : UInt8)
    {outcome other : Outcome Board} (result : other.result = outcome.result)
    (cpu : other.cpu = outcome.cpu) (latches : outcome.host.SameLatches other.host) :
    (right.settle base other).answer = (left.settle base outcome).answer ∧
      (left.settle base outcome).responder.SameButMemory (right.settle base other).responder := by
  obtain ⟨ended, left, host⟩ := outcome
  obtain ⟨alsoEnded, right, otherHost⟩ := other
  obtain rfl : alsoEnded = ended := result
  obtain rfl : right = left := cpu
  cases alsoEnded with
  | error stop => exact ⟨rfl, rfl, rfl, latches⟩
  | ok extra => exact ⟨rfl, rfl, same.status, latches⟩

/-- A step depends on nothing but the bytes of its instruction and its data. Two running machines
that agree there, and in everything but memory, are asked and answer the same in their next
step and still agree in everything but memory. Their memories then agree where they agreed before
and wherever the step has written; where it has not, each is as it was. -/
theorem step_local {left right : Machine Board} (leftTable : left.table = .canonical)
    (rightTable : right.table = .canonical) (running : left.status = .running)
    (same : left.SameButMemory right)
    (code : ∀ offset < left.next.length.toNat,
      right.host.read (left.cpu.pc + UInt16.ofNat offset) =
        left.host.read (left.cpu.pc + UInt16.ofNat offset))
    (data : ∀ address ∈ left.next.dataAddresses left.cpu,
      right.host.read address = left.host.read address) :
    right.step.answer = left.step.answer ∧
      left.step.responder.SameButMemory right.step.responder ∧
      (∀ address, right.host.read address = left.host.read address ∨ left.Writes address →
        right.step.responder.host.read address = left.step.responder.host.read address) ∧
      right.requests = left.requests ∧
      ∀ address, ¬ left.Writes address →
        left.step.responder.host.read address = left.host.read address := by
  have next : right.next = left.next := next_congr same code
  have past : right.past right.next = left.past left.next := by
    rw [next, Machine.past, Machine.past, same.cpu]
  have exchange : left.next.exchange (left.past left.next) right.host.read =
      left.next.exchange (left.past left.next) left.host.read := by
    apply Instruction.exchange_congr
    rw [Machine.past, Instruction.dataAddresses_pc]
    exact data
  obtain ⟨result, cpu, requests⟩ := execute_congr same.latches exchange
  have asked : right.requests = left.requests := by
    rw [Machine.requests, past, next]
    exact requests
  obtain ⟨leftStep, leftHost⟩ := step_on_board leftTable running
  obtain ⟨rightStep, rightHost⟩ := step_on_board rightTable (same.status.trans running)
  have latches : (left.next.execute (left.past left.next) left.host).host.SameLatches
      (left.next.execute (left.past left.next) right.host).host := by
    rw [Instruction.host_execute, Instruction.host_execute, requests]
    exact same.latches.foldl_serve _
  obtain ⟨answer, stillSame⟩ := same.settle left.next.cycles result cpu latches
  rw [past, next] at rightStep
  rw [asked] at rightHost
  refine ⟨?_, ?_, ?_, asked, ?_⟩
  · rw [leftStep, rightStep]
    exact answer
  · rw [leftStep, rightStep]
    exact stillSame
  · intro address agrees
    rw [leftHost, rightHost]
    exact Board.read_foldl_serve_congr agrees
  · intro address unwritten
    rw [leftHost]
    exact left.host.read_foldl_serve fun value member => unwritten ⟨value, member⟩

/-- A machine about to exchange HL with a stack top that lies across the end of memory. -/
def exchangingTop : Machine Board where
  host := (Board.blank.load 0x0100 [0xE3]).load 0xFFFF [0x34]
  cpu := { h := 0xAB, l := 0xCD, sp := 0xFFFF, pc := 0x0100 }
  table := .canonical
  status := .running

/-- The same machine with another byte elsewhere in its memory. -/
def exchangingTopApart : Machine Board :=
  { exchangingTop with host := exchangingTop.host.write 0x2000 0x55 }

theorem next_exchangingTop : exchangingTop.next = .xthl := by
  have opcode : Host.read exchangingTop.host 0x0100 = 0xE3 := by
    simp [exchangingTop, Host.read, Board.read, Board.load, Memory.read_load]
  change Instruction.decode (Host.read exchangingTop.host 0x0100)
    (Host.read exchangingTop.host 0x0101) (Host.read exchangingTop.host 0x0102) = _
  rw [opcode]
  rfl

/-- The other byte makes no difference. Both machines exchange the same word, leave the same two
bytes at the end and at the beginning of memory, and differ where they differed. -/
theorem step_local_across_zero :
    exchangingTop.table = .canonical ∧ exchangingTopApart.table = .canonical ∧
      exchangingTop.status = .running ∧ exchangingTop.SameButMemory exchangingTopApart ∧
      (∀ offset < exchangingTop.next.length.toNat,
        exchangingTopApart.host.read (exchangingTop.cpu.pc + UInt16.ofNat offset) =
          exchangingTop.host.read (exchangingTop.cpu.pc + UInt16.ofNat offset)) ∧
      (∀ address ∈ exchangingTop.next.dataAddresses exchangingTop.cpu,
        exchangingTopApart.host.read address = exchangingTop.host.read address) ∧
      exchangingTopApart.step.answer = .ok 18 ∧
      exchangingTopApart.step.responder.cpu.hl = 0x0034 ∧
      exchangingTopApart.step.responder.host.read 0xFFFF =
        exchangingTop.step.responder.host.read 0xFFFF ∧
      exchangingTopApart.step.responder.host.read 0x0000 =
        exchangingTop.step.responder.host.read 0x0000 ∧
      exchangingTop.step.responder.host.read 0x2000 = exchangingTop.host.read 0x2000 := by
  have apart (address : UInt16) (elsewhere : address ≠ 0x2000) :
      exchangingTopApart.host.read address = exchangingTop.host.read address :=
    (Board.read_write ..).trans (if_neg elsewhere)
  have same : exchangingTop.SameButMemory exchangingTopApart :=
    ⟨rfl, rfl, exchangingTop.host.sameLatches_write 0x2000 0x55⟩
  have code : ∀ offset < exchangingTop.next.length.toNat,
      exchangingTopApart.host.read (exchangingTop.cpu.pc + UInt16.ofNat offset) =
        exchangingTop.host.read (exchangingTop.cpu.pc + UInt16.ofNat offset) := by
    intro offset inside
    rw [next_exchangingTop] at inside
    obtain rfl : offset = 0 := Nat.lt_one_iff.mp inside
    exact apart _ (by decide)
  have data : ∀ address ∈ exchangingTop.next.dataAddresses exchangingTop.cpu,
      exchangingTopApart.host.read address = exchangingTop.host.read address := by
    rw [next_exchangingTop]
    intro address reads
    apply apart
    rintro rfl
    exact absurd reads (by decide)
  obtain ⟨answer, still, agree, -, unwritten⟩ :=
    @step_local exchangingTop exchangingTopApart rfl rfl rfl same code data
  have requests : exchangingTop.requests = [.write 0xFFFF 0xCD, .write 0x0000 0xAB] := by
    rw [requests, next_exchangingTop]
    rfl
  have writes (address : UInt16) :
      exchangingTop.Writes address ↔ address = 0xFFFF ∨ address = 0x0000 := by
    simp [Writes, requests, exists_or]
  have stepped := (@step_on_board exchangingTop rfl rfl).1
  rw [next_exchangingTop] at stepped
  refine ⟨rfl, rfl, rfl, same, code, data, ?_, ?_, ?_, ?_, ?_⟩
  · rw [answer, stepped]
    rfl
  · obtain ⟨low, high⟩ : exchangingTop.host.read 0xFFFF = 0x34 ∧
        exchangingTop.host.read 0x0000 = 0x00 := by
      simp [exchangingTop, Board.blank, Board.read, Board.load, Memory.read_load]
    have top : wordAt exchangingTop.host.read 0xFFFF = 0x0034 := by
      change word (exchangingTop.host.read 0x0000) (exchangingTop.host.read 0xFFFF) = _
      rw [low, high]
      rfl
    rw [still.cpu, stepped]
    exact (Cpu.hl_setHL (exchangingTop.past .xthl) _).trans top
  · exact agree _ (.inr ((writes _).mpr (.inl rfl)))
  · exact agree _ (.inr ((writes _).mpr (.inr rfl)))
  · exact unwritten _ (by simp [writes])

end Machine

end Intel8080
