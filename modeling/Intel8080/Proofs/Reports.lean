import Intel8080.Proofs.Sessions
import Intel8080.Proofs.Transcript
import Intel8080.Proofs.Watching

/-!
# Reports of a diagnostic program

A diagnostic program reports by calling the system to print a text. Whether it is about to do
so can be read off the memory and the processor: the three bytes of the call stand at the
program counter, the function in C is 9, and behind DE stands the text. Such a step ends the
run with a verdict, and no other step does: an instruction that is executed can run into the
halt instruction, into an opcode without a meaning, or be refused by the host, and an arrival
at address 0 is a warm boot.

Since a machine that has stopped stays as it is, the verdict on a whole run is that of the
last instruction which was executed.
-/

namespace Intel8080

/-- Whether a machine was stopped by a verdict. -/
def Stop.isVerdict : Stop → Bool
  | halt (.passed _) | halt (.failed _) => true
  | _ => false

/-- The text of the verdict by which a machine was stopped, if any. -/
def Status.reported : Status → String
  | halted (.halt (.passed text)) | halted (.halt (.failed text)) => text
  | _ => ""

theorem Status.reported_of_isVerdict {stop : Stop} (silent : stop.isVerdict = false) :
    (Status.halted stop).reported = "" := by
  match stop with
  | .halt (.passed _) | .halt (.failed _) => cases silent
  | .halt .instruction | .halt .warmBoot | .fault _ => rfl

namespace Instruction

/-- Only the three bytes of a call to an address stand for it. -/
theorem decode_eq_call_iff {opcode low high : UInt8} {target : UInt16} :
    decode opcode low high = call target ↔
      opcode = Console.callOpcode ∧ low = lowByte target ∧ high = highByte target := by
  constructor
  · intro calls
    by_cases same : opcode = Console.callOpcode
    · subst same
      obtain rfl : word high low = target := call.inj calls
      exact ⟨rfl, (lowByte_word ..).symm, (highByte_word ..).symm⟩
    · have other := isCall_decode same low high
      rw [calls] at other
      cases other
  · rintro ⟨rfl, rfl, rfl⟩
    exact congrArg call (word_highByte_lowByte target)

/-- No instruction that is executed gives a verdict. -/
theorem isVerdict_execute {σ : Type} [Host σ] {instruction : Instruction} {cpu : Cpu} {host : σ}
    {stop : Stop} (stopped : (instruction.execute cpu host).result = .error stop) :
    stop.isVerdict = false := by
  cases ending : instruction.ending cpu with
  | some reason =>
    rw [execute_of_ending ending] at stopped
    obtain rfl := Except.error.inj stopped
    cases instruction with
    | hlt | illegal =>
      obtain rfl := Option.some.inj ending
      rfl
    | _ => cases ending
  | none =>
    obtain ⟨extra, after, left, completed, -⟩ | ⟨requests, last, fault, left, refused, -⟩ :=
      execute_watched ending host
    · rw [completed] at stopped
      cases stopped
    · rw [refused] at stopped
      obtain rfl := Except.error.inj stopped
      rfl

end Instruction

namespace Diagnostic

/-- The bytes of the text by which a program reports success. -/
def operationalCode : List UInt8 :=
  [0x20, 0x43, 0x50, 0x55, 0x20, 0x49, 0x53, 0x20, 0x4F, 0x50, 0x45, 0x52, 0x41, 0x54, 0x49,
    0x4F, 0x4E, 0x41, 0x4C]

theorem spell_operationalCode : Console.spell operationalCode = operational := by
  decide

/-- No other bytes spell a success. -/
theorem verdict_spell (bytes : List UInt8) :
    verdict (Console.spell bytes) =
      if bytes = operationalCode then .passed operational else .failed (Console.spell bytes) := by
  by_cases success : bytes = operationalCode
  · rw [if_pos success, success, spell_operationalCode]
    rfl
  · have different : ¬ (Console.spell bytes == operational) = true := by
      intro same
      rw [beq_iff_eq, ← spell_operationalCode, Console.spell_inj] at same
      exact success same
    rw [verdict, if_neg different, if_neg success]

theorem reported_verdict (text : String) :
    (Status.halted (.halt (verdict text))).reported = text := by
  rw [verdict]
  split <;> rfl

/-- A verdict of success is about just those bytes. -/
theorem verdict_eq_passed_iff {bytes : List UInt8} {text : String} :
    verdict (Console.spell bytes) = .passed text ↔
      bytes = operationalCode ∧ text = operational := by
  rw [verdict_spell]
  split
  · rename_i success
    simp [success, eq_comm]
  · rename_i other
    simp [other]

/-- A verdict of failure is about any others, and tells them. -/
theorem verdict_eq_failed_iff {bytes : List UInt8} {text : String} :
    verdict (Console.spell bytes) = .failed text ↔
      bytes ≠ operationalCode ∧ text = Console.spell bytes := by
  rw [verdict_spell]
  split
  · rename_i success
    simp [success]
  · rename_i other
    simp [other, eq_comm]

/-- What an instruction shows that is no report: the character in E, if it calls the system for
that. -/
def shown (instruction : Instruction) (cpu : Cpu) : String :=
  if instruction = .call Console.systemEntry ∧ cpu.c = 2 then Console.spell [cpu.e] else ""

/-- An instruction that is no report gives no verdict and prints what it shows. -/
theorem callEffect_silent {instruction : Instruction} {cpu : Cpu}
    (silent : instruction = .call Console.systemEntry → cpu.c ≠ 9) (console : Console) :
    let outcome := callEffect instruction cpu ⟨console⟩
    (∀ stop, outcome.result = .error stop → stop.isVerdict = false) ∧
      outcome.host.console.options = console.options ∧
      outcome.host.console.printed = console.printed ++ shown instruction cpu := by
  intro outcome
  by_cases system : instruction = .call Console.systemEntry
  · have noLine : ¬ cpu.c = 9 := silent system
    have served : outcome = ⟨.ok 0, cpu, ⟨console.serve cpu⟩⟩ := by
      simp only [outcome, callEffect, if_pos system, beq_iff_eq, if_neg noLine]
    obtain ⟨remarks, serves⟩ := console.serve_eq cpu
    have shows : Console.utterance console.options.skip console.memory cpu =
        shown instruction cpu := by
      simp only [Console.utterance, shown, if_neg noLine, system, true_and]
    rw [served, serves, shows]
    refine ⟨?_, rfl, rfl⟩
    intro stop stopped
    cases stopped
  · have nothing : shown instruction cpu = "" := if_neg fun shows => system shows.1
    rw [nothing, String.append_empty]
    by_cases leaves : instruction = .call 0
    · have left : outcome = ⟨.error (.halt .warmBoot), cpu, ⟨console⟩⟩ := by
        simp only [outcome, callEffect, if_neg system, if_pos leaves]
      rw [left]
      refine ⟨?_, rfl, rfl⟩
      rintro stop ⟨⟩
      rfl
    · have executed : outcome = instruction.execute cpu (Diagnostic.mk console) := by
        simp only [outcome, callEffect, if_neg system, if_neg leaves]
      obtain ⟨memory, kept⟩ := instruction.execute_console cpu console
      have host : outcome.host = ⟨{ console with memory }⟩ := by
        rw [executed, morphism_mk.execute]
        exact congrArg Diagnostic.mk kept
      rw [host, executed]
      exact ⟨fun stop => Instruction.isVerdict_execute, rfl, rfl⟩

end Diagnostic

namespace Machine

/-- What becomes of an outcome does not concern the host, and can only add a warm boot. -/
theorem settle_diagnostic (machine : Machine Diagnostic) (base : UInt8)
    (outcome : Outcome Diagnostic) :
    (machine.settle base outcome).responder.host = outcome.host ∧
      ∀ stop, (machine.settle base outcome).answer = .error stop →
        outcome.result = .error stop ∨ stop = .halt .warmBoot := by
  obtain ⟨result, cpu, host⟩ := outcome
  cases result with
  | error stop =>
    refine ⟨rfl, ?_⟩
    rintro reason ⟨⟩
    exact .inl rfl
  | ok extra =>
    have settled : machine.settle base ⟨.ok extra, cpu, host⟩ = _ :=
      Diagnostic.morphism_mk.settle machine.table
        ⟨host.console, machine.cpu, Console.table, machine.status⟩ base
        ⟨.ok extra, cpu, host.console⟩
    rw [settled, settle_console]
    split
    · refine ⟨rfl, ?_⟩
      rintro reason ⟨⟩
      exact .inr rfl
    · refine ⟨rfl, ?_⟩
      rintro reason ⟨⟩

section

variable {σ : Type} [Host σ]

/-- The last instruction that was executed in the given number of steps. -/
structure LastStep (machine : Machine σ) (steps index : Nat) : Prop where
  within : index < steps
  running : (machine.after index).status = .running
  last : ∀ later, index < later → later < steps → (machine.after later).status ≠ .running

variable {machine : Machine σ} {steps index : Nat}

/-- An instruction that is executed becomes the last one. -/
theorem lastStep_succ_of_running (running : (machine.after steps).status = .running) :
    machine.LastStep (steps + 1) index ↔ index = steps := by
  constructor
  · intro last
    by_contra different
    have before : index < steps := by have := last.within; omega
    exact last.last steps before (Nat.lt_succ_self steps) running
  · rintro rfl
    refine ⟨Nat.lt_succ_self index, running, ?_⟩
    intro later behind before
    omega

/-- On a machine that has stopped, the last one remains what it was. -/
theorem lastStep_succ_of_halted {stop : Stop}
    (halted : (machine.after steps).status = .halted stop) :
    machine.LastStep (steps + 1) index ↔ machine.LastStep steps index := by
  have stopped : (machine.after steps).status ≠ .running := by
    rw [halted]
    simp
  constructor
  · intro last
    have within : index < steps := by
      have before := last.within
      have apart : index ≠ steps := by
        rintro rfl
        exact stopped last.running
      omega
    refine ⟨within, last.running, ?_⟩
    intro later behind before
    exact last.last later behind (Nat.lt_succ_of_lt before)
  · intro last
    refine ⟨Nat.lt_succ_of_lt last.within, last.running, ?_⟩
    intro later behind before
    by_cases same : later = steps
    · rw [same]
      exact stopped
    · exact last.last later behind (by omega)

/-- A machine has been stopped by what the last instruction failed with. -/
theorem status_after_eq_halted_iff (starts : machine.status = .running) (steps : Nat)
    {stop : Stop} :
    (machine.after steps).status = .halted stop ↔
      ∃ index, machine.LastStep steps index ∧
        (machine.after index).step.answer = .error stop := by
  induction steps with
  | zero =>
    constructor
    · intro halted
      cases starts.symm.trans halted
    · rintro ⟨index, last, -⟩
      exact absurd last.within (Nat.not_lt_zero index)
  | succ steps inductionHypothesis =>
    cases status : (machine.after steps).status with
    | halted reason =>
      rw [status] at inductionHypothesis
      simp only [lastStep_succ_of_halted status, ← inductionHypothesis]
      rw [after, step_of_halted status]
      exact (congrArg (· = Status.halted stop) status).to_iff
    | running =>
      simp only [lastStep_succ_of_running status, exists_eq_left]
      have attempt := attempt_step (machine.after steps)
      rw [after]
      generalize (machine.after steps).step = reply at attempt ⊢
      cases attempt with
      | passed cost next running still => simp [Reply.responder, Reply.answer, still]
      | failed reason next running halted => simp [Reply.responder, Reply.answer, halted]
      | refused reason halted => cases status.symm.trans halted

/-- What a step fails with has stopped the machine. -/
theorem status_step_of_error {stop : Stop} (failed : machine.step.answer = .error stop) :
    machine.step.responder.status = .halted stop := by
  have attempt := attempt_step machine
  generalize machine.step = reply at attempt failed ⊢
  cases attempt with
  | passed cost next running still => cases failed
  | failed reason next running halted =>
    obtain rfl := Except.error.inj failed
    exact halted
  | refused reason halted =>
    obtain rfl := Except.error.inj failed
    exact halted

/-- A step that gives no verdict leaves none. -/
theorem reported_step (running : machine.status = .running)
    (silent : ∀ stop, machine.step.answer = .error stop → stop.isVerdict = false) :
    machine.step.responder.status.reported = "" := by
  have attempt := attempt_step machine
  generalize machine.step = reply at attempt silent ⊢
  cases attempt with
  | passed cost next running still =>
    rw [Reply.responder, still]
    rfl
  | failed reason next running halted =>
    rw [Reply.responder, halted]
    exact Status.reported_of_isVerdict (silent reason rfl)
  | refused reason halted => cases running.symm.trans halted

end

/-- A diagnostic program is about to report the text of the given bytes: the three bytes of a
call to the system stand at the program counter, the function is 9, and the bytes stand three
bytes behind the address in DE, up to the terminator or the top of memory. -/
structure Reports (machine : Machine Diagnostic) (bytes : List UInt8) : Prop where
  opcode : Host.read machine.host machine.cpu.pc = 0xCD
  low : Host.read machine.host (machine.cpu.pc + 1) = 0x05
  high : Host.read machine.host (machine.cpu.pc + 2) = 0x00
  function : machine.cpu.c = 9
  text : machine.host.console.memory.upTo Console.terminator (machine.cpu.de + 3).toNat = bytes

/-- What a diagnostic program shows in its next step, other than a report. -/
def shows (machine : Machine Diagnostic) : String :=
  if machine.status = .running then Diagnostic.shown machine.next machine.cpu else ""

variable {machine : Machine Diagnostic}

theorem next_eq_system_iff :
    machine.next = .call Console.systemEntry ↔
      Host.read machine.host machine.cpu.pc = 0xCD ∧
        Host.read machine.host (machine.cpu.pc + 1) = 0x05 ∧
        Host.read machine.host (machine.cpu.pc + 2) = 0x00 :=
  Instruction.decode_eq_call_iff

theorem Reports.next {bytes : List UInt8} (reports : machine.Reports bytes) :
    machine.next = .call Console.systemEntry :=
  next_eq_system_iff.mpr ⟨reports.opcode, reports.low, reports.high⟩

section

variable (table : machine.table = Diagnostic.table)
  (skips : machine.host.console.options.skip = 3) (running : machine.status = .running)

include table skips running

/-- A report ends the run with the verdict on its text, which is printed. -/
theorem step_of_reports {bytes : List UInt8} (reports : machine.Reports bytes) :
    machine.step.answer = .error (.halt (Diagnostic.verdict (Console.spell bytes))) ∧
      machine.step.responder.host.console.options = machine.host.console.options ∧
      machine.step.responder.host.console.printed =
        machine.host.console.printed ++ Console.spell bytes := by
  have function : (machine.past (.call Console.systemEntry)).c = 9 := reports.function
  have text : machine.host.console.textAt (machine.past (.call Console.systemEntry)).de =
      Console.spell bytes := by
    rw [Console.textAt_eq, skips]
    exact congrArg Console.spell reports.text
  rw [step_of_next table Diagnostic.interceptsCalls running reports.next,
    Diagnostic.callEffect_line function, text]
  exact ⟨rfl, rfl, rfl⟩

omit skips in
/-- Any other step gives no verdict and prints at most a character. -/
theorem step_of_silent (silent : ∀ bytes, ¬ machine.Reports bytes) :
    (∀ stop, machine.step.answer = .error stop → stop.isVerdict = false) ∧
      machine.step.responder.host.console.options = machine.host.console.options ∧
      machine.step.responder.host.console.printed =
        machine.host.console.printed ++ machine.shows := by
  have unspoken : machine.next = .call Console.systemEntry →
      (machine.past machine.next).c ≠ 9 := by
    intro calls function
    obtain ⟨opcode, low, high⟩ := next_eq_system_iff.mp calls
    exact silent _ ⟨opcode, low, high, function, rfl⟩
  obtain ⟨verdictless, options, printed⟩ :=
    Diagnostic.callEffect_silent unspoken machine.host.console
  obtain ⟨host, stops⟩ := machine.settle_diagnostic machine.next.cycles
    (Diagnostic.callEffect machine.next (machine.past machine.next) machine.host)
  rw [step_intercepting table Diagnostic.interceptsCalls running, host]
  refine ⟨?_, options, ?_⟩
  · intro stop stopped
    obtain failed | rfl := stops stop stopped
    · exact verdictless stop failed
    · rfl
  · rw [shows, if_pos running]
    exact printed

/-- The verdicts are those on the reports. -/
theorem answer_eq_verdict_iff {stop : Stop} (isVerdict : stop.isVerdict = true) :
    machine.step.answer = .error stop ↔
      ∃ bytes, machine.Reports bytes ∧ stop = .halt (Diagnostic.verdict (Console.spell bytes)) := by
  constructor
  · intro answered
    by_cases reported : ∃ bytes, machine.Reports bytes
    · obtain ⟨bytes, reports⟩ := reported
      have verdict := (step_of_reports table skips running reports).1
      exact ⟨bytes, reports, Except.error.inj (answered.symm.trans verdict)⟩
    · have silent : ∀ bytes, ¬ machine.Reports bytes := not_exists.mp reported
      have verdictless := (step_of_silent table running silent).1 stop answered
      rw [isVerdict] at verdictless
      cases verdictless
  · rintro ⟨bytes, reports, rfl⟩
    exact (step_of_reports table skips running reports).1

/-- Beside the verdict on a report, a step prints what it shows. -/
theorem printed_step_diagnostic :
    machine.step.responder.host.console.options = machine.host.console.options ∧
      machine.step.responder.host.console.printed =
        machine.host.console.printed ++ machine.shows ++
          machine.step.responder.status.reported := by
  by_cases reported : ∃ bytes, machine.Reports bytes
  · obtain ⟨bytes, reports⟩ := reported
    obtain ⟨answered, options, printed⟩ := step_of_reports table skips running reports
    have nothing : machine.shows = "" := by
      rw [shows, if_pos running]
      apply if_neg
      rintro ⟨-, character⟩
      rw [reports.function] at character
      cases character
    rw [status_step_of_error answered, Diagnostic.reported_verdict, nothing, String.append_empty]
    exact ⟨options, printed⟩
  · obtain ⟨verdictless, options, printed⟩ :=
      step_of_silent table running (not_exists.mp reported)
    rw [reported_step running verdictless, String.append_empty]
    exact ⟨options, printed⟩

end

/-- In a run, everything printed is what was shown, and behind it the text of the verdict if
there is one. -/
theorem printed_after_diagnostic (table : machine.table = Diagnostic.table)
    (skips : machine.host.console.options.skip = 3) (starts : machine.status = .running)
    (steps : Nat) :
    (machine.after steps).host.console.options.skip = 3 ∧
      (machine.after steps).host.console.printed =
        machine.host.console.printed ++ machine.transcript shows steps ++
          (machine.after steps).status.reported := by
  induction steps with
  | zero =>
    refine ⟨skips, ?_⟩
    rw [transcript_zero, after, starts]
    simp [Status.reported]
  | succ steps inductionHypothesis =>
    obtain ⟨options, printed⟩ := inductionHypothesis
    rw [after, transcript_succ]
    cases status : (machine.after steps).status with
    | halted stop =>
      have nothing : (machine.after steps).shows = "" := by
        apply if_neg
        rw [status]
        simp
      rw [step_of_halted status, nothing, String.append_empty]
      exact ⟨options, printed⟩
    | running =>
      obtain ⟨same, appended⟩ :=
        printed_step_diagnostic ((table_after machine steps).trans table) options status
      rw [status] at printed
      rw [same, appended, printed]
      refine ⟨options, ?_⟩
      simp [Status.reported, String.append_assoc]

/-- A run ends with a verdict if and only if its last instruction is a report, and then with
the verdict on that. -/
theorem status_after_eq_verdict_iff (table : machine.table = Diagnostic.table)
    (skips : machine.host.console.options.skip = 3) (starts : machine.status = .running)
    (steps : Nat) {stop : Stop} (isVerdict : stop.isVerdict = true) :
    (machine.after steps).status = .halted stop ↔
      ∃ index bytes, machine.LastStep steps index ∧ (machine.after index).Reports bytes ∧
        stop = .halt (Diagnostic.verdict (Console.spell bytes)) := by
  rw [status_after_eq_halted_iff starts steps]
  apply exists_congr
  intro index
  rw [exists_and_left]
  apply and_congr_right
  intro last
  have options := (printed_after_diagnostic table skips starts index).1
  exact answer_eq_verdict_iff ((table_after machine index).trans table) options last.running
    isVerdict

/-- The verdicts on diagnostic programs are sound and complete. Whatever program fits and
however many steps are taken, the machine has been stopped by a success if and only if the last
instruction that was executed reports the text of success, and by a failure if and only if it
reports another, which is then told. The printed text is in both cases what was shown character
by character, and behind it the text of the report. -/
theorem verdict_iff_reports (image : List UInt8) (fits : image.length ≤ 0xFF00) :
    ∃ diagnostic, Diagnostic.load image = .ok diagnostic ∧ ∀ steps,
      let machine := diagnostic.boot.after
      (∀ text, (machine steps).status = .halted (.halt (.passed text)) ↔
          text = Diagnostic.operational ∧ ∃ index, diagnostic.boot.LastStep steps index ∧
            (machine index).Reports Diagnostic.operationalCode) ∧
        (∀ text, (machine steps).status = .halted (.halt (.failed text)) ↔
          ∃ index bytes, diagnostic.boot.LastStep steps index ∧ (machine index).Reports bytes ∧
            bytes ≠ Diagnostic.operationalCode ∧ text = Console.spell bytes) ∧
        ∀ text, (machine steps).status = .halted (.halt (.passed text)) ∨
            (machine steps).status = .halted (.halt (.failed text)) →
          (machine steps).host.console.printed =
            diagnostic.boot.transcript shows steps ++ text := by
  obtain ⟨console, loaded⟩ := Console.exists_load Diagnostic.options fits
  obtain ⟨options, silent⟩ := Console.fresh_of_load loaded
  have loadedToo : Diagnostic.load image = .ok ⟨console⟩ := by
    rw [Diagnostic.load, loaded]
    rfl
  refine ⟨⟨console⟩, loadedToo, ?_⟩
  intro steps machine
  have skips : (Diagnostic.mk console).boot.host.console.options.skip = 3 :=
    congrArg Console.Options.skip options
  have stopped {stop : Stop} :=
    @status_after_eq_verdict_iff (Diagnostic.mk console).boot rfl skips rfl steps stop
  refine ⟨?_, ?_, ?_⟩
  · intro text
    rw [stopped rfl]
    constructor
    · rintro ⟨index, bytes, last, reports, verdict⟩
      obtain ⟨rfl, rfl⟩ := Diagnostic.verdict_eq_passed_iff.mp (Stop.halt.inj verdict).symm
      exact ⟨rfl, index, last, reports⟩
    · rintro ⟨rfl, index, last, reports⟩
      exact ⟨index, _, last, reports,
        congrArg Stop.halt (Diagnostic.verdict_eq_passed_iff.mpr ⟨rfl, rfl⟩).symm⟩
  · intro text
    rw [stopped rfl]
    constructor
    · rintro ⟨index, bytes, last, reports, verdict⟩
      obtain ⟨other, rfl⟩ := Diagnostic.verdict_eq_failed_iff.mp (Stop.halt.inj verdict).symm
      exact ⟨index, bytes, last, reports, other, rfl⟩
    · rintro ⟨index, bytes, last, reports, other, rfl⟩
      exact ⟨index, bytes, last, reports,
        congrArg Stop.halt (Diagnostic.verdict_eq_failed_iff.mpr ⟨other, rfl⟩).symm⟩
  · intro text verdict
    obtain ⟨-, printed⟩ :=
      @printed_after_diagnostic (Diagnostic.mk console).boot rfl skips rfl steps
    have nothing : (Diagnostic.mk console).boot.host.console.printed = "" := silent
    rw [nothing, String.empty_append] at printed
    obtain passed | failed := verdict
    · rw [passed] at printed
      exact printed
    · rw [failed] at printed
      exact printed

end Machine

namespace Diagnostic

/-- Three instructions that report the text behind them: `mvi c,9`, `lxi d,0x0105` and
`call 5`. -/
def opening : List UInt8 :=
  [0x0E, 0x09, 0x11, 0x05, 0x01, 0xCD, 0x05, 0x00]

/-- A program that reports a text. -/
def announcing (text : List UInt8) : List UInt8 :=
  opening ++ (text ++ [Console.terminator])

/-- The host with this program. -/
def announcer (text : List UInt8) : Diagnostic :=
  ⟨{ memory := (Memory.blank.load 0x0100 (announcing text)).write 5 Console.returnOpcode
     options }⟩

variable {text : List UInt8}

theorem load_announcer (fits : (announcing text).length ≤ 0xFF00) :
    load (announcing text) = .ok (announcer text) := by
  have room : (announcing text).length ≤ 65536 - options.origin.toNat := fits
  rw [load, Console.load, Memory.loadWithin, if_pos room]
  rfl

theorem read_announcer {offset : Nat} (inside : offset < 0xFF00) :
    (announcer text).console.memory.read (0x0100 + offset) =
      ((announcing text)[offset]?).getD 0 := by
  have above : 0x0100 + offset ≠ 5 := by omega
  have within : 0x0100 + offset < 65536 := by omega
  simp [announcer, Memory.read_write, Memory.read_load, above, within]

/-- The instructions do not depend on the text. -/
theorem read_opening (text : List UInt8) {offset : Nat} (inside : offset < 8) :
    (announcer text).console.memory.read (0x0100 + offset) = (opening[offset]?).getD 0 := by
  rw [read_announcer (Nat.lt_trans inside (by decide)), announcing,
    List.getElem?_append_left inside]

/-- The text is what stands three bytes behind the address in DE. -/
theorem upTo_announcer (absent : Console.terminator ∉ text)
    (fits : (announcing text).length ≤ 0xFF00) :
    (announcer text).console.memory.upTo Console.terminator 0x0108 = text := by
  have size : (announcing text).length = 8 + (text.length + 1) := by
    simp only [announcing, opening, List.length_append, List.length_cons, List.length_nil]
  have placed (index : Nat) (before : index ≤ text.length) :
      (announcer text).console.memory.read (0x0108 + index) =
        ((text ++ [Console.terminator])[index]?).getD 0 := by
    have inside : index + 8 < 0xFF00 := by omega
    have shifted : 0x0108 + index = 0x0100 + (index + 8) := by omega
    rw [shifted, read_announcer inside]
    rfl
  apply Memory.upTo_eq
  · apply List.ext_getElem (by simp)
    intro index before behind
    have between : index ≤ text.length := Nat.le_of_lt behind
    simp [placed index between, List.getElem?_append_left behind, behind]
  · exact absent
  · omega
  · rw [placed text.length (Nat.le_refl _)]
    simp

end Diagnostic

namespace Machine

open Diagnostic (announcing announcer operationalCode operational)

/-- The machine in front of the call. -/
def aboutToAnnounce (text : List UInt8) : Machine Diagnostic :=
  { (announcer text).boot with cpu := { pc := 0x0105, c := 9, d := 1, e := 5, cycles := 17 } }

/-- The first two instructions prepare the call and show nothing. -/
theorem run_announcer (text : List UInt8) :
    (announcer text).boot.after 2 = aboutToAnnounce text ∧
      (announcer text).boot.transcript shows 2 = "" := by
  have byte (offset : Nat) (inside : offset < 8) := @Diagnostic.read_opening text offset inside
  let second : Machine Diagnostic :=
    { (announcer text).boot with cpu := { pc := 0x0102, c := 9, cycles := 7 } }
  have firstNext : (announcer text).boot.next = .mvi (.register .c) 9 := by
    change Instruction.decode ((announcer text).console.memory.read (0x0100 + 0))
      ((announcer text).console.memory.read (0x0100 + 1))
      ((announcer text).console.memory.read (0x0100 + 2)) = _
    rw [byte 0 (by decide), byte 1 (by decide), byte 2 (by decide)]
    rfl
  have secondNext : second.next = .lxi (.pair .de) 0x0105 := by
    change Instruction.decode ((announcer text).console.memory.read (0x0100 + 2))
      ((announcer text).console.memory.read (0x0100 + 3))
      ((announcer text).console.memory.read (0x0100 + 4)) = _
    rw [byte 2 (by decide), byte 3 (by decide), byte 4 (by decide)]
    rfl
  have firstStep : (announcer text).boot.step = .ok 7 second := by
    have stepped :=
      @step_of_next _ _ (announcer text).boot _ rfl Diagnostic.interceptsCalls rfl _ firstNext
    exact stepped
  have secondStep : second.step = .ok 10 (aboutToAnnounce text) := by
    have stepped := @step_of_next _ _ second _ rfl Diagnostic.interceptsCalls rfl _ secondNext
    exact stepped
  have afterOne : (announcer text).boot.after 1 = second := congrArg Reply.responder firstStep
  have afterTwo : (announcer text).boot.after 2 = aboutToAnnounce text := by
    rw [after, afterOne, secondStep]
    rfl
  refine ⟨afterTwo, ?_⟩
  have firstShows : (announcer text).boot.shows = "" := by
    simp [shows, Diagnostic.shown, firstNext]
  have secondShows : second.shows = "" := by
    simp [shows, Diagnostic.shown, secondNext]
  rw [transcript_succ, transcript_succ, transcript_zero, afterOne, after, firstShows, secondShows]
  rfl

/-- There it is about to report the text. -/
theorem reports_aboutToAnnounce {text : List UInt8} (absent : Console.terminator ∉ text)
    (fits : (announcing text).length ≤ 0xFF00) : (aboutToAnnounce text).Reports text where
  opcode := @Diagnostic.read_opening text 5 (by decide)
  low := @Diagnostic.read_opening text 6 (by decide)
  high := @Diagnostic.read_opening text 7 (by decide)
  function := rfl
  text := by
    have behind : (word 0x01 0x05 + 3).toNat = 0x0108 := by decide
    have spoken := Diagnostic.upTo_announcer absent fits
    rw [← behind] at spoken
    exact spoken

/-- A program that reports the text of success passes, and has printed nothing else. -/
theorem verdict_iff_reports_operational :
    (announcing operationalCode).length ≤ 0xFF00 ∧
      ∃ diagnostic, Diagnostic.load (announcing operationalCode) = .ok diagnostic ∧
        (diagnostic.boot.after 3).status = .halted (.halt (.passed operational)) ∧
        (diagnostic.boot.after 3).host.console.printed = operational := by
  have fits : (announcing operationalCode).length ≤ 0xFF00 := by decide
  have reports := reports_aboutToAnnounce (by decide) fits
  obtain ⟨arrived, silent⟩ := run_announcer operationalCode
  obtain ⟨diagnostic, loaded, verdict⟩ := verdict_iff_reports _ fits
  obtain rfl : announcer operationalCode = diagnostic :=
    Except.ok.inj ((Diagnostic.load_announcer fits).symm.trans loaded)
  obtain ⟨passes, -, prints⟩ := verdict 3
  have last : (announcer operationalCode).boot.LastStep 3 2 := by
    refine ⟨by decide, ?_, ?_⟩
    · rw [arrived]
      rfl
    · intro later behind before
      omega
  have passed := (passes operational).mpr ⟨rfl, 2, last, arrived ▸ reports⟩
  have printed := prints operational (.inl passed)
  have nothing : (aboutToAnnounce operationalCode).shows = "" := by
    simp [shows, Diagnostic.shown, aboutToAnnounce]
  rw [transcript_succ, silent, arrived, nothing] at printed
  exact ⟨fits, _, loaded, passed, printed⟩

end Machine

end Intel8080
