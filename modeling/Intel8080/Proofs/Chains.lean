import Mathlib.Data.Nat.Digits.Defs
import Mathlib.Tactic.LinearCombination
import Intel8080.Proofs.AccumulatorGroup

/-!
# Arithmetic on numbers of many bytes

A processor of eight bits works on longer numbers byte by byte and passes the carry along.
Such a program is a chain: each link loads the accumulator with a byte, applies one
operation that takes in the carry and yields one, and leaves a byte of the result behind.

What a link does is an equation between its digit, its operands and the two carries. For a
positional system these equations add up, since the carry out of one place weighs as much as
the radix times the carry into the next: all carries but the first and the last cancel. The
sum is taken once, for every radix and every weight of a carry, and addition, subtraction and
the rotation to the left are instances. A rotation to the right hands its carry downwards and
is run from the most significant byte; there the equations add up from the other end.
-/

namespace Intel8080

variable {σ : Type} [Host σ]

/-- Executes instructions one after the other until one calls for a stop. -/
def executeAll : List Instruction → Cpu → σ → Except Stop (Cpu × σ)
  | [], cpu, host => .ok (cpu, host)
  | instruction :: rest, cpu, host =>
    match instruction.execute cpu host with
    | ⟨.ok _, cpu, host⟩ => executeAll rest cpu host
    | ⟨.error stop, _, _⟩ => .error stop

/-- Executes the links of a chain and collects what each leaves in the accumulator. -/
def collect : List (List Instruction) → Cpu → σ → Except Stop (List UInt8 × Cpu × σ)
  | [], cpu, host => .ok ([], cpu, host)
  | link :: links, cpu, host => do
    let (cpu, host) ← executeAll link cpu host
    let (results, after) ← collect links cpu host
    return (cpu.a :: results, after)

/-- A chain is its first link, and the rest from where that ends. -/
theorem collect_cons {link : List Instruction} {links : List (List Instruction)}
    {cpu next last : Cpu} {host : σ} {results : List UInt8}
    (first : executeAll link cpu host = .ok (next, host))
    (rest : collect links next host = .ok (results, last, host)) :
    collect (link :: links) cpu host = .ok (next.a :: results, last, host) := by
  simp only [collect, first, rest, bind, Except.bind]
  rfl

/-- The number with the given digits, the least significant first. -/
def positional (radix : Int) : List Int → Int
  | [] => 0
  | digit :: rest => digit + radix * positional radix rest

theorem positional_ofDigits (radix : Nat) (digits : List Nat) :
    positional radix (digits.map Nat.cast) = Nat.ofDigits radix digits := by
  induction digits with
  | nil => rfl
  | cons digit rest inductionHypothesis =>
    rw [List.map_cons, positional, inductionHypothesis, Nat.ofDigits_cons, Nat.cast_add,
      Nat.cast_mul]

/-- Numbers are added digit by digit, carries apart. -/
theorem positional_add {α : Type} (radix : Int) (left right : α → Int) (digits : List α) :
    positional radix (digits.map fun digit => left digit + right digit) =
      positional radix (digits.map left) + positional radix (digits.map right) := by
  induction digits with
  | nil => rfl
  | cons digit rest inductionHypothesis =>
    simp only [List.map_cons, positional, inductionHypothesis]
    ring

/-- The number that bytes stand for, the least significant first. -/
def amount (bytes : List UInt8) : Nat :=
  Nat.ofDigits 256 (bytes.map UInt8.toNat)

theorem positional_toNat {α : Type} (byte : α → UInt8) (places : List α) :
    positional 256 (places.map fun place => ((byte place).toNat : Int)) =
      amount (places.map byte) := by
  rw [amount, ← positional_ofDigits, List.map_map, List.map_map]
  rfl

theorem positional_bytes (bytes : List UInt8) :
    positional 256 (bytes.map fun byte => (byte.toNat : Int)) = amount bytes := by
  rw [positional_toNat fun byte => byte, List.map_id']

/-- A byte put in front of others in the order of significance is the most significant. -/
theorem amount_concat (bytes : List UInt8) (top : UInt8) :
    amount (bytes ++ [top]) = amount bytes + 256 ^ bytes.length * top.toNat := by
  simp only [amount, List.map_append, Nat.ofDigits_append, List.length_map, List.map_cons,
    List.map_nil, Nat.ofDigits_singleton]

/-- On a given host a program computes a digit: from every state it leads, without touching
the host, to one in which the accumulator and the carry balance a value and the carry before.
The reading of the accumulator, the radix and the weight of a carry are the chain's. -/
def IsLink (host : σ) (digit : UInt8 → Int) (radix : Int) (weight : Bool → Int)
    (program : List Instruction) (value : Int) : Prop :=
  ∀ cpu : Cpu, ∃ after : Cpu, executeAll program cpu host = .ok (after, host) ∧
    digit after.a + radix * weight after.flags.carry = value + weight cpu.flags.carry

/-- Links add up. The digits form the number of the values and the carry that went in, save
for the carry that comes out, which weighs as much as the place behind the last. -/
theorem collect_balances {α : Type} {host : σ} {digit : UInt8 → Int} {radix : Int}
    {weight : Bool → Int} {program : α → List Instruction} {value : α → Int}
    (link : ∀ operand, IsLink host digit radix weight (program operand) (value operand))
    (operands : List α) (cpu : Cpu) :
    ∃ results after, collect (operands.map program) cpu host = .ok (results, after, host) ∧
      results.length = operands.length ∧
      positional radix (results.map digit) +
          radix ^ operands.length * weight after.flags.carry =
        positional radix (operands.map value) + weight cpu.flags.carry := by
  induction operands generalizing cpu with
  | nil => exact ⟨[], cpu, rfl, rfl, by simp [positional]⟩
  | cons operand rest inductionHypothesis =>
    obtain ⟨next, first, balance⟩ := link operand cpu
    obtain ⟨results, after, collected, sameLength, total⟩ := inductionHypothesis next
    refine ⟨next.a :: results, after, collect_cons first collected, ?_, ?_⟩
    · rw [List.length_cons, List.length_cons, sameLength]
    · simp only [List.map_cons, positional, List.length_cons, pow_succ]
      -- The carry between the two drops out: the first equation has it times the radix.
      linear_combination balance + radix * total

/-- Where the second operand of a link comes from: it is immediate, or loaded into a register
first, or in memory at an address that is loaded into HL first. -/
inductive Addend where
  | immediate (value : UInt8)
  | register (name : Register) (value : UInt8)
  | memory (address : UInt16)

namespace Addend

/-- The second operand of a link. A value put into the accumulator does not outlast the load
of the first operand, which then is both. -/
def value (first : UInt8) (read : UInt16 → UInt8) : Addend → UInt8
  | immediate value => value
  | register .a _ => first
  | register _ value => value
  | memory address => read address

/-- A link that applies an operation to a first operand in the accumulator. -/
def program (operation : AccumulatorOp) (first : UInt8) : Addend → List Instruction
  | immediate value => [.mvi (.register .a) first, .accumulateImmediate operation value]
  | register name value =>
    [.mvi (.register name) value, .mvi (.register .a) first,
      .accumulate operation (.register name)]
  | memory address =>
    [.lxi (.pair .hl) address, .mvi (.register .a) first, .accumulate operation .memory]

/-- Loading the operands leaves the carry alone, so the operation takes in the one before. -/
theorem executeAll_program (operation : AccumulatorOp) (first : UInt8) (addend : Addend)
    (cpu : Cpu) (host : σ) :
    ∃ loaded : Cpu, executeAll (addend.program operation first) cpu host =
      .ok (loaded.accumulate (operation.apply first (addend.value first (Host.read host))
        cpu.flags.carry), host) := by
  cases addend with
  | immediate value => exact ⟨{ cpu with a := first }, rfl⟩
  | register name value =>
    refine ⟨{ cpu.set name value with a := first }, ?_⟩
    cases name <;> rfl
  | memory address =>
    have addressed : { cpu.setHL address with a := first }.hl = address :=
      word_highByte_lowByte address
    have delivered : (memory address).value first (Host.read host) =
        { cpu.setHL address with a := first }.operand (Host.read host) .memory := by
      rw [value, Cpu.operand, addressed]
    rw [delivered]
    exact ⟨{ cpu.setHL address with a := first }, rfl⟩

end Addend

/-- Adding with carry is a link of a chain of sums. -/
theorem isLink_adc (host : σ) (operands : UInt8 × Addend) :
    IsLink host (fun byte => byte.toNat) 256 (fun carry => carry.toNat)
      (operands.2.program .adc operands.1)
      (operands.1.toNat + (operands.2.value operands.1 (Host.read host)).toNat) := by
  intro cpu
  obtain ⟨loaded, executed⟩ := operands.2.executeAll_program .adc operands.1 cpu host
  refine ⟨_, executed, ?_⟩
  have total := IsSum.total (AccumulatorOp.computes_apply .adc operands.1
    (operands.2.value operands.1 (Host.read host)) cpu.flags.carry)
  simp only [Cpu.accumulate]
  exact_mod_cast total

/-- Subtracting with borrow is a link of a chain of differences, in which a borrow counts as
one less. -/
theorem isLink_sbb (host : σ) (operands : UInt8 × Addend) :
    IsLink host (fun byte => byte.toNat) 256 (fun carry => -carry.toNat)
      (operands.2.program .sbb operands.1)
      (operands.1.toNat - (operands.2.value operands.1 (Host.read host)).toNat) := by
  intro cpu
  obtain ⟨loaded, executed⟩ := operands.2.executeAll_program .sbb operands.1 cpu host
  refine ⟨_, executed, ?_⟩
  have total := IsDifference.total (AccumulatorOp.computes_apply .sbb operands.1
    (operands.2.value operands.1 (Host.read host)) cpu.flags.carry)
  simp only [Cpu.accumulate]
  linear_combination total

/-- A chain of sums adds the numbers of all first and of all second operands. -/
theorem collect_adc (operands : List (UInt8 × Addend)) (cpu : Cpu) (host : σ) :
    ∃ results after,
      collect (operands.map fun operand => operand.2.program .adc operand.1) cpu host =
          .ok (results, after, host) ∧
        results.length = operands.length ∧
        amount results + after.flags.carry.toNat * 256 ^ operands.length =
          amount (operands.map fun operand => operand.1) +
            amount (operands.map fun operand => operand.2.value operand.1 (Host.read host)) +
            cpu.flags.carry.toNat := by
  obtain ⟨results, after, collected, sameLength, total⟩ :=
    collect_balances (isLink_adc host) operands cpu
  refine ⟨results, after, collected, sameLength, ?_⟩
  rw [positional_add, positional_bytes, positional_toNat, positional_toNat] at total
  zify
  linear_combination total

/-- A chain of differences subtracts them. -/
theorem collect_sbb (operands : List (UInt8 × Addend)) (cpu : Cpu) (host : σ) :
    ∃ results after,
      collect (operands.map fun operand => operand.2.program .sbb operand.1) cpu host =
          .ok (results, after, host) ∧
        results.length = operands.length ∧
        (amount results : Int) =
          amount (operands.map fun operand => operand.1) -
            amount (operands.map fun operand => operand.2.value operand.1 (Host.read host)) -
            cpu.flags.carry.toNat + after.flags.carry.toNat * 256 ^ operands.length := by
  obtain ⟨results, after, collected, sameLength, total⟩ :=
    collect_balances (isLink_sbb host) operands cpu
  refine ⟨results, after, collected, sameLength, ?_⟩
  -- The subtrahend added to the difference is the minuend, as numbers too.
  have restored := positional_add 256
    (fun operand : UInt8 × Addend =>
      (operand.1.toNat - (operand.2.value operand.1 (Host.read host)).toNat : Int))
    (fun operand => (operand.2.value operand.1 (Host.read host)).toNat) operands
  simp only [sub_add_cancel] at restored
  rw [positional_toNat, positional_toNat] at restored
  rw [positional_bytes] at total
  linear_combination total - restored

namespace Rotation

/-- A link that rotates a byte in the accumulator. -/
def program (rotation : Rotation) (value : UInt8) : List Instruction :=
  [.mvi (.register .a) value, .rotate rotation]

theorem executeAll_program (rotation : Rotation) (value : UInt8) (cpu : Cpu) (host : σ) :
    executeAll (rotation.program value) cpu host =
      .ok ({ cpu with a := value }.rotate rotation, host) :=
  rfl

/-- To the left through the carry, the byte doubles. -/
theorem apply_ral (value : UInt8) (carry : Bool) :
    (ral.apply value carry).1.toNat + 256 * (ral.apply value carry).2.toNat =
      2 * value.toNat + carry.toNat := by
  have all : ∀ bits : BitVec 8, ∀ carry : Bool,
      (ral.apply ⟨bits⟩ carry).1.toNat + 256 * (ral.apply ⟨bits⟩ carry).2.toNat =
        2 * (⟨bits⟩ : UInt8).toNat + carry.toNat := by
    decide
  exact all value.toBitVec carry

/-- To the right through the carry, the byte with the carry on top of it is halved. -/
theorem apply_rar (value : UInt8) (carry : Bool) :
    2 * (rar.apply value carry).1.toNat + (rar.apply value carry).2.toNat =
      value.toNat + 256 * carry.toNat := by
  have all : ∀ bits : BitVec 8, ∀ carry : Bool,
      2 * (rar.apply ⟨bits⟩ carry).1.toNat + (rar.apply ⟨bits⟩ carry).2.toNat =
        (⟨bits⟩ : UInt8).toNat + 256 * carry.toNat := by
    decide
  exact all value.toBitVec carry

end Rotation

/-- Rotating to the left is a link of a chain that doubles. -/
theorem isLink_ral (host : σ) (value : UInt8) :
    IsLink host (fun byte => byte.toNat) 256 (fun carry => carry.toNat)
      (Rotation.ral.program value) (value.toNat + value.toNat) := by
  intro cpu
  refine ⟨_, Rotation.ral.executeAll_program value cpu host, ?_⟩
  have doubled := Rotation.apply_ral value cpu.flags.carry
  simp only [Cpu.rotate, Cpu.setCarry]
  rw [← two_mul]
  exact_mod_cast doubled

/-- A chain of rotations to the left doubles the number. -/
theorem collect_ral (bytes : List UInt8) (cpu : Cpu) (host : σ) :
    ∃ results after,
      collect (bytes.map Rotation.ral.program) cpu host = .ok (results, after, host) ∧
        results.length = bytes.length ∧
        amount results + after.flags.carry.toNat * 256 ^ bytes.length =
          2 * amount bytes + cpu.flags.carry.toNat := by
  obtain ⟨results, after, collected, sameLength, total⟩ :=
    collect_balances (isLink_ral host) bytes cpu
  refine ⟨results, after, collected, sameLength, ?_⟩
  rw [positional_add, positional_bytes, positional_bytes] at total
  zify
  linear_combination total

/-- Rotations to the right from the most significant byte down halve the number, with the
carry on top of it. The induction is on the bytes still to be rotated: the one before hands
its lowest bit down to them. -/
theorem collect_rar (bytes : List UInt8) (cpu : Cpu) (host : σ) :
    ∃ results after, collect (bytes.map Rotation.rar.program) cpu host =
        .ok (results, after, host) ∧
      results.length = bytes.length ∧
      2 * amount results.reverse + after.flags.carry.toNat =
        amount bytes.reverse + 256 ^ bytes.length * cpu.flags.carry.toNat := by
  induction bytes generalizing cpu with
  | nil => exact ⟨[], cpu, rfl, rfl, by simp [amount]⟩
  | cons byte rest inductionHypothesis =>
    have first := Rotation.rar.executeAll_program byte cpu host
    obtain ⟨results, after, collected, sameLength, total⟩ :=
      inductionHypothesis ({ cpu with a := byte }.rotate .rar)
    refine ⟨_, after, collect_cons first collected, ?_, ?_⟩
    · rw [List.length_cons, List.length_cons, sameLength]
    · have halved := Rotation.apply_rar byte cpu.flags.carry
      simp only [Cpu.rotate, Cpu.setCarry] at total ⊢
      rw [List.reverse_cons, List.reverse_cons, amount_concat, amount_concat,
        List.length_reverse, List.length_reverse, List.length_cons, sameLength, pow_succ]
      linear_combination total + 256 ^ rest.length * halved

/-- Arithmetic on numbers of any length, with the bytes least significant first. Adding with
carry link by link gives the sum and the carry that went in; subtracting with borrow gives the
difference less the borrow that went in; and rotating to the left gives the double. What comes
out of the last link stands for a power of 256. Rotating to the right from the other end gives
the half of the number with the carry on top, and the carry that comes out is the remainder.
The second operand of a sum or difference may be of any form, and a different one in each
link; the host is not touched. -/
theorem chains_total (cpu : Cpu) (host : σ) :
    (∀ operands : List (UInt8 × Addend),
      let first := operands.map fun operand => operand.1
      let second := operands.map fun operand => operand.2.value operand.1 (Host.read host)
      (∃ results after,
        collect (operands.map fun operand => operand.2.program .adc operand.1) cpu host =
            .ok (results, after, host) ∧
          results.length = operands.length ∧
          amount results + after.flags.carry.toNat * 256 ^ operands.length =
            amount first + amount second + cpu.flags.carry.toNat) ∧
      ∃ results after,
        collect (operands.map fun operand => operand.2.program .sbb operand.1) cpu host =
            .ok (results, after, host) ∧
          results.length = operands.length ∧
          (amount results : Int) =
            amount first - amount second - cpu.flags.carry.toNat +
              after.flags.carry.toNat * 256 ^ operands.length) ∧
    ∀ bytes : List UInt8,
      (∃ results after,
        collect (bytes.map Rotation.ral.program) cpu host = .ok (results, after, host) ∧
          results.length = bytes.length ∧
          amount results + after.flags.carry.toNat * 256 ^ bytes.length =
            2 * amount bytes + cpu.flags.carry.toNat) ∧
      ∃ results after,
        collect (bytes.reverse.map Rotation.rar.program) cpu host =
            .ok (results.reverse, after, host) ∧
          results.length = bytes.length ∧
          amount results = (amount bytes + cpu.flags.carry.toNat * 256 ^ bytes.length) / 2 ∧
          after.flags.carry.toNat =
            (amount bytes + cpu.flags.carry.toNat * 256 ^ bytes.length) % 2 := by
  refine ⟨fun operands => ⟨collect_adc operands cpu host, collect_sbb operands cpu host⟩, ?_⟩
  intro bytes
  refine ⟨collect_ral bytes cpu host, ?_⟩
  obtain ⟨results, after, collected, sameLength, total⟩ :=
    collect_rar bytes.reverse cpu host
  rw [List.length_reverse, List.reverse_reverse] at total
  have least := after.flags.carry.toNat_le
  refine ⟨results.reverse, after, ?_, ?_, ?_, ?_⟩
  · rw [List.reverse_reverse, collected]
  · rw [List.length_reverse, sameLength, List.length_reverse]
  · rw [Nat.mul_comm cpu.flags.carry.toNat, ← total]
    omega
  · rw [Nat.mul_comm cpu.flags.carry.toNat, ← total]
    omega

end Intel8080
