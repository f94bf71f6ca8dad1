import Mathlib.Data.Nat.Bitwise
import Intel8080.Execution

/-!
# The accumulator group in integers

The processor forms sums and differences in sixteen bits and reads its flags off the
result with masks. What they mean is said here in integers: `IsSum` and `IsDifference` give
the byte and each of the five flags by comparing and reducing the operands, `IsBitwise` gives
the byte bit by bit, and `AccumulatorOp.Computes` assigns one of them to each operation.

The masks for the flags, but for that of the zero flag, select a single bit, and a single bit
of a number is the parity of a quotient. In these terms the carry into bit 4, which the
processor finds by comparing a sum with its operands, is a statement about remainders by
sixteen.

Stepping a byte takes a shorter way to the auxiliary carry, through the low digit of the
result. It is shown to be the sum with one, or the difference, in all flags but the carry.
-/

namespace Intel8080

/-- A single bit, masked out of a word. -/
theorem and_two_pow_ne_zero (value mask : UInt16) (place : Nat) (single : mask.toNat = 2 ^ place) :
    (value &&& mask != 0) = value.toNat.testBit place := by
  have masked : (value &&& mask).toNat = 2 ^ place * (value.toNat.testBit place).toNat := by
    rw [UInt16.toNat_and, single, Nat.and_two_pow, Nat.mul_comm]
  have positive : 0 < 2 ^ place := Nat.two_pow_pos place
  rw [Bool.eq_iff_iff, bne_iff_ne, Ne, ← UInt16.toNat_inj, masked]
  cases value.toNat.testBit place with
  | false => simp
  | true => simp

/-- A carry counts as one. -/
theorem toNat_toUInt16_bool (carry : Bool) : carry.toUInt16.toNat = carry.toNat := by
  cases carry <;> rfl

/-- A flag counts as one in the case that it stands for. -/
theorem toNat_of_iff {flag : Bool} {condition : Prop} [Decidable condition]
    (means : flag = true ↔ condition) : flag.toNat = if condition then 1 else 0 := by
  split
  · rename_i holds
    rw [means.mpr holds, Bool.toNat_true]
  · rename_i fails
    rw [Bool.eq_false_iff.mpr (mt means.mp fails), Bool.toNat_false]

/-- Of two parities the exclusive disjunction is the parity of the sum. -/
theorem decide_xor_decide (left right : Nat) :
    (decide (left % 2 = 1) ^^ decide (right % 2 = 1)) = decide ((left + right) % 2 = 1) := by
  rw [Bool.eq_iff_iff, Bool.xor_iff_ne, Ne, decide_eq_decide, decide_eq_true_iff]
  omega

namespace Arithmetic

theorem carries_eq (result : UInt16) : carries result = decide (result.toNat / 256 % 2 = 1) := by
  rw [carries, and_two_pow_ne_zero result 0x0100 8 rfl, Nat.testBit_eq_decide_div_mod_eq]

/-- The auxiliary carry compares a parity of the result with those of the operands. -/
theorem auxCarries_eq (left right : UInt8) (result : UInt16) :
    auxCarries left right result =
      decide ((left.toNat / 16 + right.toNat / 16 + result.toNat / 16) % 2 = 1) := by
  rw [auxCarries, and_two_pow_ne_zero _ 0x10 4 rfl, UInt16.toNat_xor, UInt16.toNat_xor,
    Nat.testBit_xor, Nat.testBit_xor, UInt8.toNat_toUInt16, UInt8.toNat_toUInt16]
  simp only [Nat.testBit_eq_decide_div_mod_eq, decide_xor_decide, Nat.reducePow]

end Arithmetic

namespace Flags

/-- The flags that an arithmetic or logical result determines are those of a byte. -/
structure Describes (flags : Flags) (result : UInt8) : Prop where
  zero : flags.zero = true ↔ result = 0
  sign : flags.sign = true ↔ 128 ≤ result.toNat
  parity : flags.parity = true ↔ ones result % 2 = 0

theorem describes_ofData (value : UInt8) : (ofData value).Describes value where
  zero := beq_iff_eq
  sign := by
    have all : ∀ bits : BitVec 8, (ofData ⟨bits⟩).sign = true ↔
        128 ≤ (⟨bits⟩ : UInt8).toNat := by decide
    exact all value.toBitVec
  parity := by rw [ofData, Arithmetic.evenParity_eq, beq_iff_eq]

/-- In a sixteen-bit result the byte is the low half. -/
theorem describes_ofResult (result : UInt16) (aux : Bool) :
    (ofResult result aux).Describes (lowByte result) where
  zero := by
    rw [ofResult, Arithmetic.isZero, beq_iff_eq, ← UInt16.toNat_inj, ← UInt8.toNat_inj,
      toNat_lowByte, UInt16.toNat_and]
    exact iff_of_eq (congrArg (· = 0) (Nat.and_two_pow_sub_one_eq_mod result.toNat 8))
  sign := by
    rw [ofResult, Arithmetic.isNegative, and_two_pow_ne_zero result 0x0080 7 rfl,
      Nat.testBit_eq_decide_div_mod_eq, decide_eq_true_iff, toNat_lowByte]
    omega
  parity := by rw [ofResult, Arithmetic.evenParity_eq, beq_iff_eq]

end Flags

/-- A byte and flags are the sum of two bytes and a carry. -/
structure IsSum (left right : UInt8) (carryIn : Nat) (result : UInt8) (flags : Flags) : Prop where
  value : result.toNat = (left.toNat + right.toNat + carryIn) % 256
  carry : flags.carry = true ↔ 255 < left.toNat + right.toNat + carryIn
  aux : flags.aux = true ↔ 15 < left.toNat % 16 + right.toNat % 16 + carryIn
  describes : flags.Describes result

/-- A byte and flags are the difference of two bytes less a borrow. The auxiliary carry is
set where the low digit needs no borrow. -/
structure IsDifference (left right : UInt8) (borrowIn : Nat) (result : UInt8) (flags : Flags) :
    Prop where
  value : (result.toNat : Int) = ((left.toNat : Int) - right.toNat - borrowIn) % 256
  carry : flags.carry = true ↔ left.toNat < right.toNat + borrowIn
  aux : flags.aux = true ↔ right.toNat % 16 + borrowIn ≤ left.toNat % 16
  describes : flags.Describes result

/-- The byte and the carry of a sum hold all of it. -/
theorem IsSum.total {left right : UInt8} {carryIn : Bool} {result : UInt8} {flags : Flags}
    (sum : IsSum left right carryIn.toNat result flags) :
    result.toNat + 256 * flags.carry.toNat = left.toNat + right.toNat + carryIn.toNat := by
  have leftBound := left.toNat_lt
  have rightBound := right.toNat_lt
  have carryBound := carryIn.toNat_le
  rw [sum.value, toNat_of_iff sum.carry]
  split <;> omega

/-- A borrow makes up for what the byte of a difference exceeds it by. -/
theorem IsDifference.total {left right : UInt8} {borrowIn : Bool} {result : UInt8}
    {flags : Flags} (difference : IsDifference left right borrowIn.toNat result flags) :
    (result.toNat : Int) - 256 * flags.carry.toNat =
      left.toNat - right.toNat - borrowIn.toNat := by
  have leftBound := left.toNat_lt
  have rightBound := right.toNat_lt
  have borrowBound := borrowIn.toNat_le
  rw [difference.value, toNat_of_iff difference.carry]
  split <;> omega

/-- Equal bytes are those with difference zero. -/
theorem IsDifference.zero_iff {left right result : UInt8} {flags : Flags}
    (difference : IsDifference left right 0 result flags) :
    flags.zero = true ↔ left = right := by
  have leftBound := left.toNat_lt
  have rightBound := right.toNat_lt
  have value := difference.value
  rw [difference.describes.zero, ← UInt8.toNat_inj, ← UInt8.toNat_inj, UInt8.toNat_zero]
  omega

/-- A byte and flags are the outcome of an operation on each pair of bits. -/
structure IsBitwise (operation : Bool → Bool → Bool) (left right result : UInt8) (flags : Flags) :
    Prop where
  bits : ∀ place : Nat, place < 8 → result.toNat.testBit place =
    operation (left.toNat.testBit place) (right.toNat.testBit place)
  carry : flags.carry = false
  aux : flags.aux = false
  describes : flags.Describes result

namespace Arithmetic

theorem add_spec (left right : UInt8) (carryIn : Bool) :
    IsSum left right carryIn.toNat (add left right carryIn).1 (add left right carryIn).2 := by
  have leftBound := left.toNat_lt
  have rightBound := right.toNat_lt
  have carryBound := carryIn.toNat_le
  have total : (left.toUInt16 + right.toUInt16 + carryIn.toUInt16).toNat =
      left.toNat + right.toNat + carryIn.toNat := by
    rw [UInt16.toNat_add, UInt16.toNat_add, UInt8.toNat_toUInt16, UInt8.toNat_toUInt16,
      toNat_toUInt16_bool]
    omega
  simp only [add]
  constructor
  case value => rw [toNat_lowByte, total]
  case carry =>
    simp only [Flags.ofResult, carries_eq, total, decide_eq_true_iff]
    omega
  case aux =>
    simp only [Flags.ofResult, auxCarries_eq, total, decide_eq_true_iff]
    omega
  case describes => exact Flags.describes_ofResult _ _

/-- A difference below zero wraps, and then every bit from the eighth on is set. -/
theorem subtract_spec (left right : UInt8) (borrowIn : Bool) :
    IsDifference left right borrowIn.toNat (subtract left right borrowIn).1
      (subtract left right borrowIn).2 := by
  have leftBound := left.toNat_lt
  have rightBound := right.toNat_lt
  have borrowBound := borrowIn.toNat_le
  have total : (left.toUInt16 - right.toUInt16 - borrowIn.toUInt16).toNat =
      (left.toNat + 65536 - right.toNat - borrowIn.toNat) % 65536 := by
    rw [UInt16.toNat_sub, UInt16.toNat_sub, UInt8.toNat_toUInt16, UInt8.toNat_toUInt16,
      toNat_toUInt16_bool]
    omega
  simp only [subtract]
  constructor
  case value =>
    rw [toNat_lowByte, total]
    omega
  case carry =>
    simp only [Flags.ofResult, carries_eq, total, decide_eq_true_iff]
    omega
  case aux =>
    simp only [Flags.ofResult, auxKeeps, auxCarries_eq, total, Bool.not_eq_true',
      decide_eq_false_iff_not]
    omega
  case describes => exact Flags.describes_ofResult _ _

/-- Subtracting with a borrow that makes up the whole range comes back to zero. -/
example : subtract 0 255 true =
    (0, { zero := true, sign := false, parity := true, carry := true, aux := false }) := by
  decide

/-- The flags of a stepped byte under a carry kept from before. -/
theorem increment_eq (value : UInt8) (carry : Bool) :
    (increment value).1 = (add value 1 false).1 ∧
      { (increment value).2 with carry } = { (add value 1 false).2 with carry } := by
  have all : ∀ bits : BitVec 8, ∀ carry : Bool, (increment ⟨bits⟩).1 = (add ⟨bits⟩ 1 false).1 ∧
      { (increment ⟨bits⟩).2 with carry } = { (add ⟨bits⟩ 1 false).2 with carry } := by
    decide
  exact all value.toBitVec carry

theorem decrement_eq (value : UInt8) (carry : Bool) :
    (decrement value).1 = (subtract value 1 false).1 ∧
      { (decrement value).2 with carry } = { (subtract value 1 false).2 with carry } := by
  have all : ∀ bits : BitVec 8, ∀ carry : Bool,
      (decrement ⟨bits⟩).1 = (subtract ⟨bits⟩ 1 false).1 ∧
      { (decrement ⟨bits⟩).2 with carry } = { (subtract ⟨bits⟩ 1 false).2 with carry } := by
    decide
  exact all value.toBitVec carry

end Arithmetic

namespace AccumulatorOp

/-- What an operation takes in besides its operands: the carry, if it is one of the two that
use it. -/
def carryIn (operation : AccumulatorOp) (carry : Bool) : Nat :=
  match operation with
  | adc | sbb => carry.toNat
  | _ => 0

/-- The accumulator and the flags that an operation leaves, in integers. A comparison leaves
the flags of a difference that it does not keep. -/
def Computes (operation : AccumulatorOp) (accumulator value : UInt8) (carry : Bool)
    (result : UInt8) (flags : Flags) : Prop :=
  match operation with
  | add | adc => IsSum accumulator value (operation.carryIn carry) result flags
  | sub | sbb => IsDifference accumulator value (operation.carryIn carry) result flags
  | ana => IsBitwise and accumulator value result flags
  | xra => IsBitwise xor accumulator value result flags
  | ora => IsBitwise or accumulator value result flags
  | cmp => result = accumulator ∧ ∃ difference, IsDifference accumulator value 0 difference flags

theorem computes_apply (operation : AccumulatorOp) (accumulator value : UInt8) (carry : Bool) :
    operation.Computes accumulator value carry (operation.apply accumulator value carry).1
      (operation.apply accumulator value carry).2 := by
  have bitwise (merge : Bool → Bool → Bool) (result : UInt8)
      (bits : ∀ place : Nat, result.toNat.testBit place =
        merge (accumulator.toNat.testBit place) (value.toNat.testBit place)) :
      IsBitwise merge accumulator value result (.ofLogical result) :=
    ⟨fun place _ => bits place, rfl, rfl, Flags.describes_ofData result⟩
  cases operation with
  | add => exact Arithmetic.add_spec accumulator value false
  | adc => exact Arithmetic.add_spec accumulator value carry
  | sub => exact Arithmetic.subtract_spec accumulator value false
  | sbb => exact Arithmetic.subtract_spec accumulator value carry
  | ana =>
    apply bitwise and (accumulator &&& value)
    intro place
    rw [UInt8.toNat_and, Nat.testBit_and]
  | xra =>
    apply bitwise xor (accumulator ^^^ value)
    intro place
    rw [UInt8.toNat_xor, Nat.testBit_xor]
  | ora =>
    apply bitwise or (accumulator ||| value)
    intro place
    rw [UInt8.toNat_or, Nat.testBit_or]
  | cmp => exact ⟨rfl, _, Arithmetic.subtract_spec accumulator value false⟩

end AccumulatorOp

/-- The ways to name the operand of an accumulator operation: a register or memory, or the
byte itself. -/
inductive Addressing where
  | operand (source : Operand)
  | immediate (value : UInt8)

/-- The byte that is delivered. -/
def Addressing.value (addressing : Addressing) (cpu : Cpu) (read : UInt16 → UInt8) : UInt8 :=
  match addressing with
  | operand source => cpu.operand read source
  | immediate value => value

/-- The instruction that applies an operation to an operand so named. -/
def AccumulatorOp.instruction (operation : AccumulatorOp) : Addressing → Instruction
  | .operand source => .accumulate operation source
  | .immediate value => .accumulateImmediate operation value

variable {σ : Type} [Host σ]

/-- The outcome of delivering a byte to an operand and installing flags. A host that refuses
the byte leaves the processor as it was. -/
def Operand.receive (target : Operand) (cpu : Cpu) (host : σ) (result : UInt8)
    (flags : Flags) : Outcome σ :=
  match target with
  | register name => ⟨.ok 0, { cpu.set name result with flags := flags }, host⟩
  | memory =>
    match Host.write host cpu.hl result with
    | .ok _ after => ⟨.ok 0, { cpu with flags := flags }, after⟩
    | .error fault after => ⟨.error (.fault fault), cpu, after⟩

namespace Instruction

/-- The form of an accumulator operation decides only where its operand comes from. -/
theorem execute_accumulator (operation : AccumulatorOp) (addressing : Addressing) (cpu : Cpu)
    (host : σ) :
    (operation.instruction addressing).execute cpu host =
      ⟨.ok 0, cpu.accumulate (operation.apply cpu.a (addressing.value cpu (Host.read host))
        cpu.flags.carry), host⟩ := by
  cases addressing <;> rfl

/-- An instruction that steps a byte delivers it together with its flags. -/
theorem execute_of_deliverStep {instruction : Instruction} {cpu : Cpu} {host : σ}
    {target : Operand} {result : UInt8 × Flags}
    (steps : instruction.exchange cpu (Host.read host) =
      complete (cpu.deliverStep target result)) :
    instruction.execute cpu host =
      target.receive cpu host result.1 { result.2 with carry := cpu.flags.carry } := by
  rw [execute, steps]
  cases target with
  | register name => cases name <;> rfl
  | memory =>
    have address (flags : Flags) : { cpu with flags := flags }.hl = cpu.hl := rfl
    simp only [Cpu.deliverStep, Cpu.deliver, complete, Exchange.map, Exchange.run,
      Operand.receive, address]
    cases Host.write host cpu.hl result.1 <;> rfl

/-- An increment delivers a sum with one, under the carry it finds. -/
theorem execute_inr (target : Operand) (cpu : Cpu) (host : σ) :
    ∃ result flags, IsSum (cpu.operand (Host.read host) target) 1 0 result flags ∧
      (inr target).execute cpu host =
        target.receive cpu host result { flags with carry := cpu.flags.carry } := by
  refine ⟨_, _, Arithmetic.add_spec _ 1 false, ?_⟩
  obtain ⟨sameResult, sameFlags⟩ :=
    Arithmetic.increment_eq (cpu.operand (Host.read host) target) cpu.flags.carry
  rw [← sameResult, ← sameFlags]
  exact execute_of_deliverStep rfl

/-- A decrement delivers a difference by one, under the carry it finds. -/
theorem execute_dcr (target : Operand) (cpu : Cpu) (host : σ) :
    ∃ result flags, IsDifference (cpu.operand (Host.read host) target) 1 0 result flags ∧
      (dcr target).execute cpu host =
        target.receive cpu host result { flags with carry := cpu.flags.carry } := by
  refine ⟨_, _, Arithmetic.subtract_spec _ 1 false, ?_⟩
  obtain ⟨sameResult, sameFlags⟩ :=
    Arithmetic.decrement_eq (cpu.operand (Host.read host) target) cpu.flags.carry
  rw [← sameResult, ← sameFlags]
  exact execute_of_deliverStep rfl

/-- A jump on a set carry or zero flag goes where the flag says. -/
theorem execute_jumpIf_iff (flag : Tested) (target : UInt16) (cpu : Cpu) (host : σ)
    (taken : Prop) [Decidable taken]
    (decides : (⟨flag, true⟩ : Condition).holds cpu.flags = true ↔ taken) :
    (jumpIf ⟨flag, true⟩ target).execute cpu host =
      ⟨.ok 0, if taken then { cpu with pc := target } else cpu, host⟩ := by
  by_cases jumps : taken
  · rw [if_pos jumps]
    simp only [execute, exchange, if_pos (decides.mpr jumps)]
    rfl
  · rw [if_neg jumps]
    simp only [execute, exchange, if_neg (mt decides.mp jumps)]
    rfl

end Instruction

/-- Accumulator arithmetic in every form. Each operation leaves the byte and the flags that
integers say, in the accumulator and the flags of an otherwise unchanged processor, whichever
way its operand is named; an operand of the same value taken immediately gives the same
outcome. After a comparison, a jump on carry is taken where the accumulator is less than the
operand and a jump on zero where they are equal, whatever else has changed meanwhile. Stepping
a register or a byte of memory delivers the sum with one or the difference by one with all of
its flags but the carry, which stays. -/
theorem accumulator_group (cpu : Cpu) (host : σ) :
    (∀ (operation : AccumulatorOp) (addressing : Addressing),
      (∃ result flags, operation.Computes cpu.a (addressing.value cpu (Host.read host))
          cpu.flags.carry result flags ∧
        (operation.instruction addressing).execute cpu host =
          ⟨.ok 0, { cpu with a := result, flags := flags }, host⟩) ∧
      (operation.instruction (.immediate (addressing.value cpu (Host.read host)))).execute
          cpu host =
        (operation.instruction addressing).execute cpu host) ∧
    (∀ (addressing : Addressing) (later : Cpu) (left : σ) (target : UInt16),
      let value := addressing.value cpu (Host.read host)
      let compared := ((AccumulatorOp.cmp.instruction addressing).execute cpu host).cpu
      let jumping := { later with flags := compared.flags }
      (Instruction.jumpIf ⟨.carry, true⟩ target).execute jumping left =
          ⟨.ok 0, if cpu.a < value then { jumping with pc := target } else jumping, left⟩ ∧
        (Instruction.jumpIf ⟨.zero, true⟩ target).execute jumping left =
          ⟨.ok 0, if cpu.a = value then { jumping with pc := target } else jumping, left⟩) ∧
    ∀ target : Operand,
      let value := cpu.operand (Host.read host) target
      (∃ result flags, IsSum value 1 0 result flags ∧
        (Instruction.inr target).execute cpu host =
          target.receive cpu host result { flags with carry := cpu.flags.carry }) ∧
      ∃ result flags, IsDifference value 1 0 result flags ∧
        (Instruction.dcr target).execute cpu host =
          target.receive cpu host result { flags with carry := cpu.flags.carry } := by
  refine ⟨?_, ?_, ?_⟩
  · intro operation addressing
    rw [Instruction.execute_accumulator, Instruction.execute_accumulator]
    exact ⟨⟨_, _, operation.computes_apply cpu.a _ cpu.flags.carry, rfl⟩, rfl⟩
  · intro addressing later left target value compared jumping
    have difference := Arithmetic.subtract_spec cpu.a value false
    have flags : jumping.flags = (Arithmetic.subtract cpu.a value false).2 := by
      simp only [jumping, compared, Instruction.execute_accumulator]
      rfl
    constructor
    · apply Instruction.execute_jumpIf_iff
      rw [flags, Condition.holds, beq_iff_eq, difference.carry, UInt8.lt_iff_toNat_lt]
      rfl
    · apply Instruction.execute_jumpIf_iff
      rw [flags, Condition.holds, beq_iff_eq]
      exact difference.zero_iff
  · intro target value
    exact ⟨Instruction.execute_inr target cpu host, Instruction.execute_dcr target cpu host⟩

end Intel8080
