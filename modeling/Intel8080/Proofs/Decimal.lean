import Intel8080.Proofs.Chains

/-!
# Decimal arithmetic

A packed decimal holds two digits, one in each half of a byte. The processor adds such bytes
in binary and then corrects the sum: a half that ran past nine is taken sixteen too low or has
become a digit that does not exist, and six added to it makes up for both. Which halves these
are is found from the two carries and from the halves themselves, and the high half must
foresee the carry that correcting the low one will send to it.

All that the correction relies on is that neither sum of halves was too large, up to nineteen
in the low half and eighteen in the high one. Sums of packed decimals are not the only ones:
a decimal is subtracted by adding the complement to ninety-nine, with one more unless there is
a borrow, and the low half of that may be ten. So addition and subtraction are links of chains
with radix one hundred, and one law of the correction serves both.
-/

namespace Intel8080

/-- The number that two digits in the halves of a byte stand for. A half above nine counts
for as much as it is. -/
def decimal (byte : UInt8) : Nat :=
  10 * (byte.toNat / 16) + byte.toNat % 16

/-- Both halves of a byte are decimal digits. -/
def IsDecimal (byte : UInt8) : Prop :=
  byte.toNat / 16 ≤ 9 ∧ byte.toNat % 16 ≤ 9

instance : DecidablePred IsDecimal := fun _ =>
  inferInstanceAs (Decidable (_ ∧ _))

/-- A byte of two decimal digits. -/
structure PackedDecimal where
  byte : UInt8
  digits : IsDecimal byte

/-- The number that packed decimals stand for, the least significant first. -/
def decimalAmount (bytes : List UInt8) : Nat :=
  Nat.ofDigits 100 (bytes.map decimal)

theorem positional_decimal {α : Type} (byte : α → UInt8) (places : List α) :
    positional 100 (places.map fun place => (decimal (byte place) : Int)) =
      decimalAmount (places.map byte) := by
  rw [decimalAmount, ← positional_ofDigits, List.map_map, List.map_map]
  rfl

theorem positional_decimal_bytes (bytes : List UInt8) :
    positional 100 (bytes.map fun byte => (decimal byte : Int)) = decimalAmount bytes := by
  rw [positional_decimal fun byte => byte, List.map_id']

/-- So many digits are not enough for the next power of the radix. -/
theorem decimalAmount_lt {bytes : List UInt8} (digits : ∀ byte ∈ bytes, IsDecimal byte) :
    decimalAmount bytes < 100 ^ bytes.length := by
  rw [decimalAmount, ← List.length_map decimal]
  apply Nat.ofDigits_lt_base_pow_length (by decide)
  intro value member
  obtain ⟨byte, inside, rfl⟩ := List.mem_map.mp member
  obtain ⟨high, low⟩ := digits byte inside
  rw [decimal]
  omega

namespace Arithmetic

theorem toNat_lowHalf (value : UInt8) : (value &&& 0x0F).toNat = value.toNat % 16 := by
  rw [UInt8.toNat_and]
  exact Nat.and_two_pow_sub_one_eq_mod value.toNat 4

theorem toNat_highHalf (value : UInt8) : (value >>> 4).toNat = value.toNat / 16 := by
  rw [UInt8.toNat_shiftRight]
  exact Nat.shiftRight_eq_div_pow value.toNat 4

theorem lowDigitExceeds_iff (value : UInt8) (aux : Bool) :
    lowDigitExceeds value aux = true ↔ aux = true ∨ 9 < value.toNat % 16 := by
  rw [lowDigitExceeds, Bool.or_eq_true, decide_eq_true_iff, gt_iff_lt, UInt8.lt_iff_toNat_lt,
    toNat_lowHalf]
  rfl

theorem highDigitExceeds_iff (value : UInt8) (carry : Bool) :
    highDigitExceeds value carry = true ↔
      carry = true ∨ 9 < value.toNat / 16 ∨ 9 ≤ value.toNat / 16 ∧ 9 < value.toNat % 16 := by
  rw [highDigitExceeds, Bool.or_eq_true, Bool.or_eq_true, Bool.and_eq_true, decide_eq_true_iff,
    decide_eq_true_iff, decide_eq_true_iff, gt_iff_lt, gt_iff_lt, ge_iff_le,
    UInt8.lt_iff_toNat_lt, UInt8.lt_iff_toNat_lt, UInt8.le_iff_toNat_le, toNat_lowHalf,
    toNat_highHalf, or_assoc]
  rfl

/-- The correction adds six to each half that exceeds. -/
theorem toNat_decimalAdjust (value : UInt8) (carry aux : Bool) :
    (decimalAdjust value carry aux).1.toNat =
      (value.toNat + 6 * (lowDigitExceeds value aux).toNat +
        96 * (highDigitExceeds value carry).toNat) % 256 := by
  simp only [decimalAdjust, (add_spec value _ false).value]
  cases lowDigitExceeds value aux <;> cases highDigitExceeds value carry <;> rfl

end Arithmetic

/-- What the decimal correction makes of a sum. -/
def corrected (sum : UInt8 × Flags) : UInt8 × Flags :=
  Arithmetic.decimalAdjust sum.1 sum.2.carry sum.2.aux

/-- The corrected sum of two bytes and a carry holds the sum of their numbers, in two decimal
digits and the carry, if the sums of the low halves and of the high halves are not too large. -/
theorem IsSum.decimal_corrected {left right result : UInt8} {carryIn : Nat} {flags : Flags}
    (sum : IsSum left right carryIn result flags)
    (low : left.toNat % 16 + right.toNat % 16 + carryIn ≤ 19)
    (high : left.toNat / 16 + right.toNat / 16 ≤ 18) :
    IsDecimal (corrected (result, flags)).1 ∧
      decimal (corrected (result, flags)).1 + 100 * (corrected (result, flags)).2.carry.toNat =
        decimal left + decimal right + carryIn := by
  have value := sum.value
  -- The low half ran past nine, with a carry out of it or without.
  have lowExceeds : Arithmetic.lowDigitExceeds result flags.aux = true ↔
      9 < left.toNat % 16 + right.toNat % 16 + carryIn := by
    rw [Arithmetic.lowDigitExceeds_iff, sum.aux]
    omega
  -- So did the high half, or it will with the carry that correcting the low half sends to it.
  have highExceeds : Arithmetic.highDigitExceeds result flags.carry = true ↔
      99 < decimal left + decimal right + carryIn := by
    rw [Arithmetic.highDigitExceeds_iff, sum.carry, decimal, decimal]
    omega
  have byte : (corrected (result, flags)).1.toNat = _ :=
    Arithmetic.toNat_decimalAdjust result flags.carry flags.aux
  have carry : (corrected (result, flags)).2.carry =
      Arithmetic.highDigitExceeds result flags.carry := rfl
  rw [toNat_of_iff lowExceeds, toNat_of_iff highExceeds, value] at byte
  rw [carry, toNat_of_iff highExceeds]
  simp only [IsDecimal, decimal] at byte ⊢
  by_cases lowPast : 9 < left.toNat % 16 + right.toNat % 16 + carryIn <;>
    by_cases highPast : 99 < 10 * (left.toNat / 16) + left.toNat % 16 +
      (10 * (right.toNat / 16) + right.toNat % 16) + carryIn <;>
    simp only [lowPast, highPast, if_true, if_false] at byte ⊢ <;>
    omega

/-- The complement of a packed decimal to ninety-nine, with a carry added to it. -/
def PackedDecimal.complement (subtrahend : PackedDecimal) (carry : Bool) : UInt8 :=
  (Arithmetic.subtract (Arithmetic.add 0x99 0 carry).1 subtrahend.byte false).1

/-- The halves of a complement are digits, except that nine with the carry added is ten. -/
theorem PackedDecimal.decimal_complement (subtrahend : PackedDecimal) (carry : Bool) :
    (subtrahend.complement carry).toNat / 16 ≤ 9 ∧
      (subtrahend.complement carry).toNat % 16 ≤ 10 ∧
      decimal (subtrahend.complement carry) + decimal subtrahend.byte = 99 + carry.toNat := by
  obtain ⟨high, low⟩ := subtrahend.digits
  have carryBound := carry.toNat_le
  have raised := (Arithmetic.add_spec 0x99 0 carry).value
  have sum : (Arithmetic.add 0x99 0 carry).1.toNat = 153 + carry.toNat := by
    rw [raised, show (0x99 : UInt8).toNat = 153 from rfl, UInt8.toNat_zero]
    omega
  have difference := (Arithmetic.subtract_spec (Arithmetic.add 0x99 0 carry).1
    subtrahend.byte false).value
  rw [sum, Bool.toNat_false] at difference
  have value : (subtrahend.complement carry).toNat =
      153 + carry.toNat - subtrahend.byte.toNat := by
    rw [complement]
    omega
  simp only [decimal, value]
  omega

/-- A complement need not be a packed decimal itself. -/
example : PackedDecimal.complement ⟨0x10, by decide⟩ true = 0x8A := by decide

variable {σ : Type} [Host σ]

/-- If every link leaves a byte with a property, so does the whole chain. -/
theorem forall_of_collect {property : UInt8 → Prop} {links : List (List Instruction)}
    {cpu last : Cpu} {host left : σ} {results : List UInt8}
    (leaves : ∀ link ∈ links, ∀ (cpu next : Cpu) (host after : σ),
      executeAll link cpu host = .ok (next, after) → property next.a)
    (collected : collect links cpu host = .ok (results, last, left)) :
    ∀ byte ∈ results, property byte := by
  induction links generalizing cpu host results with
  | nil =>
    obtain ⟨rfl, -⟩ := Prod.mk.inj (Except.ok.inj collected)
    simp
  | cons link links inductionHypothesis =>
    obtain ⟨first, others⟩ := List.forall_mem_cons.mp leaves
    simp only [collect, bind, Except.bind] at collected
    cases executed : executeAll link cpu host with
    | error stop => simp [executed] at collected
    | ok reached =>
      obtain ⟨next, after⟩ := reached
      simp only [executed] at collected
      cases rest : collect links next after with
      | error stop => simp [rest] at collected
      | ok gathered =>
        simp only [rest] at collected
        obtain ⟨rfl, ends⟩ := Prod.mk.inj (Except.ok.inj collected)
        rw [List.forall_mem_cons]
        refine ⟨first cpu next host after executed, ?_⟩
        exact inductionHypothesis others (by rw [rest, ← ends])

namespace PackedDecimal

/-- A link that adds two packed decimals and a carry. -/
def sumLink (operands : PackedDecimal × PackedDecimal) : List Instruction :=
  [.mvi (.register .a) operands.1.byte, .accumulateImmediate .adc operands.2.byte, .daa]

/-- A link that subtracts a packed decimal from another. The complement of the subtrahend is
added; the carry stands for what is not borrowed. -/
def differenceLink (operands : PackedDecimal × PackedDecimal) : List Instruction :=
  [.mvi (.register .a) 0x99, .accumulateImmediate .adc 0,
    .accumulateImmediate .sub operands.2.byte, .accumulateImmediate .add operands.1.byte, .daa]

theorem executeAll_sumLink (operands : PackedDecimal × PackedDecimal) (cpu : Cpu) (host : σ) :
    ∃ summed : Cpu, executeAll (sumLink operands) cpu host =
      .ok (summed.accumulate (corrected
        (Arithmetic.add operands.1.byte operands.2.byte cpu.flags.carry)), host) :=
  ⟨_, rfl⟩

theorem executeAll_differenceLink (operands : PackedDecimal × PackedDecimal) (cpu : Cpu)
    (host : σ) :
    ∃ summed : Cpu, executeAll (differenceLink operands) cpu host =
      .ok (summed.accumulate (corrected (Arithmetic.add
        (operands.2.complement cpu.flags.carry) operands.1.byte false)), host) :=
  ⟨_, rfl⟩

/-- The corrected sum of two packed decimals and a carry. -/
theorem corrected_sum (left right : PackedDecimal) (carry : Bool) :
    let result := corrected (Arithmetic.add left.byte right.byte carry)
    IsDecimal result.1 ∧ decimal result.1 + 100 * result.2.carry.toNat =
      decimal left.byte + decimal right.byte + carry.toNat := by
  obtain ⟨leftHigh, leftLow⟩ := left.digits
  obtain ⟨rightHigh, rightLow⟩ := right.digits
  have carryBound := carry.toNat_le
  exact (Arithmetic.add_spec left.byte right.byte carry).decimal_corrected (by omega) (by omega)

/-- The corrected sum of a packed decimal and a complement. -/
theorem corrected_difference (minuend subtrahend : PackedDecimal) (carry : Bool) :
    let result := corrected (Arithmetic.add (subtrahend.complement carry) minuend.byte false)
    IsDecimal result.1 ∧ decimal result.1 + 100 * result.2.carry.toNat + decimal subtrahend.byte =
      99 + carry.toNat + decimal minuend.byte := by
  intro result
  obtain ⟨high, low⟩ := minuend.digits
  have summed := Arithmetic.add_spec (subtrahend.complement carry) minuend.byte false
  rw [Bool.toNat_false] at summed
  obtain ⟨complementHigh, complementLow, complemented⟩ := subtrahend.decimal_complement carry
  obtain ⟨digits, balance⟩ := summed.decimal_corrected (by omega) (by omega)
  have balance : decimal result.1 + 100 * result.2.carry.toNat = _ := balance
  exact ⟨digits, by omega⟩

/-- Adding with the correction is a link of a chain with radix one hundred. -/
theorem isLink_sumLink (host : σ) (operands : PackedDecimal × PackedDecimal) :
    IsLink host (fun byte => decimal byte) 100 (fun carry => carry.toNat) (sumLink operands)
      (decimal operands.1.byte + decimal operands.2.byte) := by
  intro cpu
  obtain ⟨summed, executed⟩ := executeAll_sumLink operands cpu host
  obtain ⟨-, balance⟩ := corrected_sum operands.1 operands.2 cpu.flags.carry
  refine ⟨_, executed, ?_⟩
  simp only [Cpu.accumulate]
  exact_mod_cast balance

/-- So is adding the complement, with the carry counted as one less. -/
theorem isLink_differenceLink (host : σ) (operands : PackedDecimal × PackedDecimal) :
    IsLink host (fun byte => decimal byte) 100 (fun carry => carry.toNat - 1)
      (differenceLink operands) (decimal operands.1.byte - decimal operands.2.byte) := by
  intro cpu
  obtain ⟨summed, executed⟩ := executeAll_differenceLink operands cpu host
  obtain ⟨-, balance⟩ := corrected_difference operands.1 operands.2 cpu.flags.carry
  refine ⟨_, executed, ?_⟩
  simp only [Cpu.accumulate]
  zify at balance
  linear_combination balance

theorem isDecimal_of_sumLink {operands : PackedDecimal × PackedDecimal} {cpu after : Cpu}
    {host left : σ} (executed : executeAll (sumLink operands) cpu host = .ok (after, left)) :
    IsDecimal after.a := by
  obtain ⟨summed, computed⟩ := executeAll_sumLink operands cpu host
  obtain ⟨rfl, -⟩ := Prod.mk.inj (Except.ok.inj (computed.symm.trans executed))
  exact (corrected_sum operands.1 operands.2 cpu.flags.carry).1

theorem isDecimal_of_differenceLink {operands : PackedDecimal × PackedDecimal} {cpu after : Cpu}
    {host left : σ} (executed : executeAll (differenceLink operands) cpu host = .ok (after, left)) :
    IsDecimal after.a := by
  obtain ⟨summed, computed⟩ := executeAll_differenceLink operands cpu host
  obtain ⟨rfl, -⟩ := Prod.mk.inj (Except.ok.inj (computed.symm.trans executed))
  exact (corrected_difference operands.1 operands.2 cpu.flags.carry).1

/-- A chain of sums adds the numbers of all first and of all second operands. -/
theorem collect_sumLink (operands : List (PackedDecimal × PackedDecimal)) (cpu : Cpu) (host : σ) :
    ∃ results after, collect (operands.map sumLink) cpu host = .ok (results, after, host) ∧
      results.length = operands.length ∧ (∀ byte ∈ results, IsDecimal byte) ∧
      decimalAmount results + after.flags.carry.toNat * 100 ^ operands.length =
        decimalAmount (operands.map fun operand => operand.1.byte) +
          decimalAmount (operands.map fun operand => operand.2.byte) + cpu.flags.carry.toNat := by
  obtain ⟨results, after, collected, sameLength, total⟩ :=
    collect_balances (isLink_sumLink host) operands cpu
  refine ⟨results, after, collected, sameLength, ?_, ?_⟩
  · refine forall_of_collect (fun link member cpu next host left executed => ?_) collected
    obtain ⟨operand, -, rfl⟩ := List.mem_map.mp member
    exact isDecimal_of_sumLink executed
  · rw [positional_add, positional_decimal_bytes, positional_decimal, positional_decimal]
      at total
    zify
    linear_combination total

/-- A chain of differences subtracts them. -/
theorem collect_differenceLink (operands : List (PackedDecimal × PackedDecimal)) (cpu : Cpu)
    (host : σ) :
    ∃ results after, collect (operands.map differenceLink) cpu host = .ok (results, after, host) ∧
      results.length = operands.length ∧ (∀ byte ∈ results, IsDecimal byte) ∧
      (decimalAmount results : Int) =
        decimalAmount (operands.map fun operand => operand.1.byte) -
          decimalAmount (operands.map fun operand => operand.2.byte) -
          (1 - cpu.flags.carry.toNat) + (1 - after.flags.carry.toNat) * 100 ^ operands.length := by
  obtain ⟨results, after, collected, sameLength, total⟩ :=
    collect_balances (isLink_differenceLink host) operands cpu
  refine ⟨results, after, collected, sameLength, ?_, ?_⟩
  · refine forall_of_collect (fun link member cpu next host left executed => ?_) collected
    obtain ⟨operand, -, rfl⟩ := List.mem_map.mp member
    exact isDecimal_of_differenceLink executed
  · -- The subtrahend added to the difference is the minuend, as numbers too.
    have restored := positional_add 100
      (fun operand : PackedDecimal × PackedDecimal =>
        (decimal operand.1.byte - decimal operand.2.byte : Int))
      (fun operand => decimal operand.2.byte) operands
    simp only [sub_add_cancel] at restored
    rw [positional_decimal, positional_decimal] at restored
    rw [positional_decimal_bytes] at total
    linear_combination total - restored

end PackedDecimal

/-- Decimal arithmetic on numbers of any length, with the bytes least significant first. Adding
with carry and correcting gives the decimal sum and the carry that went in; adding a complement
and correcting gives the decimal difference, less one unless a carry went in. All results are
packed decimals again, and what comes out of the last link stands for a power of a hundred:
it is the carry of the sum, and it is set after a difference exactly if nothing had to be
borrowed. -/
theorem decimal_chains_total (operands : List (PackedDecimal × PackedDecimal)) (cpu : Cpu)
    (host : σ) :
    let first := decimalAmount (operands.map fun operand => operand.1.byte)
    let second := decimalAmount (operands.map fun operand => operand.2.byte)
    (∃ results after,
      collect (operands.map PackedDecimal.sumLink) cpu host = .ok (results, after, host) ∧
        results.length = operands.length ∧ (∀ byte ∈ results, IsDecimal byte) ∧
        decimalAmount results + after.flags.carry.toNat * 100 ^ operands.length =
          first + second + cpu.flags.carry.toNat) ∧
      ∃ results after,
        collect (operands.map PackedDecimal.differenceLink) cpu host = .ok (results, after, host) ∧
          results.length = operands.length ∧ (∀ byte ∈ results, IsDecimal byte) ∧
          (decimalAmount results : Int) =
            first - second - (1 - cpu.flags.carry.toNat) +
              (1 - after.flags.carry.toNat) * 100 ^ operands.length ∧
          (after.flags.carry = true ↔ second + (1 - cpu.flags.carry.toNat) ≤ first) := by
  intro first second
  refine ⟨PackedDecimal.collect_sumLink operands cpu host, ?_⟩
  obtain ⟨results, after, collected, sameLength, digits, total⟩ :=
    PackedDecimal.collect_differenceLink operands cpu host
  refine ⟨results, after, collected, sameLength, digits, total, ?_⟩
  -- The digits are neither below zero nor enough for the power of the radix.
  have bounded := decimalAmount_lt digits
  rw [sameLength] at bounded
  zify at bounded
  have carryBound := cpu.flags.carry.toNat_le
  cases carried : after.flags.carry with
  | true =>
    rw [carried, Bool.toNat_true, Nat.cast_one, sub_self, zero_mul, add_zero] at total
    simp only [true_iff]
    omega
  | false =>
    rw [carried, Bool.toNat_false, Nat.cast_zero, sub_zero, one_mul] at total
    simp only [Bool.false_eq_true, false_iff]
    omega

end Intel8080
