import Intel8080.Word

/-!
# Hexadecimal text

Numbers are written with a fixed count of digits, padded on the left with zeros.
A digit of a given alphabet stands for the value at which it occurs, so a fixed
width determines the number below the matching power of sixteen.
-/

namespace Intel8080

/-- The two alphabets of hexadecimal digits. -/
inductive DigitCase where
  | lower
  | upper
  deriving DecidableEq, Repr

namespace Hex

/-- The digit that stands for a value below sixteen. -/
def digit (letters : DigitCase) (value : Nat) : Char :=
  if value < 10 then Char.ofNat (48 + value)
  else match letters with
    | .lower => Char.ofNat (87 + value)
    | .upper => Char.ofNat (55 + value)

/-- The last `width` digits of a number, the most significant first. -/
def digits (letters : DigitCase) : Nat → Nat → List Char
  | 0, _ => []
  | width + 1, value => digits letters width (value / 16) ++ [digit letters (value % 16)]

@[simp] theorem length_digits (letters : DigitCase) (width value : Nat) :
    (digits letters width value).length = width := by
  induction width generalizing value with
  | zero => rfl
  | succ width inductionHypothesis => simp [digits, inductionHypothesis]

/-- A byte as two lower-case digits. -/
def byte (value : UInt8) : String :=
  String.ofList (digits .lower 2 value.toNat)

/-- A word as four lower-case digits. -/
def word (value : UInt16) : String :=
  String.ofList (digits .lower 4 value.toNat)

/-- A byte in capitals, behind the mark of a hexadecimal number. -/
def markedByte (value : UInt8) : String :=
  "0x" ++ String.ofList (digits .upper 2 value.toNat)

/-- A word in capitals, behind the mark of a hexadecimal number. -/
def markedWord (value : UInt16) : String :=
  "0x" ++ String.ofList (digits .upper 4 value.toNat)

/-- As many lower-case digits as a number needs, at least one. The bound on the
count of digits is the number itself plus one, which always suffices. -/
def shortest (value : Nat) : List Char :=
  go (value + 1) value []
where
  /-- Puts the digits of a number in front of those already written. -/
  go : Nat → Nat → List Char → List Char
    | 0, _, written => written
    | limit + 1, value, written =>
      let written := digit .lower (value % 16) :: written
      if value < 16 then written else go limit (value / 16) written

/-- Bytes in a row, two lower-case digits each. -/
def bytes (values : List UInt8) : String :=
  String.join (values.map byte)

end Hex

end Intel8080
