import Intel8080.Hex

/-!
# Memory

A block of bytes of a size that never changes. The view of a block is the byte at
each index: reading outside the block gives zero and writing there does nothing,
so that both are total, and two blocks that read alike are equal. An image is a
list of bytes laid into a block from some origin upwards.
-/

namespace Intel8080

/-- A block of `size` bytes. -/
structure Memory (size : Nat) where
  bytes : ByteArray
  size_eq : bytes.size = size

/-- The refusal of an image that is too large for its place. -/
structure LoadError where
  size : Nat
  capacity : Nat
  origin : UInt16
  deriving DecidableEq, Repr, Inhabited

/-- The wording of a load error. -/
def LoadError.message (error : LoadError) : String :=
  "image of " ++ toString error.size ++ " bytes does not fit in the " ++
    toString error.capacity ++ " bytes available at " ++ Hex.markedWord error.origin

namespace Memory

variable {size : Nat}

/-- A block of zeros. -/
def blank : Memory size :=
  ⟨⟨Array.replicate size 0⟩, by simp [ByteArray.size]⟩

/-- The byte at an index. -/
def read (memory : Memory size) (index : Nat) : UInt8 :=
  if inside : index < size then
    have : index < memory.bytes.size := by rw [memory.size_eq]; exact inside
    memory.bytes[index]
  else 0

/-- Replaces the byte at an index. -/
def write (memory : Memory size) (index : Nat) (value : UInt8) : Memory size :=
  if inside : index < size then
    have bound : index < memory.bytes.size := by rw [memory.size_eq]; exact inside
    ⟨memory.bytes.set index value bound,
      (Array.size_set bound).trans memory.size_eq⟩
  else memory

/-- Lays an image into memory. What would lie outside is dropped. -/
def load (memory : Memory size) (origin : Nat) : List UInt8 → Memory size
  | [] => memory
  | byte :: rest => (memory.write origin byte).load (origin + 1) rest

/-- Lays an image into memory if it is no longer than a given capacity. -/
def loadWithin (memory : Memory size) (origin : UInt16) (capacity : Nat)
    (image : List UInt8) : Except LoadError (Memory size) :=
  if image.length ≤ capacity then .ok (memory.load origin.toNat image)
  else .error { size := image.length, capacity, origin }

/-- The bytes from an index up to a terminator, which is left out, but at most the
given number of them. -/
def readUntil (memory : Memory size) (terminator : UInt8) (index : Nat) : Nat → List UInt8
  | 0 => []
  | count + 1 =>
    let byte := memory.read index
    if byte == terminator then [] else byte :: memory.readUntil terminator (index + 1) count

@[simp] theorem read_blank (index : Nat) : (blank : Memory size).read index = 0 := by
  unfold read blank
  split
  · exact Array.getElem_replicate _
  · rfl

theorem read_of_size_le (memory : Memory size) (index : Nat) (outside : size ≤ index) :
    memory.read index = 0 := by
  simp [read, Nat.not_lt.2 outside]

theorem read_write (memory : Memory size) (written index : Nat) (value : UInt8) :
    (memory.write written value).read index =
      if written < size ∧ index = written then value else memory.read index := by
  by_cases inside : written < size
  · by_cases within : index < size
    · have bound : index < memory.bytes.size := by rw [memory.size_eq]; exact within
      have writtenBound : written < memory.bytes.size := by rw [memory.size_eq]; exact inside
      simp only [write, inside, read, within, dite_true, true_and]
      refine (Array.getElem_set writtenBound (by simpa using bound)).trans ?_
      by_cases same : index = written
      · simp [same]
      · simp only [same, Ne.symm same, if_false]
        rfl
    · have apart : index ≠ written := fun same => within (same ▸ inside)
      simp [inside, read, within, apart]
  · simp [write, inside]

/-- Memory is determined by what it reads. -/
theorem ext_read {left right : Memory size}
    (same : ∀ index, left.read index = right.read index) : left = right := by
  obtain ⟨leftBytes, leftSize⟩ := left
  obtain ⟨rightBytes, rightSize⟩ := right
  have equal : leftBytes = rightBytes := by
    apply ByteArray.ext
    apply Array.ext
    · exact leftSize.trans rightSize.symm
    · intro index leftBound rightBound
      have inside : index < size := leftSize ▸ leftBound
      have at_index := same index
      simp only [read, inside, dite_true] at at_index
      exact at_index
  subst equal
  rfl

theorem read_load (memory : Memory size) (origin index : Nat) (image : List UInt8) :
    (memory.load origin image).read index =
      if origin ≤ index ∧ index < size then (image[index - origin]?).getD (memory.read index)
      else memory.read index := by
  induction image generalizing memory origin with
  | nil => simp [load]
  | cons byte rest inductionHypothesis =>
    rw [load, inductionHypothesis]
    by_cases same : index = origin
    · subst same
      by_cases inside : index < size
      · simp [read_write, inside, Nat.not_le.2 (Nat.lt_succ_self index)]
      · simp [read_write, inside]
    · by_cases after : origin ≤ index ∧ index < size
      · obtain ⟨later, inside⟩ := after
        have next : origin + 1 ≤ index := by omega
        have shifted : index - origin = index - (origin + 1) + 1 := by omega
        simp [read_write, later, inside, next, shifted, same]
      · have before : ¬ (origin + 1 ≤ index ∧ index < size) := by omega
        rw [if_neg before, if_neg after, read_write]
        simp [same]

end Memory

end Intel8080
