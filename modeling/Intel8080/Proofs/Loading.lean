import Intel8080.Board
import Intel8080.Cabinet
import Intel8080.Proofs.Locality
import Intel8080.Proofs.Transcript

/-!
# Loading images

There are three policies. A console refuses an image that does not fit between its origin and
the top of memory, a cabinet one that exceeds its read-only memory, and both say what did not
fit where. A plain board takes what fits and drops the rest. In each case every address ends
up with the byte of the image that was laid there, or with what it had before.

Laying an image byte by byte is total, so it cannot show that no bound is violated. Loading is
therefore defined a second time as copying between slices, where a slice that does not lie
within its list, a difference below zero and a copy between slices of different lengths all
have no result. The two definitions agree for every image and every origin, so there always is
a result; and the text that is printed for an address is read from a slice that exists.
-/

namespace Intel8080

/-- The byte that an image laid at an origin has for an address, if the address is covered. -/
def imageByte? (origin : UInt16) (image : List UInt8) (address : Nat) : Option UInt8 :=
  if origin.toNat ≤ address then image[address - origin.toNat]? else none

/-- An image covers the addresses from its origin on, as many as it has bytes. -/
theorem isSome_imageByte?_iff (origin : UInt16) (image : List UInt8) (address : Nat) :
    (imageByte? origin image address).isSome ↔
      origin.toNat ≤ address ∧ address < origin.toNat + image.length := by
  rw [imageByte?]
  split
  · rw [isSome_getElem?]
    omega
  · rename_i before
    simp [before]

/-- The difference of two numbers, if it is not below zero. -/
def difference? (whole part : Nat) : Option Nat :=
  if part ≤ whole then some (whole - part) else none

theorem difference?_of_le {whole part : Nat} (fits : part ≤ whole) :
    difference? whole part = some (whole - part) :=
  if_pos fits

/-- The bytes of a list from one position up to another, if these bound a slice of it. -/
def slice? (bytes : List UInt8) (start stop : Nat) : Option (List UInt8) :=
  if start ≤ stop ∧ stop ≤ bytes.length then some ((bytes.take stop).drop start) else none

namespace Memory

variable {size : Nat}

/-- All bytes in order. -/
def contents (memory : Memory size) : List UInt8 :=
  (List.range size).map memory.read

/-- Memory with the given bytes. -/
def ofContents (bytes : List UInt8) (complete : bytes.length = size) : Memory size :=
  ⟨⟨bytes.toArray⟩, complete⟩

/-- Replaces the slice between two indices, if it is one of memory and as long as what
replaces it. -/
def splice? (memory : Memory size) (start stop : Nat) (bytes : List UInt8) :
    Option (Memory size) :=
  if bounds : start ≤ stop ∧ stop ≤ size ∧ bytes.length = stop - start then
    some (ofContents (memory.contents.take start ++ bytes ++ memory.contents.drop stop) (by
      simp only [contents, List.length_append, List.length_take, List.length_drop,
        List.length_map, List.length_range]
      omega))
  else none

/-- Replaces the byte at an index, if there is one. -/
def set? (memory : Memory size) (index : Nat) (value : UInt8) : Option (Memory size) :=
  if index < size then some (memory.write index value) else none

/-- Copies an image to an origin if it is no longer than a given capacity. -/
def copy? (memory : Memory size) (origin : UInt16) (capacity : Nat) (image : List UInt8) :
    Option (Except LoadError (Memory size)) :=
  if capacity < image.length then some (.error { size := image.length, capacity, origin })
  else (memory.splice? origin.toNat (origin.toNat + image.length) image).map .ok

@[simp] theorem length_contents (memory : Memory size) : memory.contents.length = size := by
  rw [contents, List.length_map, List.length_range]

theorem getElem?_contents (memory : Memory size) (index : Nat) :
    memory.contents[index]? = if index < size then some (memory.read index) else none := by
  rw [contents, List.getElem?_map]
  split
  · rename_i inside
    rw [List.getElem?_range inside]
    rfl
  · rename_i outside
    rw [List.getElem?_eq_none (by simpa using Nat.le_of_not_lt outside)]
    rfl

theorem read_ofContents (bytes : List UInt8) (complete : bytes.length = size) (index : Nat) :
    (ofContents bytes complete).read index = bytes[index]?.getD 0 := by
  rw [read]
  split
  · rename_i inside
    have within : index < bytes.length := complete ▸ inside
    rw [List.getElem?_eq_getElem within]
    rfl
  · rename_i outside
    rw [List.getElem?_eq_none (by omega)]
    rfl

/-- An image that is laid into memory takes the place of a slice. -/
theorem splice?_of_fits (memory : Memory size) {start : Nat} {bytes : List UInt8}
    (fits : start + bytes.length ≤ size) :
    memory.splice? start (start + bytes.length) bytes = some (memory.load start bytes) := by
  have bounds : start ≤ start + bytes.length ∧ start + bytes.length ≤ size ∧
      bytes.length = start + bytes.length - start := by omega
  rw [splice?, dif_pos bounds, Option.some_inj]
  refine ext_read fun index => ?_
  have first : (memory.contents.take start).length = start := by
    rw [List.length_take, length_contents]
    omega
  rw [read_ofContents, read_load, List.append_assoc]
  rcases Nat.lt_or_ge index start with before | least
  · have inside : index < size := by omega
    rw [List.getElem?_append_left (by omega), List.getElem?_take_of_lt before,
      getElem?_contents, if_pos inside, if_neg (by omega), Option.getD_some]
  · rw [List.getElem?_append_right (by omega), first]
    rcases Nat.lt_or_ge (index - start) bytes.length with covered | behind
    · rw [List.getElem?_append_left covered, if_pos (by omega),
        List.getElem?_eq_getElem covered, Option.getD_some, Option.getD_some]
    · have shifted : start + bytes.length + (index - start - bytes.length) = index := by omega
      rw [List.getElem?_append_right behind, List.getElem?_drop, shifted, getElem?_contents,
        List.getElem?_eq_none behind]
      by_cases inside : index < size
      · rw [if_pos inside, if_pos ⟨least, inside⟩, Option.getD_some, Option.getD_none]
      · rw [if_neg inside, if_neg (fun within => inside within.2), Option.getD_none,
          memory.read_of_size_le index (by omega)]

theorem set?_of_lt (memory : Memory size) {index : Nat} (inside : index < size)
    (value : UInt8) : memory.set? index value = some (memory.write index value) :=
  if_pos inside

/-- An image laid into empty memory is followed by zeros. -/
theorem contents_load_blank {image : List UInt8} (fits : image.length ≤ size) :
    ((blank : Memory size).load 0 image).contents =
      image ++ List.replicate (size - image.length) 0 := by
  apply List.ext_getElem?
  intro index
  rw [getElem?_contents, read_load, read_blank]
  by_cases inside : index < size
  · rw [if_pos inside, if_pos ⟨Nat.zero_le index, inside⟩, Nat.sub_zero]
    rcases Nat.lt_or_ge index image.length with covered | behind
    · rw [List.getElem?_append_left covered, List.getElem?_eq_getElem covered, Option.getD_some]
    · rw [List.getElem?_append_right behind, List.getElem?_replicate_of_lt (by omega),
        List.getElem?_eq_none behind, Option.getD_none]
  · rw [if_neg inside, List.getElem?_eq_none (by simp; omega)]

/-- If the capacity ends within memory, copying violates no bound and lays the image into
memory. -/
theorem copy?_eq_loadWithin (memory : Memory size) {origin : UInt16} {capacity : Nat}
    (within : origin.toNat + capacity ≤ size) (image : List UInt8) :
    memory.copy? origin capacity image = some (memory.loadWithin origin capacity image) := by
  rw [copy?, loadWithin]
  by_cases fits : image.length ≤ capacity
  · rw [if_neg (by omega), if_pos fits, splice?_of_fits memory (by omega)]
    rfl
  · rw [if_pos (by omega), if_neg fits]

/-- What reaches over the top of memory need not be laid. -/
theorem load_take (memory : Memory size) {start count : Nat} {bytes : List UInt8}
    (enough : min (start + bytes.length) size ≤ start + count) :
    memory.load start (bytes.take count) = memory.load start bytes := by
  refine ext_read fun index => ?_
  rw [read_load, read_load]
  by_cases within : start ≤ index ∧ index < size
  · rw [if_pos within, if_pos within]
    by_cases taken : index - start < count
    · rw [List.getElem?_take_of_lt taken]
    · have behind : bytes.length ≤ index - start := by omega
      rw [List.getElem?_eq_none behind,
        List.getElem?_eq_none (Nat.le_trans (List.length_take_le' ..) behind)]
  · rw [if_neg within, if_neg within]

/-- What is read after an image was laid into memory. -/
theorem read_load_imageByte? (memory : Memory size) (origin : UInt16) (image : List UInt8)
    {address : Nat} (inside : address < size) :
    (memory.load origin.toNat image).read address =
      (imageByte? origin image address).getD (memory.read address) := by
  rw [read_load, imageByte?]
  by_cases least : origin.toNat ≤ address
  · rw [if_pos ⟨least, inside⟩, if_pos least]
  · rw [if_neg (fun both => least both.1), if_neg least, Option.getD_none]

end Memory

namespace Console

/-- A console with a program, copied between slices. -/
def loadBySlices? (image : List UInt8) (options : Options) :
    Option (Except LoadError Console) := do
  let capacity ← difference? 65536 options.origin.toNat
  match ← Memory.blank.copy? options.origin capacity image with
  | .error refusal => return .error refusal
  | .ok memory =>
    let memory ← memory.set? systemEntry.toNat returnOpcode
    return .ok { memory, options }

theorem loadBySlices?_eq (image : List UInt8) (options : Options) :
    loadBySlices? image options = some (load image options) := by
  have origin : options.origin.toNat < 65536 := options.origin.toNat_lt
  have within : options.origin.toNat + (65536 - options.origin.toNat) ≤ 65536 := by omega
  rw [loadBySlices?, difference?_of_le (Nat.le_of_lt origin)]
  simp only [Option.bind_eq_bind, Option.bind_some, Memory.copy?_eq_loadWithin _ within, load]
  cases Memory.blank.loadWithin options.origin (65536 - options.origin.toNat) image with
  | error refusal => rfl
  | ok memory =>
    have entry : systemEntry.toNat < 65536 := by decide
    simp only [memory.set?_of_lt entry, Option.bind_some, Except.map]
    rfl

/-- The text at an address, read off the slice from there to the top of memory. -/
def textBySlice? (console : Console) (address : UInt16) : Option String :=
  (slice? console.memory.contents (address + console.options.skip).toNat 65536).map
    fun bytes => spell (bytes.takeWhile (· != terminator))

theorem textBySlice?_eq (console : Console) (address : UInt16) :
    console.textBySlice? address = some (console.textAt address) := by
  have start : (address + console.options.skip).toNat < 65536 := UInt16.toNat_lt _
  have bounds : (address + console.options.skip).toNat ≤ 65536 ∧
      65536 ≤ console.memory.contents.length := by
    rw [Memory.length_contents]
    omega
  have rest : (console.memory.contents.take 65536).drop (address + console.options.skip).toNat =
      (List.range' (address + console.options.skip).toNat
        (65536 - (address + console.options.skip).toNat)).map console.memory.read := by
    rw [List.take_of_length_le (by rw [Memory.length_contents]), Memory.contents,
      ← List.map_drop, List.range_eq_range', List.drop_range', Nat.mul_one, Nat.zero_add]
  rw [textBySlice?, slice?, if_pos bounds, textAt_eq, Memory.upTo, rest]
  rfl

end Console

namespace Diagnostic

/-- A host with a diagnostic program, copied between slices. -/
def loadBySlices? (image : List UInt8) : Option (Except LoadError Diagnostic) :=
  (Console.loadBySlices? image options).map fun result => result.map fun console => { console }

theorem loadBySlices?_eq (image : List UInt8) : loadBySlices? image = some (load image) := by
  rw [loadBySlices?, Console.loadBySlices?_eq]
  rfl

end Diagnostic

namespace Cabinet

/-- A cabinet with a program, copied between slices. -/
def loadBySlices? (rom : List UInt8) : Option (Except LoadError Cabinet) :=
  (Memory.blank.copy? 0 romSize rom).map fun result => result.map fun memory => { memory }

theorem loadBySlices?_eq (rom : List UInt8) : loadBySlices? rom = some (load rom) := by
  rw [loadBySlices?, Memory.copy?_eq_loadWithin _ (by decide)]
  rfl

end Cabinet

namespace Board

/-- A board with an image copied between slices: of the image as much as fits under the top of
memory. -/
def loadBySlices? (board : Board) (origin : UInt16) (image : List UInt8) : Option Board := do
  let stop := min (origin.toNat + image.length) 65536
  let count ← difference? stop origin.toNat
  let bytes ← slice? image 0 count
  let memory ← board.memory.splice? origin.toNat stop bytes
  return { board with memory }

theorem loadBySlices?_eq (board : Board) (origin : UInt16) (image : List UInt8) :
    board.loadBySlices? origin image = some (board.load origin image) := by
  have start : origin.toNat < 65536 := origin.toNat_lt
  obtain ⟨count, top⟩ : ∃ count, min (origin.toNat + image.length) 65536 = origin.toNat + count :=
    ⟨min (origin.toNat + image.length) 65536 - origin.toNat, by omega⟩
  have length : (image.take count).length = count := by
    rw [List.length_take]
    omega
  have spliced : board.memory.splice? origin.toNat (origin.toNat + count) (image.take count) =
      some (board.memory.load origin.toNat image) := by
    rw [← board.memory.load_take (Nat.le_of_eq top)]
    have inside : origin.toNat + (image.take count).length ≤ 65536 := by omega
    have fits := board.memory.splice?_of_fits inside
    rwa [length] at fits
  have sliced : slice? image 0 count = some (image.take count) :=
    if_pos ⟨Nat.zero_le count, by omega⟩
  have counted : difference? (origin.toNat + count) origin.toNat = some count := by
    rw [difference?_of_le (Nat.le_add_right ..), Nat.add_sub_cancel_left]
  simp only [loadBySlices?, top, counted, sliced, spliced, Option.bind_eq_bind, Option.bind_some]
  rfl

/-- Lays images into memory one after another. -/
def loadAll (board : Board) (images : List (UInt16 × List UInt8)) : Board :=
  images.foldl (fun board image => board.load image.1 image.2) board

theorem sameLatches_load (board : Board) (origin : UInt16) (image : List UInt8) :
    board.SameLatches (board.load origin image) :=
  ⟨rfl, rfl⟩

theorem read_load (board : Board) (origin : UInt16) (image : List UInt8) (address : UInt16) :
    (board.load origin image).read address =
      (imageByte? origin image address.toNat).getD (board.read address) :=
  board.memory.read_load_imageByte? origin image address.toNat_lt

/-- After any number of images each address has the byte of the last one that covers it. -/
theorem read_loadAll (board : Board) (images : List (UInt16 × List UInt8)) (address : UInt16) :
    (board.loadAll images).read address =
      (images.reverse.findSome? fun image => imageByte? image.1 image.2 address.toNat).getD
        (board.read address) := by
  induction images generalizing board with
  | nil => rfl
  | cons image rest inductionHypothesis =>
    rw [loadAll, List.foldl_cons, ← loadAll, inductionHypothesis, read_load, List.reverse_cons,
      List.findSome?_append, List.findSome?_singleton]
    cases rest.reverse.findSome? fun image => imageByte? image.1 image.2 address.toNat with
    | none => rfl
    | some byte => rfl

end Board

/-- An image that fits a capacity is loaded as a condition says; any other is refused, and the
refusal names its length, the capacity and the origin. -/
structure LoadsWithin {α : Type} (capacity : Nat) (origin : UInt16) (image : List UInt8)
    (exactly : α → Prop) (result : Except LoadError α) : Prop where
  admitted : image.length ≤ capacity → ∃ loaded, result = .ok loaded ∧ exactly loaded
  refused : capacity < image.length →
    result = .error { size := image.length, capacity, origin }

/-- So memory itself is loaded. -/
theorem Memory.loadsWithin {size : Nat} (memory : Memory size) (origin : UInt16)
    (capacity : Nat) (image : List UInt8) :
    LoadsWithin capacity origin image
      (fun loaded => image.length ≤ capacity ∧ loaded = memory.load origin.toNat image)
      (memory.loadWithin origin capacity image) where
  admitted fits := ⟨_, if_pos fits, fits, rfl⟩
  refused exceeds := if_neg (Nat.not_le_of_lt exceeds)

/-- What is built from a result is loaded like the result. -/
theorem LoadsWithin.map {α β : Type} {capacity : Nat} {origin : UInt16} {image : List UInt8}
    {exactly : α → Prop} {condition : β → Prop} {result : Except LoadError α}
    (loads : LoadsWithin capacity origin image exactly result) (build : α → β)
    (builds : ∀ loaded, exactly loaded → condition (build loaded)) :
    LoadsWithin capacity origin image condition (result.map build) where
  admitted fits := by
    obtain ⟨loaded, rfl, satisfied⟩ := loads.admitted fits
    exact ⟨build loaded, rfl, builds loaded satisfied⟩
  refused exceeds := by
    rw [loads.refused exceeds]
    rfl

/-- A console has the image at its origin, a return instruction at the system entry, and zeros
elsewhere. -/
def Console.HasProgram (console : Console) (options : Options) (image : List UInt8) : Prop :=
  console.options = options ∧ console.printed = "" ∧ ∀ address,
    Host.read console address =
      if address = systemEntry then returnOpcode
      else (imageByte? options.origin image address.toNat).getD 0

theorem Console.loadsWithin (image : List UInt8) (options : Options) :
    LoadsWithin (65536 - options.origin.toNat) options.origin image
      (·.HasProgram options image) (load image options) := by
  refine (Memory.blank.loadsWithin ..).map _ ?_
  rintro memory ⟨-, rfl⟩
  refine ⟨rfl, rfl, fun address => ?_⟩
  have laid := Memory.blank.read_load_imageByte? options.origin image address.toNat_lt
  rw [Memory.read_blank] at laid
  change (Memory.write _ _ _).read address.toNat = _
  have entry : systemEntry.toNat < 65536 := by decide
  rw [Memory.read_write, laid]
  simp only [entry, true_and, UInt16.toNat_inj]

theorem Diagnostic.loadsWithin (image : List UInt8) :
    LoadsWithin (65536 - 0x0100) 0x0100 image (·.console.HasProgram options image)
      (load image) :=
  (Console.loadsWithin image options).map _ fun _ loaded => loaded

/-- The program is followed by zeros. -/
theorem Cabinet.loadsWithin (rom : List UInt8) :
    LoadsWithin romSize 0 rom
      (·.memory.contents = rom ++ List.replicate (memorySize - rom.length) 0) (load rom) := by
  refine (Memory.blank.loadsWithin ..).map _ ?_
  rintro memory ⟨fits, rfl⟩
  exact Memory.contents_load_blank (Nat.le_trans fits (by decide))

/-- Loading is exact and stays in bounds, for every image and every origin. A console loads
what fits between the origin and the top of memory, a diagnostic host is a console at the
standard origin, and a cabinet loads what fits into its read-only memory. A board takes every
image, changes the covered addresses under the top of memory and no latch, and after any number
of images has for each address the byte of the last one that covers it. All of these, and the
text at an address, can be had from slices that exist. -/
theorem loading_exact :
    (∀ image (options : Console.Options),
      LoadsWithin (65536 - options.origin.toNat) options.origin image
        (·.HasProgram options image) (Console.load image options) ∧
      Console.loadBySlices? image options = some (Console.load image options)) ∧
    (∀ image,
      LoadsWithin (65536 - 0x0100) 0x0100 image
        (·.console.HasProgram { origin := 0x0100, skip := 3 } image) (Diagnostic.load image) ∧
      Diagnostic.loadBySlices? image = some (Diagnostic.load image)) ∧
    (∀ rom,
      LoadsWithin 0x2000 0 rom
        (·.memory.contents = rom ++ List.replicate (0x4000 - rom.length) 0) (Cabinet.load rom) ∧
      Cabinet.loadBySlices? rom = some (Cabinet.load rom)) ∧
    (∀ (board : Board) origin image,
      (∀ address, (board.load origin image).read address =
        (imageByte? origin image address.toNat).getD (board.read address)) ∧
      (∀ address : UInt16, (imageByte? origin image address.toNat).isSome ↔
        origin.toNat ≤ address.toNat ∧
          address.toNat < min (origin.toNat + image.length) 65536) ∧
      board.SameLatches (board.load origin image) ∧
      board.loadBySlices? origin image = some (board.load origin image)) ∧
    (∀ (board : Board) images address,
      (board.loadAll images).read address =
        (images.reverse.findSome? fun image => imageByte? image.1 image.2 address.toNat).getD
          (board.read address)) ∧
    ∀ (console : Console) address,
      console.textBySlice? address = some (console.textAt address) := by
  refine ⟨?_, ?_, ?_, ?_, Board.read_loadAll, Console.textBySlice?_eq⟩
  · intro image options
    exact ⟨Console.loadsWithin image options, Console.loadBySlices?_eq image options⟩
  · intro image
    exact ⟨Diagnostic.loadsWithin image, Diagnostic.loadBySlices?_eq image⟩
  · intro rom
    exact ⟨Cabinet.loadsWithin rom, Cabinet.loadBySlices?_eq rom⟩
  · intro board origin image
    refine ⟨board.read_load origin image, ?_, board.sameLatches_load origin image,
      board.loadBySlices?_eq origin image⟩
    intro address
    have inside := address.toNat_lt
    rw [isSome_imageByte?_iff]
    omega

end Intel8080
