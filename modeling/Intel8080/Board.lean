import Intel8080.Host
import Intel8080.Memory

/-!
# A plain board

Memory over the whole address space and a latch behind every port, with no rules
of its own: nothing is ever refused.
-/

namespace Intel8080

/-- Memory and port latches. -/
structure Board where
  memory : Memory 65536
  inputs : Memory 256
  outputs : Memory 256

namespace Board

/-- A board whose bytes are all zero. -/
def blank : Board :=
  ⟨.blank, .blank, .blank⟩

/-- Lays an image into memory; what would lie above the top is dropped. -/
def load (board : Board) (origin : UInt16) (image : List UInt8) : Board :=
  { board with memory := board.memory.load origin.toNat image }

/-- The byte at an address. -/
def read (board : Board) (address : UInt16) : UInt8 :=
  board.memory.read address.toNat

/-- Replaces the byte at an address. -/
def write (board : Board) (address : UInt16) (value : UInt8) : Board :=
  { board with memory := board.memory.write address.toNat value }

/-- Sets what an input port will answer. -/
def setInput (board : Board) (port value : UInt8) : Board :=
  { board with inputs := board.inputs.write port.toNat value }

/-- What was last sent to an output port. -/
def outputLatch (board : Board) (port : UInt8) : UInt8 :=
  board.outputs.read port.toNat

/-- Keeps what is sent to an output port. -/
def latch (board : Board) (port value : UInt8) : Board :=
  { board with outputs := board.outputs.write port.toNat value }

instance : Host Board where
  read := read
  write board address value := .ok () (board.write address value)
  input board port := .ok (board.inputs.read port.toNat) board
  output board port value := .ok () (board.latch port value)

@[simp] theorem read_write (board : Board) (written address : UInt16) (value : UInt8) :
    (board.write written value).read address =
      if address = written then value else board.read address := by
  have bound : written.toNat < 65536 := written.toNat_lt
  simp [read, write, Memory.read_write, bound, UInt16.toNat_inj]

end Board

end Intel8080
