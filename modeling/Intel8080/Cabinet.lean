import Intel8080.Host
import Intel8080.Log
import Intel8080.Memory

/-!
# An arcade cabinet

Eight kilobytes of read-only memory below eight kilobytes of working memory whose
upper part is the picture, one bit per pixel. Reading repeats these sixteen
kilobytes over the whole address space; writing does not, and a write above them
is dropped or, in a strict cabinet, refused. Two output ports feed a shift
register that one input port reads back at an adjustable offset, another input
port shows the controls, and the remaining ports only leave signals behind.
-/

namespace Intel8080

/-- The controls of a cabinet. -/
inductive Key where
  | coin | start | fire | left | right
  deriving DecidableEq, Repr, Inhabited

/-- The bit of the control port that a key sets while it is pressed. -/
def Key.mask : Key → UInt8
  | coin => 0x01
  | start => 0x04
  | fire => 0x10
  | left => 0x20
  | right => 0x40

namespace Cabinet

/-- How many bytes are read-only, from address zero. -/
def romSize : Nat := 0x2000

/-- How many bytes of memory there are. -/
def memorySize : Nat := 0x4000

/-- The address at which the picture begins. -/
def videoStart : Nat := 0x2400

/-- Something the program did that changes no later answer. -/
inductive Signal where
  /-- It sent a value to one of the two sound ports. -/
  | sound (port value : UInt8)
  /-- It reset the watchdog. -/
  | watchdog (value : UInt8)
  /-- It wrote above the memory, which had no effect. -/
  | dropped (address : UInt16) (value : UInt8)
  deriving DecidableEq, Repr, Inhabited

/-- How a signal is logged. -/
def Signal.entry : Signal → Log.Entry
  | sound port value =>
    ⟨.debug, "sound" ++ Log.field "port" port.toNat ++ Log.field "value" value.toNat⟩
  | watchdog value => ⟨.trace, "watchdog" ++ Log.field "value" value.toNat⟩
  | dropped address value =>
    ⟨.trace, "write above RAM dropped" ++ Log.field "address" address.toNat ++
      Log.field "value" value.toNat⟩

end Cabinet

/-- The state of a cabinet. -/
structure Cabinet where
  memory : Memory Cabinet.memorySize
  /-- The two values sent last to the shift register, the newer one above. -/
  shift : UInt16 := 0
  /-- How far the window onto the shift register is moved down, less than eight. -/
  offset : UInt8 := 0
  /-- The control port; one bit is always set. -/
  controls : UInt8 := 0x08
  /-- Whether a write above the memory is refused rather than dropped. -/
  strict : Bool := false
  /-- The signals so far, or since they were last cleared. -/
  signals : Array Cabinet.Signal := #[]

namespace Cabinet

/-- A cabinet without a program. -/
def blank : Cabinet :=
  { memory := .blank }

/-- A cabinet with a program in its read-only memory. -/
def load (rom : List UInt8) : Except LoadError Cabinet :=
  (Memory.blank.loadWithin 0 romSize rom).map fun memory => { memory }

/-- The same cabinet, but refusing writes above its memory. -/
def makeStrict (cabinet : Cabinet) : Cabinet :=
  { cabinet with strict := true }

/-- Presses a key. -/
def press (cabinet : Cabinet) (key : Key) : Cabinet :=
  { cabinet with controls := cabinet.controls ||| key.mask }

/-- Releases a key. -/
def release (cabinet : Cabinet) (key : Key) : Cabinet :=
  { cabinet with controls := cabinet.controls &&& ~~~key.mask }

/-- Adds a signal. -/
def signal (cabinet : Cabinet) (signal : Signal) : Cabinet :=
  { cabinet with signals := cabinet.signals.push signal }

/-- Forgets the signals so far. -/
def clearSignals (cabinet : Cabinet) : Cabinet :=
  { cabinet with signals := #[] }

/-- The byte at an address; the memory repeats every sixteen kilobytes. -/
def read (cabinet : Cabinet) (address : UInt16) : UInt8 :=
  cabinet.memory.read (address.toNat % memorySize)

/-- Writes a byte where that is possible. -/
def write (cabinet : Cabinet) (address : UInt16) (value : UInt8) : Reply Fault Cabinet Unit :=
  if address.toNat < romSize then .error (.readOnly address value) cabinet
  else if address.toNat < memorySize then
    .ok () { cabinet with memory := cabinet.memory.write address.toNat value }
  else if cabinet.strict then .error (.outOfRange address value) cabinet
  else .ok () (cabinet.signal (.dropped address value))

/-- The byte of the shift register that the offset selects. -/
def shifted (cabinet : Cabinet) : UInt8 :=
  lowByte (cabinet.shift >>> (8 - cabinet.offset).toUInt16)

/-- Sends a byte into the shift register. -/
def shiftIn (cabinet : Cabinet) (value : UInt8) : Cabinet :=
  { cabinet with shift := word value (highByte cabinet.shift) }

/-- Reads an input port. -/
def input (cabinet : Cabinet) (port : UInt8) : Reply Fault Cabinet UInt8 :=
  match port with
  | 1 => .ok cabinet.controls cabinet
  | 2 => .ok 0 cabinet
  | 3 => .ok cabinet.shifted cabinet
  | _ => .error (.unknownInputPort port) cabinet

/-- Writes an output port. -/
def output (cabinet : Cabinet) (port value : UInt8) : Reply Fault Cabinet Unit :=
  match port with
  | 2 => .ok () { cabinet with offset := value &&& 7 }
  | 4 => .ok () (cabinet.shiftIn value)
  | 3 | 5 => .ok () (cabinet.signal (.sound port value))
  | 6 => .ok () (cabinet.signal (.watchdog value))
  | _ => .error (.unknownOutputPort port) cabinet

instance : Host Cabinet where
  read := read
  write := write
  input := input
  output := output

/-- The bytes of the picture. -/
def video (cabinet : Cabinet) : List UInt8 :=
  (List.range' videoStart (memorySize - videoStart)).map cabinet.memory.read

/-- How many pixels of the picture are lit. -/
def litPixels (cabinet : Cabinet) : Nat :=
  cabinet.video.foldl (fun total byte => total + ones byte) 0

end Cabinet

end Intel8080
