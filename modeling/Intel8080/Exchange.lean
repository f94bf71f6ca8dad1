import Intel8080.Host

/-!
# Exchanges with a host

What an instruction asks of its host, request by request, together with how it
continues after each answer. An exchange is described without any host, so what
an instruction may ask can be read off its description; running the exchange on
a host supplies the answers. A refused request ends the exchange at once.
-/

namespace Intel8080

/-- A finite dialogue with a host that ends in a value or in a stop. -/
inductive Exchange (α : Type) where
  /-- The dialogue is over. -/
  | done (value : α)
  /-- The processor stops of its own accord. -/
  | stop (reason : Stop)
  /-- Asks for a byte to be written. -/
  | write (address : UInt16) (value : UInt8) (next : Exchange α)
  /-- Asks for an input port to be read. -/
  | input (port : UInt8) (next : UInt8 → Exchange α)
  /-- Asks for an output port to be written. -/
  | output (port : UInt8) (value : UInt8) (next : Exchange α)

/-- A request that an exchange makes. -/
inductive Request where
  | write (address : UInt16) (value : UInt8)
  | input (port : UInt8)
  | output (port : UInt8) (value : UInt8)
  deriving DecidableEq, Repr, Inhabited

namespace Exchange

variable {α β σ : Type}

/-- Applies a function to the value in which an exchange ends. -/
def map (f : α → β) : Exchange α → Exchange β
  | done value => done (f value)
  | stop reason => stop reason
  | write address value next => write address value (next.map f)
  | input port next => input port fun value => (next value).map f
  | output port value next => output port value (next.map f)

/-- Asks for a word to be written, the low byte first. -/
def writeWord (address value : UInt16) (next : Exchange α) : Exchange α :=
  write address (lowByte value) (write (address + 1) (highByte value) next)

/-- Holds the dialogue with an actual host. -/
def run [Host σ] : Exchange α → σ → Reply Stop σ α
  | done value, host => .ok value host
  | stop reason, host => .error reason host
  | write address value next, host =>
    match Host.write host address value with
    | .ok _ host => next.run host
    | .error fault host => .error (.fault fault) host
  | input port next, host =>
    match Host.input host port with
    | .ok value host => (next value).run host
    | .error fault host => .error (.fault fault) host
  | output port value next, host =>
    match Host.output host port value with
    | .ok _ host => next.run host
    | .error fault host => .error (.fault fault) host

/-- The requests that are made of an actual host, in order. If one is refused, it is
the last. -/
def requests [Host σ] : Exchange α → σ → List Request
  | done _, _ => []
  | stop _, _ => []
  | write address value next, host =>
    .write address value :: match Host.write host address value with
      | .ok _ host => next.requests host
      | .error _ _ => []
  | input port next, host =>
    .input port :: match Host.input host port with
      | .ok value host => (next value).requests host
      | .error _ _ => []
  | output port value next, host =>
    .output port value :: match Host.output host port value with
      | .ok _ host => next.requests host
      | .error _ _ => []

end Exchange

end Intel8080
