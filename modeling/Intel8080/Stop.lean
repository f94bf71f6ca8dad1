import Intel8080.Hex

/-!
# Why a machine stops

A fault is something the program did that the hardware around it cannot honour.
A halt is an intended end. Both carry what a reader needs to find the cause, and
their wording is fixed here.
-/

namespace Intel8080

/-- What a program did wrong. -/
inductive Fault where
  /-- It wrote to read-only memory. -/
  | readOnly (address : UInt16) (value : UInt8)
  /-- It wrote where there is no memory. -/
  | outOfRange (address : UInt16) (value : UInt8)
  /-- It ran into an opcode without a meaning, fetched from the given address. -/
  | illegalOpcode (opcode : UInt8) (pc : UInt16)
  /-- It read a port that is not connected. -/
  | unknownInputPort (port : UInt8)
  /-- It wrote to a port that is not connected. -/
  | unknownOutputPort (port : UInt8)
  /-- An interrupt was requested for an address that is not a restart address. -/
  | invalidVector (address : UInt8)
  deriving DecidableEq, Repr, Inhabited

/-- How a program came to its end. -/
inductive Halt where
  /-- It executed the halt instruction. -/
  | instruction
  /-- It reported success. -/
  | passed (reason : String)
  /-- It reported failure. -/
  | failed (reason : String)
  /-- It returned to the operating system. -/
  | warmBoot
  deriving DecidableEq, Repr, Inhabited

/-- Why a machine runs no further. -/
inductive Stop where
  | halt (cause : Halt)
  | fault (cause : Fault)
  deriving DecidableEq, Repr, Inhabited

namespace Fault

/-- The wording of a fault. -/
def message : Fault → String
  | readOnly address value =>
    "attempt to write " ++ Hex.markedByte value ++ " in ROM at " ++ Hex.markedWord address
  | outOfRange address value =>
    "attempt to write " ++ Hex.markedByte value ++ " outside of RAM at " ++
      Hex.markedWord address
  | illegalOpcode opcode pc =>
    "illegal instruction " ++ Hex.markedByte opcode ++ " at " ++ Hex.markedWord pc
  | unknownInputPort port => "unknown IN port " ++ Hex.markedByte port
  | unknownOutputPort port => "unknown OUT port " ++ Hex.markedByte port
  | invalidVector address => Hex.markedByte address ++ " is not a restart vector"

end Fault

namespace Halt

/-- The wording of a halt. -/
def message : Halt → String
  | instruction => "CPU halted: HLT"
  | passed reason => "CPU halted: " ++ reason
  | failed reason => "diagnostic failed: " ++ reason
  | warmBoot => "CPU halted: returned to CP/M"

/-- The reason of a halt without its classification. -/
def reason : Halt → String
  | instruction => "HLT"
  | passed reason | failed reason => reason
  | warmBoot => "warm boot"

/-- Whether the program ended as a successful one does. -/
def isSuccess : Halt → Bool
  | passed _ | warmBoot => true
  | instruction | failed _ => false

end Halt

namespace Stop

/-- The wording of a stop. -/
def message : Stop → String
  | halt cause => cause.message
  | fault cause => cause.message

/-- Whether the program ended as a successful one does; a fault never is. -/
def isSuccess : Stop → Bool
  | halt cause => cause.isSuccess
  | fault _ => false

end Stop

end Intel8080
