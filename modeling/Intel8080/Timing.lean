/-!
# Clock and frame rates

A timing gives the clock rate of the processor, the rate at which the picture is
drawn, and the two restart addresses at which interrupts are requested in turn,
one in the middle and one at the end of each frame. Lengths are counted in whole
clock cycles and rounded down at each division.
-/

namespace Intel8080

/-- How fast time passes for a machine. -/
structure Timing where
  /-- Clock cycles per second. -/
  clockRate : Nat := 2000000
  /-- Frames per second. -/
  frameRate : Nat := 60
  /-- The restart addresses, in the order in which they are used. -/
  vectors : UInt8 × UInt8 := (0x08, 0x10)
  deriving DecidableEq, Repr, Inhabited

namespace Timing

/-- Nanoseconds per second. -/
def nanosPerSecond : Nat := 1000000000

/-- Clock cycles per frame; a frame rate of zero counts as one. -/
def cyclesPerFrame (timing : Timing) : Nat :=
  timing.clockRate / max timing.frameRate 1

/-- Clock cycles per half frame. -/
def cyclesPerHalfFrame (timing : Timing) : Nat :=
  timing.cyclesPerFrame / 2

/-- The duration of a frame in nanoseconds. -/
def frameNanos (timing : Timing) : Nat :=
  nanosPerSecond / max timing.frameRate 1

/-- The half frame that interrupts are paced by. It is never empty, so that a
boundary is always ahead. -/
def pace (timing : Timing) : Nat :=
  max timing.cyclesPerHalfFrame 1

end Timing

end Intel8080
