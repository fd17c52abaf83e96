/-! Clocks and cancel events: both answer by how often they have been asked. -/

namespace TapeMachine

structure Clock where
  reading : Nat → Float := fun _ => 0
  /-- Whether it counts in whole numbers. -/
  whole : Bool := false
  /-- How often the clock was read. -/
  reads : Nat := 0

namespace Clock

/-- A clock that starts at zero and gains `tick` a reading. -/
def ticking (tick : Float) : Clock := { reading := fun k => k.toFloat * tick }

def read (c : Clock) : Float × Clock := (c.reading c.reads, { c with reads := c.reads + 1 })

/-- The time `timeout` from now, if there is a timeout. Without one the clock is not read. -/
def deadline (c : Clock) : Option Float → Option Float × Clock
  | none => (none, c)
  | some timeout =>
    let (now, c) := c.read
    (some (now + timeout), c)

end Clock

/-- An event that somebody else may set. -/
structure CancelEvent where
  isSet : Nat → Bool
  /-- How often the event was asked. -/
  asked : Nat := 0

namespace CancelEvent

/-- An event that is set from the time it has been asked `n` times. -/
def after (n : Int) : CancelEvent := { isSet := fun k => decide (n ≤ k) }

def ask (e : CancelEvent) : Bool × CancelEvent := (e.isSet e.asked, { e with asked := e.asked + 1 })

end CancelEvent
end TapeMachine
