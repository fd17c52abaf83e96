/-! The states that a machine and the debugger driving one pass through. -/

namespace TapeMachine

/-- Where a machine is in its one run. The last three states are final. -/
inductive RunState where
  | ready | running | completed | failed | cancelled
  deriving DecidableEq, Repr

namespace RunState

def name : RunState → String
  | ready => "READY"
  | running => "RUNNING"
  | completed => "COMPLETED"
  | failed => "FAILED"
  | cancelled => "CANCELLED"

def isFinal : RunState → Bool
  | ready | running => false
  | completed | failed | cancelled => true

end RunState

/-- What a debugger is doing. Only a waiting one can be stepped. -/
inductive DebugState where
  | running | waiting | completed | failed | cancelled
  deriving DecidableEq, Repr

namespace DebugState

def name : DebugState → String
  | running => "RUNNING"
  | waiting => "WAITING_FOR_STEP"
  | completed => "COMPLETED"
  | failed => "FAILED"
  | cancelled => "CANCELLED"

/-- The state as it reads in a sentence. -/
def phrase : DebugState → String
  | running => "running"
  | waiting => "waiting for step"
  | completed => "completed"
  | failed => "failed"
  | cancelled => "cancelled"

def isFinal : DebugState → Bool
  | running | waiting => false
  | completed | failed | cancelled => true

end DebugState
end TapeMachine
