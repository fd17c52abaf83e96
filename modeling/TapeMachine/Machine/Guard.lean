import TapeMachine.Clock
import TapeMachine.Fault

/-! What may stop a machine from outside: a request to cancel, an event that somebody else sets,
and a deadline. A step gate makes the machine wait for leave, and lets its controller cancel
meanwhile. -/

namespace TapeMachine

structure Guard where
  cancelled : Bool := false
  event : Option CancelEvent := none
  deadline : Option Float := none
  clock : Clock := {}

/-- What a machine that waits at a step gate meets next: leave to step, nothing yet, a request
to cancel, or such a request followed at once by leave. -/
inductive Signal where
  | token | nothing | cancel | cancelWithToken
  deriving DecidableEq, Repr

namespace Guard

def cancellation (why : String) (ip : Option Int) : Fault :=
  .report ⟨.cancellation, some why, none, ip⟩

def cancel (g : Guard) : Guard := { g with cancelled := true }

/-- Sets what a run is to watch. The clock is read only if there is a timeout. -/
def arm (g : Guard) (timeout : Option Float) (event : Option CancelEvent) : Guard :=
  let (deadline, clock) := g.clock.deadline timeout
  { g with event := event, deadline := deadline, clock := clock }

def checkDeadline (g : Guard) (ip : Option Int) : Except Fault Unit × Guard :=
  match g.deadline with
  | none => (.ok (), g)
  | some deadline =>
    let (now, clock) := g.clock.read
    let g := { g with clock := clock }
    if now ≥ deadline then (.error (cancellation "deadline exceeded" ip), g) else (.ok (), g)

/-- Whether the machine may go on. The event is asked only if no cancellation was requested, and
the clock read only if the event is not set. -/
def check (g : Guard) (ip : Option Int) : Except Fault Unit × Guard :=
  if g.cancelled then (.error (cancellation "cancelled" ip), g)
  else
    match g.event with
    | none => g.checkDeadline ip
    | some event =>
      let (set, event) := event.ask
      let g := { g with event := some event }
      if set then (.error (cancellation "cancelled" ip), g) else g.checkDeadline ip

/-- Waits for leave to step, checking before each signal. Behind the last signal stands a
request to cancel. The answer holds the signals not met. -/
def await (ip : Option Int) : List Signal → Guard → Except Fault Unit × List Signal × Guard
  | [], g =>
    match g.check ip with
    | (.error f, g) => (.error f, [], g)
    | (.ok (), g) =>
      let (r, g) := g.cancel.check ip
      (r, [], g)
  | s :: rest, g =>
    match g.check ip with
    | (.error f, g) => (.error f, s :: rest, g)
    | (.ok (), g) =>
      match s with
      | .token => (.ok (), rest, g)
      | .nothing => await ip rest g
      | .cancel => await ip rest g.cancel
      | .cancelWithToken => (.ok (), rest, g.cancel)

/-- A guard that has nothing to watch lets everything pass. -/
theorem check_idle {g : Guard} (request : g.cancelled = false) (event : g.event = none)
    (deadline : g.deadline = none) (ip : Option Int) : g.check ip = (.ok (), g) := by
  simp [check, checkDeadline, request, event, deadline]

/-- A request to cancel is met before event and clock are asked. -/
theorem check_cancelled {g : Guard} (request : g.cancelled = true) (ip : Option Int) :
    g.check ip = (.error (cancellation "cancelled" ip), g) := by
  simp [check, request]

end Guard
end TapeMachine
