import TapeMachine.Machine.Run

/-! The debugger: drives a machine one instruction at a time and keeps the fault that ended
it. -/

namespace TapeMachine

structure Debugger where
  machine : Machine
  deadline : Option Float := none
  fault : Option Fault := none
  state : DebugState

namespace Debugger

def withMachine (d : Debugger) (m : Machine) : Debugger := { d with machine := m }

/-- The state of a debugger whose machine can, or cannot, go on. -/
def stateFor (hasNext : Bool) : DebugState := if hasNext then .waiting else .completed

/-- A debugger about to step a machine. The clock is read only if there is a timeout. -/
def create (m : Machine) (timeout : Option Float) : Except Fault Debugger :=
  let (deadline, clock) := m.guard.clock.deadline timeout
  let m := m.withGuard { m.guard with clock := clock }
  m.hasNext.map fun more => { machine := m, deadline, state := stateFor more }

def finished (d : Debugger) : Bool := d.state.isFinal

def snapshot (d : Debugger) : Except Fault Snapshot := d.machine.snapshot

/-- Gives up, unless the debugger has finished. -/
def cancel (d : Debugger) : Debugger :=
  if d.finished then d else { d with machine := d.machine.cancel, state := .cancelled }

/-- Whether the debugger's own deadline has passed. -/
def expired (d : Debugger) : Bool × Debugger :=
  match d.deadline with
  | none => (false, d)
  | some deadline =>
    let g := d.machine.guard
    let (now, clock) := g.clock.read
    (now ≥ deadline, d.withMachine (d.machine.withGuard { g with clock := clock }))

/-- Stops at the deadline, before the next instruction. -/
def expire (d : Debugger) : Fault × Debugger :=
  match d.machine.current with
  | .error f => (f, d)
  | .ok (_, ip) =>
    let f := Guard.cancellation "deadline exceeded" (some ip)
    (f, { d.cancel with fault := some f })

/-- The state in which a fault leaves the debugger. An interrupt leaves it as it was. -/
def afterFault (d : Debugger) (f : Fault) : Debugger :=
  if f.isInterrupt then d
  else { d with fault := some f, state := if f.isCancellation then .cancelled else .failed }

/-- Executes one instruction and answers with the snapshot after it. -/
def stepOnce (d : Debugger) : Except Fault Snapshot × Debugger :=
  match d.machine.step with
  | (.error f, m) => (.error f, ({ d with machine := m, state := .running }).afterFault f)
  | (.ok (), m) =>
    let d := { d with machine := m, state := .running }
    match m.hasNext with
    | .error f => (.error f, d)
    | .ok more => (m.snapshot, { d with state := stateFor more })

/-- Executes one instruction, if the debugger is waiting and its deadline has not passed. -/
def advance (d : Debugger) : Except Fault Snapshot × Debugger :=
  if d.state = .waiting then
    match d.expired with
    | (true, d) =>
      let (f, d) := d.expire
      (.error f, d)
    | (false, d) => d.stepOnce
  else (.error (.notWaiting d.state), d)

/-- One turn of running to the end. -/
def turn (d : Debugger) : Turn Debugger (Except Fault Snapshot × Debugger) :=
  if d.state = .waiting then
    match d.advance with
    | (.error f, d) => .done (.error f, d)
    | (.ok _, d) => .again d
  else .done (d.snapshot, d)

/-- Advances until the debugger no longer waits, within `fuel` turns. -/
def runToEnd (fuel : Nat) (d : Debugger) : Option (Except Fault Snapshot × Debugger) :=
  Loop.turns turn fuel d

theorem advance_notWaiting {d : Debugger} (busy : d.state ≠ .waiting) :
    d.advance = (.error (.notWaiting d.state), d) := by
  simp [advance, busy]

theorem cancel_finished {d : Debugger} (finished : d.finished = true) : d.cancel = d := by
  simp [cancel, finished]

end Debugger
end TapeMachine
