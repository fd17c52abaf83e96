import TapeMachine.Loop
import TapeMachine.Machine.Step

/-! Running a machine to its end. A run may not end; `run` allows it a number of turns. -/

namespace TapeMachine

/-- What a run is given: a timeout, an event that cancels it, a step gate, and whether snapshots
are to be reported. -/
structure RunOptions where
  timeout : Option Float := none
  event : Option CancelEvent := none
  gate : Option (List Signal) := none
  snapshots : Bool := false

namespace Machine

/-- Readies a machine for a run. -/
def arm (m : Machine) (o : RunOptions) : Machine :=
  let m := { m with guard := m.guard.arm o.timeout o.event, report := {} }
  match o.gate with
  | none => m.traverse m.traversal.outlive
  | some signals => m.traverse (.gated signals (if o.snapshots then .report else .nowhere))

/-- One turn of a run: a step, or the end. -/
def turn (m : Machine) : Turn Machine (Except Fault Unit × Machine) :=
  match m.hasNext with
  | .error f => .done (.error f, m)
  | .ok false => .done (.ok (), m.complete)
  | .ok true =>
    match m.step with
    | (.error f, m) => .done (.error f, m)
    | (.ok (), m) => .again m

/-- Steps until nothing is left, within `fuel` turns. -/
def drive (fuel : Nat) (m : Machine) : Option (Except Fault Unit × Machine) :=
  Loop.turns turn fuel m

/-- How a run came out: its result, the snapshots it reported, and the machine it left. -/
structure RunOutcome where
  result : Except Fault Unit
  reported : List Snapshot := []
  machine : Machine

/-- Ends a run. A last snapshot is reported if they are wanted, with the fault that stopped the
run if there was one; an interrupted run reports none. -/
def conclude (snapshots : Bool) (r : Except Fault Unit) (m : Machine) : RunOutcome :=
  if snapshots && !((Fault.ofResult? r).any Fault.isInterrupt) then
    match m.snapshot (Fault.ofResult? r) with
    | .error f => ⟨.error f, m.report.toList, m⟩
    | .ok s =>
      let m := { m with report := m.report.push s }
      ⟨r, m.report.toList, m⟩
  else ⟨r, m.report.toList, m⟩

/-- Runs a machine that has not run, within `fuel` turns. Any other is refused. -/
def run (fuel : Nat) (o : RunOptions) (m : Machine) : Option RunOutcome :=
  if m.state = .ready then
    ((m.arm o).drive fuel).map fun (r, m) => conclude o.snapshots r m
  else some ⟨.error (.notReady m.state), [], m⟩

theorem run_notReady {m : Machine} (begun : m.state ≠ .ready) (fuel : Nat) (o : RunOptions) :
    m.run fuel o = some ⟨.error (.notReady m.state), [], m⟩ := by
  simp [run, begun]

end Machine
end TapeMachine
