import TapeMachine.Machine.Basic

/-! One step of a machine. -/

namespace TapeMachine

/-- The state in which a fault leaves the machine it stopped; none if it leaves the state
alone. -/
def Fault.aftermath (f : Fault) : Option RunState :=
  if f.isInterrupt then none else if f.isCancellation then some .cancelled else some .failed

namespace Machine

/-- Traces an instruction about to be executed. One without a symbol cannot be traced. -/
def note (m : Machine) (i : Instruction) (index : Int) : Except Fault Machine :=
  if m.tracing then
    i.symbol.map fun symbol =>
      { m with
        trace := m.trace.push ⟨index, symbol, m.config.tape.pointer, m.config.tape.cell⟩ }
  else .ok m

/-- The next instruction: checked for cancellation, handed out, traced and executed. -/
def attempt (m : Machine) : Except Fault Unit × Machine :=
  match m.check with
  | (.error f, m) => (.error f, m)
  | (.ok (), m) =>
    match m.next with
    | (.error f, m) => (.error f, m)
    | (.ok (instruction, index), m) =>
      match m.note instruction index with
      | .error f => (.error f, m)
      | .ok m => m.execute instruction index

def fail (m : Machine) (f : Fault) : Machine := { m with state := f.aftermath.getD m.state }

def complete (m : Machine) : Machine := { m with state := .completed }

/-- Counts a step, and completes the run if it was the last. -/
def countStep (m : Machine) : Except Fault Unit × Machine :=
  let m := { m with steps := m.steps + 1 }
  match m.hasNext with
  | .error f => (.error f, m)
  | .ok true => (.ok (), m)
  | .ok false => (.ok (), m.complete)

/-- Executes one instruction, or completes the run if there is none. -/
def step (m : Machine) : Except Fault Unit × Machine :=
  if m.state.isFinal then (.error (.notReady m.state), m)
  else
    match m.hasNext with
    | .error f => (.error f, m)
    | .ok false => (.ok (), m.complete)
    | .ok true =>
      match { m with state := .running }.attempt with
      | (.error f, m) => (.error f, m.fail f)
      | (.ok (), m) => m.countStep

theorem step_final {m : Machine} (final : m.state.isFinal = true) :
    m.step = (.error (.notReady m.state), m) := by
  simp [step, final]

end Machine
end TapeMachine
