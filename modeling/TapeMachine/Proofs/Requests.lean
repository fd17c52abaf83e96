import TapeMachine.Proofs.Drivers
import TapeMachine.Proofs.Engine

/-! Requests to one machine in any order: steps, runs, requests to cancel, other traversals, jumps
within the program, and debuggers put on the machine and driven side by side. However they follow
one another, a machine whose program was compiled is intact after each of them, and nothing is
raised but what a step, a run or an advance may raise. -/

namespace TapeMachine

/-- A machine, and the debuggers that were put on it. A debugger acts on the machine as it is
then, and not as the debugger last left it. -/
structure Bench where
  machine : Machine
  debuggers : List Debugger := []

inductive Request where
  | step
  | run (o : RunOptions)
  | cancel
  | trace (on : Bool)
  | linear
  | gate (signals : List Signal) (snapshots : Bool)
  | jump (index : Int)
  /-- Puts another debugger on the machine. -/
  | debug (timeout : Option Float)
  | advance (i : Nat)
  | runToEnd (i : Nat)
  | giveUp (i : Nat)

/-- A request that jumps nowhere but to an instruction, or to the end. -/
def Request.Within (p : Program) : Request → Prop
  | .jump index => 0 ≤ index ∧ index ≤ p.length
  | _ => True

namespace Bench

def withMachine (b : Bench) (m : Machine) : Bench := { b with machine := m }

/-- A debugger as it acts on the machine now. -/
def debugger? (b : Bench) (i : Nat) : Option Debugger :=
  b.debuggers[i]?.map fun d => d.withMachine b.machine

/-- The bench as one of its debuggers leaves it. -/
def leave (b : Bench) (i : Nat) (d : Debugger) : Bench := ⟨d.machine, b.debuggers.set i d⟩

/-- Carries out a request, within `fuel` turns; no answer comes of a run that goes on, or of a
debugger that there is not. -/
def answer (fuel : Nat) (b : Bench) : Request → Option (Except Fault Unit × Bench)
  | .step => some (b.machine.step.1, b.withMachine b.machine.step.2)
  | .run o =>
    (b.machine.run fuel o).map fun outcome => (outcome.result, b.withMachine outcome.machine)
  | .cancel => some (.ok (), b.withMachine b.machine.cancel)
  | .trace on => some (.ok (), b.withMachine { b.machine with tracing := on })
  | .linear => some (.ok (), b.withMachine (b.machine.traverse .linear))
  | .gate signals snapshots => some (.ok (), b.withMachine (b.machine.gate signals snapshots))
  | .jump index => some (.ok (), b.withMachine (b.machine.jump (some index)))
  | .debug timeout =>
    match Debugger.create b.machine timeout with
    | .error f => some (.error f, b)
    | .ok d => some (.ok (), ⟨d.machine, b.debuggers ++ [d]⟩)
  | .advance i =>
    (b.debugger? i).map fun d => (d.advance.1.map fun _ => (), b.leave i d.advance.2)
  | .runToEnd i =>
    (b.debugger? i).bind fun d =>
      (d.runToEnd fuel).map fun (r, d) => (r.map fun _ => (), b.leave i d)
  | .giveUp i => (b.debugger? i).map fun d => (.ok (), b.leave i d.cancel)

/-- The benches that requests lead to, whatever the answers. -/
inductive Reached (start : Bench) : Bench → Prop
  | start : Reached start start
  | next {b b' : Bench} {request : Request} {fuel : Nat} {r : Except Fault Unit}
      (before : Reached start b) (within : request.Within b.machine.program)
      (answered : b.answer fuel request = some (r, b')) : Reached start b'

/-- The faults that a request may come back with: those that its machine expects, the refusal of a
run of a machine that has run, and that of an advance of a debugger that is not waiting. -/
inductive Expects (b b' : Bench) : Request → Fault → Prop
  | engine {request : Request} {f : Fault} (expected : b.machine.Expects b'.machine f) :
      Expects b b' request f
  | begun {o : RunOptions} (state : b'.machine.state ≠ .ready) :
      Expects b b' (.run o) (.notReady b'.machine.state)
  | busy {i : Nat} {d : Debugger} (there : b'.debuggers[i]? = some d) (state : d.state ≠ .waiting) :
      Expects b b' (.advance i) (.notWaiting d.state)

/-- An answer in good order. -/
structure Orderly (b : Bench) (request : Request) (r : Except Fault Unit) (b' : Bench) : Prop where
  later : b.machine.Later b'.machine
  fault : ∀ f, r = .error f → b.Expects b' request f

variable {b b' start : Bench} {request : Request} {fuel : Nat} {r : Except Fault Unit}

/-- A request that only sets something in the machine. -/
theorem orderly_quiet {m : Machine} (later : b.machine.Later m) :
    b.Orderly request (.ok ()) (b.withMachine m) :=
  ⟨later, fun _ failed => by cases failed⟩

theorem orderly_machine {m : Machine} (h : b.machine.Orderly r m) :
    b.Orderly request r (b.withMachine m) :=
  ⟨h.later, fun f failed => .engine (h.fault f failed)⟩

theorem machine_debugger? {i : Nat} {d : Debugger} (found : b.debugger? i = some d) :
    d.machine = b.machine ∧ i < b.debuggers.length := by
  obtain ⟨_, there, rfl⟩ := Option.map_eq_some_iff.mp found
  exact ⟨rfl, (List.getElem?_eq_some_iff.mp there).1⟩

theorem orderly_debugger {i : Nat} {d d' : Debugger} {r : Except Fault Snapshot}
    (found : b.debugger? i = some d) (h : d.Orderly r d') :
    b.Orderly request (r.map fun _ => ()) (b.leave i d') := by
  obtain ⟨machine, _⟩ := machine_debugger? found
  obtain ⟨later, fault⟩ := h
  rw [machine] at later fault
  refine ⟨later, ?_⟩
  intro f failed
  cases r with
  | ok shot => cases failed
  | error g =>
    cases failed
    exact .engine (fault f rfl)

theorem jump_later {m : Machine} (safe : m.Safe) {index : Int} (first : 0 ≤ index)
    (last : index ≤ m.program.length) : m.Later (m.jump (some index)) := by
  obtain ⟨k, rfl⟩ := Int.eq_ofNat_of_zero_le first
  exact ⟨⟨safe.program, k, rfl, Int.ofNat_le.mp last⟩, rfl, Config.leads_jump _ _⟩

theorem answer_orderly (safe : b.machine.Safe) (within : request.Within b.machine.program)
    (answered : b.answer fuel request = some (r, b')) : b.Orderly request r b' := by
  have kept : ∀ m : Machine, m.program = b.machine.program → m.config = b.machine.config →
      b.machine.Later m := fun _ => safe.later_of_config
  cases request with
  | step =>
    cases answered
    exact orderly_machine safe.step_orderly
  | run o =>
    obtain ⟨outcome, ran, same⟩ := Option.map_eq_some_iff.mp answered
    cases same
    by_cases ready : b.machine.state = .ready
    · exact orderly_machine (safe.run_orderly ready ran)
    · rw [Machine.run_notReady ready] at ran
      cases ran
      refine ⟨kept _ rfl rfl, ?_⟩
      intro f refused
      cases refused
      exact .begun ready
  | cancel | trace | linear | gate =>
    cases answered
    exact orderly_quiet (kept _ rfl rfl)
  | jump index =>
    cases answered
    exact orderly_quiet (jump_later safe within.1 within.2)
  | debug timeout =>
    simp only [answer, Debugger.create_ok safe] at answered
    cases answered
    exact ⟨kept _ rfl rfl, fun _ failed => by cases failed⟩
  | advance i =>
    obtain ⟨d, found, same⟩ := Option.map_eq_some_iff.mp answered
    cases same
    obtain ⟨machine, inside⟩ := machine_debugger? found
    by_cases waiting : d.state = .waiting
    · rw [← machine] at safe
      exact orderly_debugger found (Debugger.advance_orderly safe waiting)
    · rw [Debugger.advance_notWaiting waiting]
      refine ⟨kept _ (by rw [← machine]; rfl) (by rw [← machine]; rfl), ?_⟩
      intro f refused
      cases refused
      exact .busy (List.getElem?_set_self inside) waiting
  | runToEnd i =>
    obtain ⟨d, found, left⟩ := Option.bind_eq_some_iff.mp answered
    obtain ⟨⟨shot, d'⟩, ran, same⟩ := Option.map_eq_some_iff.mp left
    cases same
    rw [← (machine_debugger? found).1] at safe
    exact orderly_debugger found (Debugger.runToEnd_orderly safe ran)
  | giveUp i =>
    obtain ⟨d, found, same⟩ := Option.map_eq_some_iff.mp answered
    cases same
    have machine := (machine_debugger? found).1
    have later : d.machine.Later d.cancel.machine := by
      refine Debugger.cancel_later ?_
      rw [machine]
      exact safe
    rw [machine] at later
    exact ⟨later, fun _ failed => by cases failed⟩

theorem Reached.later (reached : start.Reached b) (safe : start.machine.Safe) :
    start.machine.Later b.machine := by
  induction reached with
  | start => exact safe.later_of_config rfl rfl
  | next _ within answered ih => exact ih.trans (answer_orderly ih.safe within answered).later

end Bench

end TapeMachine
