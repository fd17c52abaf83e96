import TapeMachine.Proofs.Drivers
import TapeMachine.Proofs.Outcomes

/-! Runs that an event or a deadline may stop, beside the plain run of the same machine. A check
stands before each instruction. The first check that finds something ends the run, with exactly
that done which the plain run had done by then; a run that ends before such a check ends as the
plain run does. -/

namespace TapeMachine

/-- Whether check number `n` of a run finds the clock at the deadline or past it. The clock was
read once before all checks, to set the deadline. -/
def Clock.late (c : Clock) (timeout : Option Float) (n : Nat) : Bool :=
  timeout.any fun timeout => c.reading (c.reads + 1 + n) ≥ c.reading c.reads + timeout

namespace RunOptions

variable {o : RunOptions} {clock : Clock}

end RunOptions

namespace Guard

/-- A guard once so many checks have found nothing. -/
def passed (g : Guard) (n : Nat) : Guard :=
  { g with
    event := g.event.map fun e => { e with asked := e.asked + n }
    clock := if g.deadline.isSome then { g.clock with reads := g.clock.reads + n } else g.clock }

variable {g : Guard} {o : RunOptions} {n : Nat} {ip : Option Int}

end Guard

namespace Machine

/-- The instructions that a plain run of a machine handed out: those it executed, and the one that
failed, if one did. -/
def handedOut (m : Machine) (outcome : RunOutcome) : Nat :=
  outcome.machine.steps - m.steps +
    match outcome.result with
    | .ok () => 0
    | .error _ => 1

variable {m s t : Machine} {g g' : Guard} {o : RunOptions} {n j : Nat} {f : Fault}
  {answer : Except Fault Unit × Machine}

namespace Plain

theorem withGuard_safe (plain : s.Plain) (g : Guard) : (s.withGuard g).Safe :=
  ⟨plain.program, plain.inside⟩

theorem clearance_watched (plain : s.Plain) (g : Guard) :
    (s.withGuard g).running.clearance =
      ((g.check s.ip).1, (s.withGuard g).running.withGuard (g.check s.ip).2) := by
  refine clearance_ungated ?_
  intro signals outlet gated
  have linear := plain.linear
  rw [show s.traversal = _ from gated] at linear
  cases linear

/-- Where the check finds something, the turn stops before its instruction. -/
theorem turn_stopped (plain : s.Plain) (more : s.more = true)
    (refused : (g.check s.ip).1 = .error f) :
    ∃ h, (s.withGuard g).turn = .done (.error f, (s.running.withGuard h).fail f) := by
  obtain ⟨k, op, target, ip, found⟩ := plain.next more
  have cleared := plain.clearance_watched g
  rw [refused] at cleared
  refine ⟨(g.check s.ip).2, ?_⟩
  rw [turn_step (plain.withGuard_safe g) more,
    (plain.withGuard_safe g).step (plain.live more) more ip found, cleared]
  rfl

end Plain

/-! ## Runs -/

section Runs

variable {timeout : Option Float} {event : Option CancelEvent} {outcome watched : RunOutcome}
  {why : String}

end Runs

end Machine
end TapeMachine
