import TapeMachine.Proofs.Atomicity
import TapeMachine.Proofs.Lifecycle

/-! Everything that can be done to one machine, in any order and whatever its program: the
requests, and beside them instructions executed by hand, jumps to anywhere and any other order in
which instructions are handed out. However they follow one another, the machine lives once. -/

namespace TapeMachine

inductive Operation where
  | request (request : Request)
  /-- Executes an instruction that nobody handed out. -/
  | execute (i : Instruction) (index : Int)
  | traverse (t : Traversal)
  | record (limit : Option Int)
  /-- Somebody else reads the clock, as does a debugger that then cannot be put on the machine. -/
  | elapse

namespace Bench

/-- Carries out an operation, within `fuel` turns. -/
def perform (fuel : Nat) (b : Bench) : Operation → Option (Except Fault Unit × Bench)
  | .request request => b.answer fuel request
  | .execute i index =>
    some ((b.machine.execute i index).1, b.withMachine (b.machine.execute i index).2)
  | .traverse t => some (.ok (), b.withMachine (b.machine.traverse t))
  | .record limit => some (.ok (), b.withMachine (b.machine.record limit))
  | .elapse =>
    let g := b.machine.guard
    some (.ok (), b.withMachine (b.machine.withGuard { g with clock := g.clock.read.2 }))

/-- The benches that operations lead to, whatever the answers. -/
inductive Passed (start : Bench) : Bench → Prop
  | start : Passed start start
  | next {b b' : Bench} {op : Operation} {fuel : Nat} {r : Except Fault Unit}
      (before : Passed start b) (done : b.perform fuel op = some (r, b')) : Passed start b'

variable {b b' start : Bench} {request : Request} {op : Operation} {fuel : Nat}
  {r : Except Fault Unit} {m : Machine}

theorem answer_onward (answered : b.answer fuel request = some (r, b')) :
    b.machine.Onward b'.machine := by
  cases request with
  | step =>
    cases answered
    exact b.machine.step_onward
  | run o =>
    obtain ⟨outcome, ran, same⟩ := Option.map_eq_some_iff.mp answered
    cases same
    exact Machine.run_onward ran
  | cancel | trace | linear | gate | jump =>
    cases answered
    exact Machine.Still.onward ⟨rfl, rfl⟩
  | debug timeout =>
    unfold answer at answered
    cases created : Debugger.create b.machine timeout with
    | error f =>
      simp only [created] at answered
      cases answered
      exact .refl _
    | ok d =>
      simp only [created] at answered
      cases answered
      exact (Debugger.create_unmoved created).still.onward
  | advance i =>
    obtain ⟨d, found, same⟩ := Option.map_eq_some_iff.mp answered
    cases same
    rw [← (machine_debugger? found).1]
    exact d.advance_onward
  | runToEnd i =>
    obtain ⟨d, found, left⟩ := Option.bind_eq_some_iff.mp answered
    obtain ⟨⟨shot, d'⟩, ran, same⟩ := Option.map_eq_some_iff.mp left
    cases same
    rw [← (machine_debugger? found).1]
    exact Debugger.runToEnd_onward ran
  | giveUp i =>
    obtain ⟨d, found, same⟩ := Option.map_eq_some_iff.mp answered
    cases same
    rw [← (machine_debugger? found).1]
    exact d.cancel_unmoved.still.onward

theorem perform_onward (done : b.perform fuel op = some (r, b')) :
    b.machine.Onward b'.machine := by
  cases op with
  | request request => exact answer_onward done
  | execute | traverse | record | elapse =>
    cases done
    exact Machine.Still.onward ⟨rfl, rfl⟩

theorem Passed.onward (passed : start.Passed b) : start.machine.Onward b.machine := by
  induction passed with
  | start => exact .refl _
  | next _ done ih => exact ih.trans (perform_onward done)

/-- A step taken while a request is carried out is taken by a machine that may come of the one
before the request. -/
theorem Steps.onward (steps : b.Steps request m) : b.machine.Onward m := by
  cases steps with
  | alone => exact .refl _
  | @inRun o i _ ready after =>
    exact (Loop.after_keeps (fun _ => Machine.Going.turn_keeps)
      (Machine.arm_going ready o) after).toOnward
  | @inAdvance i d d' found waiting early =>
    have asked := d.expired_unmoved.still
    rw [early] at asked
    rw [← (machine_debugger? found).1]
    exact asked.onward
  | @inRunToEnd i j d e e' found after waiting early =>
    have asked := e.expired_unmoved.still
    rw [early] at asked
    have before := Loop.after_keeps (fun _ => Debugger.turn_onward)
      (Machine.Onward.refl d.machine) after
    rw [← (machine_debugger? found).1]
    exact before.trans asked.onward

/-- What a request leaves may come of every step taken while it was carried out. -/
theorem Steps.left (steps : b.Steps request m) (answered : b.answer fuel request = some (r, b')) :
    m.step.2.Onward b'.machine := by
  cases steps with
  | alone =>
    cases answered
    exact .refl _
  | @inRun o i _ ready after next =>
    obtain ⟨outcome, ran, same⟩ := Option.map_eq_some_iff.mp answered
    cases same
    exact Machine.onward_of_run ready ran after next
  | @inAdvance i d d' found waiting early =>
    simp only [answer, found, Option.map_some] at answered
    cases answered
    rw [← Debugger.machine_advance waiting early]
    exact .refl _
  | @inRunToEnd i j d e e' found after waiting early =>
    simp only [answer, found, Option.bind_some] at answered
    obtain ⟨⟨shot, d'⟩, ran, same⟩ := Option.map_eq_some_iff.mp answered
    cases same
    rw [← Debugger.machine_advance waiting early]
    exact Debugger.onward_of_runToEnd ran after waiting

end Bench

/-- A machine that has counted no step, whatever is done to it and in whatever order. Its state
only moves on, and each step of every request moves it on. In a final state, which it never leaves,
a step is refused and changes nothing; so is a run, in any state but the first. As long as the
machine is ready, nothing is counted and no step has handed out an instruction. A run that returns
has completed, and a run leaves a cancelled machine if and only if its last step raised a
cancellation. -/
theorem machine_lives_once {start : Machine} (unused : start.steps = 0) {b : Bench}
    (passed : Bench.Passed ⟨start, []⟩ b) :
    (∀ b', b.Passed b' → b.machine.state.Onward b'.machine.state ∧
      (b.machine.state.isFinal = true →
        b'.machine.state = b.machine.state ∧
        b'.machine.step = (.error (.notReady b.machine.state), b'.machine))) ∧
    (∀ request m, b.Steps request m →
      b.machine.state.Onward m.state ∧ m.state.Onward m.step.2.state ∧
      ∀ fuel r b', b.answer fuel request = some (r, b') →
        m.step.2.state.Onward b'.machine.state) ∧
    (b.machine.state ≠ .ready → ∀ fuel o,
      b.machine.run fuel o = some ⟨.error (.notReady b.machine.state), [], b.machine⟩) ∧
    (b.machine.state = .ready → b.machine.steps = 0 ∧
      ∀ fuel b₀ request r b₁ m, Bench.Passed ⟨start, []⟩ b₀ →
        b₀.answer fuel request = some (r, b₁) → b₁.Passed b → b₀.Steps request m →
        m.handed? = none) ∧
    (b.machine.state = .ready → ∀ fuel o outcome, b.machine.run fuel o = some outcome →
      (outcome.result = .ok () → outcome.machine.state = .completed) ∧
      (outcome.machine.state = .cancelled ↔ b.machine.CancelledIn o)) := by
  refine ⟨?moves, ?steps, fun begun => Machine.run_notReady begun, ?untouched, ?runs⟩
  case moves =>
    intro b' later
    refine ⟨later.onward.state, ?_⟩
    intro final
    have same := later.onward.state.eq_of_final final
    refine ⟨same, ?_⟩
    rw [← same]
    rw [← same] at final
    exact Machine.step_final final
  case steps =>
    intro request m steps
    refine ⟨steps.onward.state, m.step_onward.state, ?_⟩
    intro fuel r b' answered
    exact (steps.left answered).state
  case untouched =>
    intro still
    refine ⟨(passed.onward.steps still).trans unused, ?_⟩
    intro fuel b₀ request r b₁ m _ answered later steps
    have onward := (steps.left answered).trans later.onward
    exact m.handed?_ready (onward.state.ready still)
  case runs =>
    intro still fuel o outcome ran
    exact ⟨Machine.run_completed still ran, Machine.run_cancelled_iff still ran⟩

/-- A machine that has run to its end, and is then sent back to its only instruction. -/
theorem spent_machine_refuses :
    ∃ start b, start.steps = 0 ∧ Bench.Passed ⟨start, []⟩ b ∧ b.machine.state = .completed ∧
      b.machine.hasNext = .ok true ∧
      b.machine.step = (.error (.notReady .completed), b.machine) := by
  let start : Machine :=
    .onTape (.ofEntries [⟨⟨.op .increment, none⟩, none⟩]) .blank (.ofBytes []) .reliable
  have ran := @Bench.Passed.next ⟨start, []⟩ _ _ (.request (.run {})) 2 _ .start rfl
  have jumped := @Bench.Passed.next _ _ _ (.request (.jump 0)) 0 _ ran rfl
  obtain ⟨moves, _⟩ := machine_lives_once rfl jumped
  obtain ⟨_, stays⟩ := moves _ .start
  obtain ⟨_, refused⟩ := stays rfl
  exact ⟨start, _, rfl, jumped, rfl, rfl, refused⟩

end TapeMachine
