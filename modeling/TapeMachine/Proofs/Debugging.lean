import TapeMachine.Debugger.Basic
import TapeMachine.Proofs.PlainRun

/-! Turns of a debugger beside turns of a run. With no deadline, both act on one machine; with a
deadline, the debugger asks the clock before each step of a machine that has none, where the run
asks it within the step. Either way the two turns correspond. -/

namespace TapeMachine

/-- What is seen of a machine while it is driven: tape, index and streams, the steps taken, and
how often the clock was read. -/
structure Sight where
  config : Config
  steps : Nat
  clock : Clock

def Machine.sight (m : Machine) : Sight := ⟨m.config, m.steps, m.guard.clock⟩

namespace Debugger

/-- Answers of a run and of a debugger that tell the same. -/
structure Alike (answer : Except Fault Unit × Machine) (r : Except Fault Snapshot × Debugger) :
    Prop where
  result : r.1.map (fun _ => ()) = answer.1
  state : r.2.state.name = answer.2.state.name
  sight : r.2.machine.sight = answer.2.sight

theorem waiting_of_more {d : Debugger} {m : Machine} (state : d.state = stateFor m.more)
    (more : m.more = true) : d.state = .waiting := by
  rw [state, more]
  rfl

theorem completed_of_more {d : Debugger} {m : Machine} (state : d.state = stateFor m.more)
    (spent : m.more = false) : d.state = .completed := by
  rw [state, spent]
  rfl

/-- A fault leaves the debugger and the machine in states of the same name. -/
theorem afterFault_alike {d : Debugger} {m : Machine} (f : Fault) (running : d.state = .running)
    (state : m.state = .running) (sight : d.machine.sight = m.sight) :
    Alike (.error f, m.fail f) (.error f, d.afterFault f) := by
  unfold afterFault
  by_cases interrupt : f.isInterrupt
  · rw [if_pos interrupt]
    refine ⟨rfl, ?_, sight⟩
    simp [Machine.fail, Fault.aftermath, interrupt, running, state, DebugState.name, RunState.name]
  · rw [if_neg interrupt]
    refine ⟨rfl, ?_, sight⟩
    by_cases cancellation : f.isCancellation <;>
      simp [Machine.fail, Fault.aftermath, interrupt, cancellation, DebugState.name, RunState.name]

/-- Where nothing is left to hand out, a run completes and the debugger has finished. -/
theorem turn_finished {d : Debugger} {m : Machine} (safe : d.machine.Safe)
    (finished : d.state = .completed) (sight : d.machine.sight = m.sight) :
    ∃ r, d.turn = .done r ∧ Alike (.ok (), m.complete) r := by
  refine ⟨(.ok d.machine.picture, d), ?_, rfl, ?_, sight⟩
  · simp [turn, finished, snapshot, safe.snapshot]
  · rw [finished]
    rfl

theorem turn_waiting {d : Debugger} (waiting : d.state = .waiting) :
    d.turn =
      match d.advance with
      | (.error f, d) => .done (.error f, d)
      | (.ok _, d) => .again d := by
  rcases advanced : d.advance with ⟨_ | _, next⟩
  · simp only [turn, if_pos waiting, advanced]
  · simp only [turn, if_pos waiting, advanced]

theorem stepOnce_error {d : Debugger} {f : Fault} {m : Machine}
    (stepped : d.machine.step = (.error f, m)) :
    d.stepOnce = (.error f, ({ d with machine := m, state := .running }).afterFault f) := by
  simp only [stepOnce, stepped]

theorem stepOnce_ok {d : Debugger} {m : Machine} (stepped : d.machine.step = (.ok (), m))
    (safe : m.Safe) :
    d.stepOnce = (.ok m.picture, { d with machine := m, state := stateFor m.more }) := by
  simp only [stepOnce, stepped, safe.hasNext, safe.snapshot]

/-! ## Without a deadline -/

/-- A debugger that has no deadline, on the machine that is run. -/
structure Same (m : Machine) (d : Debugger) : Prop where
  ready : m.Ready
  machine : d.machine = m
  deadline : d.deadline = none
  state : d.state = stateFor m.more

theorem Same.turn {m : Machine} {d : Debugger} (h : Same m d) :
    Turn.Rel Same Alike m.turn d.turn := by
  obtain ⟨ready, machine, deadline, state⟩ := h
  have stepping : d.machine.step = m.step := by rw [machine]
  cases more : m.more with
  | false =>
    have finished := completed_of_more state more
    have safe : d.machine.Safe := by
      rw [machine]
      exact ready.toSafe
    obtain ⟨r, answered, alike⟩ := turn_finished safe finished (congrArg Machine.sight machine)
    rw [Machine.turn_over ready.toSafe more, answered]
    exact .done alike
  | true =>
    have waiting := waiting_of_more state more
    have advance : d.advance = d.stepOnce := by
      simp only [Debugger.advance, if_pos waiting, expired, deadline]
    rw [Machine.turn_step ready.toSafe more, turn_waiting waiting, advance]
    rcases ready.step_cases (ready.live more) more with
      ⟨f, m', stepped, _, running⟩ | ⟨m', stepped, midway⟩
    · rw [stepOnce_error (stepping.trans stepped), stepped]
      exact .done (afterFault_alike f rfl running rfl)
    · rw [stepOnce_ok (stepping.trans stepped) midway.toSafe, stepped]
      exact .again ⟨midway.toReady, rfl, deadline, rfl⟩

/-! ## With a deadline -/

/-- A debugger that has the deadline of the run, on a machine that differs from the one that is
run in having none. -/
structure Timed (m : Machine) (d : Debugger) : Prop where
  ready : m.Ready
  ungated : ∀ signals outlet, m.traversal ≠ .gated signals outlet
  request : m.guard.cancelled = false
  event : m.guard.event = none
  machine : d.machine = m.withGuard { m.guard with deadline := none }
  deadline : d.deadline = m.guard.deadline
  state : d.state = stateFor m.more

/-- The debugger asks its clock what the run asks its own. -/
theorem Timed.asks {m : Machine} {d : Debugger} (h : Timed m d) (ip : Option Int) :
    ∃ (late : Bool) (g : Guard),
      d.expired = (late, d.withMachine (m.withGuard { g with deadline := none })) ∧
      m.guard.check ip =
        (if late then .error (Guard.cancellation "deadline exceeded" ip) else .ok (), g) ∧
      g.cancelled = false ∧ g.event = none ∧ g.deadline = m.guard.deadline := by
  obtain ⟨_, _, request, event, machine, deadline, _⟩ := h
  have checked : m.guard.check ip = m.guard.checkDeadline ip := by
    simp [Guard.check, request, event]
  rw [checked, Guard.checkDeadline, expired, deadline, machine]
  cases dated : m.guard.deadline with
  | none =>
    have unchanged : d.withMachine (m.withGuard { m.guard with deadline := none }) = d := by
      rw [← machine]
      rfl
    exact ⟨false, m.guard, by rw [unchanged], rfl, request, event, dated⟩
  | some deadline =>
    refine ⟨decide ((m.guard.clock.read).1 ≥ deadline),
      { m.guard with clock := m.guard.clock.read.2 }, rfl, ?_, request, event, dated⟩
    by_cases late : m.guard.clock.read.1 ≥ deadline <;> simp [late, dated]

theorem expire_waiting {d : Debugger} {k : Int} (waiting : d.state = .waiting)
    (ip : d.machine.ip = some k) :
    d.expire = (Guard.cancellation "deadline exceeded" (some k),
      { d with
        machine := d.machine.cancel
        state := .cancelled
        fault := some (Guard.cancellation "deadline exceeded" (some k)) }) := by
  have unfinished : d.finished = false := by
    rw [finished, waiting]
    rfl
  simp only [expire, Machine.current, ip, cancel, unfinished]
  rfl

section Turns

variable {m : Machine} {d : Debugger}

theorem Timed.turn_over (h : Timed m d) (spent : m.more = false) :
    Turn.Rel Timed Alike m.turn d.turn := by
  have finished := completed_of_more h.state spent
  have safe : d.machine.Safe := by
    rw [h.machine]
    exact ⟨h.ready.program, h.ready.inside⟩
  have sight : d.machine.sight = m.sight := by
    rw [h.machine]
    rfl
  obtain ⟨r, answered, alike⟩ := turn_finished safe finished sight
  rw [Machine.turn_over h.ready.toSafe spent, answered]
  exact .done alike

/-- Past the deadline the run fails in its step, and the debugger gives up before it. -/
theorem Timed.turn_late (h : Timed m d) (more : m.more = true) {g : Guard}
    (expired : d.expired = (true, d.withMachine (m.withGuard { g with deadline := none })))
    (checked : m.guard.check m.ip =
      (.error (Guard.cancellation "deadline exceeded" m.ip), g)) :
    Turn.Rel Timed Alike m.turn d.turn := by
  have waiting := waiting_of_more h.state more
  obtain ⟨k, o, t, ip, found⟩ := h.ready.next more
  have refused := @Machine.clearance_ungated m.running h.ungated
  rw [show m.running.guard.check m.running.ip = _ from checked] at refused
  have turn : m.turn = .done (.error (Guard.cancellation "deadline exceeded" m.ip),
      (m.running.withGuard g).fail (Guard.cancellation "deadline exceeded" m.ip)) := by
    rw [Machine.turn_step h.ready.toSafe more, h.ready.step (h.ready.live more) more ip found,
      refused]
  have expires := @expire_waiting (d.withMachine (m.withGuard { g with deadline := none })) k
    waiting ip
  rw [turn, turn_waiting waiting]
  simp only [advance, if_pos waiting, expired, expires, ip]
  exact .done ⟨rfl, rfl, rfl⟩

/-- Before the deadline both execute the instruction. -/
theorem Timed.turn_step (h : Timed m d) (more : m.more = true) {g : Guard}
    (expired : d.expired = (false, d.withMachine (m.withGuard { g with deadline := none })))
    (checked : m.guard.check m.ip = (.ok (), g)) (request : g.cancelled = false)
    (event : g.event = none) (dated : g.deadline = m.guard.deadline) :
    Turn.Rel Timed Alike m.turn d.turn := by
  have waiting := waiting_of_more h.state more
  obtain ⟨k, o, t, ip, found⟩ := h.ready.next more
  let undated : Guard := { g with deadline := none }
  let other : Machine := m.withGuard undated
  have passed := @Machine.clearance_ungated m.running h.ungated
  rw [show m.running.guard.check m.running.ip = _ from checked] at passed
  have otherPassed : other.running.clearance = (.ok (), other.running.withGuard undated) := by
    have idle := @Guard.check_idle undated request event rfl other.ip
    rw [@Machine.clearance_ungated other.running h.ungated,
      show other.running.guard.check other.running.ip = _ from idle]
  have live := h.ready.live more
  have step := h.ready.step_cleared live more ip found passed
  have otherSafe : other.Safe := ⟨h.ready.program, h.ready.inside⟩
  have otherStep := otherSafe.step_cleared live more ip found otherPassed
  have advance : d.advance = (d.withMachine other).stepOnce := by
    simp only [Debugger.advance, if_pos waiting, expired]
    rfl
  have ticked := h.ready.toSafe.ticked o k
  rw [Machine.turn_step h.ready.toSafe more, turn_waiting waiting, advance, step]
  rw [show other.config.tick other.program = m.config.tick m.program from rfl] at otherStep
  generalize m.config.tick m.program = answer at ticked otherStep ⊢
  obtain ⟨result, c⟩ := answer
  cases result with
  | error f =>
    rw [stepOnce_error otherStep]
    exact .done (afterFault_alike f rfl rfl rfl)
  | ok =>
    let n : Machine := (m.running.mark o k).withConfig c
    have counted : (n.withGuard g).counted = n.counted.withGuard g := Machine.counted_withGuard n g
    have otherCounted := Machine.counted_withGuard n undated
    have safe : (n.withGuard undated).counted.Safe :=
      Machine.Safe.counted ⟨ticked.program, ticked.inside⟩
    have ready : n.counted.Midway :=
      Machine.Safe.counted_midway ⟨ticked.program, ticked.inside⟩ rfl
    have ungated : ∀ signals outlet, n.counted.traversal ≠ .gated signals outlet := by
      intro signals outlet
      rw [Machine.counted_traversal]
      exact Machine.mark_ungated h.ungated o k signals outlet
    rw [stepOnce_ok otherStep safe]
    change Turn.Rel Timed Alike (.again (n.withGuard g).counted)
      (.again { d with
        machine := (n.withGuard undated).counted
        state := stateFor (n.withGuard undated).counted.more })
    rw [counted, otherCounted]
    exact .again ⟨⟨⟨ready.program, ready.inside⟩, ready.live⟩, ungated, request, event, rfl,
      h.deadline.trans dated.symm, rfl⟩

theorem Timed.turn (h : Timed m d) : Turn.Rel Timed Alike m.turn d.turn := by
  cases more : m.more with
  | false => exact h.turn_over more
  | true =>
    obtain ⟨late, g, expired, checked, request, event, dated⟩ := h.asks m.ip
    cases late with
    | true => exact h.turn_late more expired checked
    | false => exact h.turn_step more expired checked request event dated

end Turns

end Debugger
end TapeMachine
