import TapeMachine.Proofs.Loops
import TapeMachine.Proofs.Stepping

/-! Plain runs: instructions are handed out in order, and nothing watches. Each turn of such a run
is one tick, so after `n` turns the configuration is the one after `n` ticks. -/

namespace TapeMachine

/-- A guard that nothing can make stop the machine. -/
structure Guard.Idle (g : Guard) : Prop where
  request : g.cancelled = false
  event : g.event = none
  deadline : g.deadline = none

namespace Machine

/-- A run of a machine comes to an outcome. -/
def RunEnds (m : Machine) (o : RunOptions) (outcome : RunOutcome) : Prop :=
  ∃ fuel, m.run fuel o = some outcome

theorem runEnds_unique {m : Machine} {o : RunOptions} {outcome other : RunOutcome}
    (h : m.RunEnds o outcome) (h' : m.RunEnds o other) : outcome = other := by
  obtain ⟨fuel, h⟩ := h
  obtain ⟨fuel', h'⟩ := h'
  rw [run] at h h'
  by_cases ready : m.state = .ready
  · rw [if_pos ready, drive, Option.map_eq_some_iff] at h h'
    obtain ⟨answer, ended, rfl⟩ := h
    obtain ⟨answer', ended', rfl⟩ := h'
    rw [Loop.ends_unique ⟨fuel, ended⟩ ⟨fuel', ended'⟩]
  · rw [if_neg ready] at h h'
    cases h
    cases h'
    rfl

structure Plain (m : Machine) : Prop extends m.Ready where
  linear : m.traversal = .linear
  idle : m.guard.Idle

variable {m m' : Machine} {c : Config} {k n : Nat}

theorem clearance_ungated (ungated : ∀ signals outlet, m.traversal ≠ .gated signals outlet) :
    m.clearance = ((m.guard.check m.ip).1, m.withGuard (m.guard.check m.ip).2) := by
  have checked : m.check = ((m.guard.check m.ip).1, m.withGuard (m.guard.check m.ip).2) := rfl
  rw [clearance, checked]
  generalize m.guard.check m.ip = answer
  obtain ⟨result, g⟩ := answer
  cases result with
  | error f => rfl
  | ok =>
    cases traversal : m.traversal with
    | linear => simp only [leave, withGuard, traversal]
    | recording left => simp only [leave, withGuard, traversal]
    | gated signals outlet => exact absurd traversal (ungated signals outlet)

theorem mark_ungated (ungated : ∀ signals outlet, m.traversal ≠ .gated signals outlet) (o : Op)
    (k : Nat) (signals : List Signal) (outlet : Outlet) :
    (m.mark o k).traversal ≠ .gated signals outlet := by
  intro gated
  cases traversal : m.traversal with
  | linear => simp [mark, traversal] at gated
  | recording left => simp [mark, traversal] at gated
  | gated signals outlet => exact ungated signals outlet traversal

/-- A step for which leave is given: one tick, and the count. -/
theorem Safe.step_cleared (safe : m.Safe) (live : m.state.isFinal = false)
    (more : m.more = true) {o : Op} {t : Option Int} (ip : m.ip = some (k : Int))
    (found : m.program.instructions[k]? = some ⟨.op o, t⟩) {g : Guard}
    (passed : m.running.clearance = (.ok (), m.running.withGuard g)) :
    m.step =
      match m.config.tick m.program with
      | (.error f, c) => (.error f, (((m.running.mark o k).withConfig c).withGuard g).fail f)
      | (.ok (), c) => (.ok (), (((m.running.mark o k).withConfig c).withGuard g).counted) := by
  rw [safe.step live more ip found, passed]
  rfl

theorem turn_over (safe : m.Safe) (spent : m.more = false) :
    turn m = .done (.ok (), m.complete) := by
  have told := safe.hasNext
  rw [spent] at told
  simp only [turn, told]

theorem turn_step (safe : m.Safe) (more : m.more = true) :
    turn m =
      match m.step with
      | (.error f, m) => .done (.error f, m)
      | (.ok (), m) => .again m := by
  have told := safe.hasNext
  rw [more] at told
  rcases step : m.step with ⟨_ | _, n⟩
  · simp only [turn, told, step]
  · simp only [turn, told, step]

/-- In order, there is more to hand out as long as the index is not at the end. -/
theorem more_linear (linear : m.traversal = .linear) (ip : m.ip = some (k : Int)) :
    m.more = decide (k < m.program.length) := by
  simp only [more, hasNext, linear, beforeEnd, ip]
  simp

namespace Plain

theorem step (plain : m.Plain) {o : Op} {t : Option Int} (ip : m.ip = some (k : Int))
    (found : m.program.instructions[k]? = some ⟨.op o, t⟩) :
    m.step =
      match m.config.tick m.program with
      | (.error f, c) => (.error f, ((m.running.mark o k).withConfig c).fail f)
      | (.ok (), c) => (.ok (), ((m.running.mark o k).withConfig c).counted) := by
  have more : m.more = true := by
    rw [more_linear plain.linear ip]
    exact decide_eq_true (Program.lt_length found)
  have passed : m.running.clearance = (.ok (), m.running.withGuard m.guard) := by
    have ungated : ∀ signals outlet, m.running.traversal ≠ .gated signals outlet := by
      intro signals outlet gated
      have linear := plain.linear
      rw [show m.traversal = _ from gated] at linear
      cases linear
    have idle := plain.idle
    have checked : m.running.guard.check m.running.ip = (.ok (), m.guard) :=
      Guard.check_idle idle.request idle.event idle.deadline _
    rw [clearance_ungated ungated, checked]
  exact plain.toSafe.step_cleared (plain.live more) more ip found passed

/-- A tick that succeeds is a turn of the run. -/
theorem turn_tick (plain : m.Plain) (ticked : m.config.tick m.program = (.ok (), c)) :
    ∃ m', turn m = .again m' ∧ m'.Plain ∧ m'.program = m.program ∧ m'.config = c ∧
      m'.steps = m.steps + 1 := by
  obtain ⟨k, ip, le⟩ := plain.inside
  have more : m.more = true := by
    rw [more_linear plain.linear ip]
    rcases Nat.lt_or_eq_of_le le with lt | rfl
    · exact decide_eq_true lt
    · have none := Config.tick_end ip
      rw [none] at ticked
      cases ticked
  obtain ⟨k, o, t, ip, found⟩ := plain.next more
  have step := plain.step ip found
  have inside := Config.tick_inside plain.program plain.inside
  rw [ticked] at step inside
  have safe : ((m.running.mark o k).withConfig c).Safe := ⟨plain.program, inside⟩
  refine ⟨_, ?_, ⟨(safe.counted_midway rfl).toReady, ?_, ?_⟩, ?_, ?_, ?_⟩
  · rw [turn_step plain.toSafe more, step]
  · simp [mark, withConfig, running, plain.linear]
  · rw [counted_guard]
    exact plain.idle
  · rw [counted_program]
    rfl
  · rw [counted_config]
    rfl
  · rw [counted_steps]
    rfl

/-- A tick that fails ends the run. -/
theorem turn_fault {f : Fault} (plain : m.Plain) (more : m.more = true)
    (ticked : m.config.tick m.program = (.error f, c)) :
    ∃ m' : Machine, turn m = .done (.error f, m'.fail f) ∧ m'.program = m.program ∧
      m'.config = c ∧ m'.steps = m.steps ∧ m'.state = .running := by
  obtain ⟨k, o, t, ip, found⟩ := plain.next more
  have step := plain.step ip found
  rw [ticked] at step
  refine ⟨(m.running.mark o k).withConfig c, ?_, rfl, rfl, rfl, rfl⟩
  rw [turn_step plain.toSafe more, step]

/-- As many turns as ticks. -/
theorem after_ticks (plain : m.Plain) (ticked : m.config.ticks m.program n = some c) :
    ∃ m', Loop.after turn n m = some m' ∧ m'.Plain ∧ m'.program = m.program ∧ m'.config = c ∧
      m'.steps = m.steps + n := by
  induction n generalizing m with
  | zero =>
    cases ticked
    exact ⟨m, rfl, plain, rfl, rfl, rfl⟩
  | succ n ih =>
    rw [Config.ticks] at ticked
    cases first : m.config.tick m.program with
    | mk result d =>
      rw [first] at ticked
      cases result with
      | error f => cases ticked
      | ok =>
        obtain ⟨m₁, again, plain₁, program, config, steps⟩ := plain.turn_tick first
        have rest : m₁.config.ticks m₁.program n = some c := by
          rw [config, program]
          exact ticked
        obtain ⟨m', reached, plain', program', config', steps'⟩ := ih plain₁ rest
        refine ⟨m', ?_, plain', program'.trans program, config', by omega⟩
        simp only [Loop.after, again, reached]

end Plain
end Machine
end TapeMachine
