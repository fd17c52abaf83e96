import TapeMachine.Proofs.Correctness
import TapeMachine.Proofs.Debugging

/-! The ways of driving a machine agree: running it, stepping it until it is done, and advancing a
debugger on it pass through the same configurations, end or diverge together, and raise the same
fault. A deadline stops a run and a debugger at the same instruction. -/

namespace TapeMachine
namespace Machine

/-- One turn of stepping a machine until its state is final or a step fails. -/
def stepTurn (m : Machine) : Turn Machine (Except Fault Unit × Machine) :=
  if m.state.isFinal then .done (.ok (), m)
  else
    match m.step with
    | (.error f, m) => .done (.error f, m)
    | (.ok (), m) => .again m

/-- A machine that has not run, and was not left anything by a run. -/
structure Unstarted (m : Machine) : Prop where
  state : m.state = .ready
  event : m.guard.event = none
  deadline : m.guard.deadline = none
  report : m.report = {}
  outlet : ∀ signals, m.traversal ≠ .gated signals .report

variable {m : Machine} {o : RunOptions} {outcome : RunOutcome}

/-- Readying it for a run only sets the deadline. -/
theorem Unstarted.arm (fresh : m.Unstarted) (timeout : Option Float) :
    m.arm { timeout } = m.withGuard { m.guard with
      deadline := (m.guard.clock.deadline timeout).1
      clock := (m.guard.clock.deadline timeout).2 } := by
  have outlived : m.traversal.outlive = m.traversal := by
    have outlet := fresh.outlet
    generalize m.traversal = t at outlet ⊢
    rcases t with _ | _ | ⟨signals, _ | _ | _ | _⟩
    all_goals try rfl
    exact absurd rfl (outlet signals)
  simp only [Machine.arm, Guard.arm, traverse, outlived, withGuard, fresh.event, ← fresh.report]

theorem Unstarted.arm_untimed (fresh : m.Unstarted) : m.arm {} = m := by
  rw [fresh.arm none]
  simp only [withGuard, Clock.deadline, ← fresh.deadline]

/-- A run that reports no snapshots comes out as its loop ends. -/
theorem runEnds_iff (ready : m.state = .ready) (quiet : o.snapshots = false) :
    m.RunEnds o outcome ↔ ∃ answer, Loop.Ends turn (m.arm o) answer ∧
      outcome = ⟨answer.1, answer.2.report.toList, answer.2⟩ := by
  constructor
  · rintro ⟨fuel, ended⟩
    rw [run, if_pos ready, drive, Option.map_eq_some_iff] at ended
    obtain ⟨answer, ended, rfl⟩ := ended
    refine ⟨answer, ⟨fuel, ended⟩, ?_⟩
    simp [conclude, quiet]
  · rintro ⟨answer, ⟨fuel, ended⟩, rfl⟩
    refine ⟨fuel, ?_⟩
    rw [run, if_pos ready, drive, ended]
    simp [conclude, quiet]

/-! ## Steps -/

theorem Midway.stepTurn (midway : m.Midway) :
    Turn.Rel (fun m n => m = n ∧ m.Midway) Eq m.stepTurn m.turn := by
  cases more : m.more with
  | false =>
    have completed := midway.spent more
    have complete : m.complete = m := by
      rw [Machine.complete, ← completed]
    rw [turn_over midway.toSafe more, complete, Machine.stepTurn, completed]
    exact .done rfl
  | true =>
    have live := midway.live more
    rw [turn_step midway.toSafe more, Machine.stepTurn, live]
    rcases midway.step_cases live more with ⟨f, m', stepped, _⟩ | ⟨m', stepped, next⟩
    · rw [stepped]
      exact .done rfl
    · rw [stepped]
      exact .again ⟨rfl, next⟩

/-- What is seen of stepping is what is seen of running, and both end alike. -/
structure Parallel (m : Machine) : Prop where
  passes : ∀ n, Loop.seen sight (·.2.sight) stepTurn n m = Loop.seen sight (·.2.sight) turn n m
  ends : ∀ answer, Loop.Ends stepTurn m answer ↔ Loop.Ends turn m answer

theorem Midway.parallel (midway : m.Midway) : m.Parallel := by
  have step : ∀ s t : Machine, s = t ∧ s.Midway →
      Turn.Rel (fun m n => m = n ∧ m.Midway) Eq s.stepTurn t.turn := by
    rintro s _ ⟨rfl, midway⟩
    exact midway.stepTurn
  constructor
  · intro n
    refine Loop.seen_rel step ?_ ?_ n ⟨rfl, midway⟩
    · rintro s _ ⟨rfl, _⟩
      rfl
    · rintro r _ rfl
      rfl
  · intro answer
    have turns : ∀ fuel, Loop.turns Machine.stepTurn fuel m = Loop.turns turn fuel m := by
      intro fuel
      have both := Loop.turns_rel step fuel (s := m) (t := m) ⟨rfl, midway⟩
      generalize Loop.turns Machine.stepTurn fuel m = a, Loop.turns turn fuel m = b at both
      cases both with
      | none => rfl
      | some same => rw [same]
    simp only [Loop.Ends, turns]

/-- At the end of a program a run completes at once, and stepping takes one step to find out. -/
theorem parallel_over (safe : m.Safe) (live : m.state.isFinal = false) (spent : m.more = false) :
    m.Parallel := by
  have run := turn_over safe spent
  have first : m.stepTurn = .again m.complete := by
    rw [stepTurn, live, safe.step_over live spent]
    rfl
  have second : m.complete.stepTurn = .done (.ok (), m.complete) := rfl
  constructor
  · intro n
    rcases n with _ | _ | n
    · rfl
    · simp only [Loop.seen, first, run]
    · simp only [Loop.seen, first, second, run]
  · intro answer
    constructor
    · intro ends
      have done : Loop.Ends stepTurn m (.ok (), m.complete) :=
        ⟨2, by simp only [Loop.turns, first, second]⟩
      rw [Loop.ends_unique ends done]
      exact ⟨1, by simp only [Loop.turns, run]⟩
    · intro ends
      have done : Loop.Ends turn m (.ok (), m.complete) := ⟨1, by simp only [Loop.turns, run]⟩
      rw [Loop.ends_unique ends done]
      exact ⟨2, by simp only [Loop.turns, first, second]⟩

theorem Safe.parallel (safe : m.Safe) (live : m.state.isFinal = false) : m.Parallel := by
  cases more : m.more with
  | false => exact parallel_over safe live more
  | true =>
    refine Midway.parallel ⟨⟨safe, fun _ => live⟩, ?_⟩
    intro spent
    rw [more] at spent
    cases spent

end Machine

/-! ## Advances -/

namespace Debugger

/-- One turn of advancing a debugger until it has finished or an advance fails. -/
def advanceTurn (d : Debugger) : Turn Debugger (Except Fault Snapshot × Debugger) :=
  if d.finished then .done (d.snapshot, d)
  else
    match d.advance with
    | (.error f, d) => .done (.error f, d)
    | (.ok _, d) => .again d

/-- A way of driving a debugger that does what a run of the machine does: what is seen turn by
turn is the same, both end or neither, and where they end, they raise the same fault or none and
are left in states of the same name. -/
structure Mirrors (d : Debugger)
    (turn : Debugger → Turn Debugger (Except Fault Snapshot × Debugger)) (m : Machine)
    (o : RunOptions) : Prop where
  passes : ∀ n, Loop.seen (·.machine.sight) (·.2.machine.sight) turn n d =
    Loop.seen Machine.sight (·.2.sight) Machine.turn n (m.arm o)
  together : (∃ answer, Loop.Ends turn d answer) ↔ ∃ outcome, m.RunEnds o outcome
  ends : ∀ outcome, m.RunEnds o outcome → ∃ r d', Loop.Ends turn d (r, d') ∧
    r.map (fun _ => ()) = outcome.result ∧ d'.state.name = outcome.machine.state.name ∧
    d'.machine.sight = outcome.machine.sight

variable {m : Machine} {d : Debugger} {o : RunOptions}

/-- Whether the end is looked for before advancing or the debugger's waiting is. -/
theorem advanceTurn_eq (idle : d.state ≠ .running) : d.advanceTurn = d.turn := by
  unfold advanceTurn turn finished
  cases state : d.state with
  | running => exact absurd state idle
  | waiting => rfl
  | completed => rfl
  | failed => rfl
  | cancelled => rfl

/-- Turns that correspond make drivers that agree. -/
theorem mirrors_of_turns {R : Machine → Debugger → Prop}
    {turn : Debugger → Turn Debugger (Except Fault Snapshot × Debugger)}
    (step : ∀ m d, R m d → Turn.Rel R Alike m.turn (turn d))
    (sight : ∀ m d, R m d → m.sight = d.machine.sight) (ready : m.state = .ready)
    (quiet : o.snapshots = false) (start : R (m.arm o) d) : d.Mirrors turn m o := by
  have turns := fun fuel => Loop.turns_rel step fuel start
  refine ⟨?_, ⟨?_, ?_⟩, ?_⟩
  · intro n
    exact (Loop.seen_rel step sight (fun _ _ alike => alike.sight.symm) n start).symm
  · rintro ⟨answer, fuel, ended⟩
    have both := turns fuel
    rw [ended] at both
    generalize run : Loop.turns Machine.turn fuel (m.arm o) = ran at both
    cases both with
    | some alike => exact ⟨_, (Machine.runEnds_iff ready quiet).mpr ⟨_, ⟨fuel, run⟩, rfl⟩⟩
  · rintro ⟨outcome, ended⟩
    obtain ⟨answer, ⟨fuel, run⟩, _⟩ := (Machine.runEnds_iff ready quiet).mp ended
    have both := turns fuel
    rw [run] at both
    generalize driven : Loop.turns turn fuel d = ran at both
    cases both with
    | some alike => exact ⟨_, fuel, driven⟩
  · intro outcome ended
    obtain ⟨answer, ⟨fuel, run⟩, rfl⟩ := (Machine.runEnds_iff ready quiet).mp ended
    have both := turns fuel
    rw [run] at both
    generalize driven : Loop.turns turn fuel d = ran at both
    cases both with
    | some alike => exact ⟨_, _, ⟨fuel, driven⟩, alike.result, alike.state, alike.sight⟩

theorem stateFor_ne_running (more : Bool) : stateFor more ≠ .running := by
  cases more <;> simp [stateFor]

/-- Both ways of advancing a debugger mirror a run whose turns correspond to the debugger's. -/
theorem both_mirror {R : Machine → Debugger → Prop}
    (step : ∀ m d, R m d → Turn.Rel R Alike m.turn d.turn)
    (sight : ∀ m d, R m d → m.sight = d.machine.sight)
    (state : ∀ m d, R m d → d.state = stateFor m.more) (ready : m.state = .ready)
    (quiet : o.snapshots = false) (start : R (m.arm o) d) :
    d.Mirrors turn m o ∧ d.Mirrors advanceTurn m o := by
  refine ⟨mirrors_of_turns step sight ready quiet start,
    mirrors_of_turns ?_ sight ready quiet start⟩
  intro m d h
  have idle : d.state ≠ .running := by
    rw [state m d h]
    exact stateFor_ne_running m.more
  rw [advanceTurn_eq idle]
  exact step m d h

theorem create_ok (safe : m.Safe) (timeout : Option Float) :
    create m timeout = .ok
      { machine := m.withGuard { m.guard with clock := (m.guard.clock.deadline timeout).2 }
        deadline := (m.guard.clock.deadline timeout).1
        state := stateFor m.more } := by
  have told : (m.withGuard { m.guard with clock := (m.guard.clock.deadline timeout).2 }).hasNext =
      .ok m.more := safe.hasNext
  simp only [create, told, Except.map]

end Debugger

namespace Machine

variable {source : Source} {m : Machine}

/-- Running a machine, stepping it and advancing a debugger on it agree, on every compiled
program, whatever the streams raise; and so do a run and a debugger that are given the same
timeout, whatever the clock says. Had somebody asked the machine to cancel before, the run would
meet that request first and the debugger the deadline; and a run asks the clock at a gate, too. -/
theorem drivers_agree (compiled : compile source = .ok m.program) (fresh : m.Unstarted)
    (inside : m.config.Inside m.program) :
    (∀ n, Loop.seen sight (·.2.sight) stepTurn n m =
      Loop.seen sight (·.2.sight) turn n (m.arm {})) ∧
    (∀ r m', Loop.Ends stepTurn m (r, m') ↔ ∃ reported, m.RunEnds {} ⟨r, reported, m'⟩) ∧
    (∃ d, Debugger.create m none = .ok d ∧ d.Mirrors Debugger.turn m {} ∧
      d.Mirrors Debugger.advanceTurn m {}) ∧
    ((∀ signals outlet, m.traversal ≠ .gated signals outlet) → m.guard.cancelled = false →
      ∀ timeout, ∃ d, Debugger.create m (some timeout) = .ok d ∧
        d.Mirrors Debugger.turn m { timeout := some timeout } ∧
        d.Mirrors Debugger.advanceTurn m { timeout := some timeout }) := by
  have safe : m.Safe := ⟨compile_sound compiled, inside⟩
  have live : m.state.isFinal = false := by
    rw [fresh.state]
    rfl
  have parallel := safe.parallel live
  refine ⟨?_, ?_, ?_, ?_⟩
  · rw [fresh.arm_untimed]
    exact parallel.passes
  · intro r m'
    rw [parallel.ends]
    constructor
    · intro ends
      refine ⟨m'.report.toList, (runEnds_iff fresh.state rfl).mpr ⟨(r, m'), ?_, rfl⟩⟩
      rw [fresh.arm_untimed]
      exact ends
    · rintro ⟨reported, ended⟩
      obtain ⟨answer, ends, same⟩ := (runEnds_iff fresh.state rfl).mp ended
      cases same
      rw [fresh.arm_untimed] at ends
      exact ends
  · refine ⟨_, Debugger.create_ok safe none, ?_⟩
    refine Debugger.both_mirror (fun _ _ => Debugger.Same.turn) ?_ ?_ fresh.state rfl ?_
    · intro m d same
      rw [same.machine]
    · exact fun m d same => same.state
    · rw [fresh.arm_untimed]
      exact ⟨⟨safe, fun _ => live⟩, rfl, rfl, rfl⟩
  · intro ungated request timeout
    refine ⟨_, Debugger.create_ok safe (some timeout), ?_⟩
    refine Debugger.both_mirror (fun _ _ => Debugger.Timed.turn) ?_ ?_ fresh.state rfl ?_
    · intro m d timed
      rw [timed.machine]
      rfl
    · exact fun m d timed => timed.state
    · rw [fresh.arm]
      refine ⟨⟨⟨safe.program, safe.inside⟩, fun _ => live⟩, ungated, request, fresh.event, ?_, rfl,
        rfl⟩
      simp only [withGuard, fresh.deadline]

/-- However an echo on one byte of input is driven, with a timeout or without. -/
theorem echo_drivers_agree :
    ∃ m : Machine, compile (.text "+[,.]") = .ok m.program ∧ m.Unstarted ∧
      m.config.Inside m.program ∧
      (∀ r m', Loop.Ends stepTurn m (r, m') ↔ ∃ reported, m.RunEnds {} ⟨r, reported, m'⟩) ∧
      (∃ d, Debugger.create m none = .ok d ∧ d.Mirrors Debugger.turn m {}) ∧
      ∀ timeout, ∃ d, Debugger.create m (some timeout) = .ok d ∧
        d.Mirrors Debugger.advanceTurn m { timeout := some timeout } := by
  obtain ⟨p, compiled⟩ : ∃ p, compile (.text "+[,.]") = .ok p := ⟨_, rfl⟩
  let m : Machine := onTape p .blank (.ofBytes [0x61]) .reliable
  have fresh : m.Unstarted := ⟨rfl, rfl, rfl, rfl, fun _ => nofun⟩
  have inside : m.config.Inside m.program := (plain_onTape (compile_sound compiled) _ _ _).inside
  obtain ⟨_, steps, ⟨d, created, runs, _⟩, timed⟩ := @drivers_agree _ m compiled fresh inside
  refine ⟨m, compiled, fresh, inside, steps, ⟨d, created, runs⟩, fun timeout => ?_⟩
  obtain ⟨d, created, _, advances⟩ := timed (fun _ _ => nofun) rfl timeout
  exact ⟨d, created, advances⟩

end Machine
end TapeMachine
