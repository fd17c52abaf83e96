import TapeMachine.Proofs.Engine
import TapeMachine.Proofs.Handing

/-! The life of a machine, whatever its program: it begins ready, runs from the first step that
finds an instruction to hand out, and ends in one of three final states, which nothing leaves.
Nothing is assumed of the program, so that a step may also fail because its index was lost, or
because an instruction has no symbol to trace. -/

namespace TapeMachine

/-- The states that a state may become. -/
inductive RunState.Onward : RunState → RunState → Prop
  | stay {s : RunState} : Onward s s
  | started : Onward .ready .running
  | finished {s t : RunState} (live : s.isFinal = false) (final : t.isFinal = true) : Onward s t

namespace RunState.Onward

variable {s t u : RunState}

theorem trans (h : Onward s t) (h' : Onward t u) : Onward s u := by
  cases h with
  | stay => exact h'
  | started =>
    cases h' with
    | stay => exact .started
    | finished _ final => exact .finished rfl final
  | finished live final =>
    cases h' with
    | stay => exact .finished live final
    | started => cases final
    | finished live' _ =>
      rw [final] at live'
      cases live'

/-- Nothing comes back to the first state. -/
theorem ready (h : Onward s t) (ready : t = .ready) : s = .ready := by
  cases h with
  | stay => exact ready
  | started => rfl
  | finished _ final =>
    rw [ready] at final
    cases final

/-- A final state is never left. -/
theorem eq_of_final (h : Onward s t) (final : s.isFinal = true) : t = s := by
  cases h with
  | stay => rfl
  | started => cases final
  | finished live _ =>
    rw [final] at live
    cases live

end RunState.Onward

theorem Fault.not_interrupt_of_cancellation {f : Fault} (h : f.isCancellation = true) :
    f.isInterrupt = false := by
  cases f with
  | report r => rfl
  | _ => cases h

namespace Machine

variable {m n q : Machine} {f : Fault} {i : Instruction} {index : Int}

/-- A machine whose state and count of steps are those of another. -/
structure Still (m n : Machine) : Prop where
  state : n.state = m.state
  steps : n.steps = m.steps

/-- A machine that differs from another, its state apart, only in what surrounds it: what watches
it, the order in which it hands out instructions, and what is recorded of it. A request to cancel
is not taken back. -/
structure Akin (m n : Machine) : Prop where
  program : n.program = m.program
  config : n.config = m.config
  steps : n.steps = m.steps
  request : m.guard.cancelled = true → n.guard.cancelled = true

structure Unmoved (m n : Machine) : Prop extends m.Akin n where
  state : n.state = m.state

theorem Unmoved.still (h : m.Unmoved n) : m.Still n := ⟨h.state, h.steps⟩

theorem Unmoved.refl (m : Machine) : m.Unmoved m := ⟨⟨rfl, rfl, rfl, fun request => request⟩, rfl⟩

theorem Still.trans (h : m.Still n) (h' : n.Still q) : m.Still q :=
  ⟨h'.state.trans h.state, h'.steps.trans h.steps⟩

/-! ## One step -/

theorem hasNext_error (unknown : m.hasNext = .error f) : f = .lostBeforeEnd := by
  have lost : m.beforeEnd = .error f → f = .lostBeforeEnd := by
    intro unknown
    unfold beforeEnd at unknown
    cases ip : m.ip with
    | none =>
      rw [ip] at unknown
      cases unknown
      rfl
    | some i =>
      rw [ip] at unknown
      cases unknown
  unfold hasNext at unknown
  split at unknown
  · split at unknown
    · cases unknown
    · exact lost unknown
  · exact lost unknown

theorem Handing.still (h : m.Handing n) : m.Still n := ⟨h.state, h.steps⟩

theorem note_still (noted : m.note i index = .ok n) : m.Still n := by
  unfold note at noted
  cases tracing : m.tracing with
  | false =>
    rw [tracing] at noted
    cases noted
    exact ⟨rfl, rfl⟩
  | true =>
    rw [tracing] at noted
    cases symbol : i.symbol with
    | error f =>
      rw [symbol] at noted
      cases noted
    | ok c =>
      rw [symbol] at noted
      cases noted
      exact ⟨rfl, rfl⟩

theorem attempt_still (m : Machine) : m.Still m.attempt.2 := by
  have checked : m.Still m.check.2 := ⟨rfl, rfl⟩
  unfold attempt
  generalize m.check = answer at checked ⊢
  obtain ⟨_ | _, n⟩ := answer
  · exact checked
  · have handed := checked.trans n.next_handing.still
    simp only
    generalize n.next = answer at handed ⊢
    obtain ⟨_ | ⟨i, index⟩, q⟩ := answer
    · exact handed
    · cases noted : q.note i index with
      | error f =>
        simp only [noted]
        exact handed
      | ok u =>
        simp only [noted]
        have executed : u.Still (u.execute i index).2 := ⟨rfl, rfl⟩
        exact (handed.trans (note_still noted)).trans executed

/-- All that can come of a step, of any machine. -/
inductive Comes (m : Machine) : Except Fault Unit × Machine → Prop
  | refused (final : m.state.isFinal = true) : Comes m (.error (.notReady m.state), m)
  /-- The index was lost before the step. -/
  | lost (live : m.state.isFinal = false) (unknown : m.hasNext = .error .lostBeforeEnd) :
      Comes m (.error .lostBeforeEnd, m)
  | finished (live : m.state.isFinal = false) (spent : m.hasNext = .ok false) :
      Comes m (.ok (), m.complete)
  /-- The step was stopped, or its instruction failed. -/
  | failed {n : Machine} {f : Fault} (live : m.state.isFinal = false)
      (next : m.hasNext = .ok true) (still : m.running.Still n) : Comes m (.error f, n.fail f)
  | counted {n : Machine} (live : m.state.isFinal = false) (next : m.hasNext = .ok true)
      (state : n.state = .running) : Comes m (.ok (), n)
  /-- The instruction was executed, and lost the index. -/
  | astray {n : Machine} (live : m.state.isFinal = false) (next : m.hasNext = .ok true)
      (state : n.state = .running) : Comes m (.error .lostBeforeEnd, n)
  | completed {n : Machine} (live : m.state.isFinal = false) (next : m.hasNext = .ok true) :
      Comes m (.ok (), n.complete)

theorem step_comes (m : Machine) : m.Comes m.step := by
  cases live : m.state.isFinal with
  | true =>
    rw [step_final live]
    exact .refused live
  | false =>
    unfold step
    simp only [live, Bool.false_eq_true, if_false]
    cases next : m.hasNext with
    | error f =>
      cases hasNext_error next
      exact .lost live next
    | ok more =>
      cases more with
      | false => exact .finished live next
      | true =>
        have still := m.running.attempt_still
        change m.running.Still ({ m with state := .running } : Machine).attempt.2 at still
        simp only
        generalize ({ m with state := .running } : Machine).attempt = answer at still ⊢
        obtain ⟨f | _, n⟩ := answer
        · exact .failed live next still
        · let counting : Machine := { n with steps := n.steps + 1 }
          have state : counting.state = .running := still.state
          simp only [countStep]
          cases further : counting.hasNext with
          | error f =>
            cases hasNext_error further
            exact .astray live next state
          | ok more =>
            cases more with
            | true => exact .counted live next state
            | false => exact .completed live next

/-! ## The state and the count -/

/-- A machine that another may become. As long as it is ready, nothing is counted. -/
structure Onward (m n : Machine) : Prop where
  state : m.state.Onward n.state
  steps : n.state = .ready → n.steps = m.steps

theorem Still.onward (h : m.Still n) : m.Onward n := ⟨h.state ▸ .stay, fun _ => h.steps⟩

theorem Onward.refl (m : Machine) : m.Onward m := ⟨.stay, fun _ => rfl⟩

theorem Onward.trans (h : m.Onward n) (h' : n.Onward q) : m.Onward q := by
  refine ⟨h.state.trans h'.state, ?_⟩
  intro ready
  rw [h'.steps ready, h.steps (h'.state.ready ready)]

/-- A fault leaves a running machine running, if it is an interrupt, or else in a final state. -/
theorem fail_cases (running : n.state = .running) (f : Fault) :
    f.isInterrupt = true ∧ (n.fail f).state = .running ∨
      f.isCancellation = true ∧ (n.fail f).state = .cancelled ∨
      f.isCancellation = false ∧ (n.fail f).state = .failed := by
  cases interrupt : f.isInterrupt with
  | true => simp [fail, Fault.aftermath, interrupt, running]
  | false => cases cancellation : f.isCancellation <;>
      simp [fail, Fault.aftermath, interrupt, cancellation]

/-- Any state that is reached from within a step is one that the state before may become. -/
theorem onward_of_begun (live : m.state.isFinal = false)
    (begun : n.state = .running ∨ n.state.isFinal = true) : m.Onward n := by
  rcases begun with running | final
  · refine ⟨?_, fun ready => by rw [running] at ready; cases ready⟩
    rw [running]
    cases state : m.state with
    | ready => exact .started
    | running => exact .stay
    | completed | failed | cancelled =>
      rw [state] at live
      cases live
  · refine ⟨.finished live final, fun ready => ?_⟩
    rw [ready] at final
    cases final

/-- A step that finds an instruction to hand out does not leave the machine ready. -/
theorem step_begun (live : m.state.isFinal = false) (next : m.hasNext = .ok true) :
    m.step.2.state = .running ∨ m.step.2.state.isFinal = true := by
  have comes := m.step_comes
  generalize m.step = answer at comes ⊢
  cases comes with
  | refused final =>
    rw [final] at live
    cases live
  | lost _ unknown =>
    rw [next] at unknown
    cases unknown
  | finished => exact .inr rfl
  | @failed n f _ _ still =>
    rcases fail_cases still.state f with ⟨_, state⟩ | ⟨_, state⟩ | ⟨_, state⟩
    · exact .inl state
    · exact .inr (congrArg RunState.isFinal state)
    · exact .inr (congrArg RunState.isFinal state)
  | counted _ _ state => exact .inl state
  | astray _ _ state => exact .inl state
  | completed => exact .inr rfl

/-- The instruction that a step hands out, with its index. -/
def handed? (m : Machine) : Option (Instruction × Int) :=
  if m.state.isFinal then none
  else
    match m.hasNext, m.running.check with
    | .ok true, (.ok (), n) => n.next.1.toOption
    | _, _ => none

theorem handed?_ready (m : Machine) (ready : m.step.2.state = .ready) : m.handed? = none := by
  unfold handed?
  cases live : m.state.isFinal with
  | true => rfl
  | false =>
    simp only [Bool.false_eq_true, if_false]
    cases next : m.hasNext with
    | error f => rfl
    | ok more =>
      cases more with
      | false => rfl
      | true =>
        have begun := step_begun live next
        rw [ready] at begun
        rcases begun with running | final
        · cases running
        · cases final

theorem step_onward (m : Machine) : m.Onward m.step.2 := by
  cases live : m.state.isFinal with
  | true =>
    rw [step_final live]
    exact .refl m
  | false =>
    have begun := m.step_begun live
    have comes := m.step_comes
    generalize m.step = answer at comes begun ⊢
    cases comes with
    | refused | lost => exact .refl _
    | finished => exact onward_of_begun live (.inr rfl)
    | failed _ next | counted _ next | astray _ next | completed _ next =>
      exact onward_of_begun live (begun next)

/-! ## Runs -/

variable {fuel : Nat} {o : RunOptions} {outcome : RunOutcome}

theorem turn_of_next (next : m.hasNext = .ok true) :
    m.turn =
      match m.step with
      | (.error f, n) => .done (.error f, n)
      | (.ok (), n) => .again n := by
  rcases step : m.step with ⟨_ | _, n⟩
  · simp only [turn, next, step]
  · simp only [turn, next, step]

/-- A machine between two turns of a run: it has neither failed nor been cancelled. -/
structure Going (m n : Machine) : Prop extends m.Onward n where
  unbroken : n.state.isFinal = true → n.state = .completed

theorem Going.complete (h : m.Going n) : m.Onward n.complete := by
  refine h.toOnward.trans ?_
  cases live : n.state.isFinal with
  | false => exact onward_of_begun live (.inr rfl)
  | true =>
    -- the last step completed the machine, and the run completes it again
    have completed : n.state = .completed := h.unbroken live
    have same : n.complete = n := by
      rw [Machine.complete, ← completed]
    rw [same]
    exact .refl n

theorem Going.step (h : m.Going n) (stepped : n.step = (.ok (), q)) : m.Going q := by
  have onward := n.step_onward
  have comes := n.step_comes
  rw [stepped] at onward comes
  refine ⟨h.toOnward.trans onward, ?_⟩
  intro final
  generalize taken : ((.ok (), q) : Except Fault Unit × Machine) = answer at comes
  cases comes with
  | refused | lost | failed | astray => cases taken
  | finished | completed =>
    cases taken
    rfl
  | counted _ _ running =>
    cases taken
    rw [running] at final
    cases final

theorem Going.turn_keeps (h : m.Going n) :
    n.turn.Keeps m.Going fun answer => m.Onward answer.2 := by
  cases next : n.hasNext with
  | error f =>
    have turn : n.turn = .done (.error f, n) := by simp only [turn, next]
    rw [turn]
    exact .done h.toOnward
  | ok more =>
    cases more with
    | false =>
      have turn : n.turn = .done (.ok (), n.complete) := by simp only [turn, next]
      rw [turn]
      exact .done h.complete
    | true =>
      have onward := h.toOnward.trans n.step_onward
      have going : ∀ q, n.step = (.ok (), q) → m.Going q := fun _ => h.step
      rw [turn_of_next next]
      generalize n.step = answer at onward going ⊢
      obtain ⟨_ | _, q⟩ := answer
      · exact .done onward
      · exact .again (going q rfl)

theorem arm_unmoved (m : Machine) (o : RunOptions) : m.Unmoved (m.arm o) := by
  unfold arm
  cases o.gate <;> exact ⟨⟨rfl, rfl, rfl, fun request => request⟩, rfl⟩

theorem conclude_unmoved (snapshots : Bool) (r : Except Fault Unit) (m : Machine) :
    m.Unmoved (conclude snapshots r m).machine := by
  unfold conclude
  split
  · split
    · exact .refl m
    · exact ⟨⟨rfl, rfl, rfl, fun request => request⟩, rfl⟩
  · exact .refl m

theorem arm_going (ready : m.state = .ready) (o : RunOptions) : m.Going (m.arm o) := by
  have still := (m.arm_unmoved o).still
  refine ⟨still.onward, fun final => ?_⟩
  rw [still.state, ready] at final
  cases final

/-- A run of a machine that is ready, taken apart: its last turn, and what that left. -/
theorem run_ready (ready : m.state = .ready) (ran : m.run fuel o = some outcome) :
    ∃ i s answer, Loop.after turn i (m.arm o) = some s ∧ m.Going s ∧ s.turn = .done answer ∧
      outcome = conclude o.snapshots answer.1 answer.2 := by
  rw [run, if_pos ready, drive, Option.map_eq_some_iff] at ran
  obtain ⟨answer, ended, rfl⟩ := ran
  obtain ⟨i, s, reached, last⟩ := Loop.ends_iff.mp ⟨fuel, ended⟩
  have going := Loop.after_keeps (fun _ => Going.turn_keeps) (arm_going ready o) reached
  exact ⟨i, s, answer, reached, going, last, rfl⟩

theorem run_onward (ran : m.run fuel o = some outcome) : m.Onward outcome.machine := by
  by_cases ready : m.state = .ready
  · obtain ⟨_, s, answer, _, going, last, rfl⟩ := run_ready ready ran
    have kept := going.turn_keeps
    rw [last] at kept
    cases kept with
    | done onward => exact onward.trans (conclude_unmoved _ _ _).still.onward
  · rw [run_notReady ready] at ran
    cases ran
    exact .refl m

/-- What the last turn of a run leads to: the index was lost, nothing was left to hand out, or a
step failed. -/
inductive LastTurn (m : Machine) : Except Fault Unit × Machine → Prop
  | lost (unknown : m.hasNext = .error .lostBeforeEnd) : LastTurn m (.error .lostBeforeEnd, m)
  | ended (spent : m.hasNext = .ok false) : LastTurn m (.ok (), m.complete)
  | failed {n : Machine} {f : Fault} (next : m.hasNext = .ok true)
      (stepped : m.step = (.error f, n)) : LastTurn m (.error f, n)

theorem lastTurn {answer : Except Fault Unit × Machine} (last : m.turn = .done answer) :
    m.LastTurn answer := by
  cases next : m.hasNext with
  | error f =>
    cases hasNext_error next
    simp only [turn, next] at last
    cases last
    exact .lost next
  | ok more =>
    cases more with
    | false =>
      simp only [turn, next] at last
      cases last
      exact .ended next
    | true =>
      rw [turn_of_next next] at last
      rcases stepped : m.step with ⟨f | _, n⟩
      · rw [stepped] at last
        cases last
        exact .failed next stepped
      · rw [stepped] at last
        cases last

theorem conclude_returned {snapshots : Bool} {r : Except Fault Unit}
    (returned : (conclude snapshots r m).result = .ok ()) : r = .ok () := by
  unfold conclude at returned
  split at returned
  · split at returned
    · cases returned
    · exact returned
  · exact returned

/-- A run that returns has completed. -/
theorem run_completed (ready : m.state = .ready) (ran : m.run fuel o = some outcome)
    (returned : outcome.result = .ok ()) : outcome.machine.state = .completed := by
  obtain ⟨_, s, answer, _, _, last, rfl⟩ := run_ready ready ran
  have returned := conclude_returned returned
  rw [(conclude_unmoved _ _ _).state]
  have last := lastTurn last
  cases last with
  | lost | failed => cases returned
  | ended => rfl

/-- A step that fails leaves a cancelled machine if and only if it raised a cancellation. -/
theorem step_cancelled_iff (before : m.state ≠ .cancelled) (failed : m.step = (.error f, n)) :
    n.state = .cancelled ↔ f.isCancellation = true := by
  have comes := m.step_comes
  rw [failed] at comes
  generalize taken : ((.error f, n) : Except Fault Unit × Machine) = answer at comes
  cases comes with
  | finished | counted | completed => cases taken
  | refused | lost =>
    cases taken
    exact iff_of_false before nofun
  | astray _ _ running =>
    cases taken
    rw [running]
    exact iff_of_false nofun nofun
  | @failed q g _ _ still =>
    cases taken
    rcases fail_cases still.state f with ⟨interrupt, state⟩ | ⟨cancelled, state⟩ | ⟨other, state⟩
    · refine iff_of_false (by rw [state]; nofun) ?_
      intro cancelled
      rw [Fault.not_interrupt_of_cancellation cancelled] at interrupt
      cases interrupt
    · exact iff_of_true state cancelled
    · exact iff_of_false (by rw [state]; nofun) (by rw [other]; nofun)

theorem Going.not_cancelled (h : m.Going n) : n.state ≠ .cancelled := by
  intro state
  have completed := h.unbroken (congrArg RunState.isFinal state)
  rw [state] at completed
  cases completed

/-- The run that was asked for ends with a step that raises a cancellation. -/
def CancelledIn (m : Machine) (o : RunOptions) : Prop :=
  ∃ i s f n, Loop.after turn i (m.arm o) = some s ∧ s.hasNext = .ok true ∧
    s.step = (.error f, n) ∧ f.isCancellation = true

/-- A run leaves a cancelled machine if and only if its last step raised a cancellation. -/
theorem run_cancelled_iff (ready : m.state = .ready) (ran : m.run fuel o = some outcome) :
    outcome.machine.state = .cancelled ↔ m.CancelledIn o := by
  obtain ⟨i, s, answer, reached, going, last, rfl⟩ := run_ready ready ran
  rw [(conclude_unmoved _ _ _).state]
  constructor
  · intro state
    have ending := lastTurn last
    cases ending with
    | lost => exact absurd state going.not_cancelled
    | ended => cases state
    | @failed n f next stepped =>
      exact ⟨i, s, f, n, reached, next, stepped,
        (step_cancelled_iff going.not_cancelled stepped).mp state⟩
  · rintro ⟨j, t, f, n, there, next, stepped, cancelled⟩
    have ending : t.turn = .done (.error f, n) := by
      rw [turn_of_next next, stepped]
    have going := Loop.after_keeps (fun _ => Going.turn_keeps) (arm_going ready o) there
    have same := Loop.ends_unique (Loop.ends_iff.mpr ⟨i, s, reached, last⟩)
      (Loop.ends_iff.mpr ⟨j, t, there, ending⟩)
    rw [same]
    exact (step_cancelled_iff going.not_cancelled stepped).mpr cancelled

/-- What a run leaves is what may come of any step taken in it. -/
theorem onward_of_run (ready : m.state = .ready) (ran : m.run fuel o = some outcome) {i : Nat}
    (reached : Loop.after turn i (m.arm o) = some n) (next : n.hasNext = .ok true) :
    n.step.2.Onward outcome.machine := by
  rw [run, if_pos ready, drive, Option.map_eq_some_iff] at ran
  obtain ⟨answer, ended, rfl⟩ := ran
  have going := Loop.after_keeps (fun _ => Going.turn_keeps) (arm_going ready o) reached
  have further : ∀ q, n.step = (.ok (), q) → m.Going q := fun _ => going.step
  -- from the step on, the run goes as it would from what the step left
  have kept : n.turn.Keeps n.step.2.Going fun answer => n.step.2.Onward answer.2 := by
    rw [turn_of_next next]
    generalize n.step = taken at further ⊢
    obtain ⟨_ | ⟨⟩, q⟩ := taken
    · exact .done (.refl q)
    · exact .again ⟨.refl q, (further q rfl).unbroken⟩
  have left := Loop.answer_keeps (fun _ => Going.turn_keeps) reached kept ended
  exact left.trans (conclude_unmoved _ _ _).still.onward

end Machine

/-! ## Debuggers -/

namespace Debugger

variable {d d' : Debugger} {fuel : Nat}

theorem create_unmoved {m : Machine} {timeout : Option Float}
    (created : Debugger.create m timeout = .ok d) : m.Unmoved d.machine := by
  simp only [create] at created
  generalize Machine.hasNext _ = told at created
  cases told with
  | error f => cases created
  | ok more =>
    cases created
    exact ⟨⟨rfl, rfl, rfl, fun request => request⟩, rfl⟩

theorem expired_unmoved (d : Debugger) : d.machine.Unmoved d.expired.2.machine := by
  unfold expired
  cases d.deadline with
  | none => exact .refl d.machine
  | some deadline => exact ⟨⟨rfl, rfl, rfl, fun request => request⟩, rfl⟩

theorem cancel_unmoved (d : Debugger) : d.machine.Unmoved d.cancel.machine := by
  unfold cancel
  split
  · exact .refl d.machine
  · exact ⟨⟨rfl, rfl, rfl, fun _ => rfl⟩, rfl⟩

theorem expire_unmoved (d : Debugger) : d.machine.Unmoved d.expire.2.machine := by
  unfold expire
  split
  · exact .refl d.machine
  · exact d.cancel_unmoved

theorem machine_stepOnce (d : Debugger) : d.stepOnce.2.machine = d.machine.step.2 := by
  unfold stepOnce
  generalize d.machine.step = answer
  obtain ⟨f | ⟨⟩, n⟩ := answer
  · exact machine_afterFault _ f
  · simp only
    split <;> rfl

/-- An advance that is not too late takes a step. -/
theorem machine_advance (waiting : d.state = .waiting) (early : d.expired = (false, d')) :
    d.advance.2.machine = d'.machine.step.2 := by
  simp only [advance, waiting, if_true, early]
  exact d'.machine_stepOnce

theorem advance_onward (d : Debugger) : d.machine.Onward d.advance.2.machine := by
  by_cases waiting : d.state = .waiting
  · have asked := d.expired_unmoved.still
    rcases expired : d.expired with ⟨_ | _, e⟩
    · rw [expired] at asked
      rw [machine_advance waiting expired]
      exact asked.onward.trans e.machine.step_onward
    · rw [expired] at asked
      simp only [advance, waiting, if_true, expired]
      exact (asked.trans e.expire_unmoved.still).onward
  · rw [advance_notWaiting waiting]
    exact .refl _

theorem turn_onward {m : Machine} (h : m.Onward d.machine) :
    d.turn.Keeps (fun e => m.Onward e.machine) fun answer => m.Onward answer.2.machine := by
  have onward := h.trans d.advance_onward
  unfold turn
  split
  · generalize d.advance = answer at onward ⊢
    obtain ⟨_ | _, e⟩ := answer
    · exact .done onward
    · exact .again onward
  · exact .done h

theorem runToEnd_onward {r : Except Fault Snapshot} (ran : d.runToEnd fuel = some (r, d')) :
    d.machine.Onward d'.machine :=
  Loop.turns_keeps (fun _ => turn_onward) (Machine.Onward.refl _) ran

/-- What running to the end leaves is what may come of any advance in it. -/
theorem onward_of_runToEnd {r : Except Fault Snapshot} {e : Debugger} {i : Nat}
    (ran : d.runToEnd fuel = some (r, d')) (reached : Loop.after turn i d = some e)
    (waiting : e.state = .waiting) : e.advance.2.machine.Onward d'.machine := by
  have kept : e.turn.Keeps (fun u => e.advance.2.machine.Onward u.machine)
      fun answer => e.advance.2.machine.Onward answer.2.machine := by
    rw [turn, if_pos waiting]
    generalize e.advance = taken
    obtain ⟨_ | _, u⟩ := taken
    · exact .done (.refl u.machine)
    · exact .again (.refl u.machine)
  exact Loop.answer_keeps (fun _ => turn_onward) reached kept ran

end Debugger
end TapeMachine
