import TapeMachine.Proofs.Atomicity
import TapeMachine.Proofs.Lifecycle

/-! Properties of a machine that steps keep, and that say nothing of what only surrounds the
machine: every request keeps such a property, whatever drives the machine, and so does every part
of a request. -/

namespace TapeMachine
namespace Machine

/-- A property that lasts, whatever is asked of the machine. -/
structure Invariant (P : Machine → Prop) : Prop where
  step : ∀ m, P m → P m.step.2
  jump : ∀ (m : Machine) (index : Int), P m → 0 ≤ index → index ≤ m.program.length →
    P (m.jump (some index))
  akin : ∀ m n, m.Akin n → P m → P n

theorem safe_invariant : Invariant Safe where
  step _ safe := safe.step_orderly.later.safe
  jump _ _ safe first last := (Bench.jump_later safe first last).safe
  akin _ _ akin safe := (safe.later_of_config akin.program akin.config).safe

variable {P : Machine → Prop} {m n : Machine} {fuel : Nat} {o : RunOptions}

namespace Invariant

theorem turn_of_step (next : n.hasNext = .ok true) (stepped : P n.step.2) :
    n.turn.Keeps P fun answer => P answer.2 := by
  rw [turn_of_next next]
  generalize n.step = answer at stepped ⊢
  obtain ⟨_ | _, q⟩ := answer
  · exact .done stepped
  · exact .again stepped

theorem turn (inv : Invariant P) (holds : P n) : n.turn.Keeps P fun answer => P answer.2 := by
  cases next : n.hasNext with
  | error f =>
    simp only [Machine.turn, next]
    exact .done holds
  | ok more =>
    cases more with
    | false =>
      simp only [Machine.turn, next]
      exact .done (inv.akin n _ ⟨rfl, rfl, rfl, fun request => request⟩ holds)
    | true => exact turn_of_step next (inv.step n holds)

theorem run {outcome : RunOutcome} (inv : Invariant P) (holds : P m)
    (ran : m.run fuel o = some outcome) : P outcome.machine := by
  by_cases ready : m.state = .ready
  · rw [Machine.run, if_pos ready, drive, Option.map_eq_some_iff] at ran
    obtain ⟨answer, ended, rfl⟩ := ran
    have armed := inv.akin m _ (m.arm_unmoved o).toAkin holds
    have left := Loop.turns_keeps (fun _ => inv.turn) armed ended
    exact inv.akin _ _ (conclude_unmoved _ _ _).toAkin left
  · rw [run_notReady ready] at ran
    cases ran
    exact holds

/-- What a run leaves, after one of its steps. -/
theorem run_after {outcome : RunOutcome} {i : Nat} (inv : Invariant P) (ready : m.state = .ready)
    (ran : m.run fuel o = some outcome) (reached : Loop.after Machine.turn i (m.arm o) = some n)
    (next : n.hasNext = .ok true) (holds : P n.step.2) : P outcome.machine := by
  rw [Machine.run, if_pos ready, drive, Option.map_eq_some_iff] at ran
  obtain ⟨answer, ended, rfl⟩ := ran
  have left := Loop.answer_keeps (fun _ => inv.turn) reached (turn_of_step next holds) ended
  exact inv.akin _ _ (conclude_unmoved _ _ _).toAkin left

end Invariant
end Machine

namespace Debugger

variable {P : Machine → Prop} {d d' e : Debugger} {fuel : Nat} {r : Except Fault Snapshot}

theorem advance_keeps (inv : Machine.Invariant P) (holds : P d.machine) :
    P d.advance.2.machine := by
  by_cases waiting : d.state = .waiting
  · have asked := inv.akin _ _ d.expired_unmoved.toAkin holds
    rcases expired : d.expired with ⟨_ | _, e⟩
    · rw [expired] at asked
      rw [machine_advance waiting expired]
      exact inv.step _ asked
    · rw [expired] at asked
      simp only [advance, waiting, if_true, expired]
      exact inv.akin _ _ e.expire_unmoved.toAkin asked
  · rw [advance_notWaiting waiting]
    exact holds

theorem turn_of_advance (waiting : d.state = .waiting) (advanced : P d.advance.2.machine) :
    d.turn.Keeps (fun e => P e.machine) fun answer => P answer.2.machine := by
  rw [turn, if_pos waiting]
  generalize d.advance = answer at advanced ⊢
  obtain ⟨_ | _, e⟩ := answer
  · exact .done advanced
  · exact .again advanced

theorem invariant_turn (inv : Machine.Invariant P) (holds : P d.machine) :
    d.turn.Keeps (fun e => P e.machine) fun answer => P answer.2.machine := by
  by_cases waiting : d.state = .waiting
  · exact turn_of_advance waiting (advance_keeps inv holds)
  · rw [turn, if_neg waiting]
    exact .done holds

theorem runToEnd_keeps (inv : Machine.Invariant P) (holds : P d.machine)
    (ran : d.runToEnd fuel = some (r, d')) : P d'.machine :=
  Loop.turns_keeps (fun _ => invariant_turn inv) holds ran

/-- What running to the end leaves, after one of its advances. -/
theorem runToEnd_after {i : Nat} (inv : Machine.Invariant P)
    (ran : d.runToEnd fuel = some (r, d')) (reached : Loop.after turn i d = some e)
    (waiting : e.state = .waiting) (holds : P e.advance.2.machine) : P d'.machine :=
  Loop.answer_keeps (fun _ => invariant_turn inv) reached (turn_of_advance waiting holds) ran

end Debugger

namespace Bench

variable {P : Machine → Prop} {b b' : Bench} {request : Request} {fuel : Nat}
  {r : Except Fault Unit} {m : Machine}

/-- Every request keeps an invariant. -/
theorem answer_keeps (inv : Machine.Invariant P) (holds : P b.machine)
    (within : request.Within b.machine.program) (answered : b.answer fuel request = some (r, b')) :
    P b'.machine := by
  cases request with
  | step =>
    cases answered
    exact inv.step _ holds
  | run o =>
    obtain ⟨outcome, ran, same⟩ := Option.map_eq_some_iff.mp answered
    cases same
    exact inv.run holds ran
  | cancel =>
    cases answered
    exact inv.akin b.machine _ ⟨rfl, rfl, rfl, fun _ => rfl⟩ holds
  | trace | linear | gate =>
    cases answered
    exact inv.akin b.machine _ ⟨rfl, rfl, rfl, fun request => request⟩ holds
  | jump index =>
    cases answered
    exact inv.jump _ index holds within.1 within.2
  | debug timeout =>
    unfold answer at answered
    cases created : Debugger.create b.machine timeout with
    | error f =>
      simp only [created] at answered
      cases answered
      exact holds
    | ok d =>
      simp only [created] at answered
      cases answered
      exact inv.akin _ _ (Debugger.create_unmoved created).toAkin holds
  | advance i =>
    obtain ⟨d, found, same⟩ := Option.map_eq_some_iff.mp answered
    cases same
    rw [← (machine_debugger? found).1] at holds
    exact Debugger.advance_keeps inv holds
  | runToEnd i =>
    obtain ⟨d, found, left⟩ := Option.bind_eq_some_iff.mp answered
    obtain ⟨⟨shot, d'⟩, ran, same⟩ := Option.map_eq_some_iff.mp left
    cases same
    rw [← (machine_debugger? found).1] at holds
    exact Debugger.runToEnd_keeps inv holds ran
  | giveUp i =>
    obtain ⟨d, found, same⟩ := Option.map_eq_some_iff.mp answered
    cases same
    rw [← (machine_debugger? found).1] at holds
    exact inv.akin _ _ d.cancel_unmoved.toAkin holds

theorem Reached.keeps (reached : b.Reached b') (inv : Machine.Invariant P) (holds : P b.machine) :
    P b'.machine := by
  induction reached with
  | start => exact holds
  | next _ within answered ih => exact answer_keeps inv ih within answered

/-- A machine that takes a step within a request has what the machine had before the request. -/
theorem Steps.keeps (steps : b.Steps request m) (inv : Machine.Invariant P)
    (holds : P b.machine) : P m := by
  cases steps with
  | alone => exact holds
  | @inRun o i _ ready after =>
    have armed := inv.akin _ _ (b.machine.arm_unmoved o).toAkin holds
    exact Loop.after_keeps (fun _ => inv.turn) armed after
  | @inAdvance i d d' found waiting early =>
    have asked := d.expired_unmoved.toAkin
    rw [early] at asked
    rw [← (machine_debugger? found).1] at holds
    exact inv.akin _ _ asked holds
  | @inRunToEnd i j d e e' found after waiting early =>
    have asked := e.expired_unmoved.toAkin
    rw [early] at asked
    rw [← (machine_debugger? found).1] at holds
    exact inv.akin _ _ asked (Loop.after_keeps (fun _ => Debugger.invariant_turn inv) holds after)

/-- What a request leaves has what the machine had after any step taken within the request. -/
theorem Steps.keeps_after (steps : b.Steps request m)
    (answered : b.answer fuel request = some (r, b')) (inv : Machine.Invariant P)
    (holds : P m.step.2) : P b'.machine := by
  cases steps with
  | alone =>
    cases answered
    exact holds
  | @inRun o i _ ready after next =>
    obtain ⟨outcome, ran, same⟩ := Option.map_eq_some_iff.mp answered
    cases same
    exact inv.run_after ready ran after next holds
  | @inAdvance i d d' found waiting early =>
    simp only [answer, found, Option.map_some] at answered
    cases answered
    rw [← Debugger.machine_advance waiting early] at holds
    exact holds
  | @inRunToEnd i j d e e' found after waiting early =>
    simp only [answer, found, Option.bind_some] at answered
    obtain ⟨⟨shot, d'⟩, ran, same⟩ := Option.map_eq_some_iff.mp answered
    cases same
    rw [← Debugger.machine_advance waiting early] at holds
    exact Debugger.runToEnd_after inv ran after waiting holds

end Bench
end TapeMachine
