import TapeMachine.Proofs.Gate
import TapeMachine.Proofs.Invariants

/-! Requests to cancel, whoever makes them and whenever. A machine that was asked to cancel
executes nothing any more, with one exception: where the request comes while the machine waits at
a step gate, and leave to step comes with it, the wait ends before the request is met, and the
instruction that waited is executed. -/

namespace TapeMachine

/-! ## Waits -/

namespace Guard

variable {g : Guard} {ip : Option Int} {signals : List Signal}

theorem request_check (g : Guard) (ip : Option Int) : (g.check ip).2.cancelled = g.cancelled := by
  have dated : ∀ g : Guard, (g.checkDeadline ip).2.cancelled = g.cancelled := by
    intro g
    unfold checkDeadline
    cases g.deadline with
    | none => rfl
    | some deadline => by_cases late : g.clock.read.1 ≥ deadline <;> simp [late]
  unfold check
  cases request : g.cancelled with
  | true => exact request
  | false =>
    cases g.event with
    | none => exact (dated g).trans request
    | some event =>
      by_cases set : event.ask.1 = true
      · simp [set]
      · simp [set, dated]

/-- All that can come of a wait that nobody has cancelled before. -/
inductive Awaited (ip : Option Int) :
    List Signal → Except Fault Unit × List Signal × Guard → Prop
  | released {polls : Nat} {s : Signal} {rest : List Signal} {g : Guard}
      (token : s.isToken = true) (request : g.cancelled = s.isCancel) :
      Awaited ip (List.replicate polls .nothing ++ s :: rest) (.ok (), rest, g)
  | refused {signals left : List Signal} {why : String} {g : Guard}
      (told : g.cancelled = true → why = "cancelled") :
      Awaited ip signals (.error (cancellation why ip), left, g)

theorem Awaited.poll {answer : Except Fault Unit × List Signal × Guard}
    (h : Awaited ip signals answer) : Awaited ip (.nothing :: signals) answer := by
  cases h with
  | @released polls s rest g token request =>
    exact @Awaited.released ip (polls + 1) s rest g token request
  | refused told => exact .refused told

theorem await_awaited (calm : g.cancelled = false) (ip : Option Int) (signals : List Signal) :
    Awaited ip signals (g.await ip signals) := by
  have stopped : ∀ {g g' : Guard} {f : Fault} {signals left : List Signal}, g.cancelled = false →
      g.check ip = (.error f, g') → Awaited ip signals (.error f, left, g') := by
    intro g g' f signals left calm checked
    obtain ⟨why, rfl⟩ := check_refused (congrArg Prod.fst checked)
    have kept := g.request_check ip
    rw [checked, calm] at kept
    refine .refused ?_
    intro request
    rw [request] at kept
    cases kept
  induction signals generalizing g with
  | nil =>
    unfold await
    rcases checked : g.check ip with ⟨f | ⟨⟩, g'⟩
    · exact stopped calm checked
    · simp only [@check_cancelled g'.cancel rfl]
      exact .refused fun _ => rfl
  | cons s rest ih =>
    have kept := g.request_check ip
    unfold await
    rcases checked : g.check ip with ⟨f | ⟨⟩, g'⟩
    · exact stopped calm checked
    · rw [checked, calm] at kept
      cases s with
      | token => exact @Awaited.released ip 0 .token rest g' rfl kept
      | nothing => exact (ih kept).poll
      | cancel =>
        simp only
        rw [await_cancelled rfl]
        exact .refused fun _ => rfl
      | cancelWithToken => exact @Awaited.released ip 0 .cancelWithToken rest g'.cancel rfl rfl

end Guard

/-! ## Steps -/

namespace Machine

variable {m n : Machine}

/-- A machine in which nothing was executed since it was another. -/
structure Halted (m n : Machine) : Prop where
  tape : n.config.tape = m.config.tape
  input : n.config.input = m.config.input
  output : n.config.output = m.config.output
  steps : n.steps = m.steps

theorem Halted.refl (m : Machine) : m.Halted m := ⟨rfl, rfl, rfl, rfl⟩

theorem Halted.trans {q : Machine} (h : m.Halted n) (h' : n.Halted q) : m.Halted q :=
  ⟨h'.tape.trans h.tape, h'.input.trans h.input, h'.output.trans h.output, h'.steps.trans h.steps⟩

theorem halted_of_config (config : n.config = m.config) (steps : n.steps = m.steps) :
    m.Halted n := by
  refine ⟨?_, ?_, ?_, steps⟩
  · rw [config]
  · rw [config]
  · rw [config]

theorem clearance_cancelled (request : m.guard.cancelled = true) :
    m.clearance = (.error (Guard.cancellation "cancelled" m.ip), m) := by
  simp only [clearance, check, Guard.check_cancelled request]
  rfl

/-- The wait of a step ended with leave that came with a request to cancel, after polls that found
nothing. -/
def CancelledWithLeave (m n : Machine) : Prop :=
  ∃ polls rest outlet,
    m.traversal = .gated (List.replicate polls .nothing ++ .cancelWithToken :: rest) outlet ∧
      n.traversal = .gated rest outlet

theorem leave_calm (calm : m.guard.cancelled = false)
    (request : m.leave.2.guard.cancelled = true) :
    m.leave.1 = .error (Guard.cancellation "cancelled" m.ip) ∨
      m.leave.1 = .ok () ∧ m.CancelledWithLeave m.leave.2 := by
  unfold leave at request ⊢
  cases gate : m.traversal with
  | linear | recording left =>
    rw [gate] at request
    rw [show m.guard.cancelled = true from request] at calm
    cases calm
  | gated signals outlet =>
    have same : (m.posted outlet).ip = m.ip := congrArg Config.ip (asked_posted m outlet).config
    have calm : (m.posted outlet).guard.cancelled = false := by
      cases outlet <;> exact calm
    have awaited := Guard.await_awaited calm m.ip signals
    rw [gate] at request
    simp only [await, same] at request ⊢
    generalize (m.posted outlet).guard.await m.ip signals = answer at awaited request ⊢
    cases awaited with
    | refused told =>
      left
      rw [told request]
    | @released polls s rest g token told =>
      right
      refine ⟨rfl, polls, rest, outlet, ?_, rfl⟩
      -- of the signals that let a step through, only one leaves a request behind
      rw [show g.cancelled = true from request] at told
      cases s with
      | token => cases told
      | nothing | cancel => cases token
      | cancelWithToken => exact gate

theorem clearance_calm (calm : m.guard.cancelled = false)
    (request : m.clearance.2.guard.cancelled = true) :
    m.clearance.1 = .error (Guard.cancellation "cancelled" m.ip) ∨
      m.clearance.1 = .ok () ∧ m.CancelledWithLeave m.clearance.2 := by
  have kept := m.guard.request_check m.ip
  have checked : m.check = ((m.guard.check m.ip).1, m.withGuard (m.guard.check m.ip).2) := rfl
  unfold clearance at request ⊢
  rw [checked] at request ⊢
  rw [calm] at kept
  generalize m.guard.check m.ip = answer at kept request ⊢
  obtain ⟨f | ⟨⟩, g⟩ := answer
  · rw [show g.cancelled = true from request] at kept
    cases kept
  · exact @leave_calm (m.withGuard g) kept request

/-- A step of a machine that was asked to cancel executes nothing. Where it finds an instruction,
it raises the cancellation. -/
theorem Safe.step_cancelled (safe : m.Safe) (request : m.guard.cancelled = true) :
    m.Halted m.step.2 ∧ m.step.2.guard.cancelled = true ∧
      (m.state.isFinal = false → m.hasNext = .ok true →
        m.step.1 = .error (Guard.cancellation "cancelled" m.ip) ∧ m.step.2.state = .cancelled) := by
  cases live : m.state.isFinal with
  | true =>
    rw [step_final live]
    exact ⟨.refl m, request, fun final => by cases final⟩
  | false =>
    have refused := @clearance_cancelled m.running request
    have cleared : m.cleared = m.running := congrArg Prod.snd refused
    have stepped := safe.stepped live
    have told := safe.hasNext
    generalize m.step = answer at stepped ⊢
    cases stepped with
    | finished spent =>
      refine ⟨halted_of_config rfl rfl, request, ?_⟩
      intro _ more
      rw [told, spent] at more
      cases more
    | @refused why raised =>
      rw [refused] at raised
      cases raised
      rw [cleared]
      exact ⟨halted_of_config rfl rfl, request, fun _ _ => ⟨rfl, rfl⟩⟩
    | failed passed | executed passed =>
      rw [refused] at passed
      cases passed

/-- A request to cancel is met by the step in which it comes, unless leave to step came with it. -/
theorem Safe.step_calm (safe : m.Safe) (calm : m.guard.cancelled = false)
    (request : m.step.2.guard.cancelled = true) :
    (m.step.1 = .error (Guard.cancellation "cancelled" m.ip) ∧ m.Halted m.step.2) ∨
      ((m.step.1, m.step.2.config) = m.config.tick m.program ∧ m.CancelledWithLeave m.step.2) := by
  cases live : m.state.isFinal with
  | true =>
    rw [step_final live] at request
    rw [show m.guard.cancelled = true from request] at calm
    cases calm
  | false =>
    have asked := m.asked_cleared
    have cleared := @clearance_calm m.running calm
    have through : m.running.clearance.1 = .ok () → m.cleared.guard.cancelled = true →
        ∀ o k, m.CancelledWithLeave (m.cleared.mark o k) := by
      intro passed request o k
      rcases cleared request with told | ⟨_, polls, rest, outlet, gate, left⟩
      · rw [passed] at told
        cases told
      · have left : m.cleared.traversal = .gated rest outlet := left
        refine ⟨polls, rest, outlet, gate, ?_⟩
        simp only [mark, left]
    have stepped := safe.stepped live
    generalize m.step = answer at stepped request ⊢
    cases stepped with
    | finished =>
      rw [show m.guard.cancelled = true from request] at calm
      cases calm
    | refused raised =>
      left
      rcases cleared request with told | ⟨told, _⟩
      · rw [raised] at told
        exact ⟨told, halted_of_config asked.config asked.steps⟩
      · rw [raised] at told
        cases told
    | @failed k o t f c passed ip found tick =>
      right
      exact ⟨tick.symm, through passed request o k⟩
    | @executed k o t c passed ip found tick =>
      right
      let n := (m.cleared.mark o k).withConfig c
      rw [counted_guard] at request
      obtain ⟨polls, rest, outlet, gate, left⟩ := through passed request o k
      refine ⟨?_, polls, rest, outlet, gate, n.counted_traversal.trans left⟩
      rw [tick]
      exact congrArg _ n.counted_config

/-! ## Requests -/

/-- Nothing is executed once the machine was asked to cancel. -/
structure Stopped (m n : Machine) : Prop extends m.Halted n where
  safe : n.Safe
  request : n.guard.cancelled = true

theorem stopped_invariant (m : Machine) : Invariant m.Stopped where
  step n h := by
    obtain ⟨halted, request, _⟩ := h.safe.step_cancelled h.request
    exact ⟨h.toHalted.trans halted, safe_invariant.step n h.safe, request⟩
  jump n index h first last :=
    ⟨⟨h.tape, h.input, h.output, h.steps⟩, safe_invariant.jump n index h.safe first last, h.request⟩
  akin n q akin h :=
    ⟨h.toHalted.trans (halted_of_config akin.config akin.steps),
      safe_invariant.akin n q akin h.safe, akin.request h.request⟩

end Machine

/-- Once a machine was asked to cancel, nothing that drives it executes another instruction, and
the next step that finds one raises the cancellation. A request that comes while a step waits at a
gate is met by that step, unless leave to step comes with it: then the instruction that waited is
executed, and no other. -/
theorem at_most_awaited_instruction_after_cancel {source : Source} {start : Machine}
    (compiled : compile source = .ok start.program)
    (inside : start.config.Inside start.program) {b : Bench}
    (reached : Bench.Reached ⟨start, []⟩ b) :
    (b.machine.guard.cancelled = true → ∀ b', b.Reached b' →
      b.machine.Halted b'.machine ∧ b'.machine.guard.cancelled = true ∧
      ∀ request m, b'.Steps request m → b.machine.Halted m ∧ b.machine.Halted m.step.2) ∧
    ∀ request m, b.Steps request m →
      (m.guard.cancelled = true → m.Halted m.step.2 ∧
        (m.state.isFinal = false → m.hasNext = .ok true →
          m.step.1 = .error (Guard.cancellation "cancelled" m.ip) ∧
          m.step.2.state = .cancelled)) ∧
      (m.guard.cancelled = false → m.step.2.guard.cancelled = true →
        (m.step.1 = .error (Guard.cancellation "cancelled" m.ip) ∧ m.Halted m.step.2) ∨
        ((m.step.1, m.step.2.config) = m.config.tick m.program ∧ m.CancelledWithLeave m.step.2)) ∧
      (m.step.2.guard.cancelled = true → ∀ fuel r b', b.answer fuel request = some (r, b') →
        m.step.2.Halted b'.machine) := by
  have safe : b.machine.Safe :=
    reached.keeps Machine.safe_invariant ⟨compile_sound compiled, inside⟩
  refine ⟨?frozen, ?steps⟩
  case frozen =>
    intro request b' later
    have inv := b.machine.stopped_invariant
    have stopped := later.keeps inv ⟨.refl _, safe, request⟩
    refine ⟨stopped.toHalted, stopped.request, ?_⟩
    intro request m steps
    have before := steps.keeps inv stopped
    exact ⟨before.toHalted, (inv.step m before).toHalted⟩
  case steps =>
    intro request m steps
    have whole := steps.keeps Machine.safe_invariant safe
    refine ⟨?raised, whole.step_calm, ?left⟩
    case raised =>
      intro cancelled
      obtain ⟨halted, _, raised⟩ := whole.step_cancelled cancelled
      exact ⟨halted, raised⟩
    case left =>
      intro cancelled fuel r b' answered
      have next := Machine.safe_invariant.step m whole
      have inv := m.step.2.stopped_invariant
      exact (steps.keeps_after answered inv ⟨.refl _, next, cancelled⟩).toHalted

/-- The first of two increments waits, finds nothing, and then a request to cancel together with
leave to step. -/
theorem awaited_increment_after_cancel :
    ∃ start m, compile (.text "++") = .ok start.program ∧ start.config.Inside start.program ∧
      Bench.Reached ⟨start, []⟩ ⟨start, []⟩ ∧
      Bench.Steps ⟨start, []⟩ (.run { gate := some [.nothing, .cancelWithToken] }) m ∧
      m.guard.cancelled = false ∧ m.step.2.guard.cancelled = true ∧
      (m.step.1, m.step.2.config) = m.config.tick m.program ∧ m.CancelledWithLeave m.step.2 := by
  let start : Machine := .onTape
    (.ofEntries
      [⟨⟨.op .increment, none⟩, some ⟨1, 1⟩⟩, ⟨⟨.op .increment, none⟩, some ⟨1, 2⟩⟩])
    .blank (.ofBytes []) .reliable
  have compiled : compile (.text "++") = .ok start.program := rfl
  have inside : start.config.Inside start.program := ⟨0, rfl, Nat.zero_le _⟩
  have steps := @Bench.Steps.inRun ⟨start, []⟩ { gate := some [.nothing, .cancelWithToken] } 0 _
    rfl rfl rfl
  obtain ⟨_, within⟩ := at_most_awaited_instruction_after_cancel compiled inside .start
  obtain ⟨_, met, _⟩ := within _ _ steps
  rcases met rfl rfl with ⟨raised, _⟩ | ⟨ticked, through⟩
  · cases raised
  · exact ⟨start, _, compiled, inside, .start, steps, rfl, rfl, ticked, through⟩

/-- A run that was cancelled before its only instruction, and completes all the same. -/
theorem cancelled_wait_completes :
    ∃ (start : Machine) (outcome : Machine.RunOutcome), compile (.text "+") = .ok start.program ∧
      start.run 2 { gate := some [.cancelWithToken] } = some outcome ∧
      outcome.machine.guard.cancelled = true ∧ outcome.result = .ok () ∧
      outcome.machine.state = .completed ∧ ¬ start.Halted outcome.machine := by
  let start : Machine :=
    .onTape (.ofEntries [⟨⟨.op .increment, none⟩, some ⟨1, 1⟩⟩]) .blank (.ofBytes []) .reliable
  refine ⟨start, _, rfl, rfl, rfl, rfl, rfl, ?_⟩
  intro halted
  cases halted.steps

end TapeMachine
