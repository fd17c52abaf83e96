import TapeMachine.Proofs.Requests

/-! A step that fails. It leaves the tape, the count of steps and what was written as they were,
and what it raises tells truly which instruction failed and why, or that the run was cancelled
before one was handed out. This holds of every step of a machine whose program was compiled,
whichever requests came before, and whether the step was asked for alone, or is one of a run or
of a debugger's advance. -/

namespace TapeMachine
namespace Config

variable {c : Config} {o : Op} {index : Int} {f : Fault} {r : Report} {why : Cause}

/-- The cause of a report is the end of the input if and only if a read delivered nothing. -/
theorem Breaks.endOfInput_iff (breaks : c.Breaks index o f) (report : f = .report r)
    (cause : r.cause = some why) :
    why.kind = .endOfInput ↔ r.kind = .readSymbol ∧ c.input.read.1 = .ok [] := by
  cases breaks with
  | leftEnd first =>
    cases report
    cases cause
  | @unread raiser raised trouble =>
    cases report
    cases cause
    constructor
    · intro ended
      rw [ended] at trouble
      cases trouble
    · rintro ⟨_, nothing⟩
      rw [raised] at nothing
      cases nothing
  | exhausted nothing =>
    cases report
    cases cause
    exact ⟨fun _ => ⟨rfl, nothing⟩, fun _ => rfl⟩
  | @unwritten raiser raised trouble =>
    cases report
    cases cause
    constructor
    · intro ended
      rw [ended] at trouble
      cases trouble
    · rintro ⟨kind, _⟩
      cases kind
  | readPassed | writePassed => cases report

end Config

namespace Machine

/-- What a step that fails leaves alone. -/
structure Unharmed (m n : Machine) : Prop where
  program : n.program = m.program
  tape : n.config.tape = m.config.tape
  steps : n.steps = m.steps
  written : n.config.output.written = m.config.output.written

/-- How a step of `m` fails that leaves it as `n`, and what it raises. -/
inductive Fails (m n : Machine) : Fault → Prop
  /-- The run was cancelled, or its deadline has passed, before an instruction was handed out. -/
  | cancelled {why : String} (ip : n.ip = m.ip) (state : n.state = .cancelled) :
      Fails m n (.report ⟨.cancellation, some why, none, m.ip⟩)
  | failed {k : Nat} {o : Op} {t : Option Int} {f : Fault} (ip : m.ip = some (k : Int))
      (found : m.program.instructions[k]? = some ⟨.op o, t⟩) (breaks : m.config.Breaks k o f)
      (ordinary : f.isInterrupt = false) (behind : n.ip = some ((k : Int) + 1))
      (state : n.state = .failed) : Fails m n f
  /-- A stream was interrupted from the keyboard. -/
  | interrupted {k : Nat} {o : Op} {t : Option Int} {f : Fault} (ip : m.ip = some (k : Int))
      (found : m.program.instructions[k]? = some ⟨.op o, t⟩) (breaks : m.config.Breaks k o f)
      (interrupt : f.isInterrupt = true) (behind : n.ip = some ((k : Int) + 1))
      (state : n.state = .running) : Fails m n f

variable {m n : Machine} {f : Fault}

theorem Safe.step_failed (safe : m.Safe) (live : m.state.isFinal = false)
    (failed : m.step = (.error f, n)) : m.Unharmed n ∧ m.Fails n f := by
  have asked := m.asked_cleared
  have stepped := safe.stepped live
  rw [failed] at stepped
  generalize answer : ((.error f, n) : Except Fault Unit × Machine) = taken at stepped
  cases stepped with
  | finished => cases answer
  | executed => cases answer
  | @refused why told =>
    cases answer
    refine ⟨⟨asked.program, ?_, asked.steps, ?_⟩, .cancelled ?_ rfl⟩
    · exact congrArg Config.tape asked.config
    · exact congrArg (·.output.written) asked.config
    · exact congrArg Config.ip asked.config
  | @failed k o t g c told ip found tick =>
    cases answer
    obtain ⟨tape, written⟩ := Config.tick_kept ip found tick
    have behind := Config.tick_failed ip found tick
    have breaks := Config.tick_breaks ip found tick
    refine ⟨⟨asked.program, tape, asked.steps, written⟩, ?_⟩
    by_cases interrupt : f.isInterrupt = true
    · refine .interrupted ip found breaks interrupt behind ?_
      have state : m.cleared.state = .running := asked.state
      simp only [fail, Fault.aftermath, if_pos interrupt, Option.getD_none]
      exact state
    · have ordinary := Bool.eq_false_iff.mpr interrupt
      refine .failed ip found breaks ordinary behind ?_
      simp [fail, Fault.aftermath, ordinary, breaks.uncancelled]

end Machine

namespace Bench

/-- The machines that take a step while a request is carried out, each as it is before that
step. -/
inductive Steps (b : Bench) : Request → Machine → Prop
  | alone : Steps b .step b.machine
  | inRun {o : RunOptions} {i : Nat} {m : Machine} (ready : b.machine.state = .ready)
      (after : Loop.after Machine.turn i (b.machine.arm o) = some m)
      (more : m.hasNext = .ok true) : Steps b (.run o) m
  | inAdvance {i : Nat} {d d' : Debugger} (found : b.debugger? i = some d)
      (waiting : d.state = .waiting) (early : d.expired = (false, d')) :
      Steps b (.advance i) d'.machine
  | inRunToEnd {i j : Nat} {d e e' : Debugger} (found : b.debugger? i = some d)
      (after : Loop.after Debugger.turn j d = some e) (waiting : e.state = .waiting)
      (early : e.expired = (false, e')) : Steps b (.runToEnd i) e'.machine

theorem Steps.safe {b : Bench} {request : Request} {m : Machine} (steps : b.Steps request m)
    (safe : b.machine.Safe) : m.Safe := by
  have whole : ∀ {i : Nat} {d : Debugger}, b.debugger? i = some d → d.machine.Safe := by
    intro i d found
    rw [(machine_debugger? found).1]
    exact safe
  cases steps with
  | alone => exact safe
  | @inRun o i m ready after more =>
    exact (Loop.after_keeps (fun _ => Machine.Later.turn_keeps) (safe.arm_later o) after).safe
  | @inAdvance i d d' found waiting early =>
    have later := Debugger.expired_later (whole found)
    rw [early] at later
    exact later.safe
  | @inRunToEnd i j d e e' found after waiting early =>
    have start : d.machine.Later d.machine := (whole found).later_of_config rfl rfl
    have further := Loop.after_keeps (fun _ => Debugger.turn_keeps) start after
    have later := Debugger.expired_later further.safe
    rw [early] at later
    exact later.safe

end Bench

/-- A step that fails has changed neither the tape nor the count of steps nor what was written.
Cancelled, it has not moved the index, and reports it; failed or interrupted, it has moved the index
on by one from the instruction that failed, and what it raises is how that instruction fails. The
end of the input is the cause if and only if the instruction reads and the read delivered
nothing. -/
theorem failed_step_is_atomic {source : Source} {p : Program} (compiled : compile source = .ok p)
    {cells : List UInt8} {pointer : Int} {input : Input} {output : Output} {start : Machine}
    (created : Machine.create p cells pointer input output = .ok start) {b : Bench}
    (reached : Bench.Reached ⟨start, []⟩ b) {request : Request} {m n : Machine}
    (steps : b.Steps request m) (live : m.state.isFinal = false) {f : Fault}
    (failed : m.step = (.error f, n)) :
    m.Unharmed n ∧ m.Fails n f ∧
      ∀ r why, f = .report r → r.cause = some why →
        (why.kind = .endOfInput ↔
          r.kind = .readSymbol ∧ m.config.input.read.1 = .ok []) := by
  obtain ⟨tape, rfl, _⟩ := Machine.create_ok created
  have plain := Machine.plain_onTape (compile_sound compiled) tape input output
  have safe := steps.safe (reached.later plain.toSafe).safe
  obtain ⟨unharmed, fails⟩ := safe.step_failed live failed
  refine ⟨unharmed, fails, ?_⟩
  intro r why report cause
  cases fails with
  | cancelled =>
    cases report
    cases cause
  | failed _ _ breaks => exact breaks.endOfInput_iff report cause
  | interrupted _ _ breaks => exact breaks.endOfInput_iff report cause

/-- The second step of a run that moves left of its tape. -/
theorem underflow_is_atomic :
    ∃ p start m n, compile (.text "+<") = .ok p ∧
      Machine.create p [7] 0 (.ofBytes []) .reliable = .ok start ∧
      Bench.Reached ⟨start, []⟩ ⟨start, []⟩ ∧ Bench.Steps ⟨start, []⟩ (.run {}) m ∧
      m.state.isFinal = false ∧
      m.step = (.error (.report ⟨.pointerUnderflow, none, none, some 1⟩), n) ∧
      m.Unharmed n ∧ n.state = .failed := by
  let p : Program := .ofEntries
    [⟨⟨.op .increment, none⟩, some ⟨1, 1⟩⟩, ⟨⟨.op .moveLeft, none⟩, some ⟨1, 2⟩⟩]
  let start : Machine := .onTape p (.split [] 7 []) (.ofBytes []) .reliable
  have compiled : compile (.text "+<") = .ok p := rfl
  have created : Machine.create p [7] 0 (.ofBytes []) .reliable = .ok start := rfl
  have reached : Bench.Reached ⟨start, []⟩ ⟨start, []⟩ := .start
  have steps := @Bench.Steps.inRun ⟨start, []⟩ {} 1 _ rfl rfl rfl
  obtain ⟨unharmed, _⟩ := failed_step_is_atomic compiled created reached steps rfl rfl
  exact ⟨p, start, _, _, compiled, created, reached, steps, rfl, rfl, unharmed, rfl⟩

end TapeMachine
