import TapeMachine.Proofs.Faults
import TapeMachine.Proofs.PlainRun

/-! What comes of a step, once and in full: which of its parts decided it, what the machine is
left as, and what an instruction that failed failed with. What is proved of whole runs, of
sequences of requests and of failures is read off these cases. -/

namespace TapeMachine

/-! ## Instructions -/

/-- How an operation fails at an index, and the fault that reports it. -/
inductive Config.Breaks (c : Config) (index : Int) : Op → Fault → Prop
  | leftEnd (first : c.tape.pointer = 0) :
      Breaks c index .moveLeft (.report ⟨.pointerUnderflow, none, none, some index⟩)
  /-- The stream is in trouble. -/
  | unread {why : Cause} (raised : c.input.read.1 = .error why)
      (trouble : why.kind.isStreamFailure = true) :
      Breaks c index .input (.report ⟨.readSymbol, none, some why, some index⟩)
  /-- The stream delivers nothing. -/
  | exhausted (nothing : c.input.read.1 = .ok []) :
      Breaks c index .input (.report ⟨.readSymbol, none, some .endOfInput, some index⟩)
  /-- The stream raises something else, which passes through. -/
  | readPassed {why : Cause} (raised : c.input.read.1 = .error why)
      (other : why.kind.isStreamFailure = false) : Breaks c index .input (.stream why)
  | unwritten {why : Cause} (raised : (c.output.write c.tape.cell).1 = .error why)
      (trouble : why.kind.isStreamFailure = true) :
      Breaks c index .output (.report ⟨.writeSymbol, none, some why, some index⟩)
  | writePassed {why : Cause} (raised : (c.output.write c.tape.cell).1 = .error why)
      (other : why.kind.isStreamFailure = false) : Breaks c index .output (.stream why)

namespace Config

variable {c c' : Config} {o : Op} {t : Option Int} {index : Int} {f : Fault}

theorem readSymbol_breaks (failed : c.readSymbol index = (.error f, c')) :
    c.Breaks index .input f := by
  unfold readSymbol Input.readSymbol at failed
  generalize read : c.input.read = answer at failed
  obtain ⟨why | (_ | ⟨b, bs⟩), input⟩ := answer
  · have raised : c.input.read.1 = .error why := by rw [read]
    by_cases trouble : why.kind.isStreamFailure = true
    · simp only [if_pos trouble] at failed
      cases failed
      exact .unread raised trouble
    · simp only [if_neg trouble] at failed
      cases failed
      exact .readPassed raised (Bool.eq_false_iff.mpr trouble)
  · cases failed
    exact .exhausted (by rw [read])
  · cases failed

theorem writeSymbol_breaks (failed : c.writeSymbol index = (.error f, c')) :
    c.Breaks index .output f := by
  unfold writeSymbol Output.writeSymbol at failed
  generalize wrote : c.output.write c.tape.cell = answer at failed
  obtain ⟨why | _, output⟩ := answer
  · have raised : (c.output.write c.tape.cell).1 = .error why := by rw [wrote]
    by_cases trouble : why.kind.isStreamFailure = true
    · simp only [if_pos trouble] at failed
      cases failed
      exact .unwritten raised trouble
    · simp only [if_neg trouble] at failed
      cases failed
      exact .writePassed raised (Bool.eq_false_iff.mpr trouble)
  · cases failed

theorem perform_breaks (failed : c.perform o t index = (.error f, c')) : c.Breaks index o f := by
  cases o with
  | moveRight | increment | decrement | loopStart | loopEnd => cases failed
  | moveLeft =>
    unfold perform moveLeft at failed
    cases moved : c.tape.moveLeft? with
    | none =>
      rw [moved] at failed
      cases failed
      exact .leftEnd (Tape.moveLeft?_eq_none.mp moved)
    | some tape =>
      rw [moved] at failed
      cases failed
  | output => exact writeSymbol_breaks failed
  | input => exact readSymbol_breaks failed

/-- Failing has nothing to do with the index of the next instruction. -/
theorem Breaks.of_jump {target : Option Int} (h : (c.jump target).Breaks index o f) :
    c.Breaks index o f := by
  cases h with
  | leftEnd first => exact .leftEnd first
  | unread raised trouble => exact .unread raised trouble
  | exhausted nothing => exact .exhausted nothing
  | readPassed raised other => exact .readPassed raised other
  | unwritten raised trouble => exact .unwritten raised trouble
  | writePassed raised other => exact .writePassed raised other

/-- No instruction fails in the way of a request to cancel. -/
theorem Breaks.uncancelled (h : c.Breaks index o f) : f.isCancellation = false := by
  cases h <;> rfl

theorem tick_breaks {p : Program} {k : Nat} (ip : c.ip = some (k : Int))
    (found : p.instructions[k]? = some ⟨.op o, t⟩) (failed : c.tick p = (.error f, c')) :
    c.Breaks k o f := by
  rw [tick_at ip found] at failed
  exact (perform_breaks failed).of_jump

/-- An instruction that fails has moved the index on by one: no jump fails. -/
theorem tick_failed {p : Program} {k : Nat} (ip : c.ip = some (k : Int))
    (found : p.instructions[k]? = some ⟨.op o, t⟩) (failed : c.tick p = (.error f, c')) :
    c'.ip = some ((k : Int) + 1) := by
  rw [tick_at ip found] at failed
  have index := perform_ip (c.jump (some ((k : Int) + 1))) o t k
  rw [failed] at index
  rcases index with kept | ⟨rfl | rfl, _⟩
  · exact kept
  · cases failed
  · cases failed

end Config

/-! ## Leave -/

namespace Guard

variable {g : Guard} {ip : Option Int} {f : Fault}

theorem checkDeadline_refused (refused : (g.checkDeadline ip).1 = .error f) :
    ∃ why, f = cancellation why ip := by
  unfold checkDeadline at refused
  cases dated : g.deadline with
  | none =>
    rw [dated] at refused
    cases refused
  | some deadline =>
    simp only [dated] at refused
    by_cases late : g.clock.read.1 ≥ deadline
    · rw [if_pos late] at refused
      cases refused
      exact ⟨_, rfl⟩
    · rw [if_neg late] at refused
      cases refused

/-- A guard refuses in one way, and names the index it was asked for. -/
theorem check_refused (refused : (g.check ip).1 = .error f) : ∃ why, f = cancellation why ip := by
  unfold check at refused
  by_cases request : g.cancelled = true
  · rw [if_pos request] at refused
    cases refused
    exact ⟨_, rfl⟩
  · rw [if_neg request] at refused
    cases event : g.event with
    | none =>
      rw [event] at refused
      exact checkDeadline_refused refused
    | some e =>
      simp only [event] at refused
      by_cases set : e.ask.1 = true
      · rw [if_pos set] at refused
        cases refused
        exact ⟨_, rfl⟩
      · rw [if_neg set] at refused
        exact checkDeadline_refused refused

theorem await_refused {signals : List Signal} (refused : (g.await ip signals).1 = .error f) :
    ∃ why, f = cancellation why ip := by
  induction signals generalizing g with
  | nil =>
    unfold await at refused
    generalize checked : g.check ip = answer at refused
    obtain ⟨told | _, g'⟩ := answer
    · cases refused
      exact check_refused (congrArg Prod.fst checked)
    · exact check_refused refused
  | cons s rest ih =>
    unfold await at refused
    generalize checked : g.check ip = answer at refused
    obtain ⟨told | _, g'⟩ := answer
    · cases refused
      exact check_refused (congrArg Prod.fst checked)
    · cases s with
      | token | cancelWithToken => cases refused
      | nothing | cancel => exact ih refused

end Guard

namespace Machine

variable {m : Machine} {f : Fault}

theorem clearance_refused (refused : m.clearance.1 = .error f) :
    ∃ why, f = Guard.cancellation why m.ip := by
  unfold clearance at refused
  have kept : Asked m m.check.2 := ⟨rfl, rfl, rfl, rfl⟩
  generalize checked : m.check = answer at refused kept
  obtain ⟨told | _, n⟩ := answer
  · cases refused
    exact Guard.check_refused (congrArg Prod.fst checked)
  · simp only [leave] at refused
    cases traversal : n.traversal with
    | linear | recording left =>
      rw [traversal] at refused
      cases refused
    | gated signals outlet =>
      rw [traversal] at refused
      have ip : (n.posted outlet).ip = m.ip :=
        congrArg Config.ip (kept.trans (asked_posted n outlet)).config
      rw [← ip]
      exact Guard.await_refused refused

/-- The machine once it has asked for leave to take a step. -/
def cleared (m : Machine) : Machine := m.running.clearance.2

theorem asked_cleared (m : Machine) : Asked m.running m.cleared := asked_clearance m.running

/-! ## Steps -/

/-- What comes of a step of a machine that is not final. -/
inductive Stepped (m : Machine) : Except Fault Unit × Machine → Prop
  /-- Nothing is left to hand out. -/
  | finished (spent : m.more = false) : Stepped m (.ok (), m.complete)
  /-- Leave to go on is refused. -/
  | refused {why : String}
      (told : m.running.clearance.1 = .error (Guard.cancellation why m.ip)) :
      Stepped m (.error (Guard.cancellation why m.ip),
        m.cleared.fail (Guard.cancellation why m.ip))
  /-- The instruction at the index fails. -/
  | failed {k : Nat} {o : Op} {t : Option Int} {f : Fault} {c : Config}
      (told : m.running.clearance.1 = .ok ()) (ip : m.ip = some (k : Int))
      (found : m.program.instructions[k]? = some ⟨.op o, t⟩)
      (tick : m.config.tick m.program = (.error f, c)) :
      Stepped m (.error f, ((m.cleared.mark o k).withConfig c).fail f)
  /-- The instruction at the index is executed, and counted. -/
  | executed {k : Nat} {o : Op} {t : Option Int} {c : Config}
      (told : m.running.clearance.1 = .ok ()) (ip : m.ip = some (k : Int))
      (found : m.program.instructions[k]? = some ⟨.op o, t⟩)
      (tick : m.config.tick m.program = (.ok (), c)) :
      Stepped m (.ok (), ((m.cleared.mark o k).withConfig c).counted)

theorem Safe.stepped (safe : m.Safe) (live : m.state.isFinal = false) : m.Stepped m.step := by
  cases more : m.more with
  | false =>
    rw [safe.step_over live more]
    exact .finished more
  | true =>
    obtain ⟨k, o, t, ip, found⟩ := safe.next more
    have asked := m.asked_cleared
    rw [safe.step live more ip found]
    unfold cleared at asked
    generalize cleared : m.running.clearance = answer at asked ⊢
    have after : m.cleared = answer.2 := congrArg Prod.snd cleared
    have told : m.running.clearance.1 = answer.1 := congrArg Prod.fst cleared
    obtain ⟨result, n⟩ := answer
    subst after
    cases result with
    | error f =>
      obtain ⟨why, rfl⟩ := clearance_refused told
      exact .refused told
    | ok =>
      have ticks : m.cleared.config.tick m.cleared.program = m.config.tick m.program := by
        rw [asked.config, asked.program]
        rfl
      simp only [ticks]
      cases tick : m.config.tick m.program with
      | mk result c =>
        cases result with
        | error f => exact .failed told ip found tick
        | ok => exact .executed told ip found tick

/-- The state once a step has been counted. -/
theorem counted_state (m : Machine) :
    m.counted.state = if m.counted.more then m.state else .completed := by
  rcases counted_cases m with ⟨more, state⟩ | ⟨spent, completed⟩
  · rw [more, state]
    rfl
  · rw [spent, completed]
    rfl

/-! ## Turns of any run -/

/-- The instruction at an index was executed, which made one machine of another. -/
structure Executes (m n : Machine) (k : Nat) (o : Op) (t : Option Int) : Prop where
  ip : m.ip = some (k : Int)
  found : m.program.instructions[k]? = some ⟨.op o, t⟩
  tick : m.config.tick m.program = (.ok (), n.config)
  program : n.program = m.program
  steps : n.steps = m.steps + 1
  safe : n.Safe

variable {n s : Machine} {r : Except Fault Unit} {i : Nat}

/-- A turn that does not end a run has executed one instruction, whatever watches over the run and
in whatever order it hands out its instructions. -/
theorem Safe.turn_executes (safe : m.Safe) (turned : m.turn = .again n) :
    ∃ k o t, m.Executes n k o t := by
  cases more : m.more with
  | false =>
    rw [turn_over safe more] at turned
    cases turned
  | true =>
    rw [turn_step safe more] at turned
    cases live : m.state.isFinal with
    | true =>
      rw [step_final live] at turned
      cases turned
    | false =>
      have asked := m.asked_cleared
      have cleared : m.cleared.Safe :=
        (show m.running.Safe from ⟨safe.program, safe.inside⟩).asked asked
      have came := safe.stepped live
      generalize m.step = answer at came turned
      cases came with
      | finished spent =>
        rw [more] at spent
        cases spent
      | refused => cases turned
      | failed => cases turned
      | @executed k o t c told ip found tick =>
        cases turned
        have ticks : m.cleared.config.tick m.cleared.program = (.ok (), c) := by
          rw [asked.config, asked.program]
          exact tick
        have ticked := cleared.ticked o k
        rw [ticks] at ticked
        refine ⟨k, o, t, ip, found, ?_, ?_, ?_, ticked.counted⟩
        · rw [counted_config]
          exact tick
        · rw [counted_program]
          exact asked.program
        · rw [counted_steps]
          exact congrArg (· + 1) asked.steps

/-- The turn that ends a run has executed nothing. -/
theorem Safe.turn_ends (safe : m.Safe) (turned : m.turn = .done (r, n)) :
    n.config.tape = m.config.tape ∧ n.steps = m.steps := by
  cases more : m.more with
  | false =>
    rw [turn_over safe more] at turned
    cases turned
    exact ⟨rfl, rfl⟩
  | true =>
    rw [turn_step safe more] at turned
    cases live : m.state.isFinal with
    | true =>
      rw [step_final live] at turned
      cases turned
      exact ⟨rfl, rfl⟩
    | false =>
      have asked := m.asked_cleared
      have came := safe.stepped live
      generalize m.step = answer at came turned
      cases came with
      | finished =>
        cases turned
      | refused =>
        cases turned
        exact ⟨congrArg Config.tape asked.config, asked.steps⟩
      | failed told ip found tick =>
        cases turned
        exact ⟨(Config.tick_kept ip found tick).1, asked.steps⟩
      | executed => cases turned

/-- Turns of a run keep its program, and each has executed one instruction. -/
theorem Safe.after_turns (safe : m.Safe) (reached : Loop.after turn i m = some s) :
    s.Safe ∧ s.program = m.program ∧ s.steps = m.steps + i := by
  induction i generalizing m with
  | zero =>
    cases reached
    exact ⟨safe, rfl, rfl⟩
  | succ i ih =>
    unfold Loop.after at reached
    cases turned : m.turn with
    | done =>
      rw [turned] at reached
      cases reached
    | again n =>
      rw [turned] at reached
      obtain ⟨k, o, t, executed⟩ := safe.turn_executes turned
      obtain ⟨safe', program, steps⟩ := ih executed.safe reached
      exact ⟨safe', program.trans executed.program, by rw [steps, executed.steps]; omega⟩

/-! ## Turns of a plain run -/

/-- What comes of a turn of a plain run. -/
inductive PlainTurn (m : Machine) : Turn Machine (Except Fault Unit × Machine) → Prop
  | finished (spent : m.more = false) : PlainTurn m (.done (.ok (), m.complete))
  | failed {f : Fault} {n : Machine} (more : m.more = true)
      (tick : m.config.tick m.program = (.error f, n.config)) (steps : n.steps = m.steps)
      (state : n.state = f.aftermath.getD .running) : PlainTurn m (.done (.error f, n))
  | executed {n : Machine} (more : m.more = true)
      (tick : m.config.tick m.program = (.ok (), n.config)) (plain : n.Plain)
      (program : n.program = m.program) (steps : n.steps = m.steps + 1)
      (state : n.state = if n.more then .running else .completed) : PlainTurn m (.again n)

theorem Plain.turned (plain : m.Plain) : m.PlainTurn m.turn := by
  cases more : m.more with
  | false =>
    rw [turn_over plain.toSafe more]
    exact .finished more
  | true =>
    obtain ⟨k, o, t, ip, found⟩ := plain.next more
    have step := plain.step ip found
    cases tick : m.config.tick m.program with
    | mk result c =>
      rw [tick] at step
      cases result with
      | error f =>
        rw [turn_step plain.toSafe more, step]
        exact .failed more tick rfl rfl
      | ok =>
        obtain ⟨n, again, later, program, config, steps⟩ := plain.turn_tick tick
        have turn := turn_step plain.toSafe more
        rw [step] at turn
        rw [again] at turn
        cases turn
        rw [again]
        refine .executed more (by rw [config, tick]) later program steps ?_
        exact counted_state _

end Machine
end TapeMachine
