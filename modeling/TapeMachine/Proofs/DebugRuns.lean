import TapeMachine.Proofs.Halting

/-! What a debugger does to the configuration of its machine. An advance is one tick unless the
deadline has passed, and running to the end is as many ticks as it takes. -/

namespace TapeMachine

/-- All that can come of a step of a plain machine that has an instruction left, told by its
tick. -/
inductive Machine.TickStep (m : Machine) : Except Fault Unit × Machine → Prop
  | failed {k : Nat} {o : Op} {t : Option Int} {f : Fault} {n : Machine}
      (ip : m.config.ip = some (k : Int)) (found : m.program.instructions[k]? = some ⟨.op o, t⟩)
      (tick : m.config.tick m.program = (.error f, n.config)) (safe : n.Safe)
      (program : n.program = m.program) (steps : n.steps = m.steps) : TickStep m (.error f, n)
  | executed {n : Machine} (tick : m.config.tick m.program = (.ok (), n.config)) (plain : n.Plain)
      (program : n.program = m.program) (steps : n.steps = m.steps + 1)
      (guard : n.guard = m.guard) : TickStep m (.ok (), n)

theorem Machine.Plain.step_guard {m : Machine} (plain : m.Plain) (more : m.more = true) :
    m.step.2.guard = m.guard := by
  obtain ⟨k, o, t, ip, found⟩ := plain.next more
  rw [plain.step ip found]
  generalize m.config.tick m.program = answer
  obtain ⟨f | ⟨⟩, c⟩ := answer
  · rfl
  · exact counted_guard _

theorem Machine.Plain.tickStep {m : Machine} (plain : m.Plain) (more : m.more = true) :
    m.TickStep m.step := by
  have turned := plain.turned
  have guard := plain.step_guard more
  have later := plain.toSafe.step_orderly.later
  obtain ⟨k, o, t, ip, found⟩ := plain.next more
  rw [turn_step plain.toSafe more] at turned
  generalize m.step = answer at turned guard later ⊢
  obtain ⟨f | ⟨⟩, n⟩ := answer
  · cases turned with
    | failed _ tick steps => exact .failed ip found tick later.safe later.program steps
  · cases turned with
    | executed _ tick plain' program steps => exact .executed tick plain' program steps guard

namespace Debugger

/-- Whether the clock will be at the deadline or past it, once it has been read so many times
more. -/
def late (d : Debugger) (n : Nat) : Bool :=
  d.deadline.any fun deadline =>
    d.machine.guard.clock.reading (d.machine.guard.clock.reads + n) ≥ deadline

/-- Why a debugger goes no further from a configuration, and what it is left with. -/
inductive Stops (p : Program) (c : Config) : Fault → Debugger → Prop
  /-- The next instruction fails. -/
  | broke {d : Debugger} {k : Nat} {o : Op} {t : Option Int} {f : Fault}
      (ip : c.ip = some (k : Int)) (found : p.instructions[k]? = some ⟨.op o, t⟩)
      (tick : c.tick p = (.error f, d.machine.config)) : Stops p c f d
  /-- The deadline has passed. -/
  | late {d : Debugger} {k : Nat} (ip : c.ip = some (k : Int)) (lt : k < p.length)
      (config : d.machine.config = c) :
      Stops p c (Guard.cancellation "deadline exceeded" c.ip) d

/-- A debugger that waits for a plain machine to go on, or has completed. -/
structure Standing (d : Debugger) : Prop where
  plain : d.machine.Plain
  state : d.state = stateFor d.machine.more

/-- What is left of a debugger after `n` instructions, each of which was begun before the
deadline. -/
structure Left (d : Debugger) (n : Nat) (fault : Option Fault) (e : Debugger) : Prop where
  safe : e.machine.Safe
  program : e.machine.program = d.machine.program
  steps : e.machine.steps = d.machine.steps + n
  timely : ∀ j < n, d.late j = false
  late : ∀ ip, fault = some (Guard.cancellation "deadline exceeded" ip) → d.late n = true

/-- A debugger `n` instructions later. -/
structure Since (d : Debugger) (n : Nat) (e : Debugger) : Prop extends d.Left n none e where
  clock : ∀ j, e.late j = d.late (n + j)

/-- All that can come of an advance of a debugger that stands, told by ticks. -/
inductive Ticked (d : Debugger) : Except Fault Snapshot × Debugger → Prop
  | executed {e : Debugger} (since : d.Since 1 e) (standing : e.Standing)
      (tick : d.machine.config.tick d.machine.program = (.ok (), e.machine.config)) :
      Ticked d (.ok e.machine.picture, e)
  | stopped {e : Debugger} {f : Fault} (left : d.Left 0 (some f) e)
      (stops : Stops d.machine.program d.machine.config f e) : Ticked d (.error f, e)

/-- All that can come of running to the end, in `n` instructions. -/
inductive RunsTo (d : Debugger) (n : Nat) : Except Fault Snapshot × Debugger → Prop
  | finished {e : Debugger} (since : d.Since n e) (standing : e.Standing)
      (ticked : d.machine.config.ticks d.machine.program n = some e.machine.config)
      (ip : e.machine.config.ip = some (e.machine.program.length : Int)) :
      RunsTo d n (.ok e.machine.picture, e)
  | stopped {e : Debugger} {f : Fault} {c : Config} (left : d.Left n (some f) e)
      (ticked : d.machine.config.ticks d.machine.program n = some c)
      (stops : Stops d.machine.program c f e) : RunsTo d n (.error f, e)

variable {d e b : Debugger} {r : Except Fault Snapshot} {m n fuel : Nat} {c : Config} {f : Fault}
  {fault : Option Fault}

theorem Left.refl (safe : d.machine.Safe) : d.Left 0 none d :=
  ⟨safe, rfl, rfl, nofun, nofun⟩

theorem Since.refl (safe : d.machine.Safe) : d.Since 0 d := by
  refine ⟨.refl safe, ?_⟩
  intro j
  rw [Nat.zero_add]

theorem Since.left (h : d.Since n e) (h' : e.Left m fault b) : d.Left (n + m) fault b := by
  refine ⟨h'.safe, h'.program.trans h.program, ?_, ?_, ?_⟩
  · rw [h'.steps, h.steps, Nat.add_assoc]
  · intro j lt
    rcases Nat.lt_or_ge j n with before | behind
    · exact h.timely j before
    · have timely := h'.timely (j - n) (by omega)
      rw [h.clock] at timely
      rw [← timely]
      congr
      omega
  · intro ip told
    rw [← h.clock]
    exact h'.late ip told

theorem Since.trans (h : d.Since n e) (h' : e.Since m b) : d.Since (n + m) b := by
  refine ⟨h.left h'.toLeft, ?_⟩
  intro j
  rw [h'.clock, h.clock, Nat.add_assoc]

theorem Standing.more (h : d.Standing) (waiting : d.state = .waiting) :
    d.machine.more = true := by
  have state := h.state
  rw [waiting] at state
  cases more : d.machine.more with
  | true => rfl
  | false =>
    rw [more] at state
    cases state

/-- A debugger that stands and does not wait is at the end of the program. -/
theorem Standing.ip_end (h : d.Standing) (busy : d.state ≠ .waiting) :
    d.machine.config.ip = some (d.machine.program.length : Int) := by
  have spent : d.machine.more = false := by
    cases more : d.machine.more with
    | false => rfl
    | true =>
      have state := h.state
      rw [more] at state
      exact absurd state busy
  obtain ⟨k, ip, le⟩ := h.plain.inside
  rw [Machine.more_linear h.plain.linear ip] at spent
  have last : k = d.machine.program.length := Nat.le_antisymm le (by simpa using spent)
  rw [← last]
  exact ip

/-- Asking for the time leaves the configuration alone. -/
theorem expired_kept (d : Debugger) :
    d.expired.2.machine.config = d.machine.config ∧
      d.expired.2.machine.program = d.machine.program ∧ d.expired.1 = d.late 0 ∧
      ∀ j, d.expired.2.late j = d.late (1 + j) := by
  unfold expired late
  cases dated : d.deadline with
  | none => simp [dated]
  | some deadline =>
    refine ⟨rfl, rfl, rfl, ?_⟩
    intro j
    simp only [withMachine, Machine.withGuard, Clock.read, dated, Nat.add_assoc]

/-- Giving up leaves the configuration alone. -/
theorem cancel_kept (safe : d.machine.Safe) (told : ∀ ip, fault ≠ some
    (Guard.cancellation "deadline exceeded" ip)) :
    d.Left 0 fault d.cancel ∧ d.cancel.machine.config = d.machine.config := by
  have later := cancel_later safe
  unfold cancel at later ⊢
  by_cases finished : d.finished = true
  · rw [if_pos finished]
    exact ⟨⟨safe, rfl, rfl, nofun, fun ip same => absurd same (told ip)⟩, rfl⟩
  · rw [if_neg finished] at later ⊢
    exact ⟨⟨later.safe, rfl, rfl, nofun, fun ip same => absurd same (told ip)⟩, rfl⟩

/-- Stepping the machine once the clock has been asked, and the deadline has not passed. -/
theorem stepOnce_ticked (h : d.Standing) (waiting : d.state = .waiting)
    (asked : d.expired = (false, b)) : d.Ticked b.stepOnce := by
  obtain ⟨config, program, early, clock⟩ := d.expired_kept
  obtain ⟨plain, same, more, steps⟩ := expired_plain h.plain
  rw [asked] at config program early clock plain same more steps
  simp only at config program early clock plain same more steps
  have stepped := plain.tickStep (more.trans (h.more waiting))
  generalize taken : b.machine.step = answer at stepped
  cases stepped with
  | @executed n tick plain' program' steps' guard =>
    rw [stepOnce_ok taken plain'.toSafe]
    let next : Debugger := { b with machine := n, state := stateFor n.more }
    have standing : next.Standing := ⟨plain', rfl⟩
    have left : d.Left 1 none next := by
      refine ⟨plain'.toSafe, program'.trans program, ?_, ?_, nofun⟩
      · exact steps'.trans (congrArg (· + 1) steps)
      · intro j lt
        rw [Nat.lt_one_iff.mp lt]
        exact early.symm
    have since : d.Since 1 next := by
      refine ⟨left, ?_⟩
      intro j
      rw [← clock]
      simp only [late, next, guard]
    rw [config, program] at tick
    have executed : d.Ticked (.ok next.machine.picture, next) := .executed since standing tick
    exact executed
  | @failed k o t f n ip found tick safe program' steps' =>
    rw [stepOnce_error taken]
    let left : Debugger := { b with machine := n, state := .running }
    have kept : (left.afterFault f).machine = n := machine_afterFault left f
    have uncancelled := (Config.tick_breaks ip found tick).uncancelled
    rw [config] at ip
    rw [program] at found
    rw [config, program] at tick
    refine .stopped ⟨?_, ?_, ?_, nofun, ?_⟩ (.broke ip found ?_)
    · rw [kept]
      exact safe
    · rw [kept]
      exact program'.trans program
    · rw [kept]
      exact steps'.trans steps
    · rintro _ ⟨⟩
      cases uncancelled
    · rw [kept]
      exact tick

theorem Standing.advance (h : d.Standing) (waiting : d.state = .waiting) :
    d.Ticked d.advance := by
  unfold Debugger.advance
  rw [if_pos waiting]
  rcases asked : d.expired with ⟨_ | _, b⟩
  · exact stepOnce_ticked h waiting asked
  · obtain ⟨config, program, late, _⟩ := d.expired_kept
    obtain ⟨plain, same, _, steps⟩ := expired_plain h.plain
    obtain ⟨k, o, t, ip, found⟩ := h.plain.next (h.more waiting)
    rw [asked] at config program late plain same steps
    simp only at config program late plain same steps
    have waiting' : b.state = .waiting := by
      rw [same]
      exact waiting
    have ip' : b.machine.ip = some (k : Int) := (congrArg Config.ip config).trans ip
    let given : Debugger :=
      { b with
        machine := b.machine.cancel
        state := .cancelled
        fault := some (Guard.cancellation "deadline exceeded" (some k)) }
    have left : d.Left 0 (some (Guard.cancellation "deadline exceeded" d.machine.config.ip))
        given := by
      refine ⟨⟨plain.program, plain.inside⟩, program, steps, nofun, ?_⟩
      intro _ _
      exact late.symm
    have stops : Stops d.machine.program d.machine.config
        (Guard.cancellation "deadline exceeded" d.machine.config.ip) given :=
      .late ip (Program.lt_length found) config
    have stopped : d.Ticked (.error _, given) := .stopped left stops
    rw [show d.machine.config.ip = _ from ip] at stopped
    simp only [expire_waiting waiting' ip']
    exact stopped

theorem Standing.runToEnd {answer : Except Fault Snapshot × Debugger} (h : d.Standing)
    (ran : d.runToEnd fuel = some answer) : ∃ n, d.RunsTo n answer := by
  unfold Debugger.runToEnd at ran
  induction fuel generalizing d with
  | zero => cases ran
  | succ fuel ih =>
    rw [Loop.turns] at ran
    by_cases waiting : d.state = .waiting
    · have ticked := h.advance waiting
      rw [turn_waiting waiting] at ran
      generalize d.advance = taken at ticked ran
      cases ticked with
      | stopped left stops =>
        cases ran
        exact ⟨0, .stopped left rfl stops⟩
      | executed since standing tick =>
        obtain ⟨n, rest⟩ := ih standing ran
        refine ⟨1 + n, ?_⟩
        have first := Config.ticks_add n (Config.ticks_one tick)
        cases rest with
        | finished since' standing' ticked ip =>
          rw [since.program] at ticked
          exact .finished (since.trans since') standing' (first.trans ticked) ip
        | stopped left ticked stops =>
          rw [since.program] at ticked stops
          exact .stopped (since.left left) (first.trans ticked) stops
    · have ip := h.ip_end waiting
      rw [turn, if_neg waiting, snapshot, h.plain.toSafe.snapshot] at ran
      cases ran
      exact ⟨0, .finished (.refl h.plain.toSafe) h rfl ip⟩

end Debugger
end TapeMachine
