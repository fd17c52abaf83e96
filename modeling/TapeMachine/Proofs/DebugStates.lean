import TapeMachine.Proofs.Drivers
import TapeMachine.Proofs.Engine

/-! A debugger and the machine that it alone drives. What the debugger says of itself is true of
the machine, whatever was asked of it and in whatever order; and it changes what it says only for
the reason that it gives. -/

namespace TapeMachine

/-- A machine as it is made, whatever its streams, its clock and its tape. -/
structure Machine.Fresh (m : Machine) : Prop where
  state : m.state = .ready
  steps : m.steps = 0
  ip : m.ip = some 0
  linear : m.traversal = .linear
  idle : m.guard.Idle

namespace Machine

variable {m n : Machine}

theorem Fresh.plain (fresh : m.Fresh) (sound : m.program.Sound) : m.Plain := by
  have safe : m.Safe := ⟨sound, 0, fresh.ip, Nat.zero_le _⟩
  refine ⟨⟨safe, fun _ => ?_⟩, fresh.linear, fresh.idle⟩
  rw [fresh.state]
  rfl

/-- All that can come of a step of a plain machine that has an instruction left. -/
inductive PlainStep (m : Machine) : Except Fault Unit × Machine → Prop
  | failed {f : Fault} {n : Machine} (safe : n.Safe) (steps : n.steps = m.steps)
      (other : f.isCancellation = false) (state : n.state = f.aftermath.getD .running) :
      PlainStep m (.error f, n)
  | executed {n : Machine} (plain : n.Plain) (steps : n.steps = m.steps + 1)
      (state : n.state = if n.more then .running else .completed) : PlainStep m (.ok (), n)

theorem Plain.step_cases (plain : m.Plain) (more : m.more = true) : m.PlainStep m.step := by
  have turned := plain.turned
  have safe := plain.toSafe.step_orderly.later.safe
  obtain ⟨k, o, t, ip, found⟩ := plain.next more
  rw [turn_step plain.toSafe more] at turned
  generalize m.step = answer at turned safe ⊢
  obtain ⟨f | ⟨⟩, n⟩ := answer
  · cases turned with
    | failed _ tick steps state =>
      have breaks := Config.tick_breaks ip found tick
      exact .failed safe steps breaks.uncancelled state
  · cases turned with
    | executed _ _ plain _ steps state => exact .executed plain steps state

end Machine

namespace Debugger

/-- What may be asked of a debugger. -/
inductive Ask where
  | advance | runToEnd | cancel | snapshot
  deriving DecidableEq

/-- What comes of asking it, within `fuel` turns. -/
def respond (fuel : Nat) (d : Debugger) : Ask → Option (Except Fault Unit × Debugger)
  | .advance => some (d.advance.1.map fun _ => (), d.advance.2)
  | .runToEnd => (d.runToEnd fuel).map fun (r, d) => (r.map fun _ => (), d)
  | .cancel => some (.ok (), d.cancel)
  | .snapshot => some (d.snapshot.map fun _ => (), d)

/-- How many advances succeed within so many turns of running to the end. -/
def successes : Nat → Debugger → Nat
  | 0, _ => 0
  | fuel + 1, d =>
    match d.turn with
    | .again d => successes fuel d + 1
    | .done _ => 0

/-- How many advances succeed as it is asked. -/
def gains (fuel : Nat) (d : Debugger) : Ask → Nat
  | .advance =>
    match d.advance.1 with
    | .ok _ => 1
    | .error _ => 0
  | .runToEnd => successes fuel d
  | .cancel | .snapshot => 0

/-- The debuggers that come of what is asked, with the number of advances that succeeded. -/
inductive Driven (start : Debugger) : Nat → Debugger → Prop
  | start : Driven start 0 start
  | next {k fuel : Nat} {d d' : Debugger} {ask : Ask} {r : Except Fault Unit}
      (before : Driven start k d) (answered : d.respond fuel ask = some (r, d')) :
      Driven start (k + d.gains fuel ask) d'

/-- An advance raised the fault, before the deadline or after it, and left the debugger as it
is. -/
def Raised (start d : Debugger) (late : Bool) (f : Fault) : Prop :=
  ∃ k e, Driven start k e ∧ e.state = .waiting ∧ e.expired.1 = late ∧ e.advance = (.error f, d)

/-- Somebody gave up, before the debugger had finished. -/
def GivenUp (start d : Debugger) : Prop :=
  ∃ k e, Driven start k e ∧ e.finished = false ∧ e.cancel = d

/-- A fault that the debugger keeps, unless it was interrupted. -/
inductive Kept (d : Debugger) (f : Fault) : Prop
  | fault (fault : d.fault = some f)
  | interrupt (interrupt : f.isInterrupt = true) (state : d.state = .running)

/-- What a debugger says of itself, what is then true of its machine, and how it came to that. -/
inductive Coupled (start d : Debugger) : Prop
  | waiting (state : d.state = .waiting)
      (machine : d.machine.state = .ready ∨ d.machine.state = .running)
      (next : d.machine.hasNext = .ok true) (request : d.machine.guard.cancelled = false)
      (fault : d.fault = none)
  /-- The machine has completed, or there was nothing to do from the start. -/
  | completed (state : d.state = .completed)
      (machine : d.machine.state = .completed ∨ d = start ∧ d.machine.program.length = 0)
      (spent : d.machine.hasNext = .ok false) (fault : d.fault = none)
  | failed {f : Fault} (state : d.state = .failed) (machine : d.machine.state = .failed)
      (fault : d.fault = some f) (raised : Raised start d false f)
  | expired (state : d.state = .cancelled) (request : d.machine.guard.cancelled = true)
      (fault : d.fault = some (Guard.cancellation "deadline exceeded" d.machine.ip))
      (raised : Raised start d true (Guard.cancellation "deadline exceeded" d.machine.ip))
  | givenUp (state : d.state = .cancelled) (request : d.machine.guard.cancelled = true)
      (fault : d.fault = none) (asked : GivenUp start d)
  | interrupted {f : Fault} (state : d.state = .running) (machine : d.machine.state = .running)
      (fault : d.fault = none) (interrupt : f.isInterrupt = true)
      (raised : Raised start d false f)

variable {start d d' : Debugger} {k fuel : Nat} {ask : Ask} {r : Except Fault Unit}

/-! ## One advance -/

/-- All that can come of an advance of a debugger that waits on a plain machine. -/
inductive Advanced (d : Debugger) : Except Fault Snapshot × Debugger → Prop
  | expired {n : Machine} (late : d.expired.1 = true) (safe : n.Safe)
      (steps : n.steps = d.machine.steps) :
      Advanced d (.error (Guard.cancellation "deadline exceeded" n.ip),
        { d with
          machine := n.cancel
          state := .cancelled
          fault := some (Guard.cancellation "deadline exceeded" n.ip) })
  | failed {n : Machine} {f : Fault} (early : d.expired.1 = false) (safe : n.Safe)
      (steps : n.steps = d.machine.steps) (state : n.state = .failed) :
      Advanced d (.error f, { d with machine := n, state := .failed, fault := some f })
  | interrupted {n : Machine} {f : Fault} (early : d.expired.1 = false) (safe : n.Safe)
      (steps : n.steps = d.machine.steps) (interrupt : f.isInterrupt = true)
      (state : n.state = .running) :
      Advanced d (.error f, { d with machine := n, state := .running })
  | executed {n : Machine} (plain : n.Plain) (steps : n.steps = d.machine.steps + 1)
      (state : n.state = if n.more then .running else .completed) :
      Advanced d (.ok n.picture, { d with machine := n, state := stateFor n.more })

theorem stepOnce_advanced {n : Machine} (early : d.expired.1 = false) (plain : n.Plain)
    (more : n.more = true) (steps : n.steps = d.machine.steps) :
    d.Advanced (d.withMachine n).stepOnce := by
  have stepped := plain.step_cases more
  generalize taken : n.step = answer at stepped
  cases stepped with
  | executed plain' counted state =>
    rw [stepOnce_ok taken plain'.toSafe]
    exact .executed plain' (by rw [counted, steps]) state
  | @failed f n' safe kept other state =>
    rw [stepOnce_error taken]
    have kept := kept.trans steps
    unfold Fault.aftermath at state
    unfold afterFault
    cases interrupt : f.isInterrupt with
    | true =>
      simp only [interrupt, if_true] at state ⊢
      exact .interrupted early safe kept interrupt state
    | false =>
      simp only [interrupt, other, Bool.false_eq_true, if_false] at state ⊢
      exact .failed early safe kept state

/-- Asking for the time changes nothing but the clock. -/
theorem expired_plain (plain : d.machine.Plain) :
    d.expired.2.machine.Plain ∧ d.expired.2 = d.withMachine d.expired.2.machine ∧
      d.expired.2.machine.more = d.machine.more ∧ d.expired.2.machine.steps = d.machine.steps := by
  unfold expired
  cases d.deadline with
  | none => exact ⟨plain, rfl, rfl, rfl⟩
  | some deadline =>
    obtain ⟨⟨⟨program, inside⟩, live⟩, linear, request, event, dated⟩ := plain
    exact ⟨⟨⟨⟨program, inside⟩, live⟩, linear, request, event, dated⟩, rfl, rfl, rfl⟩

theorem advance_advanced (waiting : d.state = .waiting) (plain : d.machine.Plain)
    (more : d.machine.more = true) : d.Advanced d.advance := by
  obtain ⟨plain', same, more', steps⟩ := expired_plain plain
  have found : ∀ late e, d.expired = (late, e) → d.expired.1 = late := fun _ _ => congrArg Prod.fst
  unfold advance
  rw [if_pos waiting]
  rcases asked : d.expired with ⟨_ | _, e⟩
  · have early := found false e asked
    rw [asked] at plain' same more' steps
    simp only at plain' same more' steps ⊢
    rw [same]
    exact stepOnce_advanced early plain' (more'.trans more) steps
  · have late := found true e asked
    rw [asked] at plain' same steps
    simp only at plain' same steps ⊢
    obtain ⟨k, ip, _⟩ := plain'.inside
    have waiting' : e.state = .waiting := by
      rw [same]
      exact waiting
    have told := Advanced.expired late plain'.toSafe steps
    rw [show e.machine.ip = some (k : Int) from ip] at told
    simp only [expire_waiting waiting' ip]
    rw [same]
    exact told

/-! ## Whatever is asked -/

/-- A debugger on which so many advances have succeeded. -/
structure Tracked (start : Debugger) (k : Nat) (d : Debugger) : Prop where
  driven : Driven start k d
  safe : d.machine.Safe
  steps : d.machine.steps = k
  coupled : Coupled start d
  plain : d.state = .waiting → d.machine.Plain

theorem Tracked.waiting (h : Tracked start k d) (waiting : d.state = .waiting) :
    d.machine.more = true ∧ d.fault = none := by
  cases h.coupled with
  | waiting _ _ next _ fault =>
    rw [h.safe.hasNext] at next
    exact ⟨Except.ok.inj next, fault⟩
  | completed state | failed state | expired state | givenUp state | interrupted state =>
    rw [waiting] at state
    cases state

theorem Tracked.advance_error {f : Fault} (h : Tracked start k d) (waiting : d.state = .waiting)
    (raised : d.advance = (.error f, d')) : Tracked start k d' ∧ d'.Kept f := by
  obtain ⟨more, fault⟩ := h.waiting waiting
  have advanced := advance_advanced waiting (h.plain waiting) more
  have driven : Driven start k d' := by
    have next := @Driven.next start k 0 d d.advance.2 .advance _ h.driven rfl
    simp only [raised, gains] at next
    exact next
  rw [raised] at advanced
  cases advanced with
  | expired late safe same =>
    have cause : Raised start _ true _ := ⟨k, d, h.driven, waiting, late, raised⟩
    refine ⟨⟨driven, ⟨safe.program, safe.inside⟩, same.trans h.steps, ?_, ?_⟩, .fault rfl⟩
    · exact .expired rfl rfl rfl cause
    · intro waiting
      cases waiting
  | failed early safe same state =>
    have cause : Raised start _ false _ := ⟨k, d, h.driven, waiting, early, raised⟩
    refine ⟨⟨driven, safe, same.trans h.steps, ?_, ?_⟩, .fault rfl⟩
    · exact .failed rfl state rfl cause
    · intro waiting
      cases waiting
  | interrupted early safe same interrupt state =>
    have cause : Raised start _ false _ := ⟨k, d, h.driven, waiting, early, raised⟩
    refine ⟨⟨driven, safe, same.trans h.steps, ?_, ?_⟩, .interrupt interrupt rfl⟩
    · exact .interrupted rfl state fault interrupt cause
    · intro waiting
      cases waiting

theorem Tracked.advance_ok {shot : Snapshot} (h : Tracked start k d) (waiting : d.state = .waiting)
    (answered : d.advance = (.ok shot, d')) : Tracked start (k + 1) d' := by
  obtain ⟨more, fault⟩ := h.waiting waiting
  have advanced := advance_advanced waiting (h.plain waiting) more
  have driven : Driven start (k + 1) d' := by
    have next := @Driven.next start k 0 d d.advance.2 .advance _ h.driven rfl
    simp only [answered, gains] at next
    exact next
  rw [answered] at advanced
  cases advanced with
  | @executed n plain counted state =>
    have told := plain.toSafe.hasNext
    refine ⟨driven, plain.toSafe, by rw [← h.steps]; exact counted, ?_, fun _ => plain⟩
    cases more : n.more with
    | true =>
      rw [more] at told state
      exact .waiting rfl (.inr state) told plain.idle.request fault
    | false =>
      rw [more] at told state
      exact .completed rfl (.inl state) told fault

theorem turn_busy (safe : d.machine.Safe) (busy : d.state ≠ .waiting) :
    d.turn = .done (.ok d.machine.picture, d) := by
  rw [turn, if_neg busy, snapshot, safe.snapshot]

theorem turn_error {f : Fault} (waiting : d.state = .waiting)
    (raised : d.advance = (.error f, d')) :
    d.turn = .done (.error f, d') := by
  rw [turn_waiting waiting, raised]

theorem turn_ok {shot : Snapshot} (waiting : d.state = .waiting)
    (answered : d.advance = (.ok shot, d')) : d.turn = .again d' := by
  rw [turn_waiting waiting, answered]

theorem Tracked.runToEnd {shot : Except Fault Snapshot} (h : Tracked start k d)
    (ran : d.runToEnd fuel = some (shot, d')) :
    Tracked start (k + d.successes fuel) d' ∧ ∀ f, shot = .error f → d'.Kept f := by
  unfold Debugger.runToEnd at ran
  -- on the turns: each but the last is an advance that succeeds, and adds one to the count
  induction fuel generalizing k d with
  | zero => cases ran
  | succ fuel ih =>
    by_cases waiting : d.state = .waiting
    · rcases advanced : d.advance with ⟨f | shot', e⟩
      · have last := turn_error waiting advanced
        obtain ⟨tracked, kept⟩ := h.advance_error waiting advanced
        simp only [Loop.turns, last] at ran
        cases ran
        simp only [successes, last]
        exact ⟨tracked, fun g same => by cases same; exact kept⟩
      · have again := turn_ok waiting advanced
        simp only [Loop.turns, again] at ran
        obtain ⟨tracked, kept⟩ := ih (h.advance_ok waiting advanced) ran
        rw [Nat.add_right_comm] at tracked
        simp only [successes, again]
        exact ⟨tracked, kept⟩
    · have last := turn_busy h.safe waiting
      simp only [Loop.turns, last] at ran
      cases ran
      simp only [successes, last]
      exact ⟨h, fun _ raised => by cases raised⟩

theorem Tracked.cancel (h : Tracked start k d) (driven : Driven start k d.cancel) :
    Tracked start k d.cancel := by
  cases finished : d.finished with
  | true =>
    rw [cancel_finished finished]
    exact h
  | false =>
    have asked : GivenUp start d.cancel := ⟨k, d, h.driven, finished, rfl⟩
    have given : d.cancel = { d with machine := d.machine.cancel, state := .cancelled } := by
      simp only [Debugger.cancel, finished, Bool.false_eq_true, if_false]
    have fault : d.fault = none := by
      cases h.coupled with
      | waiting _ _ _ _ fault => exact fault
      | interrupted _ _ fault => exact fault
      | completed state | failed state | expired state | givenUp state =>
        rw [Debugger.finished, state] at finished
        cases finished
    rw [given] at driven asked ⊢
    refine ⟨driven, ⟨h.safe.program, h.safe.inside⟩, h.steps, ?_, ?_⟩
    · exact .givenUp rfl rfl fault asked
    · intro waiting
      cases waiting

theorem Tracked.respond (h : Tracked start k d) (answered : d.respond fuel ask = some (r, d')) :
    Tracked start (k + d.gains fuel ask) d' ∧
      ∀ f, r = .error f → d'.Kept f ∨ f = .notWaiting d.state ∧ d' = d := by
  have driven : Driven start (k + d.gains fuel ask) d' := .next h.driven answered
  cases ask with
  | advance =>
    cases answered
    by_cases waiting : d.state = .waiting
    · rcases advanced : d.advance with ⟨f | shot, e⟩
      · obtain ⟨tracked, kept⟩ := h.advance_error waiting advanced
        simp only [gains, advanced]
        exact ⟨tracked, fun g same => by cases same; exact .inl kept⟩
      · have tracked := h.advance_ok waiting advanced
        simp only [gains, advanced]
        exact ⟨tracked, fun g same => by cases same⟩
    · rw [gains, advance_notWaiting waiting]
      exact ⟨h, fun g same => by cases same; exact .inr ⟨rfl, rfl⟩⟩
  | runToEnd =>
    obtain ⟨⟨shot, e⟩, ran, same⟩ := Option.map_eq_some_iff.mp answered
    cases same
    obtain ⟨tracked, kept⟩ := h.runToEnd ran
    refine ⟨tracked, ?_⟩
    intro f raised
    cases shot with
    | ok shot => cases raised
    | error g =>
      cases raised
      exact .inl (kept f rfl)
  | cancel =>
    cases answered
    exact ⟨h.cancel driven, fun _ raised => by cases raised⟩
  | snapshot =>
    simp only [Debugger.respond, snapshot, h.safe.snapshot] at answered
    cases answered
    exact ⟨h, fun _ raised => by cases raised⟩

theorem Driven.tracked (driven : Driven start k d) (first : Tracked start 0 start) :
    Tracked start k d := by
  induction driven with
  | start => exact first
  | next _ answered ih => exact (ih.respond answered).1

/-- Nothing is left to ask of a debugger that has finished. -/
structure Absorbed (d : Debugger) : Prop where
  advance : d.advance = (.error (.notWaiting d.state), d)
  runToEnd : ∀ fuel, d.runToEnd (fuel + 1) = some (.ok d.machine.picture, d)
  cancel : d.cancel = d
  ever : ∀ j e, Driven d j e → e = d

theorem busy_of_finished (finished : d.finished = true) : d.state ≠ .waiting := by
  intro waiting
  rw [Debugger.finished, waiting] at finished
  cases finished

theorem absorbed (safe : d.machine.Safe) (finished : d.finished = true) : d.Absorbed := by
  have refused := advance_notWaiting (busy_of_finished finished)
  have ended := turn_busy safe (busy_of_finished finished)
  refine ⟨refused, ?_, cancel_finished finished, ?_⟩
  · intro fuel
    rw [Debugger.runToEnd, Loop.turns, ended]
  · intro j e driven
    induction driven with
    | start => rfl
    | @next _ fuel _ e ask r _ answered same =>
      subst same
      cases ask with
      | advance =>
        simp only [Debugger.respond, refused] at answered
        cases answered
        rfl
      | runToEnd =>
        obtain ⟨⟨shot, e⟩, ran, same⟩ := Option.map_eq_some_iff.mp answered
        cases same
        cases fuel with
        | zero => cases ran
        | succ fuel =>
          rw [Debugger.runToEnd, Loop.turns, ended] at ran
          cases ran
          rfl
      | cancel =>
        simp only [Debugger.respond, cancel_finished finished] at answered
        cases answered
        rfl
      | snapshot =>
        cases answered
        rfl

/-- The clock is read, if there is a timeout; nothing else happens to the machine. -/
theorem tracked_start {m : Machine} {timeout : Option Float} (plain : m.Plain) (fresh : m.Fresh)
    (created : create m timeout = .ok start) :
    start.machine = m.withGuard { m.guard with clock := (m.guard.clock.deadline timeout).2 } ∧
      Tracked start 0 start := by
  rw [create_ok plain.toSafe] at created
  cases created
  refine ⟨rfl, ?_⟩
  let n := m.withGuard { m.guard with clock := (m.guard.clock.deadline timeout).2 }
  have plain' : n.Plain :=
    ⟨⟨⟨plain.program, plain.inside⟩, plain.live⟩, plain.linear,
      ⟨plain.idle.request, plain.idle.event, plain.idle.deadline⟩⟩
  have told : n.hasNext = .ok m.more := plain'.toSafe.hasNext
  refine ⟨.start, plain'.toSafe, fresh.steps, ?_, fun _ => plain'⟩
  cases more : m.more with
  | true =>
    rw [more] at told
    exact .waiting rfl (.inl fresh.state) told plain'.idle.request rfl
  | false =>
    have empty : m.program.length = 0 := by
      have before := @Machine.more_linear m 0 fresh.linear fresh.ip
      rw [more] at before
      exact Nat.eq_zero_of_not_pos (of_decide_eq_false before.symm)
    rw [more] at told
    exact .completed rfl (.inr ⟨rfl, empty⟩) told rfl

/-- Whatever is asked of a debugger that alone drives a fresh machine, of any compiled program and
whatever its streams raise: the machine has counted as many steps as advances succeeded; what the
debugger says of itself is true of the machine, and came about as it says; what an answer raises is
kept, unless it is an interrupt or refuses an advance; and a debugger that has finished stays as it
is. -/
theorem debugger_tells_of_machine {source : Source} {m : Machine}
    (compiled : compile source = .ok m.program) (fresh : m.Fresh) (timeout : Option Float) :
    ∃ start, create m timeout = .ok start ∧
      start.machine = m.withGuard { m.guard with clock := (m.guard.clock.deadline timeout).2 } ∧
      ∀ k d, Driven start k d →
        d.machine.steps = k ∧ Coupled start d ∧
        (∀ fuel ask f d', d.respond fuel ask = some (.error f, d') →
          d'.Kept f ∨ f = .notWaiting d.state ∧ d' = d) ∧
        (d.finished = true → d.Absorbed) := by
  have plain := fresh.plain (compile_sound compiled)
  have created := create_ok plain.toSafe timeout
  obtain ⟨machine, first⟩ := tracked_start plain fresh created
  refine ⟨_, created, machine, ?_⟩
  intro k d driven
  have tracked := driven.tracked first
  refine ⟨tracked.steps, tracked.coupled, ?_, absorbed tracked.safe⟩
  intro fuel ask f d' answered
  exact (tracked.respond answered).2 f rfl

/-- A debugger whose first advance succeeds, and whose second moves left of the tape. -/
theorem failed_debugger_tells :
    ∃ m start d, compile (.text "+<") = .ok m.program ∧ m.Fresh ∧ create m none = .ok start ∧
      Driven start 1 d ∧ d.fault = some (.report ⟨.pointerUnderflow, none, none, some 1⟩) ∧
      d.machine.steps = 1 ∧ Coupled start d ∧ d.Absorbed := by
  let m : Machine := .onTape
    (.ofEntries [⟨⟨.op .increment, none⟩, some ⟨1, 1⟩⟩, ⟨⟨.op .moveLeft, none⟩, some ⟨1, 2⟩⟩])
    .blank (.ofBytes []) .reliable
  have compiled : compile (.text "+<") = .ok m.program := rfl
  have fresh : m.Fresh := ⟨rfl, rfl, rfl, rfl, ⟨rfl, rfl, rfl⟩⟩
  obtain ⟨start, created, _, told⟩ := debugger_tells_of_machine compiled fresh none
  have advanced := @Driven.next start 0 0 start _ .advance _ .start rfl
  have failed := @Driven.next start _ 0 _ _ .advance _ advanced rfl
  cases created
  obtain ⟨steps, coupled, _, absorbed⟩ := told _ _ failed
  exact ⟨m, _, _, compiled, fresh, rfl, failed, rfl, steps, coupled, absorbed rfl⟩

end Debugger
end TapeMachine
