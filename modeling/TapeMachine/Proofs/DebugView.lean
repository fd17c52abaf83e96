import TapeMachine.Proofs.DebugSessions
import TapeMachine.Proofs.Watching

/-! The debug view does not change what a program does. One stream serves the commands and the
program: each byte of it goes into a command line or to the program, in order. What the program is
handed, a plain run on just these bytes is handed too, and it does the same with them. -/

namespace TapeMachine

/-- How a session compares with a plain run on the bytes that the program was handed: after as many
instructions that run has come to `b`, where the session ended. -/
structure Replayed (p : Program) (c : Config) (xs : List Exchange) (e : SessionEnd) (b : Config) :
    Prop where
  plain : ∀ more, (c.replay (xs.flatMap Exchange.handed ++ more) c.output).ticks p
    (xs.map Exchange.steps).sum = some (b.replay more b.output)
  tape : e.session.machine.config.tape = b.tape
  written : e.session.machine.config.output.written = b.output.written
  completed : e.fault = none → b.ip = some (p.length : Int)
  ceased : ∀ f, e.fault = some f → Ceased p b e.session.machine.config f

namespace Dialogue

variable {p : Program} {atEnd : StreamEnd} {c : Config} {xs : List Exchange} {e : SessionEnd}

/-- Every byte of the input goes into a command line or to the program, in order, and what the
program does with those that it is handed, a plain run on them does. -/
theorem replayed (dialogue : Dialogue p atEnd c xs e) (sound : p.Sound) (inside : c.Inside p)
    (reliable : c.output.Reliable) {bytes : List UInt8} (input : c.input = .bytes bytes atEnd) :
    ∃ rest b, bytes = xs.flatMap (fun x => x.line ++ x.handed) ++ rest ∧
      e.session.machine.config.input = .bytes rest atEnd ∧
      b.input = .bytes rest atEnd ∧ Replayed p c xs e b := by
  induction dialogue generalizing bytes with
  | @finished c e ip kept fault shown =>
    rw [← kept] at input ip
    refine ⟨bytes, _, rfl, input, input, ?_⟩
    rw [← kept]
    refine ⟨fun _ => rfl, rfl, rfl, fun _ => ip, ?_⟩
    intro f failed
    rw [fault] at failed
    cases failed
  | @interrupted c e k bytes' ip lt input' stopped within kept fault =>
    rw [← kept] at input ip
    refine ⟨bytes, _, rfl, input, input, ?_⟩
    rw [← kept]
    refine ⟨fun _ => rfl, rfl, rfl, ?_, ?_⟩
    · intro none
      rw [fault] at none
      cases none
    · intro f failed
      rw [fault] at failed
      cases failed
      exact sound.ceased ip lt nofun
  | @last c b x f e takes obeyed fault shown =>
    cases takes with
    | @line bytes' after input' typed handed =>
      cases input.symm.trans input'
      have inside : (c.withInput (.bytes after atEnd)).Inside p := inside
      have reliable : (c.withInput (.bytes after atEnd)).output.Reliable := reliable
      obtain ⟨b, ticked, ceased⟩ := obeyed.ceased sound
      obtain ⟨rest, split, input''⟩ := Config.ticks_bytes sound inside ticked rfl
      refine ⟨rest, b, ?_, ceased.input input'', input'', ?_, ceased.tape, ceased.written, ?_, ?_⟩
      · rw [typed.append, split, ← handed]
        simp
      · intro more
        have replay := Config.ticks_replay sound inside reliable ticked more
        rw [← handed] at replay
        rw [List.flatMap_singleton, List.map_singleton, List.sum_singleton]
        exact replay
      · intro none
        rw [fault] at none
        cases none
      · intro g failed
        rw [fault] at failed
        cases failed
        exact ceased
  | @next c b x d xs e takes obeyed others ih =>
    cases takes with
    | @line bytes' after input' typed handed =>
      cases input.symm.trans input'
      have inside : (c.withInput (.bytes after atEnd)).Inside p := inside
      have reliable : (c.withInput (.bytes after atEnd)).output.Reliable := reliable
      have ticked := obeyed.ok
      obtain ⟨left, split, input''⟩ := Config.ticks_bytes sound inside ticked rfl
      have reliable' := Config.ticks_reliable sound inside reliable ticked
      obtain ⟨rest, b, split', input''', bytes, same⟩ :=
        ih (Config.ticks_inside sound inside ticked) reliable' input''
      refine ⟨rest, b, ?_, input''', bytes, ?_, same.tape, same.written, same.completed,
        same.ceased⟩
      · rw [typed.append, split, split', ← handed]
        simp
      · intro more
        have first := Config.ticks_replay sound inside reliable ticked
          (xs.flatMap Exchange.handed ++ more)
        rw [← handed, ← List.append_assoc] at first
        rw [List.flatMap_cons, List.map_cons, List.sum_cons]
        exact (Config.ticks_add _ first).trans (same.plain more)

end Dialogue

/-! ## The plain run -/

/-- A session that ends has come as far as a plain run, in as many instructions, and ends as the
plain run does where the program ends it. -/
structure SessionEnd.Follows (e : SessionEnd) (plain : Machine) : Prop where
  reached : ∃ m, Loop.after Machine.turn e.session.machine.steps plain = some m ∧
    m.steps = e.session.machine.steps ∧ m.config.tape = e.session.machine.config.tape ∧
    m.config.output.written = e.session.captured
  completed : e.fault = none ↔ ∃ o, plain.RunEnds {} o ∧ o.result = .ok () ∧
    o.machine.steps = e.session.machine.steps
  failed : ∀ f, e.fault = some f → f.isReport = true → f.isCancellation = false →
    ∃ o, plain.RunEnds {} o ∧ o.result = .error f ∧ o.machine.steps = e.session.machine.steps

/-- A machine at the start of a program, on one zero cell and just these bytes. -/
def Machine.onBytes (p : Program) (bytes : List UInt8) : Machine :=
  .onTape p .blank (.ofBytes bytes) .reliable

theorem Machine.fresh_onBytes (p : Program) (bytes : List UInt8) : (onBytes p bytes).Fresh :=
  ⟨rfl, rfl, rfl, rfl, ⟨rfl, rfl, rfl⟩⟩

/-- A run comes out as its loop ends, and its loop ends where a turn does. -/
theorem Machine.runEnds_onBytes {p : Program} {bytes : List UInt8} {n q : Machine} {k : Nat}
    {r : Except Fault Unit} (after : Loop.after Machine.turn k (onBytes p bytes) = some n)
    (last : n.turn = .done (r, q)) : (onBytes p bytes).RunEnds {} ⟨r, q.report.toList, q⟩ := by
  have ended := Loop.ends_of_after after last
  exact (Machine.runEnds_iff rfl rfl).mpr ⟨(r, q), ⟨k + 1, ended⟩, rfl⟩

theorem Replayed.follows {p : Program} {c : Config} {xs : List Exchange} {e : SessionEnd}
    {b : Config} {bytes : List UInt8} {atEnd : StreamEnd} (same : Replayed p c xs e b)
    (sound : p.Sound) (input : b.input = .bytes bytes atEnd)
    (start : c.replay (xs.flatMap Exchange.handed) c.output =
      (Machine.onBytes p (xs.flatMap Exchange.handed)).config)
    (steps : e.session.machine.steps = (xs.map Exchange.steps).sum) :
    e.Follows (.onBytes p (xs.flatMap Exchange.handed)) := by
  let m := Machine.onBytes p (xs.flatMap Exchange.handed)
  have fresh : m.Fresh := Machine.fresh_onBytes p _
  have ticked : m.config.ticks p (xs.map Exchange.steps).sum = some (b.replay [] b.output) := by
    have replay := same.plain []
    rw [List.append_nil, start] at replay
    exact replay
  rw [← steps] at ticked
  obtain ⟨n, after, plain, program, config, counted⟩ := (fresh.plain sound).after_ticks ticked
  have counted : n.steps = e.session.machine.steps := counted.trans (Nat.zero_add _)
  have program : n.program = p := program
  have there : n.ip = b.ip := by
    rw [Machine.ip, config]
    rfl
  refine ⟨⟨n, after, counted, ?_, ?_⟩, ⟨?_, ?_⟩, ?_⟩
  · rw [config]
    exact same.tape.symm
  · rw [config]
    exact same.written.symm
  · intro unfailed
    have spent : n.more = false := by
      rw [Machine.more_linear plain.linear (there.trans (same.completed unfailed)), program]
      simp
    exact ⟨_, Machine.runEnds_onBytes after (Machine.turn_over plain.toSafe spent), rfl, counted⟩
  · rintro ⟨o, ran, result, stopped⟩
    cases fault : e.fault with
    | none => rfl
    | some f =>
      -- the plain run is over after these instructions, but the session had one more to execute
      have halts := @Machine.Fresh.halts m o none fresh sound ran
      rw [result, stopped] at halts
      obtain ⟨k, op, t, ip, found⟩ := (same.ceased f fault).next
      cases halts with
      | finished ticked' ended =>
        have stood := Option.some.inj (ticked.symm.trans ticked')
        rw [← stood] at ended
        have last : k = p.length := Int.ofNat.inj (Option.some.inj (ip.symm.trans ended))
        exact absurd last (Nat.ne_of_lt (Program.lt_length found))
  · intro f fault report uncancelled
    have ceased := same.ceased f fault
    obtain ⟨k, op, t, ip, found⟩ := ceased.next
    obtain ⟨d, tick⟩ := ceased.failure input report uncancelled
    have more : n.more = true := by
      rw [Machine.more_linear plain.linear (there.trans ip), program]
      exact decide_eq_true (Program.lt_length found)
    rw [← config, ← program] at tick
    obtain ⟨q, last, _, _, kept, _⟩ := plain.turn_fault more tick
    exact ⟨_, Machine.runEnds_onBytes after last, rfl, kept.trans counted⟩

/-! ## The command -/

namespace CommandLine

variable {source : Source} {program : Program} {output : Option (Operand String)}
  {timeout : Option Float} {trace : Bool} {w : Surroundings} {dest : Destination}

/-- The session that a debug view begins with. -/
def session (program : Program) (timeout : Option Float) (trace : Bool) (w : Surroundings) :
    Session :=
  let m := machineFor program trace w
  let m := m.withGuard { m.guard with clock := (w.clock.deadline timeout).2 }
  { debugger :=
      { machine := m
        deadline := (w.clock.deadline timeout).1
        state := Debugger.stateFor m.more }
    shot := m.picture
    controls := .shared }

end CommandLine
end TapeMachine
