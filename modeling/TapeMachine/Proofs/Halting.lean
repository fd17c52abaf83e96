import TapeMachine.Proofs.DebugStates
import TapeMachine.Proofs.Entries

/-! How a run stops that hands out its instructions in order, whatever watches over it: after how
many instructions, what these wrote, and for what reason no other was executed. -/

namespace TapeMachine

theorem Input.quiet_bytes {rest : List UInt8} {why : Cause} :
    ¬ (Input.bytes rest .ended).Raises why := by
  intro raises
  generalize start : Input.bytes rest .ended = i at raises
  induction raises generalizing rest with
  | now raised =>
    subst start
    cases rest <;> cases raised
  | later _ ih =>
    subst start
    cases rest with
    | nil => exact @ih [] rfl
    | cons b rest => exact @ih rest rfl

theorem Input.quiet_prompted {r : PromptedInput} (calm : r.console.atEnd = .ended) {why : Cause} :
    ¬ (Input.prompted r).Raises why := by
  intro raises
  generalize start : Input.prompted r = i at raises
  induction raises generalizing r with
  | now raised =>
    subst start
    obtain ⟨⟨data, told⟩, _⟩ := r.read_ordinary calm 1
    have answer : (Input.prompted r).read.1 = (r.read 1).1 := rfl
    rw [answer, told] at raised
    cases raised
  | later _ ih =>
    subst start
    exact ih (r.read_ordinary calm 1).2 rfl

theorem Output.Reliable.quiet {o : Output} (reliable : o.Reliable) {why : Cause} :
    ¬ o.Raises why := by
  rintro ⟨n, _, raised⟩
  rw [reliable n] at raised
  cases raised

namespace Config

theorem quiet {c : Config} (input : ∀ why, ¬ c.input.Raises why) (reliable : c.output.Reliable)
    (why : Cause) : ¬ c.Raises why := by
  rintro (raises | raises)
  · exact input why raises
  · exact reliable.quiet raises

/-- The byte that an operation writes, if it writes one. -/
def sent (c : Config) : Op → List UInt8
  | .output => [c.tape.cell]
  | _ => []

/-- The byte that the instruction at the index writes, if it writes one. -/
def issued (p : Program) (c : Config) : List UInt8 :=
  match c.ip with
  | none => []
  | some i =>
    match p.get i with
    | .ok ⟨.op o, _⟩ => c.sent o
    | _ => []

/-- The bytes that so many instructions write. -/
def emitted (p : Program) : Nat → Config → List UInt8
  | 0, _ => []
  | n + 1, c => c.issued p ++ emitted p n (c.tick p).2

/-- How a run in order stops after `n` instructions, what comes of it, and the configuration it
leaves. -/
inductive Halts (p : Program) (c : Config) (n : Nat) : Except Fault Unit → Config → Prop
  /-- At the end of the program. -/
  | finished {d : Config} (ticked : c.ticks p n = some d) (ip : d.ip = some (p.length : Int)) :
      Halts p c n (.ok ()) d
  /-- For want of leave to go on. -/
  | refused {d : Config} {k : Nat} {why : String} (ticked : c.ticks p n = some d)
      (ip : d.ip = some (k : Int)) (lt : k < p.length) :
      Halts p c n (.error (Guard.cancellation why d.ip)) d
  /-- In an instruction that fails. -/
  | failed {d e : Config} {k : Nat} {o : Op} {t : Option Int} {f : Fault}
      (ticked : c.ticks p n = some d) (ip : d.ip = some (k : Int))
      (found : p.instructions[k]? = some ⟨.op o, t⟩) (tick : d.tick p = (.error f, e)) :
      Halts p c n (.error f) e

variable {p : Program} {c d e : Config} {o : Op} {t : Option Int} {index : Int} {n : Nat}
  {r : Except Fault Unit} {f : Fault}

theorem ticks_succ (tick : c.tick p = (.ok (), d)) : c.ticks p (n + 1) = d.ticks p n := by
  rw [ticks, tick]

theorem Halts.next (tick : c.tick p = (.ok (), d)) (halts : d.Halts p n r e) :
    c.Halts p (n + 1) r e := by
  cases halts with
  | finished ticked ip => exact .finished ((ticks_succ tick).trans ticked) ip
  | refused ticked ip lt => exact .refused ((ticks_succ tick).trans ticked) ip lt
  | failed ticked ip found failed => exact .failed ((ticks_succ tick).trans ticked) ip found failed

/-! ## What is done to the streams -/

/-- What an operation that is carried out does to the streams. -/
inductive Serves (c : Config) (index : Int) (d : Config) : Op → Prop
  | apart {o : Op} (unread : o ≠ .input) (unwritten : o ≠ .output) (input : d.input = c.input)
      (output : d.output = c.output) : Serves c index d o
  | wrote (written : c.output.writeSymbol index c.tape.cell = (.ok (), d.output))
      (input : d.input = c.input) : Serves c index d .output
  | read {b : UInt8} (read : c.input.readSymbol index = (.ok b, d.input))
      (output : d.output = c.output) : Serves c index d .input

theorem perform_serves (done : c.perform o t index = (.ok (), d)) : c.Serves index d o := by
  cases o with
  | moveRight | increment | decrement =>
    cases done
    exact .apart (by decide) (by decide) rfl rfl
  | moveLeft =>
    rw [perform, moveLeft] at done
    cases moved : c.tape.moveLeft? with
    | none =>
      rw [moved] at done
      cases done
    | some tape =>
      rw [moved] at done
      cases done
      exact .apart (by decide) (by decide) rfl rfl
  | loopStart | loopEnd =>
    rw [perform] at done
    split at done
    · cases done
      exact .apart (by decide) (by decide) rfl rfl
    · cases done
      exact .apart (by decide) (by decide) rfl rfl
  | output =>
    rw [perform, writeSymbol] at done
    cases wrote : c.output.writeSymbol index c.tape.cell with
    | mk result output =>
      rw [wrote] at done
      cases done
      exact .wrote wrote rfl
  | input =>
    rw [perform, readSymbol] at done
    cases read : c.input.readSymbol index with
    | mk result input =>
      rw [read] at done
      cases result with
      | error f => cases done
      | ok b =>
        cases done
        exact .read read rfl

/-- What a tick that succeeds has done. -/
theorem tick_serves (sound : p.Sound) (inside : c.Inside p) (ticked : c.tick p = (.ok (), d)) :
    d.Inside p ∧ c.Leads d ∧ ∃ (k : Nat) (o : Op) (t : Option Int), c.ip = some (k : Int) ∧
      p.instructions[k]? = some ⟨.op o, t⟩ ∧ c.Serves k d o := by
  have further := tick_inside sound inside
  rw [ticked] at further
  obtain ⟨k, ip, le⟩ := inside
  rcases Nat.lt_or_eq_of_le le with lt | rfl
  · obtain ⟨o, t, found, _⟩ := sound.at lt
    have leads := leads_tick ip found
    rw [ticked] at leads
    rw [tick_at ip found] at ticked
    refine ⟨further, leads, k, o, t, ip, found, ?_⟩
    -- the index of the next instruction is no matter to the streams
    cases perform_serves ticked with
    | apart unread unwritten input output => exact .apart unread unwritten input output
    | wrote written input => exact .wrote written input
    | read read output => exact .read read output
  · rw [tick_end ip] at ticked
    cases ticked

theorem issued_at {k : Nat} (ip : c.ip = some (k : Int))
    (found : p.instructions[k]? = some ⟨.op o, t⟩) : c.issued p = c.sent o := by
  have get := Program.get_of_instruction found
  simp only [issued, ip, get]

/-- What is true of every tick that succeeds, is true of so many as well, with the bytes that
they read and those that they wrote. -/
theorem ticks_rel {R : Config → List UInt8 → List UInt8 → Config → Prop}
    (none : ∀ c, R c [] [] c)
    (next : ∀ {c d e k o t read written}, c.ip = some (Int.ofNat k) →
      p.instructions[k]? = some ⟨.op o, t⟩ → c.Leads d → c.Serves k d o →
      R d read written e → R c (c.received o k ++ read) (c.sent o ++ written) e)
    (sound : p.Sound) (inside : c.Inside p) (ticked : c.ticks p n = some d) :
    R c (c.handed p n) (c.emitted p n) d := by
  induction n generalizing c with
  | zero =>
    cases ticked
    exact none _
  | succ n ih =>
    rw [ticks] at ticked
    rw [handed, emitted]
    generalize tick : c.tick p = answer at ticked ⊢
    obtain ⟨_ | ⟨⟩, b⟩ := answer
    · cases ticked
    · obtain ⟨further, leads, k, o, t, ip, found, serves⟩ := tick_serves sound inside tick
      rw [taken_at ip found, issued_at ip found]
      exact next ip found leads serves (ih further ticked)

theorem leads_ticks (sound : p.Sound) (inside : c.Inside p) (ticked : c.ticks p n = some d) :
    c.Leads d := by
  refine @ticks_rel p c d n (fun c _ _ d => c.Leads d) .refl ?_ sound inside ticked
  intro c d e k o t read written _ _ leads _ rest
  exact leads.trans rest

theorem ticks_inside (sound : p.Sound) (inside : c.Inside p) (ticked : c.ticks p n = some d) :
    d.Inside p := by
  induction n generalizing c with
  | zero =>
    cases ticked
    exact inside
  | succ n ih =>
    have further := tick_inside sound inside
    rw [ticks] at ticked
    generalize c.tick p = answer at further ticked
    obtain ⟨_ | ⟨⟩, b⟩ := answer
    · cases ticked
    · exact ih further ticked

theorem Serves.written (serves : c.Serves index d o) :
    d.output.written = c.output.written ++ c.sent o := by
  cases serves with
  | apart _ unwritten _ output =>
    have nothing : c.sent o = [] := by
      cases o <;> first | rfl | exact absurd rfl unwritten
    rw [output, nothing, List.append_nil]
  | wrote wrote =>
    have done : (c.output.writeSymbol index c.tape.cell).1 = .ok () := by rw [wrote]
    have behind := Output.written_of_ok done
    rw [wrote] at behind
    exact behind
  | read _ output =>
    rw [output]
    exact (List.append_nil _).symm

theorem Serves.reliable (serves : c.Serves index d o) (reliable : c.output.Reliable) :
    d.output.Reliable := by
  cases serves with
  | apart _ _ _ output | read _ output =>
    rw [output]
    exact reliable
  | wrote wrote =>
    have faultAt := Output.faultAt_writeSymbol c.output index c.tape.cell
    rw [wrote] at faultAt
    intro n
    rw [faultAt]
    exact reliable n

/-- What so many instructions write is behind what was written before. -/
theorem ticks_written (sound : p.Sound) (inside : c.Inside p) (ticked : c.ticks p n = some d) :
    d.output.written = c.output.written ++ c.emitted p n := by
  refine @ticks_rel p c d n (fun c _ written d =>
    d.output.written = c.output.written ++ written) ?_ ?_ sound inside ticked
  · intro c
    exact (List.append_nil _).symm
  · intro c d e k o t read written _ _ _ serves rest
    rw [rest, serves.written, List.append_assoc]

theorem ticks_reliable (sound : p.Sound) (inside : c.Inside p) (reliable : c.output.Reliable)
    (ticked : c.ticks p n = some d) : d.output.Reliable := by
  refine @ticks_rel p c d n (fun c _ _ d => c.output.Reliable → d.output.Reliable) ?_ ?_ sound
    inside ticked reliable
  · intro c reliable
    exact reliable
  · intro c d e k o t read written _ _ _ serves rest reliable
    exact rest (serves.reliable reliable)

/-- What reading symbols does to an input, so many instructions do with the bytes that they
read. -/
theorem ticks_feed {R : Input → List UInt8 → Input → Prop} (none : ∀ i, R i [] i)
    (next : ∀ {i j l index b rest}, Input.readSymbol index i = (.ok b, j) → R j rest l →
      R i (b :: rest) l)
    (sound : p.Sound) (inside : c.Inside p) (ticked : c.ticks p n = some d) :
    R c.input (c.handed p n) d.input := by
  refine @ticks_rel p c d n (fun c read _ d => R c.input read d.input) ?_ ?_ sound inside ticked
  · intro c
    exact none c.input
  · intro c d e k o t read written _ _ _ serves rest
    cases serves with
    | apart unread _ input =>
      have nothing : c.received o k = [] := by
        cases o <;> first | rfl | exact absurd rfl unread
      rw [nothing, ← input]
      exact rest
    | wrote _ input =>
      rw [show c.received .output k = [] from rfl, ← input]
      exact rest
    | @read b read =>
      have something : c.received .input k = [b] := by
        simp only [received, read]
      rw [something]
      exact next read rest

/-- Bytes that so many instructions read stood at the front of the input. -/
theorem ticks_bytes (sound : p.Sound) (inside : c.Inside p) (ticked : c.ticks p n = some d)
    {bytes : List UInt8} {atEnd : StreamEnd} (input : c.input = .bytes bytes atEnd) :
    ∃ rest, bytes = c.handed p n ++ rest ∧ d.input = .bytes rest atEnd := by
  refine @ticks_feed p c d n (fun i bytes j => ∀ all, i = .bytes all atEnd →
    ∃ rest, all = bytes ++ rest ∧ j = .bytes rest atEnd) ?_ ?_ sound inside ticked bytes input
  · intro i all start
    exact ⟨all, rfl, start⟩
  · rintro i j l index b bytes read rest all rfl
    cases all with
    | nil => cases atEnd <;> cases read
    | cons first others =>
      cases read
      obtain ⟨last, rfl, left⟩ := rest others rfl
      exact ⟨last, rfl, left⟩

/-- What an instruction that fails has done to the input: nothing, or a read that failed. -/
theorem tick_error_input {k : Nat} (ip : c.ip = some (k : Int))
    (found : p.instructions[k]? = some ⟨.op o, t⟩) (failed : c.tick p = (.error f, d)) :
    d.input = c.input ∨ ∃ g, c.input.readSymbol k = (.error g, d.input) := by
  rw [tick_at ip found] at failed
  cases o with
  | moveRight | increment | decrement | loopStart | loopEnd => cases failed
  | moveLeft =>
    rw [perform, moveLeft] at failed
    split at failed
    · cases failed
      exact .inl rfl
    · cases failed
  | output =>
    rw [perform, writeSymbol] at failed
    obtain ⟨_, rfl⟩ := Prod.mk.inj failed
    exact .inl rfl
  | input =>
    rw [perform, readSymbol] at failed
    cases read : (c.jump (some ((k : Int) + 1))).input.readSymbol k with
    | mk result input =>
      rw [read] at failed
      cases result with
      | ok => cases failed
      | error =>
        cases failed
        exact .inr ⟨_, read⟩

/-- Bytes that could not be read are still there. -/
theorem tick_unread {k : Nat} (ip : c.ip = some (k : Int))
    (found : p.instructions[k]? = some ⟨.op o, t⟩) (failed : c.tick p = (.error f, d))
    {bytes : List UInt8} {atEnd : StreamEnd} (input : c.input = .bytes bytes atEnd) :
    d.input = .bytes bytes atEnd := by
  rcases tick_error_input ip found failed with kept | ⟨g, read⟩
  · rw [kept]
    exact input
  · rw [input] at read
    cases bytes with
    | nil => cases atEnd <;> exact (congrArg Prod.snd read).symm
    | cons b rest => cases read

/-- The same operation on the same output does the same to it. -/
theorem Serves.output_eq {c' d' : Config} (serves : c.Serves index d o)
    (again : c'.Serves index d' o) (tape : c'.tape = c.tape) (output : c'.output = c.output) :
    d'.output = d.output := by
  cases serves with
  | apart unread unwritten _ kept =>
    cases again with
    | apart _ _ _ kept' => rw [kept, kept', output]
    | wrote => exact absurd rfl unwritten
    | read => exact absurd rfl unread
  | wrote written =>
    cases again with
    | apart _ unwritten => exact absurd rfl unwritten
    | wrote written' =>
      rw [tape, output, written] at written'
      exact (congrArg Prod.snd written').symm
  | read _ kept =>
    cases again with
    | apart unread => exact absurd rfl unread
    | read _ kept' => rw [kept, kept', output]

/-- Where the input holds just what they read, and what follows, so many instructions do the
same. -/
theorem ticks_replay (sound : p.Sound) (inside : c.Inside p) (reliable : c.output.Reliable)
    (ticked : c.ticks p n = some d) (rest : List UInt8) :
    (c.replay (c.handed p n ++ rest) c.output).ticks p n = some (d.replay rest d.output) := by
  induction n generalizing c with
  | zero =>
    cases ticked
    rfl
  | succ n ih =>
    rw [ticks] at ticked
    rw [handed]
    generalize tick : c.tick p = answer at ticked ⊢
    obtain ⟨_ | ⟨⟩, b⟩ := answer
    · cases ticked
    · obtain ⟨further, _, k, o, t, ip, found, serves⟩ := tick_serves sound inside tick
      have behind := ih further (serves.reliable reliable) ticked
      obtain ⟨output, _, first⟩ := @tick_replay p c b (b.handed p n ++ rest) c.output k sound ip
        (Program.lt_length found) tick reliable
      obtain ⟨_, _, k', o', t', ip', found', serves'⟩ :=
        tick_serves sound (c := c.replay _ c.output) inside first
      cases ip.symm.trans ip'
      cases found.symm.trans found'
      have same : output = b.output := serves.output_eq serves' rfl rfl
      rw [List.append_assoc, ticks, first, same]
      exact behind

theorem perform_of_breaks (breaks : c.Breaks index o f) (t : Option Int) :
    ∃ d, c.perform o t index = (.error f, d) := by
  cases breaks with
  | leftEnd first =>
    rw [perform, moveLeft, Tape.moveLeft?_eq_none.mpr first]
    exact ⟨_, rfl⟩
  | unread raised other | readPassed raised other =>
    rw [perform, readSymbol, Input.readSymbol]
    generalize c.input.read = answer at raised
    obtain ⟨_, input⟩ := answer
    cases raised
    simp only [other]
    exact ⟨_, rfl⟩
  | exhausted nothing =>
    rw [perform, readSymbol, Input.readSymbol]
    generalize c.input.read = answer at nothing
    obtain ⟨_, input⟩ := answer
    cases nothing
    exact ⟨_, rfl⟩
  | unwritten raised other | writePassed raised other =>
    rw [perform, writeSymbol, Output.writeSymbol]
    generalize c.output.write c.tape.cell = answer at raised
    obtain ⟨_, output⟩ := answer
    cases raised
    simp only [other]
    exact ⟨_, rfl⟩

/-- An instruction that fails with a report on an input of bytes fails so as well where nothing is
left to read. -/
theorem tick_replay_error {k : Nat} (ip : c.ip = some (k : Int))
    (found : p.instructions[k]? = some ⟨.op o, t⟩) (failed : c.tick p = (.error f, d))
    {bytes : List UInt8} {atEnd : StreamEnd} (input : c.input = .bytes bytes atEnd)
    (report : f.isReport = true) :
    ∃ e, (c.replay [] c.output).tick p = (.error f, e) := by
  have breaks := tick_breaks ip found failed
  have again : ((c.replay [] c.output).jump (some ((k : Int) + 1))).Breaks k o f := by
    cases breaks with
    | leftEnd first => exact .leftEnd first
    | unread raised trouble =>
      rw [input] at raised
      rcases bytes with _ | ⟨b, rest⟩ <;> cases atEnd <;> cases raised
      cases trouble
    | exhausted => exact .exhausted rfl
    | readPassed | writePassed => cases report
    | unwritten raised trouble => exact .unwritten raised trouble
  have ip' : (c.replay [] c.output).ip = some (k : Int) := ip
  rw [tick_at ip' found]
  exact perform_of_breaks again t

namespace Halts

/-- A run that stops has come through its instructions to a configuration with the tape and the
output that it leaves. -/
theorem reached (halts : c.Halts p n r e) :
    ∃ d, c.ticks p n = some d ∧ e.tape = d.tape ∧ e.output.written = d.output.written := by
  cases halts with
  | finished ticked => exact ⟨e, ticked, rfl, rfl⟩
  | refused ticked => exact ⟨e, ticked, rfl, rfl⟩
  | failed ticked ip found tick =>
    obtain ⟨tape, written⟩ := tick_kept ip found tick
    exact ⟨_, ticked, tape, written⟩

theorem written (halts : c.Halts p n r e) (sound : p.Sound) (inside : c.Inside p) :
    e.output.written = c.output.written ++ c.emitted p n := by
  obtain ⟨d, ticked, _, same⟩ := halts.reached
  rw [same]
  exact ticks_written sound inside ticked

/-- A run stops with a report, or with what a stream raised. -/
theorem fault (halts : c.Halts p n (.error f) e) (sound : p.Sound) (inside : c.Inside p) :
    f.isReport = true ∨ ∃ why, c.Raises why ∧ f = .stream why := by
  cases halts with
  | refused => exact .inl rfl
  | failed ticked ip found tick =>
    have leads := leads_ticks sound inside ticked
    cases tick_breaks ip found tick with
    | leftEnd | unread | exhausted | unwritten => exact .inl rfl
    | readPassed raised => exact .inr ⟨_, leads.streams _ (.inl (.now raised)), rfl⟩
    | writePassed raised =>
      exact .inr ⟨_, leads.streams _ (.inr (Output.raises_of_error raised)), rfl⟩

/-- Where the streams raise nothing, a run stops for nothing but a report. -/
theorem report (halts : c.Halts p n (.error f) e) (sound : p.Sound) (inside : c.Inside p)
    (quiet : ∀ why, ¬ c.Raises why) : f.isReport = true := by
  rcases halts.fault sound inside with report | ⟨why, raises, _⟩
  · exact report
  · exact absurd raises (quiet why)

end Halts
end Config

namespace Machine

variable {m n e : Machine} {fuel : Nat} {r : Except Fault Unit} {f : Fault} {o : RunOutcome}
  {timeout : Option Float}

theorem Linear.step_error (h : m.Linear) (more : m.more = true)
    (stepped : m.step = (.error f, n)) :
    m.config.Halts m.program 0 (.error f) n.config ∧ n.steps = m.steps := by
  have asked := m.asked_cleared
  have came := h.toSafe.stepped (h.live more)
  rw [stepped] at came
  generalize answer : ((.error f, n) : Except Fault Unit × Machine) = taken at came
  cases came with
  | finished => cases answer
  | executed => cases answer
  | @refused why =>
    cases answer
    obtain ⟨k, o, t, ip, found⟩ := h.toSafe.next more
    refine ⟨?_, asked.steps⟩
    have config : (m.cleared.fail (Guard.cancellation why m.ip)).config = m.config := asked.config
    rw [config]
    exact .refused rfl ip (Program.lt_length found)
  | failed told ip found tick =>
    cases answer
    exact ⟨.failed rfl ip found tick, asked.steps⟩

/-- A run in order stops as its ticks do, whatever watches over it. -/
theorem Linear.halts (h : m.Linear) (ended : Loop.turns turn fuel m = some (r, e)) :
    ∃ n, m.config.Halts m.program n r e.config ∧ e.steps = m.steps + n := by
  induction fuel generalizing m with
  | zero => cases ended
  | succ fuel ih =>
    rw [Loop.turns] at ended
    cases more : m.more with
    | false =>
      obtain ⟨k, ip, le⟩ := h.inside
      rw [turn_over h.toSafe more] at ended
      cases ended
      rw [more_linear h.linear ip] at more
      have last : k = m.program.length := Nat.le_antisymm le (by simpa using more)
      subst last
      exact ⟨0, .finished rfl ip, rfl⟩
    | true =>
      rw [turn_step h.toSafe more] at ended
      cases stepped : m.step with
      | mk result n =>
        rw [stepped] at ended
        cases result with
        | error f =>
          cases ended
          obtain ⟨halts, steps⟩ := h.step_error more stepped
          exact ⟨0, halts, steps⟩
        | ok =>
          obtain ⟨further, program, steps, k, ip, lt, tick⟩ := h.step_ok more stepped
          obtain ⟨i, halts, steps'⟩ := ih further ended
          rw [program] at halts
          exact ⟨i + 1, .next tick halts, by omega⟩

/-- A run of a new machine, with a timeout or without. -/
theorem Fresh.halts (fresh : m.Fresh) (sound : m.program.Sound) (ran : m.RunEnds { timeout } o) :
    m.config.Halts m.program o.machine.steps o.result o.machine.config := by
  obtain ⟨answer, ⟨fuel, ended⟩, rfl⟩ := (runEnds_iff fresh.state rfl).mp ran
  have linear : (m.arm { timeout }).Linear := by
    refine ⟨⟨⟨sound, 0, fresh.ip, Nat.zero_le _⟩, fun _ => ?_⟩, ?_⟩
    · change m.state.isFinal = false
      rw [fresh.state]
      rfl
    · change m.traversal.outlive = .linear
      rw [fresh.linear]
      rfl
  obtain ⟨n, halts, steps⟩ := linear.halts ended
  have steps : answer.2.steps = n := by
    have start : (m.arm { timeout }).steps = 0 := fresh.steps
    omega
  rw [← steps] at halts
  exact halts

end Machine
end TapeMachine
