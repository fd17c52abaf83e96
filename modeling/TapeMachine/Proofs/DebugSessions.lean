import Mathlib.Algebra.GroupWithZero.Nat
import TapeMachine.CommandLine.Run
import TapeMachine.Proofs.DebugRuns

/-! Sessions in the debug view where one stream serves the commands and the program: what each
turn takes from the stream, how many instructions are executed in obedience to it, and how the
session goes on or ends. -/

namespace TapeMachine

/-! ## Lines -/

/-- A line at the front of bytes, and what follows it. A line that lacks its ending is one where
the bytes end. -/
inductive Typed (atEnd : StreamEnd) : List UInt8 → List UInt8 → List UInt8 → Prop
  | whole {front rest : List UInt8} (within : 0x0A ∉ front) :
      Typed atEnd (front ++ 0x0A :: rest) (front ++ [0x0A]) rest
  | last {bytes : List UInt8} (within : 0x0A ∉ bytes) (ended : atEnd = .ended) :
      Typed atEnd bytes bytes []

theorem Typed.append {atEnd : StreamEnd} {bytes line rest : List UInt8}
    (typed : Typed atEnd bytes line rest) : bytes = line ++ rest := by
  cases typed with
  | whole => simp
  | last => simp

theorem cutLine_some {α : Type} [DecidableEq α] {ending : α} {as line rest : List α}
    (cut : cutLine ending as = some (line, rest)) :
    ∃ front, ending ∉ front ∧ line = front ++ [ending] ∧ as = front ++ ending :: rest := by
  induction as generalizing line with
  | nil => cases cut
  | cons a as ih =>
    rw [cutLine] at cut
    by_cases found : a = ending
    · rw [if_pos found] at cut
      cases cut
      exact ⟨[], List.not_mem_nil, by rw [found]; rfl, by rw [found]; rfl⟩
    · rw [if_neg found, Option.map_eq_some_iff] at cut
      obtain ⟨⟨line, after⟩, cut, same⟩ := cut
      cases same
      obtain ⟨front, within, rfl, rfl⟩ := ih cut
      refine ⟨a :: front, ?_, rfl, rfl⟩
      simpa [List.mem_cons, Ne.symm found] using within

theorem cutLine_none {α : Type} [DecidableEq α] {ending : α} {as : List α}
    (cut : cutLine ending as = none) : ending ∉ as := by
  induction as with
  | nil => exact List.not_mem_nil
  | cons a as ih =>
    rw [cutLine] at cut
    by_cases found : a = ending
    · rw [if_pos found] at cut
      cases cut
    · rw [if_neg found, Option.map_eq_none_iff] at cut
      simpa [List.mem_cons, Ne.symm found] using ih cut

/-! ## Sessions -/

/-- One exchange in a session: the bytes of the command line, how many instructions were executed
in obedience to it, and the bytes that these read. -/
structure Exchange where
  line : List UInt8
  steps : Nat
  handed : List UInt8

def Exchange.command (x : Exchange) : Command := Command.ofLine (Utf8.decodeFrom none x.line)

def Config.withInput (c : Config) (i : Input) : Config := { c with input := i }

/-- What a command leads to from a configuration: how many instructions are executed, what comes
of it, and the debugger that is left. -/
inductive Obeyed (p : Program) (c : Config) : Command → Nat → Except Fault Unit → Debugger → Prop
  | stepped {d : Debugger} (tick : c.tick p = (.ok (), d.machine.config)) :
      Obeyed p c .step 1 (.ok ()) d
  | unstepped {d : Debugger} {f : Fault} (stops : Debugger.Stops p c f d) :
      Obeyed p c .step 0 (.error f) d
  | ran {d : Debugger} {n : Nat} (ticked : c.ticks p n = some d.machine.config)
      (ip : d.machine.config.ip = some (p.length : Int)) : Obeyed p c .runToEnd n (.ok ()) d
  | stopped {d : Debugger} {n : Nat} {b : Config} {f : Fault} (ticked : c.ticks p n = some b)
      (stops : Debugger.Stops p b f d) : Obeyed p c .runToEnd n (.error f) d
  | quit {d : Debugger} {k : Nat} (ip : c.ip = some (k : Int)) (lt : k < p.length)
      (kept : d.machine.config = c) :
      Obeyed p c .quit 0 (.error (Guard.cancellation "stopped from debugger" c.ip)) d

/-- What an exchange takes from the input: its line first, and then what the program reads. -/
inductive Takes (p : Program) (atEnd : StreamEnd) (c : Config) (x : Exchange) : Config → Prop
  | line {bytes rest : List UInt8} (input : c.input = .bytes bytes atEnd)
      (typed : Typed atEnd bytes x.line rest)
      (handed : x.handed = (c.withInput (.bytes rest atEnd)).handed p x.steps) :
      Takes p atEnd c x (c.withInput (.bytes rest atEnd))

namespace Session

/-- The last picture on the screen is of the machine as it is, with a status. -/
def Shows (s : Session) (status : String) : Prop :=
  ∃ shot text before, s.debugger.snapshot = .ok shot ∧ s.picture shot (some status) = .ok text ∧
    s.screenText = before ++ text ++ "\n"

end Session

/-- A session from a configuration on: the exchanges, and how it ends. -/
inductive Dialogue (p : Program) (atEnd : StreamEnd) :
    Config → List Exchange → SessionEnd → Prop
  /-- The program has completed. -/
  | finished {c : Config} {e : SessionEnd} (ip : c.ip = some (p.length : Int))
      (kept : e.session.machine.config = c) (fault : e.fault = none)
      (shown : e.session.Shows "finished") : Dialogue p atEnd c [] e
  /-- An interrupt comes in place of a command. -/
  | interrupted {c : Config} {e : SessionEnd} {k : Nat} {bytes : List UInt8}
      (ip : c.ip = some (k : Int)) (lt : k < p.length) (input : c.input = .bytes bytes atEnd)
      (stopped : atEnd = .interrupted)
      (within : 0x0A ∉ bytes) (kept : e.session.machine.config = c)
      (fault : e.fault = some (.stream .interrupt)) : Dialogue p atEnd c [] e
  /-- What a command leads to ends the session. A report is shown, unless it was asked to quit. -/
  | last {c b : Config} {x : Exchange} {f : Fault} {e : SessionEnd} (takes : Takes p atEnd c x b)
      (obeyed : Obeyed p b x.command x.steps (.error f) e.session.debugger)
      (fault : e.fault = some f)
      (shown : x.command ≠ .quit → f.isReport = true →
        e.session.Shows ("failed: " ++ f.message)) : Dialogue p atEnd c [x] e
  /-- A command is obeyed, and the session goes on. -/
  | next {c b : Config} {x : Exchange} {d : Debugger} {xs : List Exchange} {e : SessionEnd}
      (takes : Takes p atEnd c x b) (obeyed : Obeyed p b x.command x.steps (.ok ()) d)
      (others : Dialogue p atEnd d.machine.config xs e) : Dialogue p atEnd c (x :: xs) e

/-- A fault has come before or in the instruction at the index, and nothing was executed. Where it
is a report of the instruction, a plain machine that has nothing more to read makes it, too. -/
structure Ceased (p : Program) (c d : Config) (f : Fault) : Prop where
  next : ∃ (k : Nat) (o : Op) (t : Option Int), c.ip = some (k : Int) ∧
    p.instructions[k]? = some ⟨.op o, t⟩
  tape : d.tape = c.tape
  written : d.output.written = c.output.written
  input : ∀ {bytes atEnd}, c.input = .bytes bytes atEnd → d.input = .bytes bytes atEnd
  failure : ∀ {bytes atEnd}, c.input = .bytes bytes atEnd → f.isReport = true →
    f.isCancellation = false → ∃ e, (c.replay [] c.output).tick p = (.error f, e)

/-- A fault that is no report of an instruction leaves everything as it is. -/
theorem Program.Sound.ceased {p : Program} (sound : p.Sound) {c : Config} {f : Fault} {k : Nat}
    (ip : c.ip = some (k : Int)) (lt : k < p.length)
    (other : f.isReport = true → f.isCancellation = true) : Ceased p c c f := by
  obtain ⟨o, t, found, _⟩ := sound.at lt
  refine ⟨⟨k, o, t, ip, found⟩, rfl, rfl, fun input => input, ?_⟩
  intro bytes atEnd _ report uncancelled
  rw [other report] at uncancelled
  cases uncancelled

theorem Debugger.Stops.ceased {p : Program} {c : Config} {f : Fault} {d : Debugger}
    (stops : Stops p c f d) (sound : p.Sound) : Ceased p c d.machine.config f := by
  cases stops with
  | late ip lt config =>
    rw [config]
    exact sound.ceased ip lt fun _ => rfl
  | broke ip found tick =>
    obtain ⟨tape, written⟩ := Config.tick_kept ip found tick
    refine ⟨⟨_, _, _, ip, found⟩, tape, written, Config.tick_unread ip found tick, ?_⟩
    intro bytes atEnd input report _
    exact Config.tick_replay_error ip found tick input report

namespace Obeyed

variable {p : Program} {c : Config} {command : Command} {n : Nat} {d : Debugger} {f : Fault}

/-- A command with which the session ends. -/
theorem ceased (obeyed : Obeyed p c command n (.error f) d) (sound : p.Sound) :
    ∃ b, c.ticks p n = some b ∧ Ceased p b d.machine.config f := by
  cases obeyed with
  | unstepped stops => exact ⟨c, rfl, stops.ceased sound⟩
  | stopped ticked stops => exact ⟨_, ticked, stops.ceased sound⟩
  | quit ip lt kept =>
    rw [kept]
    exact ⟨c, rfl, sound.ceased ip lt fun _ => rfl⟩

/-- A command after which the session goes on. -/
theorem ok (obeyed : Obeyed p c command n (.ok ()) d) : c.ticks p n = some d.machine.config := by
  cases obeyed with
  | stepped tick => exact Config.ticks_one tick
  | ran ticked => exact ticked

end Obeyed

/-! ## Turns -/

namespace Session

/-- A session that may take a turn. -/
structure Ongoing (s : Session) (p : Program) (atEnd : StreamEnd) : Prop where
  standing : s.debugger.Standing
  program : s.machine.program = p
  shot : s.shot = s.machine.picture
  shared : s.controls = .shared
  input : ∃ bytes, s.machine.config.input = .bytes bytes atEnd

/-- All that can come of a turn. -/
inductive Turned (s : Session) (p : Program) (atEnd : StreamEnd) :
    Turn Session (Option SessionEnd) → Prop
  | ended {e : SessionEnd} {xs : List Exchange}
      (dialogue : Dialogue p atEnd s.machine.config xs e)
      (left : s.debugger.Left (xs.map Exchange.steps).sum e.fault e.session.debugger) :
      Turned s p atEnd (.done (some e))
  /-- The machine takes longer than it may. -/
  | lost : Turned s p atEnd (.done none)
  | again {t : Session} {x : Exchange} {b : Config} (takes : Takes p atEnd s.machine.config x b)
      (obeyed : Obeyed p b x.command x.steps (.ok ()) t.debugger)
      (since : s.debugger.Since x.steps t.debugger) (ongoing : t.Ongoing p atEnd) :
      Turned s p atEnd (.again t)

variable {s t : Session} {p : Program} {atEnd : StreamEnd} {cs : List Char} {fuel : Nat}

theorem screenText_put (s : Session) (text : String) :
    (s.put text).screenText = s.screenText ++ text := by
  simp [screenText, put, String.join_append]

theorem picture_ok (symbols : s.machine.program.symbols = .ok cs) (shot : Snapshot)
    (status : Option String) : ∃ text, s.picture shot status = .ok text := by
  simp only [picture, Frame.render, symbols]
  exact ⟨_, rfl⟩

/-- A command line is read, or there is none and an interrupt comes. -/
theorem readLine_shared (shared : s.controls = .shared) {bytes : List UInt8}
    (input : s.machine.config.input = .bytes bytes atEnd) :
    (∃ line rest, Typed atEnd bytes line rest ∧
      s.readLine = (.ok (Utf8.decodeFrom none line), s.withInput (.bytes rest atEnd))) ∨
    0x0A ∉ bytes ∧ atEnd = .interrupted ∧ s.readLine = (.error .interrupt, s) := by
  unfold readLine
  rw [shared]
  simp only [input]
  cases cut : cutLine 0x0A bytes with
  | some split =>
    obtain ⟨line, rest⟩ := split
    obtain ⟨front, within, rfl, rfl⟩ := cutLine_some cut
    exact .inl ⟨_, _, .whole within, rfl⟩
  | none =>
    have within := cutLine_none cut
    cases atEnd with
    | ended => exact .inl ⟨_, _, .last within rfl, rfl⟩
    | interrupted => exact .inr ⟨within, rfl, rfl⟩

/-- A fault ends the session, and if it is a report, it is shown. -/
theorem settle_error {d : Debugger} {f : Fault} (safe : d.machine.Safe)
    (symbols : d.machine.program.symbols = .ok cs) :
    ∃ e, s.settle (.error f, d) = .done (some e) ∧ e.fault = some f ∧ e.session.debugger = d ∧
      (f.isReport = true → e.session.Shows ("failed: " ++ f.message)) := by
  let left : Session := { s with debugger := d }
  have shot : d.snapshot = .ok d.machine.picture := safe.snapshot none
  obtain ⟨text, drawn⟩ := @picture_ok left cs symbols d.machine.picture
    (some ("failed: " ++ f.message))
  by_cases report : f.isReport = true
  · have pictured :
        (d.snapshot >>= fun shot => left.picture shot (some ("failed: " ++ f.message))) =
          .ok text := by
      rw [shot]
      exact drawn
    refine ⟨⟨some f, left.put (text ++ "\n")⟩, ?_, rfl, rfl, ?_⟩
    · simp only [settle, report, if_true]
      rw [pictured]
      rfl
    · intro _
      refine ⟨d.machine.picture, text, left.screenText, shot, drawn, ?_⟩
      rw [screenText_put, String.append_assoc]
  · refine ⟨⟨some f, left⟩, ?_, rfl, rfl, fun told => absurd told report⟩
    simp only [settle, report]
    rfl

/-- What a command leads to with which the session ends. -/
theorem Ongoing.ended {x : Exchange} {b : Config} {f : Fault} {d : Debugger}
    (h : s.Ongoing p atEnd) (symbols : p.symbols = .ok cs)
    (takes : Takes p atEnd s.machine.config x b)
    (obeyed : Obeyed p b x.command x.steps (.error f) d)
    (left : s.debugger.Left x.steps (some f) d) :
    s.Turned p atEnd (t.settle (.error f, d)) := by
  have program : d.machine.program = p := left.program.trans h.program
  obtain ⟨e, settled, fault, rfl, pictured⟩ :=
    @settle_error t cs d f left.safe (by rw [program]; exact symbols)
  rw [settled]
  refine .ended (.last takes obeyed fault fun _ => pictured) ?_
  rw [List.map_singleton, List.sum_singleton, fault]
  exact left

/-- What a command leads to with which the session goes on. -/
theorem Ongoing.goes {x : Exchange} {b : Config} {d : Debugger} (h : s.Ongoing p atEnd)
    (shared : t.controls = .shared) (takes : Takes p atEnd s.machine.config x b)
    (obeyed : Obeyed p b x.command x.steps (.ok ()) d) (since : s.debugger.Since x.steps d)
    (standing : d.Standing) : s.Turned p atEnd (t.settle (.ok d.machine.picture, d)) := by
  have inside : b.Inside p := by
    cases takes
    rw [← h.program]
    exact h.standing.plain.inside
  have sound : p.Sound := by
    rw [← h.program]
    exact h.standing.plain.program
  obtain ⟨bytes, input⟩ : ∃ bytes, d.machine.config.input = .bytes bytes atEnd := by
    cases takes
    obtain ⟨rest, _, input⟩ := Config.ticks_bytes sound inside obeyed.ok rfl
    exact ⟨rest, input⟩
  let next : Session := { t with debugger := d, shot := d.machine.picture }
  have program : next.machine.program = p := since.program.trans h.program
  have ongoing : next.Ongoing p atEnd := ⟨standing, program, rfl, shared, bytes, input⟩
  have again : s.Turned p atEnd (.again next) := .again takes obeyed since ongoing
  exact again

/-- A session that has read a line, where nothing else has happened. -/
structure Read (s : Session) (p : Program) (atEnd : StreamEnd) (line : List UInt8) (t : Session) :
    Prop where
  standing : t.debugger.Standing
  waiting : t.debugger.state = .waiting
  program : t.debugger.machine.program = p
  shot : t.shot = t.machine.picture
  shared : t.controls = .shared
  since : s.debugger.Since 0 t.debugger
  takes : ∀ n, Takes p atEnd s.machine.config ⟨line, n, t.machine.config.handed p n⟩
    t.machine.config

theorem Ongoing.read (h : s.Ongoing p atEnd) (waiting : s.debugger.state = .waiting)
    {bytes line rest : List UInt8} (input : s.machine.config.input = .bytes bytes atEnd)
    (typed : Typed atEnd bytes line rest) (text : String) :
    s.Read p atEnd line ((s.put text).withInput (.bytes rest atEnd)) := by
  let t : Session := (s.put text).withInput (.bytes rest atEnd)
  have plain : t.machine.Plain := by
    obtain ⟨⟨⟨program, inside⟩, live⟩, linear, idle⟩ := h.standing.plain
    exact ⟨⟨⟨program, inside⟩, live⟩, linear, idle⟩
  refine ⟨⟨plain, h.standing.state⟩, waiting, h.program, h.shot, h.shared, ?_, ?_⟩
  · refine ⟨⟨plain.toSafe, rfl, rfl, nofun, nofun⟩, ?_⟩
    intro j
    rw [Nat.zero_add]
    rfl
  · intro n
    exact .line input typed rfl

namespace Read

variable {line : List UInt8}

theorem left (read : s.Read p atEnd line t) {n : Nat} {fault : Option Fault} {d : Debugger}
    (left : t.debugger.Left n fault d) : s.debugger.Left n fault d := by
  have both := read.since.left left
  rwa [Nat.zero_add] at both

theorem later (read : s.Read p atEnd line t) {n : Nat} {d : Debugger}
    (later : t.debugger.Since n d) : s.debugger.Since n d := by
  have both := read.since.trans later
  rwa [Nat.zero_add] at both

/-- A line that asks to quit ends the session before the next instruction. -/
theorem quit (read : s.Read p atEnd line t)
    (told : Command.ofLine (Utf8.decodeFrom none line) = .quit) :
    s.Turned p atEnd (t.obey fuel .quit) := by
  let x : Exchange := ⟨line, 0, t.machine.config.handed p 0⟩
  have told : x.command = .quit := told
  have plain : t.machine.Plain := read.standing.plain
  obtain ⟨k, o, i, ip, found⟩ := plain.next (read.standing.more read.waiting)
  have lt : k < p.length := by
    rw [← read.program]
    exact Program.lt_length found
  have shot : some t.shot.ip = t.machine.config.ip := by
    rw [read.shot, show t.machine.config.ip = _ from ip, Machine.picture, ip]
    rfl
  have punctual : ∀ ip, some (Guard.cancellation "stopped from debugger" (some t.shot.ip)) ≠
      some (Guard.cancellation "deadline exceeded" ip) := by
    intro ip
    simp [Guard.cancellation]
  obtain ⟨given, config⟩ := Debugger.cancel_kept plain.toSafe punctual
  have obeyed : Obeyed p t.machine.config x.command 0
      (.error (Guard.cancellation "stopped from debugger" t.machine.config.ip))
      t.debugger.cancel := by
    rw [told]
    exact .quit ip lt config
  have named := congrArg (fun i => some (Guard.cancellation "stopped from debugger" i)) shot
  refine .ended (.last (read.takes 0) obeyed named ?_) (read.left given)
  intro other
  exact absurd told other

/-- A line that asks to go on runs the program to where it stops. -/
theorem runToEnd (read : s.Read p atEnd line t) (h : s.Ongoing p atEnd)
    (symbols : p.symbols = .ok cs)
    (told : Command.ofLine (Utf8.decodeFrom none line) = .runToEnd) :
    s.Turned p atEnd (t.obey fuel .runToEnd) := by
  let x (n : Nat) : Exchange := ⟨line, n, t.machine.config.handed p n⟩
  have told : ∀ n, (x n).command = .runToEnd := fun _ => told
  rw [Session.obey]
  cases ran : t.debugger.runToEnd fuel with
  | none => exact .lost
  | some answer =>
    obtain ⟨n, runs⟩ := read.standing.runToEnd ran
    cases runs with
    | finished later standing ticked ip =>
      rw [read.program] at ticked
      rw [later.program, read.program] at ip
      refine h.goes read.shared (read.takes n) ?_ (read.later later) standing
      rw [told]
      exact .ran ticked ip
    | stopped left ticked stops =>
      rw [read.program] at ticked stops
      refine h.ended symbols (read.takes n) ?_ (read.left left)
      rw [told]
      exact .stopped ticked stops

/-- Any other line attempts one instruction. -/
theorem step (read : s.Read p atEnd line t) (h : s.Ongoing p atEnd) (symbols : p.symbols = .ok cs)
    (told : Command.ofLine (Utf8.decodeFrom none line) = .step) :
    s.Turned p atEnd (t.obey fuel .step) := by
  let x (n : Nat) : Exchange := ⟨line, n, t.machine.config.handed p n⟩
  have told : ∀ n, (x n).command = .step := fun _ => told
  have ticked := read.standing.advance read.waiting
  rw [Session.obey]
  generalize t.debugger.advance = answer at ticked ⊢
  cases ticked with
  | executed later standing tick =>
    rw [read.program] at tick
    refine h.goes read.shared (read.takes 1) ?_ (read.later later) standing
    rw [told]
    exact .stepped tick
  | stopped left stops =>
    rw [read.program] at stops
    refine h.ended symbols (read.takes 0) ?_ (read.left left)
    rw [told]
    exact .unstepped stops

theorem obey (read : s.Read p atEnd line t) (h : s.Ongoing p atEnd)
    (symbols : p.symbols = .ok cs) :
    s.Turned p atEnd (t.obey fuel (Command.ofLine (Utf8.decodeFrom none line))) := by
  cases told : Command.ofLine (Utf8.decodeFrom none line) with
  | quit => exact read.quit told
  | runToEnd => exact read.runToEnd h symbols told
  | step => exact read.step h symbols told

end Read

theorem Ongoing.turn (h : s.Ongoing p atEnd) (symbols : p.symbols = .ok cs) :
    s.Turned p atEnd (s.turn fuel) := by
  have shown : s.machine.program.symbols = .ok cs := by
    rw [h.program]
    exact symbols
  by_cases waiting : s.debugger.state = .waiting
  · have unfinished : s.debugger.finished = false := by
      rw [Debugger.finished, waiting]
      rfl
    obtain ⟨text, drawn⟩ := picture_ok shown s.shot none
    obtain ⟨bytes, input⟩ := h.input
    have read := @readLine_shared (s.put (text ++ menu)) atEnd h.shared bytes input
    simp only [Session.turn, unfinished, drawn]
    rcases read with ⟨line, rest, typed, read⟩ | ⟨within, stopped, read⟩
    · rw [read]
      exact (h.read waiting input typed _).obey h symbols
    · rw [read]
      obtain ⟨k, o, t, ip, found⟩ := h.standing.plain.next (h.standing.more waiting)
      have lt : k < p.length := by
        rw [← h.program]
        exact Program.lt_length found
      refine .ended (.interrupted ip lt input stopped within rfl rfl)
        ⟨h.standing.plain.toSafe, rfl, rfl, ?_, ?_⟩
      · intro j early
        exact absurd early (Nat.not_lt_zero j)
      · intro ip expired
        cases expired
  · have finished : s.debugger.finished = true := by
      have state := h.standing.state
      cases more : s.debugger.machine.more with
      | true =>
        rw [more] at state
        exact absurd state waiting
      | false =>
        rw [Debugger.finished, state, more]
        rfl
    have ip := h.standing.ip_end waiting
    rw [show s.debugger.machine.program = p from h.program] at ip
    obtain ⟨text, drawn⟩ := picture_ok shown s.shot (some "finished")
    have shot : s.debugger.snapshot = .ok s.shot := by
      rw [h.shot]
      exact h.standing.plain.toSafe.snapshot none
    simp only [Session.turn, finished, drawn, if_true]
    refine .ended (.finished ip rfl rfl ⟨s.shot, text, s.screenText, shot, drawn, ?_⟩)
      ⟨h.standing.plain.toSafe, rfl, rfl, ?_, ?_⟩
    · rw [screenText_put, String.append_assoc]
    · intro j early
      exact absurd early (Nat.not_lt_zero j)
    · intro ip expired
      cases expired

/-- What comes of a whole session. -/
theorem Ongoing.run (h : s.Ongoing p atEnd) (symbols : p.symbols = .ok cs) {n : Nat}
    {e : SessionEnd} (ended : Loop.turns (Session.turn fuel) n s = some (some e)) :
    ∃ xs, Dialogue p atEnd s.machine.config xs e ∧
      s.debugger.Left (xs.map Exchange.steps).sum e.fault e.session.debugger := by
  induction n generalizing s with
  | zero => cases ended
  | succ n ih =>
    have turned := @Ongoing.turn s p atEnd cs fuel h symbols
    rw [Loop.turns] at ended
    generalize s.turn fuel = taken at turned ended
    cases turned with
    | ended dialogue left =>
      cases ended
      exact ⟨_, dialogue, left⟩
    | lost => cases ended
    | again takes obeyed since ongoing =>
      obtain ⟨xs, dialogue, left⟩ := ih ongoing ended
      refine ⟨_ :: xs, .next takes obeyed dialogue, ?_⟩
      rw [List.map_cons, List.sum_cons]
      exact since.left left

end Session

end TapeMachine
