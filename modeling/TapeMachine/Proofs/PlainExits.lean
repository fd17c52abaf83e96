import TapeMachine.CommandLine.Run
import TapeMachine.Proofs.Halting
import TapeMachine.Proofs.Paths
import TapeMachine.Proofs.Unbalanced

/-! What a plain run of the whole program leaves behind. It goes through stages: the source is read
and compiled, the destination opened, the deadline set, the machine run, the destination closed. A
stage that fails is the last, but for the closing of what was opened; only from the destination on
is anything delivered, and what is delivered is what the instructions wrote that were executed. -/

namespace TapeMachine
namespace CommandLine

/-- Options that ask for a program to be run, and for nothing else. -/
structure Running (o : Options) : Prop where
  repl : o.repl = false
  dump : o.dump = false
  debug : o.debug = false

/-- The bytes of the source that is asked for, where it can be read. -/
inductive Supplies (w : Surroundings) : Option (Operand String) → List UInt8 → Prop
  | stdin : Supplies w none w.stdin
  | file {path : String} {bytes : List UInt8} (read : w.files.read path = .ok bytes) :
      Supplies w (some (.value path)) bytes

/-- The surroundings behind the source. -/
def beyond (input : Option (Operand String)) (w : Surroundings) : Surroundings :=
  { w with stdin := if input.isNone then [] else w.stdin }

/-- The program of the source that is asked for. -/
def Loads (o : Options) (w : Surroundings) (p : Program) : Prop :=
  ∃ bytes, Supplies w o.input bytes ∧ compile (.bytes bytes) = .ok p

/-- All stages before the machine's run succeed. -/
structure Launches (o : Options) (w : Surroundings) (p : Program) (limit : Option Float) :
    Prop where
  loads : Loads o w p
  opened : ∃ d, destination o.output w.files = .ok d
  timed : timeout o.timeout w = .ok limit

/-- The machine that is then run. -/
def launched (o : Options) (w : Surroundings) (p : Program) : Machine :=
  machineFor p o.trace (beyond o.input w) w.sink.output

/-- Nothing that surrounds the program interrupts it. -/
structure Calm (w : Surroundings) : Prop where
  input : w.atEnd = .ended
  writes : ∀ n c, w.sink.faultAt n = some c → c.kind ≠ .interrupt
  closing : ∀ bytes c, (w.sink.settle bytes).2 = some c → c.kind ≠ .interrupt

/-- The destination holds the bytes and nothing else has been delivered. -/
inductive Receives (w : Surroundings) (bytes : List UInt8) (exit : Exit) :
    Option (Operand String) → Prop
  | stdout (shown : exit.stdout = bytes) (kept : exit.files = w.files) : Receives w bytes exit none
  | file {path : String} {names : List String} (opened : w.files.writable path = .ok names)
      (silent : exit.stdout = []) (holds : exit.files.read path = .ok bytes)
      (others : ∀ other, other ≠ names → exit.files.node? other = w.files.node? other) :
      Receives w bytes exit (some (.value path))

/-- Nothing has been delivered, and no file has been touched. -/
structure Untouched (w : Surroundings) (exit : Exit) : Prop where
  silent : exit.stdout = []
  kept : exit.files = w.files

variable {argv : List String} {o : Options} {w w' : Surroundings} {p : Program} {fuel : Nat}
  {exit : Exit} {bytes : List UInt8} {f : Fault} {limit : Option Float} {d : Destination}
  {outcome : Machine.RunOutcome}

/-! ## Before the machine runs -/

theorem isInterrupt_stream {c : Cause} (other : c.kind ≠ .interrupt) :
    (Fault.stream c).isInterrupt = false := by
  simpa [Fault.isInterrupt] using other

theorem isInterrupt_cannotOpen {kind : ReportKind} {path : String} {c : Cause}
    (other : c.kind ≠ .interrupt) : (cannotOpen kind path c).isInterrupt = false := by
  unfold cannotOpen
  split
  · rfl
  · exact isInterrupt_stream other

theorem isInterrupt_of_report (report : f.isReport = true) : f.isInterrupt = false := by
  cases f with
  | report r => rfl
  | _ => cases report

theorem supplies_unique {asked : Option (Operand String)} {more : List UInt8}
    (supplied : Supplies w asked bytes) (again : Supplies w asked more) : bytes = more := by
  cases supplied with
  | stdin =>
    cases again
    rfl
  | file read =>
    cases again with
    | file read' => exact Except.ok.inj (read.symm.trans read')

/-- A source that cannot be read fails in a way that is no interrupt. -/
theorem load_source (calm : Calm w) (asked : Option (Operand String)) :
    (∃ bytes, Supplies w asked bytes ∧ load asked w = (compile (.bytes bytes), beyond asked w)) ∨
      ∃ f, (∀ bytes, ¬ Supplies w asked bytes) ∧ f.isInterrupt = false ∧
        load asked w = (.error f, w) := by
  cases asked with
  | none =>
    refine .inl ⟨w.stdin, .stdin, ?_⟩
    obtain ⟨stdin, atEnd, files, clock, sink⟩ := w
    cases calm.input
    rfl
  | some operand =>
    cases operand with
    | nothing =>
      refine .inr ⟨.noPath, ?_, rfl, rfl⟩
      intro bytes supplied
      cases supplied
    | value path =>
      cases read : w.files.read path with
      | ok bytes =>
        refine .inl ⟨bytes, .file read, ?_⟩
        simp only [load, read]
        rfl
      | error c =>
        refine .inr ⟨cannotOpen .compilation path c, ?_, ?_, ?_⟩
        · intro bytes supplied
          cases supplied with
          | file read' => cases read.symm.trans read'
        · exact isInterrupt_cannotOpen (Files.read_error read)
        · simp only [load, read]

theorem loads_unique {q : Program} (loads : Loads o w p) (again : Loads o w q) : p = q := by
  obtain ⟨bytes, supplied, compiled⟩ := loads
  obtain ⟨bytes', supplied', compiled'⟩ := again
  cases supplies_unique supplied supplied'
  exact Except.ok.inj (compiled.symm.trans compiled')

/-- Loading answers with the program of the source, or fails in a way that is no interrupt. -/
theorem load_cases (calm : Calm w) (o : Options) :
    (∃ p, Loads o w p ∧ load o.input w = (.ok p, beyond o.input w)) ∨
      ∃ f w', (∀ p, ¬ Loads o w p) ∧ f.isInterrupt = false ∧ load o.input w = (.error f, w') := by
  rcases load_source calm o.input with ⟨bytes, supplied, loaded⟩ | ⟨f, none, other, loaded⟩
  · cases compiled : compile (.bytes bytes) with
    | ok p => exact .inl ⟨p, ⟨bytes, supplied, compiled⟩, by rw [loaded, compiled]⟩
    | error f =>
      refine .inr ⟨f, beyond o.input w, ?_, ?_, by rw [loaded, compiled]⟩
      · rintro p ⟨again, supplied', compiled'⟩
        cases supplies_unique supplied supplied'
        cases compiled.symm.trans compiled'
      · have read : (Source.bytes bytes).read = .ok bytes := rfl
        exact isInterrupt_of_report (report_of_refused read compiled)
  · refine .inr ⟨f, w, ?_, other, loaded⟩
    rintro p ⟨bytes, supplied, _⟩
    exact none bytes supplied

theorem destination_error {output : Option (Operand String)} {fs : Files}
    (failed : destination output fs = .error f) : f.isInterrupt = false := by
  unfold destination at failed
  split at failed
  · cases failed
  · cases failed
    rfl
  · split at failed
    · rename_i refused
      cases failed
      exact isInterrupt_cannotOpen (Files.writable_error refused)
    · cases failed

theorem timeout_error {given : Option (Operand Float)} (failed : timeout given w = .error f) :
    f.isInterrupt = false := by
  unfold timeout at failed
  split at failed
  · cases failed
  · cases failed
  · cases failed
    rfl

/-! ## Conclusions -/

theorem conclude_ok {traceback : Bool} {e : Effects} (none : e.fault = none) :
    (conclude traceback e).status = .ok 0 := by
  simp only [conclude, none]

theorem conclude_error {traceback : Bool} {e : Effects} (fault : e.fault = some f)
    (other : f.isInterrupt = false) : (conclude traceback e).status = .ok 1 := by
  simp only [conclude, fault, other, Bool.false_eq_true, if_false]

theorem fault_deliver (d : Destination) (bytes : List UInt8) (e : Effects) :
    (d.deliver bytes e).fault = e.fault := by
  cases d with
  | stdout => rfl
  | file => rfl

/-- What closing the destination raises is the fault that is left, if it raises anything. -/
theorem fault_close (d : Destination) (s : Sink) (bytes : List UInt8) (e : Effects) :
    (d.close s bytes e).fault = ((s.settle bytes).2.map Fault.stream).or e.fault := by
  rw [Destination.close]
  generalize s.settle bytes = settled
  obtain ⟨kept, _ | c⟩ := settled
  · exact fault_deliver d kept e
  · rfl

theorem status_closed {traceback : Bool} {s : Sink} {e : Effects}
    (closed : (s.settle bytes).2 = none) (none : e.fault = none) :
    (conclude traceback (d.close s bytes e)).status = .ok 0 := by
  refine conclude_ok ?_
  rw [fault_close, closed, none]
  rfl

theorem status_unclosed {traceback : Bool} {s : Sink} {e : Effects} {c : Cause}
    (raised : (s.settle bytes).2 = some c) (other : c.kind ≠ .interrupt) :
    (conclude traceback (d.close s bytes e)).status = .ok 1 := by
  have fault : (d.close s bytes e).fault = some (.stream c) := by
    rw [fault_close, raised]
    rfl
  exact conclude_error fault (isInterrupt_stream other)

/-- A fault is reported also where closing the destination raises another. -/
theorem status_failed {traceback : Bool} {s : Sink} {e : Effects}
    (calm : ∀ c, (s.settle bytes).2 = some c → c.kind ≠ .interrupt) (failed : e.fault = some f)
    (other : f.isInterrupt = false) :
    (conclude traceback (d.close s bytes e)).status = .ok 1 := by
  cases raised : (s.settle bytes).2 with
  | some c => exact status_unclosed raised (calm c raised)
  | none =>
    have fault : (d.close s bytes e).fault = some f := by
      rw [fault_close, raised, failed]
      rfl
    exact conclude_error fault other

theorem shown_raising (e : Effects) (raised : Option Cause) :
    (e.raising raised).stdout = e.stdout ∧ (e.raising raised).files = e.files := by
  cases raised with
  | none => exact ⟨rfl, rfl⟩
  | some c => exact ⟨rfl, rfl⟩

/-- What is delivered is what the destination then holds. -/
theorem receives_deliver {e : Effects} (opened : destination o.output w.files = .ok d)
    (silent : e.stdout = []) (kept : e.files = w.files)
    (shown : exit.stdout = (d.deliver bytes e).stdout)
    (left : exit.files = (d.deliver bytes e).files) : Receives w bytes exit o.output := by
  generalize o.output = asked at opened
  unfold destination at opened
  cases asked with
  | none =>
    cases opened
    refine .stdout ?_ (left.trans kept)
    rw [shown, Destination.deliver, silent]
    rfl
  | some operand =>
    cases operand with
    | nothing => cases opened
    | value path =>
      simp only at opened
      cases writable : w.files.writable path with
      | error c =>
        rw [writable] at opened
        cases opened
      | ok names =>
        rw [writable] at opened
        cases opened
        have left : exit.files = w.files.put names (.file bytes) := by
          rw [left, Destination.deliver, kept]
        refine .file writable (shown.trans silent) ?_ ?_
        · rw [left]
          exact Files.read_put writable bytes
        · intro other apart
          rw [left]
          exact Files.node?_put_other apart _ _

/-- When the destination has been closed it holds what is left there of the bytes. -/
theorem receives_close {traceback : Bool} {e : Effects}
    (opened : destination o.output w.files = .ok d) (silent : e.stdout = [])
    (kept : e.files = w.files) (s : Sink) (bytes : List UInt8) :
    Receives w (s.settle bytes).1 (conclude traceback (d.close s bytes e)) o.output := by
  obtain ⟨shown, left⟩ := shown_raising (d.deliver (s.settle bytes).1 e) (s.settle bytes).2
  exact receives_deliver opened silent kept shown left

theorem Receives.opened {output : Option (Operand String)}
    (received : Receives w bytes exit output) : ∃ d, destination output w.files = .ok d := by
  cases received with
  | stdout => exact ⟨.stdout, rfl⟩
  | @file path names opened =>
    refine ⟨.file names, ?_⟩
    simp only [destination, opened]

/-! ## The whole program -/

theorem run_running (parsed : parse argv = .ok o) (running : Running o) (fuel : Nat) :
    run fuel argv w =
      match load o.input w with
      | (.error f, _) => some (conclude o.traceback { files := w.files, fault := some f })
      | (.ok p, w) =>
        (execute fuel p o.output (timeout o.timeout w) o.trace w).map (conclude o.traceback) := by
  simp only [run, parsed, running.repl, Bool.false_eq_true, if_false]
  generalize load o.input w = loaded
  obtain ⟨f | p, left⟩ := loaded
  · rfl
  · simp only [command, running.dump, running.debug, Bool.false_eq_true, if_false]

theorem fresh_launched (o : Options) (w : Surroundings) (p : Program) :
    (launched o w p).Fresh := ⟨rfl, rfl, rfl, rfl, ⟨rfl, rfl, rfl⟩⟩

/-- Where nothing loads, the program reports so and touches nothing. -/
theorem run_unloaded (parsed : parse argv = .ok o) (running : Running o) (calm : Calm w)
    (none : ∀ p, ¬ Loads o w p) :
    ∃ exit, (∀ fuel, run fuel argv w = some exit) ∧ exit.status = .ok 1 ∧ Untouched w exit := by
  rcases load_cases calm o with ⟨p, loads, _⟩ | ⟨f, w', _, other, loaded⟩
  · exact absurd loads (none p)
  · let exit := conclude o.traceback { files := w.files, fault := some f }
    refine ⟨exit, ?_, conclude_error rfl other, rfl, rfl⟩
    intro fuel
    rw [run_running parsed running, loaded]

theorem run_loaded (parsed : parse argv = .ok o) (running : Running o) (calm : Calm w)
    (loads : Loads o w p) (fuel : Nat) :
    run fuel argv w = (execute fuel p o.output (timeout o.timeout w) o.trace (beyond o.input w)).map
      (conclude o.traceback) := by
  rcases load_cases calm o with ⟨q, found, loaded⟩ | ⟨f, w', none, _⟩
  · cases loads_unique loads found
    rw [run_running parsed running, loaded]
    rfl
  · exact absurd loads (none p)

/-- Where the destination cannot be opened, the program reports so and touches nothing. -/
theorem run_unopened (parsed : parse argv = .ok o) (running : Running o) (calm : Calm w)
    (loads : Loads o w p) (unopened : destination o.output w.files = .error f) :
    ∃ exit, (∀ fuel, run fuel argv w = some exit) ∧ exit.status = .ok 1 ∧ Untouched w exit := by
  let exit := conclude o.traceback { files := w.files, fault := some f }
  refine ⟨exit, ?_, conclude_error rfl (destination_error unopened), rfl, rfl⟩
  intro fuel
  have unopened : destination o.output (beyond o.input w).files = .error f := unopened
  rw [run_loaded parsed running calm loads]
  simp only [execute, unopened]
  rfl

/-- Where the timeout is no number, nothing runs, and nothing is written to the destination. -/
theorem run_untimed (parsed : parse argv = .ok o) (running : Running o) (calm : Calm w)
    (loads : Loads o w p) (opened : destination o.output w.files = .ok d)
    (untimed : timeout o.timeout w = .error f) :
    ∃ exit, (∀ fuel, run fuel argv w = some exit) ∧ exit.status = .ok 1 ∧
      Receives w (w.sink.settle []).1 exit o.output := by
  refine ⟨conclude o.traceback (d.close w.sink [] { files := w.files, fault := some f }), ?_, ?_,
    receives_close opened rfl rfl w.sink []⟩
  · intro fuel
    have opened : destination o.output (beyond o.input w).files = .ok d := opened
    rw [run_loaded parsed running calm loads, untimed]
    simp only [execute, opened]
    rfl
  · exact status_failed (calm.closing []) rfl (timeout_error untimed)

/-- Where all goes well before, the program ends as the machine's run does. -/
theorem run_launched (parsed : parse argv = .ok o) (running : Running o) (calm : Calm w)
    (launches : Launches o w p limit) (opened : destination o.output w.files = .ok d)
    (fuel : Nat) :
    run fuel argv w = ((launched o w p).run fuel { timeout := limit }).map fun outcome =>
      conclude o.traceback (d.close w.sink outcome.machine.config.output.written
        { stderr := outcome.machine.traceText, files := w.files,
          fault := Fault.ofResult? outcome.result }) := by
  have opened : destination o.output (beyond o.input w).files = .ok d := opened
  rw [run_loaded parsed running calm launches.loads, launches.timed]
  simp only [execute, opened, Option.map_map]
  rfl

/-- What the instructions wrote that a run of the machine has executed. -/
def sent (o : Options) (w : Surroundings) (p : Program) (outcome : Machine.RunOutcome) :
    List UInt8 :=
  (launched o w p).config.emitted p outcome.machine.steps

/-- What the run of the machine comes to, and the exit with it. -/
structure Concludes (o : Options) (w : Surroundings) (p : Program) (limit : Option Float)
    (outcome : Machine.RunOutcome) (exit : Exit) : Prop where
  ran : (launched o w p).RunEnds { timeout := limit } outcome
  halts : (launched o w p).config.Halts p outcome.machine.steps outcome.result
    outcome.machine.config
  completed : outcome.result = .ok () → (w.sink.settle (sent o w p outcome)).2 = none →
    exit.status = .ok 0
  failed : ∀ f, outcome.result = .error f → exit.status = .ok 1
  unclosed : ∀ c, (w.sink.settle (sent o w p outcome)).2 = some c → exit.status = .ok 1
  received : Receives w (w.sink.settle (sent o w p outcome)).1 exit o.output

theorem inside_launched (o : Options) (w : Surroundings) (p : Program) :
    (launched o w p).config.Inside p := ⟨0, rfl, Nat.zero_le _⟩

/-- What stops the machine is no interrupt. -/
theorem uninterrupted (calm : Calm w) {n : Nat} {c : Config} (sound : p.Sound)
    (halts : (launched o w p).config.Halts p n (.error f) c) : f.isInterrupt = false := by
  rcases halts.fault sound (inside_launched o w p) with report | ⟨why, raises, rfl⟩
  · exact isInterrupt_of_report report
  · rcases raises with raises | ⟨n, _, raised⟩
    · have input : (launched o w p).config.input = .bytes (beyond o.input w).stdin .ended := by
        rw [← calm.input]
        rfl
      rw [input] at raises
      exact absurd raises Input.quiet_bytes
    · exact isInterrupt_stream (calm.writes n why raised)

theorem concludes_of_run (parsed : parse argv = .ok o) (running : Running o) (calm : Calm w)
    (launches : Launches o w p limit) (ended : run fuel argv w = some exit) :
    ∃ outcome, Concludes o w p limit outcome exit := by
  obtain ⟨d, opened⟩ := launches.opened
  obtain ⟨bytes, _, compiled⟩ := launches.loads
  have sound := compile_sound compiled
  rw [run_launched parsed running calm launches opened, Option.map_eq_some_iff] at ended
  obtain ⟨outcome, ran, rfl⟩ := ended
  have ran : (launched o w p).RunEnds { timeout := limit } outcome := ⟨fuel, ran⟩
  have halts := (fresh_launched o w p).halts sound ran
  have written : outcome.machine.config.output.written = sent o w p outcome :=
    halts.written sound (inside_launched o w p)
  rw [written]
  refine ⟨outcome, ran, halts, ?_, ?_, ?_, receives_close opened rfl rfl _ _⟩
  · intro result closed
    refine status_closed closed ?_
    rw [result]
    rfl
  · intro f result
    rw [result] at halts
    refine status_failed (calm.closing _) ?_ (uninterrupted calm sound halts)
    rw [result]
    rfl
  · intro c raised
    exact status_unclosed raised (calm.closing _ c raised)

/-! ## Stages -/

/-- How far a command line comes. -/
inductive Stage (o : Options) (w : Surroundings) : Prop
  | unloaded (none : ∀ p, ¬ Loads o w p)
  | unopened {p : Program} {f : Fault} (loads : Loads o w p)
      (unopened : destination o.output w.files = .error f)
  | untimed {p : Program} {d : Destination} {f : Fault} (loads : Loads o w p)
      (opened : destination o.output w.files = .ok d) (untimed : timeout o.timeout w = .error f)
  | launched {p : Program} {limit : Option Float} (launches : Launches o w p limit)

theorem stage (o : Options) (w : Surroundings) : Stage o w := by
  by_cases loads : ∃ p, Loads o w p
  · obtain ⟨p, loads⟩ := loads
    cases opened : destination o.output w.files with
    | error f => exact .unopened loads opened
    | ok d =>
      cases timed : timeout o.timeout w with
      | error f => exact .untimed loads opened timed
      | ok limit => exact .launched ⟨loads, ⟨d, opened⟩, timed⟩
  · exact .unloaded fun p loaded => loads ⟨p, loaded⟩

/-- An exit, and the stage that it comes of. Up to the machine's run it comes without a turn of the
machine. -/
inductive Left (argv : List String) (o : Options) (w : Surroundings) (exit : Exit) : Prop
  | unloaded (none : ∀ p, ¬ Loads o w p) (status : exit.status = .ok 1)
      (untouched : Untouched w exit) (idle : run 0 argv w = some exit)
  | unopened {f : Fault} (unopened : destination o.output w.files = .error f)
      (status : exit.status = .ok 1) (untouched : Untouched w exit)
      (idle : run 0 argv w = some exit)
  | untimed {p : Program} {f : Fault} (loads : Loads o w p)
      (untimed : timeout o.timeout w = .error f) (status : exit.status = .ok 1)
      (received : Receives w (w.sink.settle []).1 exit o.output) (idle : run 0 argv w = some exit)
  | ran {p : Program} {limit : Option Float} {outcome : Machine.RunOutcome}
      (launches : Launches o w p limit) (concludes : Concludes o w p limit outcome exit)

theorem left_of_run (parsed : parse argv = .ok o) (running : Running o) (calm : Calm w)
    (ended : run fuel argv w = some exit) : Left argv o w exit := by
  -- where any fuel gives an exit, it is this one
  have same : ∀ {exit'}, (∀ fuel, run fuel argv w = some exit') → exit' = exit := by
    intro exit' always
    exact Option.some.inj ((always fuel).symm.trans ended)
  cases stage o w with
  | unloaded none =>
    obtain ⟨exit', always, status, untouched⟩ := run_unloaded parsed running calm none
    cases same always
    exact .unloaded none status untouched (always 0)
  | unopened loads unopened =>
    obtain ⟨exit', always, status, untouched⟩ := run_unopened parsed running calm loads unopened
    cases same always
    exact .unopened unopened status untouched (always 0)
  | untimed loads opened untimed =>
    obtain ⟨exit', always, status, received⟩ :=
      run_untimed parsed running calm loads opened untimed
    cases same always
    exact .untimed loads untimed status received (always 0)
  | launched launches =>
    obtain ⟨outcome, concludes⟩ := concludes_of_run parsed running calm launches ended
    exact .ran launches concludes

/-- A plain run ends unless the machine goes on for ever. -/
theorem run_ends_iff (parsed : parse argv = .ok o) (running : Running o) (calm : Calm w) :
    (∃ fuel exit, run fuel argv w = some exit) ↔
      ∀ p limit, Launches o w p limit →
        ∃ outcome, (launched o w p).RunEnds { timeout := limit } outcome := by
  constructor
  · rintro ⟨fuel, exit, ended⟩ p limit launches
    obtain ⟨outcome, concludes⟩ := concludes_of_run parsed running calm launches ended
    exact ⟨outcome, concludes.ran⟩
  · intro ends
    cases stage o w with
    | unloaded none =>
      obtain ⟨exit, always, _⟩ := run_unloaded parsed running calm none
      exact ⟨0, exit, always 0⟩
    | unopened loads unopened =>
      obtain ⟨exit, always, _⟩ := run_unopened parsed running calm loads unopened
      exact ⟨0, exit, always 0⟩
    | untimed loads opened untimed =>
      obtain ⟨exit, always, _⟩ := run_untimed parsed running calm loads opened untimed
      exact ⟨0, exit, always 0⟩
    | launched launches =>
      obtain ⟨d, opened⟩ := launches.opened
      obtain ⟨outcome, fuel, ran⟩ := ends _ _ launches
      have ended := run_launched parsed running calm launches opened fuel
      rw [ran, Option.map_some] at ended
      exact ⟨fuel, _, ended⟩

namespace Left

theorem launches_concludes (left : Left argv o w exit) (launches : Launches o w p limit) :
    ∃ outcome, Concludes o w p limit outcome exit := by
  obtain ⟨loads, ⟨d, opened⟩, timed⟩ := launches
  cases left with
  | unloaded none => exact absurd loads (none p)
  | unopened unopened => cases opened.symm.trans unopened
  | untimed _ untimed => cases timed.symm.trans untimed
  | @ran _ _ outcome launches' concludes =>
    cases loads_unique loads launches'.loads
    cases timed.symm.trans launches'.timed
    exact ⟨outcome, concludes⟩

theorem status_zero_iff (left : Left argv o w exit) :
    exit.status = .ok 0 ↔
      ∃ p limit outcome, Launches o w p limit ∧
        (launched o w p).RunEnds { timeout := limit } outcome ∧ outcome.result = .ok () ∧
        (w.sink.settle (sent o w p outcome)).2 = none := by
  constructor
  · intro zero
    cases left with
    | unloaded _ status | unopened _ status | untimed _ _ status =>
      rw [status] at zero
      cases zero
    | @ran p limit outcome launches concludes =>
      refine ⟨p, limit, outcome, launches, concludes.ran, ?_, ?_⟩
      · cases result : outcome.result with
        | ok => rfl
        | error f =>
          rw [concludes.failed f result] at zero
          cases zero
      · cases raised : (w.sink.settle (sent o w p outcome)).2 with
        | none => rfl
        | some c =>
          rw [concludes.unclosed c raised] at zero
          cases zero
  · rintro ⟨p, limit, outcome, launches, ran, completed, closed⟩
    obtain ⟨outcome', concludes⟩ := left.launches_concludes launches
    cases Machine.runEnds_unique ran concludes.ran
    exact concludes.completed completed closed

theorem status_one (left : Left argv o w exit) (other : exit.status ≠ .ok 0) :
    exit.status = .ok 1 := by
  cases left with
  | unloaded _ status | unopened _ status | untimed _ _ status => exact status
  | @ran p limit outcome launches concludes =>
    cases result : outcome.result with
    | error f => exact concludes.failed f result
    | ok =>
      cases raised : (w.sink.settle (sent o w p outcome)).2 with
      | some c => exact concludes.unclosed c raised
      | none => exact absurd (concludes.completed result raised) other

theorem unloaded_untouched (left : Left argv o w exit) (none : ∀ p, ¬ Loads o w p) :
    Untouched w exit ∧ run 0 argv w = some exit := by
  cases left with
  | unloaded _ _ untouched idle | unopened _ _ untouched idle => exact ⟨untouched, idle⟩
  | untimed loads => exact absurd loads (none _)
  | ran launches => exact absurd launches.loads (none _)

theorem unopened_untouched (left : Left argv o w exit)
    (unopened : destination o.output w.files = .error f) :
    Untouched w exit ∧ run 0 argv w = some exit := by
  cases left with
  | unloaded _ _ untouched idle | unopened _ _ untouched idle => exact ⟨untouched, idle⟩
  | untimed _ _ _ received =>
    obtain ⟨d, opened⟩ := received.opened
    cases opened.symm.trans unopened
  | ran launches =>
    obtain ⟨d, opened⟩ := launches.opened
    cases opened.symm.trans unopened

theorem untimed_received (left : Left argv o w exit) (loads : Loads o w p)
    (opened : destination o.output w.files = .ok d) (untimed : timeout o.timeout w = .error f) :
    Receives w (w.sink.settle []).1 exit o.output ∧ run 0 argv w = some exit := by
  cases left with
  | unloaded none => exact absurd loads (none p)
  | unopened unopened => cases opened.symm.trans unopened
  | untimed _ _ _ received idle => exact ⟨received, idle⟩
  | ran launches => cases launches.timed.symm.trans untimed

end Left

/-- Where the source was standard input, nothing is left to read. -/
theorem input_exhausted (calm : Calm w) (stdin : o.input = none) (sound : p.Sound)
    {n k : Nat} {c : Config} {t : Option Int} (ticked : (launched o w p).config.ticks p n = some c)
    (ip : c.ip = some (k : Int)) (found : p.instructions[k]? = some ⟨.op .input, t⟩) :
    ∃ d, c.tick p = (.error (.report ⟨.readSymbol, none, some .endOfInput, some k⟩), d) := by
  have empty : (launched o w p).config.input = .bytes [] .ended := by
    rw [← calm.input]
    change Input.bytes (beyond o.input w).stdin w.atEnd = _
    rw [beyond, stdin]
    rfl
  obtain ⟨rest, split, input⟩ := Config.ticks_bytes sound (inside_launched o w p) ticked empty
  have rest : rest = [] := (List.append_eq_nil_iff.mp split.symm).2
  subst rest
  have input : (c.jump (some ((k : Int) + 1))).input = .bytes [] .ended := input
  rw [Config.tick_at ip found, Config.perform, Config.readSymbol, input, Input.readSymbol_nil]
  exact ⟨_, rfl⟩

/-- A plain run ends unless the machine goes on for ever. It comes out with status 0 if the source
could be read, compiles, the output could be opened, the machine's run completed and the output
could be flushed and closed, and with status 1 otherwise. Completed or failed, the destination holds
what is left there of just the bytes that the instructions wrote that were executed, which is all
of them if closing loses none, and nothing else is delivered; before the destination is opened
nothing is touched, and no instruction is executed unless it could be. A source from standard input
leaves nothing for the program to read. -/
theorem plain_run_exits (parsed : parse argv = .ok o) (running : Running o) (calm : Calm w) :
    ((∃ fuel exit, run fuel argv w = some exit) ↔
      ∀ p limit, Launches o w p limit →
        ∃ outcome, (launched o w p).RunEnds { timeout := limit } outcome) ∧
    (∀ fuel exit, run fuel argv w = some exit →
      (exit.status = .ok 0 ↔
        ∃ p limit outcome, Launches o w p limit ∧
          (launched o w p).RunEnds { timeout := limit } outcome ∧ outcome.result = .ok () ∧
          (w.sink.settle (sent o w p outcome)).2 = none) ∧
      (exit.status ≠ .ok 0 → exit.status = .ok 1) ∧
      (∀ p limit, Launches o w p limit → ∃ outcome, Concludes o w p limit outcome exit) ∧
      ((∀ p, ¬ Loads o w p) → Untouched w exit ∧ run 0 argv w = some exit) ∧
      (∀ f, destination o.output w.files = .error f →
        Untouched w exit ∧ run 0 argv w = some exit) ∧
      (∀ p d f, Loads o w p → destination o.output w.files = .ok d →
        timeout o.timeout w = .error f →
        Receives w (w.sink.settle []).1 exit o.output ∧ run 0 argv w = some exit)) ∧
    (w.sink.Keeps → ∀ fuel exit, run fuel argv w = some exit →
      (exit.status = .ok 0 ↔
        ∃ p limit outcome, Launches o w p limit ∧
          (launched o w p).RunEnds { timeout := limit } outcome ∧ outcome.result = .ok ()) ∧
      ∀ p limit, Launches o w p limit → ∃ outcome,
        (launched o w p).RunEnds { timeout := limit } outcome ∧
        Receives w (sent o w p outcome) exit o.output) ∧
    (o.input = none → ∀ p, Loads o w p → ∀ (n k : Nat) (c : Config) (t : Option Int),
      (launched o w p).config.ticks p n = some c → c.ip = some (k : Int) →
      p.instructions[k]? = some ⟨.op .input, t⟩ →
      ∃ d, c.tick p = (.error (.report ⟨.readSymbol, none, some .endOfInput, some k⟩), d)) := by
  refine ⟨run_ends_iff parsed running calm, ?_, ?_, ?_⟩
  · intro fuel exit ended
    have left := left_of_run parsed running calm ended
    refine ⟨left.status_zero_iff, left.status_one, ?_, left.unloaded_untouched, ?_, ?_⟩
    · intro p limit launches
      exact left.launches_concludes launches
    · intro f unopened
      exact left.unopened_untouched unopened
    · intro p d f loads opened untimed
      exact left.untimed_received loads opened untimed
  · intro keeps fuel exit ended
    have left := left_of_run parsed running calm ended
    refine ⟨left.status_zero_iff.trans ?_, ?_⟩
    · simp only [keeps _, and_true]
    · intro p limit launches
      obtain ⟨outcome, concludes⟩ := left.launches_concludes launches
      have received := concludes.received
      rw [keeps] at received
      exact ⟨outcome, concludes.ran, received⟩
  · rintro stdin p ⟨bytes, _, compiled⟩ n k c t ticked ip found
    exact input_exhausted calm stdin (compile_sound compiled) ticked ip found

/-- A program on standard input that writes a byte and then asks for one: the run fails, and the
file holds what was written before. Another only writes, and its run completes; but the file cannot
take the byte when it is closed, and so the program fails. -/
theorem failed_run_keeps_output :
    ∃ o w exit w' p outcome exit', parse ["--output", "out"] = .ok o ∧ Running o ∧
      Calm w ∧ w.stdin = [0x2B, 0x2E, 0x2C] ∧ w.sink.Keeps ∧
      run 9 ["--output", "out"] w = some exit ∧ exit.status = .ok 1 ∧ exit.stdout = [] ∧
      exit.files.read "out" = .ok [1] ∧
      Calm w' ∧ w'.stdin = [0x2B, 0x2E] ∧
      w'.sink.settle [1] = ([], some ⟨.system, "[Errno 28] No space left on device"⟩) ∧
      Loads o w' p ∧ (launched o w' p).run 9 {} = some outcome ∧ outcome.result = .ok () ∧
      run 9 ["--output", "out"] w' = some exit' ∧ exit'.status = .ok 1 ∧
      exit'.files.read "out" = .ok [] := by
  let o : Options := { output := some (.value "out") }
  have parsed : parse ["--output", "out"] = .ok o := rfl
  have running : Running o := ⟨rfl, rfl, rfl⟩
  -- the run that fails
  let w : Surroundings := { stdin := [0x2B, 0x2E, 0x2C] }
  have calm : Calm w := ⟨rfl, nofun, nofun⟩
  obtain ⟨p, loads, failing, f, ran, failed, written⟩ : ∃ p, Loads o w p ∧ ∃ outcome f,
      (launched o w p).run 9 {} = some outcome ∧ outcome.result = .error f ∧
      sent o w p outcome = [1] := ⟨_, ⟨_, .stdin, rfl⟩, _, _, rfl, rfl, rfl⟩
  obtain ⟨exit, ended⟩ : ∃ exit, run 9 ["--output", "out"] w = some exit := ⟨_, rfl⟩
  obtain ⟨_, exits, _⟩ := plain_run_exits parsed running calm
  obtain ⟨_, _, concludes, _⟩ := exits 9 exit ended
  obtain ⟨_, concludes⟩ := concludes p none ⟨loads, ⟨_, rfl⟩, rfl⟩
  cases Machine.runEnds_unique ⟨9, ran⟩ concludes.ran
  have received : Receives w (sent o w p failing) exit o.output := concludes.received
  rw [written] at received
  -- the run that completes
  let full : Sink :=
    { settle := fun _ => ([], some ⟨.system, "[Errno 28] No space left on device"⟩) }
  let w' : Surroundings := { stdin := [0x2B, 0x2E], sink := full }
  have calm' : Calm w' := by
    refine ⟨rfl, nofun, ?_⟩
    rintro bytes c ⟨⟩
    decide
  obtain ⟨p', loads', outcome, ran', completed⟩ : ∃ p, Loads o w' p ∧ ∃ outcome,
      (launched o w' p).run 9 {} = some outcome ∧ outcome.result = .ok () :=
    ⟨_, ⟨_, .stdin, rfl⟩, _, rfl, rfl⟩
  obtain ⟨exit', ended'⟩ : ∃ exit, run 9 ["--output", "out"] w' = some exit := ⟨_, rfl⟩
  obtain ⟨_, exits', _⟩ := plain_run_exits parsed running calm'
  obtain ⟨_, _, concludes', _⟩ := exits' 9 exit' ended'
  obtain ⟨_, concludes'⟩ := concludes' p' none ⟨loads', ⟨_, rfl⟩, rfl⟩
  have received' : Receives w' [] exit' o.output := concludes'.received
  refine ⟨o, w, exit, w', p', outcome, exit', parsed, running, calm, rfl, fun _ => rfl, ended,
    concludes.failed f failed, ?_⟩
  cases received with
  | file _ silent holds =>
    cases received' with
    | file _ _ holds' =>
      exact ⟨silent, holds, calm', rfl, rfl, loads', ran', completed, ended',
        concludes'.unclosed _ rfl, holds'⟩

end CommandLine
end TapeMachine
