import TapeMachine.CommandLine.Options
import TapeMachine.Debugger.Session
import TapeMachine.Files
import TapeMachine.Program.Listing
import TapeMachine.Shell

/-! The program as a whole: from the words of the command line and what surrounds the program to
what it leaves behind. -/

namespace TapeMachine

/-- What surrounds a program: its standard input, the files it can reach, a clock, and how the
destination of its output takes what is written, once it has been opened. -/
structure Surroundings where
  stdin : List UInt8 := []
  atEnd : StreamEnd := .ended
  files : Files := {}
  clock : Clock := {}
  sink : Sink := {}

/-- What a command leaves behind. -/
structure Effects where
  stdout : List UInt8 := []
  stderr : String := ""
  files : Files := {}
  fault : Option Fault := none

/-- The effects with something raised at their end, which counts before any fault so far. -/
def Effects.raising (e : Effects) : Option Cause → Effects
  | none => e
  | some c => { e with fault := some (.stream c) }

/-- What the whole program leaves behind: its exit status, or the fault that escaped it. -/
structure Exit where
  stdout : List UInt8 := []
  stderr : String := ""
  files : Files := {}
  status : Except Fault Nat := .ok 0

namespace CommandLine

def usage : String :=
"usage: bfvm [-h] [--input PATH] [--output PATH] [--debug] [--dump] [--trace]
            [--timeout SECONDS] [--repl] [--traceback]
"

def helpText : String := usage ++ "
Run tape-machine (brainfuck) programs

options:
  -h, --help            show this help message and exit
  --input PATH, -in PATH, -if PATH
                        Source file (default: standard input)
  --output PATH, -out PATH, -of PATH
                        Where program output goes (default: standard output)
  --debug, -dbg, -d     Step through the program one instruction at a time
  --dump                Print the compiled program instead of running it
  --trace               Print every executed instruction to stderr
  --timeout SECONDS     Cancel the run after this many seconds
  --repl                Start an interactive shell sharing one tape
  --traceback           Show the Python traceback on errors
"

/-- A path that cannot be opened: trouble that the system reports becomes a report of the given
kind, and any other passes through. -/
def cannotOpen (kind : ReportKind) (path : String) (c : Cause) : Fault :=
  if c.kind.isSystem then .report ⟨kind, some ("cannot open " ++ path), some c, none⟩
  else .stream c

/-- The timeout that is asked for. With nothing given there is nothing to add to the time. -/
def timeout (given : Option (Operand Float)) (w : Surroundings) : Except Fault (Option Float) :=
  match given with
  | none => .ok none
  | some (.value x) => .ok (some x)
  | some .nothing => .error (.noDuration w.clock.whole)

/-- The program to run, and what is left of the surroundings: a source on standard input is read
to its end. -/
def load (path : Option (Operand String)) (w : Surroundings) :
    Except Fault Program × Surroundings :=
  match path with
  | some .nothing => (.error .noPath, w)
  | some (.value path) =>
    match w.files.read path with
    | .error c => (.error (cannotOpen .compilation path c), w)
    | .ok bytes => (compile (.bytes bytes), w)
  | none =>
    match w.atEnd with
    | .ended => (compile (.bytes w.stdin), { w with stdin := [] })
    | .interrupted => (compile (.failing .interrupt), { w with stdin := [] })

inductive Destination where
  | stdout
  | file (names : List String)
  deriving DecidableEq, Repr

/-- Where output goes: to standard output, or to a file that can be written. -/
def destination (path : Option (Operand String)) (fs : Files) : Except Fault Destination :=
  match path with
  | none => .ok .stdout
  | some .nothing => .error .noPath
  | some (.value path) =>
    match fs.writable path with
    | .error c => .error (cannotOpen .writeSymbol path c)
    | .ok names => .ok (.file names)

/-- Delivers output, behind what is on standard output already or as the whole of a file. -/
def Destination.deliver (d : Destination) (bytes : List UInt8) (e : Effects) : Effects :=
  match d with
  | .stdout => { e with stdout := e.stdout ++ bytes }
  | .file names => { e with files := e.files.put names (.file bytes) }

/-- Flushes and closes the output, when the bytes have been written to it. -/
def Destination.close (d : Destination) (s : Sink) (bytes : List UInt8) (e : Effects) : Effects :=
  let (kept, raised) := s.settle bytes
  (d.deliver kept e).raising raised

/-- Writes bytes all at once, and then flushes and closes the output, also if the write fails. -/
def Destination.receive (d : Destination) (s : Sink) (bytes : List UInt8) (e : Effects) :
    Effects :=
  let (taken, raised) := s.take bytes
  d.close s taken (e.raising raised)

/-- A machine at the start of a program, on one zero cell and standard input. -/
def machineFor (program : Program) (trace : Bool) (w : Surroundings)
    (output : Output := .reliable) : Machine :=
  { Machine.onTape program .blank (.bytes w.stdin w.atEnd) output with
    guard := { clock := w.clock }
    tracing := trace }

def list (program : Program) (w : Surroundings) : Effects :=
  let (text, fault) := Listing.ofProgram program
  { stdout := Utf8.encode text, files := w.files, fault }

/-- Runs a program on the output that leads to its destination, which is closed however the run
ends. Nothing runs if the output has nowhere to go, or the timeout is a fault. -/
def execute (fuel : Nat) (program : Program) (output : Option (Operand String))
    (timeout : Except Fault (Option Float)) (trace : Bool) (w : Surroundings) : Option Effects :=
  match destination output w.files, timeout with
  | .error f, _ => some { files := w.files, fault := some f }
  | .ok d, .error f => some (d.close w.sink [] { files := w.files, fault := some f })
  | .ok d, .ok timeout =>
    ((machineFor program trace w w.sink.output).run fuel { timeout }).map fun o =>
      d.close w.sink o.machine.config.output.written
        { stderr := o.machine.traceText, files := w.files, fault := Fault.ofResult? o.result }

/-- A debug view session: what it showed, and what it left behind. The output is delivered at
the end, however the session ended; that it has nowhere to go, or that delivering it fails, counts
before any other fault. -/
def debug (fuel : Nat) (program : Program) (output : Option (Operand String))
    (timeout : Except Fault (Option Float)) (trace : Bool) (controls : Controls)
    (w : Surroundings) : Option (String × Effects) :=
  let session : Except Fault Session := do
    let d ← Debugger.create (machineFor program trace w) (← timeout)
    Session.create d controls
  match session with
  | .error f => some ("", { files := w.files, fault := some f })
  | .ok s =>
    (s.run fuel).map fun e =>
      let left : Effects :=
        { stderr := e.session.machine.traceText, files := w.files, fault := e.fault }
      (e.session.screenText,
        match destination output w.files with
        | .error f => { left with fault := some f }
        | .ok d => d.receive w.sink e.session.captured left)

/-- Runs an interactive shell on standard input. -/
def shell (fuel : Nat) (o : ShellOptions) (w : Surroundings) : Option Effects :=
  let console : Console := { pending := Utf8.decodeFrom none w.stdin, atEnd := w.atEnd }
  ((Shell.create o console w.clock).run fuel).map fun (fault, s) =>
    { stdout := Utf8.encode s.stdout, stderr := s.stderr, files := w.files, fault }

/-- The exit of a command: an interrupt has a status of its own, and any other fault is reported
in a line or with its traceback. -/
def conclude (traceback : Bool) (e : Effects) : Exit :=
  let (stderr, status) :=
    match e.fault with
    | none => ("", 0)
    | some f =>
      if f.isInterrupt then ("\n", 130)
      else (if traceback then f.traceback else f.message ++ "\n", 1)
  { stdout := e.stdout, stderr := e.stderr ++ stderr, files := e.files, status := .ok status }

/-- The command that options ask for, on a program. -/
def command (fuel : Nat) (o : Options) (program : Program) (w : Surroundings) : Option Effects :=
  if o.dump then some (list program w)
  else if o.debug then
    (debug fuel program o.output (timeout o.timeout w) o.trace .shared w).map fun (screen, e) =>
      { e with stdout := Utf8.encode screen ++ e.stdout }
  else execute fuel program o.output (timeout o.timeout w) o.trace w

/-- The whole program, each of its loops within `fuel` turns. -/
def run (fuel : Nat) (argv : List String) (w : Surroundings) : Option Exit :=
  match parse argv with
  | .error .help => some { stdout := Utf8.encode helpText, files := w.files }
  | .error (.usage e) => some { stderr := usage ++ e.text, files := w.files, status := .ok 2 }
  | .ok o =>
    if o.repl then
      let options : ShellOptions :=
        { timeout := timeout o.timeout w, tracing := o.trace, tracebacks := o.traceback }
      (shell fuel options w).map fun e =>
        { stdout := e.stdout, stderr := e.stderr, files := e.files,
          status := (e.fault.map Except.error).getD (.ok 0) }
    else
      match load o.input w with
      | (.error f, _) => some (conclude o.traceback { files := w.files, fault := some f })
      | (.ok program, w) => (command fuel o program w).map (conclude o.traceback)

end CommandLine
end TapeMachine
