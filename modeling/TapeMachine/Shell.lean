import TapeMachine.Machine.Run
import TapeMachine.Program.Compiler
import TapeMachine.Text.Blank

/-! The interactive shell: entries are compiled and run one after the other on one tape. An entry
goes on over lines until its brackets balance. -/

namespace TapeMachine

structure ShellOptions where
  /-- The timeout of each entry, or the fault that comes of asking for it. -/
  timeout : Except Fault (Option Float) := .ok none
  tracing : Bool := false
  tracebacks : Bool := false

structure Shell where
  options : ShellOptions := {}
  tape : Tape := .blank
  /-- What `,` reads from. Its console is the shell's own. -/
  reader : PromptedInput := {}
  clock : Clock := {}
  /-- The lines of an unfinished entry, the last first. -/
  lines : List (List Char) := []
  depth : Int := 0
  diagnostics : Log String := {}

namespace Shell

def banner : String := "bfvm REPL. Type :q to quit, :tape to show memory, :reset to clear it.\n"

/-- How many more brackets a line opens than it closes. -/
def surplus (line : List Char) : Int := line.count '[' - line.count ']'

/-- The cells and the pointer of a tape, in a line. -/
def tapeText (cells : List UInt8) (pointer : Int) : String :=
  "tape: [" ++ ", ".intercalate (cells.map fun c => Numeral.text c.toNat) ++ "]  ptr=" ++
    Numeral.text pointer

/-- What a line means where no entry is unfinished. -/
inductive Word where
  | quit | tape | reset | blank | code
  deriving DecidableEq, Repr

def Word.ofLine (line : List Char) : Word :=
  let s := Blank.trim line
  if s ∈ [":q", ":quit", "quit", "exit"].map String.toList then .quit
  else if s = ":tape".toList then .tape
  else if s = ":reset".toList then .reset
  else if s = [] then .blank
  else .code

def console (s : Shell) : Console := s.reader.console

def withConsole (s : Shell) (c : Console) : Shell :=
  { s with reader := { s.reader with console := c } }

def put (s : Shell) (text : String) : Shell := s.withConsole (s.console.put text)

def complain (s : Shell) (text : String) : Shell :=
  { s with diagnostics := s.diagnostics.push text }

def prompt (s : Shell) : String := if s.lines.isEmpty then "bf> " else "...> "

/-- The source text of an entry: its lines, each ended by a line feed. -/
def entryText (lines : List (List Char)) : String :=
  String.ofList (lines.flatMap (· ++ ['\n']))

/-- Reports a fault: in a line on the console, or with its traceback among the diagnostics. -/
def reportFault (s : Shell) (f : Fault) : Shell :=
  if s.options.tracebacks then s.complain f.traceback else s.put (f.message ++ "\n")

/-- Shows what a program wrote, on lines of its own. -/
def showOutput (s : Shell) (bytes : List UInt8) : Shell :=
  let text := (Utf8.decode bytes).toList
  if text = [] then s
  else s.put (String.ofList (if text.getLast? = some '\n' then text else text ++ ['\n']))

/-- The machine for an entry: on the shell's tape, its reader and its clock. -/
def machineFor (s : Shell) (program : Program) : Machine :=
  { Machine.onTape program s.tape (.prompted s.reader) .reliable with
    guard := { clock := s.clock }
    tracing := s.options.tracing }

/-- Takes back from a machine what the shell lent it. -/
def retrieve (s : Shell) (m : Machine) : Shell :=
  { s with
    tape := m.config.tape
    clock := m.guard.clock
    reader :=
      match m.config.input with
      | .prompted r => r
      | _ => s.reader
    diagnostics := if m.trace.length = 0 then s.diagnostics else s.diagnostics.push m.traceText }

/-- What is left to do after an entry that came out as `r`: reports are shown and forgotten,
anything else ends the shell. The output is shown in any case. -/
def settle (s : Shell) (r : Except Fault Unit) (output : List UInt8) :
    Turn Shell (Option (Option Fault × Shell)) :=
  match r with
  | .ok () => .again (s.showOutput output)
  | .error f =>
    if f.isReport then .again ((s.reportFault f).showOutput output)
    else .done (some (some f, s.showOutput output))

/-- Compiles and runs an entry. -/
def submit (fuel : Nat) (s : Shell) (text : String) : Turn Shell (Option (Option Fault × Shell)) :=
  match compile (.text text) with
  | .error f => s.settle (.error f) []
  | .ok program =>
    match s.options.timeout with
    | .error f => s.settle (.error f) []
    | .ok timeout =>
      match (s.machineFor program).run fuel { timeout } with
      | none => .done none
      | some o => (s.retrieve o.machine).settle o.result o.machine.config.output.written

/-- Takes in a line of code: the entry runs once its brackets balance. -/
def acceptLine (fuel : Nat) (s : Shell) (line : List Char) :
    Turn Shell (Option (Option Fault × Shell)) :=
  let lines := line :: s.lines
  let depth := s.depth + surplus line
  if 0 < depth then .again { s with lines, depth }
  else { s with lines := [], depth := 0 }.submit fuel (entryText lines.reverse)

/-- One turn of the shell: a prompt, and what comes of the line typed in answer. -/
def turn (fuel : Nat) (s : Shell) : Turn Shell (Option (Option Fault × Shell)) :=
  match s.console.ask s.prompt with
  | (.line line, c) =>
    let s := s.withConsole c
    if s.lines.isEmpty then
      match Word.ofLine line with
      | .quit => .done (some (none, s))
      | .tape => .again (s.put (tapeText s.tape.cells s.tape.pointer ++ "\n"))
      | .reset => .again { s with tape := .blank }
      | .blank => .again s
      | .code => s.acceptLine fuel line
    else s.acceptLine fuel line
  | (_, c) => .done (some (none, (s.withConsole c).put "\n"))

/-- A shell on a console, with its banner shown. -/
def create (options : ShellOptions) (console : Console) (clock : Clock) : Shell :=
  { options, reader := { console := console.put banner }, clock }

/-- A whole session, within `fuel` lines of `fuel` turns each. The answer holds the fault that
ended it, if it did not end as it should. -/
def run (fuel : Nat) (s : Shell) : Option (Option Fault × Shell) :=
  (Loop.turns (turn fuel) fuel s).join

def stdout (s : Shell) : String := s.console.screen

def stderr (s : Shell) : String := String.join s.diagnostics.toList

end Shell
end TapeMachine
