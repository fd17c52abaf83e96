import TapeMachine.Lifecycle
import TapeMachine.Text.Numeral
import TapeMachine.Text.Quoted

/-! Everything that can go wrong, by cause. `Fault.name` and `Fault.message` hold all the
wording. -/

namespace TapeMachine

/-- The kinds of trouble that the surroundings report: streams, files and the user. -/
inductive CauseKind where
  | system | brokenPipe | notFound | notDirectory | isDirectory | value | runtime | endOfInput
  | interrupt
  deriving DecidableEq, Repr

namespace CauseKind

def name : CauseKind → String
  | system => "OSError"
  | brokenPipe => "BrokenPipeError"
  | notFound => "FileNotFoundError"
  | notDirectory => "NotADirectoryError"
  | isDirectory => "IsADirectoryError"
  | value => "ValueError"
  | runtime => "RuntimeError"
  | endOfInput => "EOFError"
  | interrupt => "KeyboardInterrupt"

/-- The kinds that the operating system reports. -/
def isSystem : CauseKind → Bool
  | system | brokenPipe | notFound | notDirectory | isDirectory => true
  | value | runtime | endOfInput | interrupt => false

/-- The kinds that make a read or a write fail as such; the rest pass through the machine. -/
def isStreamFailure (k : CauseKind) : Bool := k.isSystem || k = value

end CauseKind

structure Cause where
  kind : CauseKind
  message : String
  deriving DecidableEq, Repr

namespace Cause

def interrupt : Cause := ⟨.interrupt, ""⟩
def endOfInput : Cause := ⟨.endOfInput, "end of input"⟩
def closed : Cause := ⟨.value, "I/O operation on closed file."⟩

/-- What a report that has no wording of its own says about its cause. -/
def text (c : Cause) : String := if c.message = "" then c.kind.name else c.message

end Cause

/-- The five kinds of report that the program makes itself. -/
inductive ReportKind where
  | compilation | readSymbol | writeSymbol | cancellation | pointerUnderflow
  deriving DecidableEq, Repr

namespace ReportKind

def all : List ReportKind :=
  [compilation, readSymbol, writeSymbol, cancellation, pointerUnderflow]

def name : ReportKind → String
  | compilation => "CompilationError"
  | readSymbol => "ReadSymbolError"
  | writeSymbol => "WriteSymbolError"
  | cancellation => "CancellationError"
  | pointerUnderflow => "PointerUnderflowError"

def text : ReportKind → String
  | compilation => "could not compile code"
  | readSymbol => "could not read symbol"
  | writeSymbol => "could not write symbol"
  | cancellation => "execution cancelled"
  | pointerUnderflow => "cell pointer moved left of the first cell"

end ReportKind

/-- A report: its kind, its own wording if it has one, what caused it, and the index of the
instruction concerned. -/
structure Report where
  kind : ReportKind
  detail : Option String := none
  cause : Option Cause := none
  ip : Option Int := none
  deriving DecidableEq, Repr

namespace Report

/-- What is said beyond the kind: the report's own wording, or else that of its cause. -/
def wording (r : Report) : Option String := r.detail.or (r.cause.map Cause.text)

/-- The heading: the report's own wording unless it is empty, or else its kind's. -/
def heading (r : Report) : String :=
  match r.detail with
  | none => r.kind.text
  | some d => if d = "" then r.kind.text else d

def text (r : Report) : String :=
  let said :=
    match r.wording with
    | none => r.kind.text
    | some d => if d = "" then r.kind.text else r.kind.text ++ ": " ++ d
  match r.ip with
  | none => said
  | some i => said ++ " (ip=" ++ Numeral.zeroPadded 4 i ++ ")"

example : text ⟨.readSymbol, none, some .endOfInput, some 3⟩ =
    "could not read symbol: end of input (ip=0003)" := by decide

example : text ⟨.compilation, some "", some ⟨.system, ""⟩, none⟩ = "could not compile code" := by
  decide

example : text ⟨.compilation, none, some ⟨.system, ""⟩, none⟩ =
    "could not compile code: OSError" := by decide

end Report

/-- Which container of instructions refused an index: one still being built, or a frozen one. -/
inductive Container where
  | growing | frozen
  deriving DecidableEq, Repr

def Container.name : Container → String
  | .growing => "list"
  | .frozen => "tuple"

inductive Fault where
  | report (r : Report)
  /-- What a stream raised and nobody on the way handles. -/
  | stream (c : Cause)
  /-- A step or run of a machine that has run, or a run of one that is running. -/
  | notReady (s : RunState)
  /-- An advance of a debugger that is not waiting. -/
  | notWaiting (s : DebugState)
  | programFrozen
  | indexOutside (c : Container)
  /-- An index of more than 64 bits. -/
  | indexTooLarge
  | pointerOutside (pointer : Int) (length : Nat)
  | unknownOpcode (name : String)
  | noSymbol (name : String)
  | noEndIndex (name : String)
  | noStartIndex (name : String)
  /-- A report of the base kind, which none of the five is. -/
  | kindless
  /-- The place of an unclosed bracket in a program that does not hold it. -/
  | noLocation
  /-- An instruction looked up, compared with the program's end, or compared with its start,
  when a jump along an unlinked loop has left no index. -/
  | lostIndex (c : Container)
  | lostBeforeEnd
  | lostAfterStart
  /-- A file asked for without a path. -/
  | noPath
  /-- A timeout asked for without a number, to be added to the time of a clock. -/
  | noDuration (whole : Bool)
  deriving DecidableEq, Repr

namespace Fault

def name : Fault → String
  | report r => r.kind.name
  | stream c => c.kind.name
  | notReady _ | notWaiting _ | programFrozen => "RuntimeError"
  | indexOutside _ | indexTooLarge => "IndexError"
  | pointerOutside _ _ => "ValueError"
  | unknownOpcode _ => "Exception"
  | noSymbol _ => "KeyError"
  | noEndIndex _ | noStartIndex _ => "AttributeError"
  | kindless | noLocation | lostIndex _ | lostBeforeEnd | lostAfterStart | noPath
  | noDuration _ => "TypeError"

def message : Fault → String
  | report r => r.text
  | stream c => c.message
  | notReady s => "VM is " ++ s.name ++ "; compile again and build a new VM to rerun"
  | notWaiting s => "cannot step: debugger is " ++ s.phrase
  | programFrozen => "program is frozen"
  | indexOutside c => c.name ++ " index out of range"
  | indexTooLarge => "cannot fit 'int' into an index-sized integer"
  | pointerOutside p n =>
    "pointer " ++ Numeral.text p ++ " is outside the tape (length " ++ Numeral.text n ++ ")"
  | unknownOpcode name => "Unknown opcode: " ++ name
  | noSymbol name => Quoted.quoted name
  | noEndIndex name => name ++ " has no end_index"
  | noStartIndex name => name ++ " has no start_index"
  | kindless => "BFError has no ErrorKind; raise one of its subclasses"
  | noLocation => "'NoneType' object is not subscriptable"
  | lostIndex c => c.name ++ " indices must be integers or slices, not NoneType"
  | lostBeforeEnd => "'<' not supported between instances of 'NoneType' and 'int'"
  | lostAfterStart => "'<=' not supported between instances of 'int' and 'NoneType'"
  | noPath => "expected str, bytes or os.PathLike object, not list"
  | noDuration whole =>
    "unsupported operand type(s) for +: '" ++ (if whole then "int" else "float") ++ "' and 'list'"

def isReport : Fault → Bool
  | report _ => true
  | _ => false

/-- An interrupt from the keyboard passes through everything but the outermost layer. -/
def isInterrupt : Fault → Bool
  | stream c => c.kind = .interrupt
  | _ => false

def isCancellation : Fault → Bool
  | report r => r.kind = .cancellation
  | _ => false

/-- The fault in a result. -/
def ofResult? : Except Fault Unit → Option Fault
  | .ok () => none
  | .error f => some f

/-- The one-line trace that is kept of an unexpected end. -/
def traceback (f : Fault) : String := "TRACEBACK " ++ f.name ++ ": " ++ f.message ++ "\n"

end Fault

/-- The kind of report a class name stands for; the base class has none. -/
def ReportKind.ofName? (name : String) : Except Fault ReportKind :=
  match ReportKind.all.find? (·.name = name) with
  | some k => .ok k
  | none => .error .kindless

end TapeMachine
