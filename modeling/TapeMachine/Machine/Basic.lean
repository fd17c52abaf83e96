import TapeMachine.Machine.Config
import TapeMachine.Machine.Guard
import TapeMachine.Program.Basic

/-! The machine: a program, what it acts on, what watches over it, and the order in which it
hands out instructions. -/

namespace TapeMachine

/-- A picture of a machine between two steps, with the instruction that would be next. -/
structure Snapshot where
  tape : Tape
  ip : Int
  instruction : Option Instruction
  steps : Nat
  state : RunState
  fault : Option Fault := none
  deriving DecidableEq, Repr

def Snapshot.cells (s : Snapshot) : List UInt8 := s.tape.cells

def Snapshot.pointer (s : Snapshot) : Nat := s.tape.pointer

/-- Where a gated traversal posts a snapshot before each step: nowhere; in a mailbox; to the run
that set the gate; or, where that run is over, to nobody any more. -/
inductive Outlet where
  | nowhere | mailbox | report | abandoned
  deriving DecidableEq, Repr

/-- How instructions are handed out: in order; in order, with a record kept and perhaps only so
many more of them; or in order, each after leave from a step gate. -/
inductive Traversal where
  | linear
  | recording (left : Option Int)
  | gated (signals : List Signal) (outlet : Outlet)
  deriving DecidableEq, Repr

/-- The traversal as a later run finds it: a gate that an earlier run set still stands, but what
it posts no longer reaches that run. -/
def Traversal.outlive : Traversal → Traversal
  | .gated signals .report => .gated signals .abandoned
  | t => t

/-- A line of the trace: the instruction about to be executed, and the cell it will meet. -/
structure TraceEntry where
  index : Int
  symbol : Char
  pointer : Nat
  cell : UInt8
  deriving DecidableEq, Repr

def TraceEntry.text (e : TraceEntry) : String :=
  "TRACE ip=" ++ Numeral.zeroPadded 4 e.index ++ " " ++ String.singleton e.symbol ++ " ptr=" ++
    Numeral.text e.pointer ++ " cell=" ++ Numeral.text e.cell.toNat ++ "\n"

structure Machine where
  program : Program
  config : Config
  /-- How many instructions were executed. -/
  steps : Nat := 0
  state : RunState := .ready
  guard : Guard := {}
  traversal : Traversal := .linear
  tracing : Bool := false
  trace : Log TraceEntry := {}
  /-- The indexes handed out since the last recording began. -/
  recorded : Log Int := {}
  /-- The snapshots posted since the last gate was set, and those posted by the last run. -/
  mailbox : Log Snapshot := {}
  report : Log Snapshot := {}

namespace Machine

/-- A machine at the start of a program, on the given cells. No cells at all mean one zero cell.
The pointer has to be at one of them. -/
def create (program : Program) (cells : List UInt8) (pointer : Int) (input : Input)
    (output : Output) : Except Fault Machine :=
  let cells := if cells.isEmpty then [0] else cells
  match if 0 ≤ pointer then Tape.at? cells pointer.toNat else none with
  | none => .error (.pointerOutside pointer cells.length)
  | some tape => .ok { program, config := { tape, input, output } }

/-- A machine at the start of a program, on a tape as it is. -/
def onTape (program : Program) (tape : Tape) (input : Input) (output : Output) : Machine :=
  { program, config := { tape, input, output } }

def ip (m : Machine) : Option Int := m.config.ip

/-- What the machine has written to standard error. -/
def traceText (m : Machine) : String := String.join (m.trace.toList.map TraceEntry.text)

def withGuard (m : Machine) (g : Guard) : Machine := { m with guard := g }

def withConfig (m : Machine) (c : Config) : Machine := { m with config := c }

def jump (m : Machine) (target : Option Int) : Machine := m.withConfig (m.config.jump target)

/-- Asks the run to stop before its next instruction. -/
def cancel (m : Machine) : Machine := m.withGuard m.guard.cancel

/-- The instruction at the current index, none outside the program. Here an index is never
counted from the end. -/
def current (m : Machine) : Except Fault (Option Instruction × Int) :=
  match m.ip with
  | none => .error .lostAfterStart
  | some i => .ok (if 0 ≤ i then (m.program.entries[i.toNat]?).map Entry.instruction else none, i)

def snapshot (m : Machine) (fault : Option Fault := none) : Except Fault Snapshot :=
  m.current.map fun (instruction, ip) =>
    { tape := m.config.tape, ip, instruction, steps := m.steps, state := m.state, fault }

/-- Whether the index stands before the program's end. -/
def beforeEnd (m : Machine) : Except Fault Bool :=
  match m.ip with
  | none => .error .lostBeforeEnd
  | some i => .ok (i < m.program.length)

/-- Whether the traversal has an instruction to hand out. -/
def hasNext (m : Machine) : Except Fault Bool :=
  match m.traversal with
  | .recording (some left) => if left ≤ 0 then .ok false else m.beforeEnd
  | _ => m.beforeEnd

/-- Hands out the instruction at the current index and moves the index on. -/
def fetch (m : Machine) : Except Fault (Instruction × Int) × Machine :=
  match m.ip with
  | none => (.error (.lostIndex m.program.container), m)
  | some i =>
    match m.program.get i with
    | .error f => (.error f, m)
    | .ok instruction => (.ok (instruction, i), m.jump (some (i + 1)))

/-- Posts a snapshot where a gated traversal wants it. -/
def post (m : Machine) (outlet : Outlet) : Except Fault Machine :=
  match outlet with
  | .nowhere => .ok m
  | .mailbox => m.snapshot.map fun s => { m with mailbox := m.mailbox.push s }
  | .report => m.snapshot.map fun s => { m with report := m.report.push s }
  | .abandoned => m.snapshot.map fun _ => m

/-- Waits at a step gate for leave to step. -/
def await (m : Machine) (signals : List Signal) (outlet : Outlet) : Except Fault Unit × Machine :=
  let (r, signals, guard) := m.guard.await m.ip signals
  (r, { m with guard := guard, traversal := .gated signals outlet })

/-- Hands out the next instruction as the traversal has it. -/
def next (m : Machine) : Except Fault (Instruction × Int) × Machine :=
  match m.traversal with
  | .linear => m.fetch
  | .recording left =>
    match m.fetch with
    | (.error f, m) => (.error f, m)
    | (.ok (instruction, index), m) =>
      (.ok (instruction, index),
        { m with
          traversal := .recording (left.map (· - 1))
          recorded := m.recorded.push index })
  | .gated signals outlet =>
    match m.post outlet with
    | .error f => (.error f, m)
    | .ok m =>
      match m.await signals outlet with
      | (.error f, m) => (.error f, m)
      | (.ok (), m) => m.fetch

def traverse (m : Machine) (t : Traversal) : Machine := { m with traversal := t }

/-- Goes on in order, keeping a record of what is handed out, and no further than `limit`. -/
def record (m : Machine) (limit : Option Int) : Machine :=
  { m with traversal := .recording limit, recorded := {} }

/-- Goes on only with leave from a step gate. Snapshots are posted if they are wanted. -/
def gate (m : Machine) (signals : List Signal) (snapshots : Bool) : Machine :=
  { m with
    traversal := .gated signals (if snapshots then .mailbox else .nowhere)
    mailbox := {} }

/-- Takes the snapshots that wait in the mailbox. -/
def drain (m : Machine) : List Snapshot × Machine := (m.mailbox.toList, { m with mailbox := {} })

def check (m : Machine) : Except Fault Unit × Machine :=
  let (r, guard) := m.guard.check m.ip
  (r, m.withGuard guard)

/-- Executes an instruction, whatever the state of the machine. -/
def execute (m : Machine) (i : Instruction) (index : Int) : Except Fault Unit × Machine :=
  let (r, config) := m.config.execute i index
  (r, m.withConfig config)

end Machine
end TapeMachine
