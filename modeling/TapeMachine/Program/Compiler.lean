import TapeMachine.Program.Basic
import TapeMachine.Program.Scanner
import TapeMachine.Program.Source

/-! Compiling: operations are emitted in order, and each loop's two instructions are linked when
its end is met. A compiler keeps what it has emitted, and the loops still open, from one source
to the next, whether a source compiled or not. -/

namespace TapeMachine

/-- The program so far, and the indexes of the loops still open, innermost first. -/
structure Compiler where
  program : Program := {}
  openLoops : List Nat := []
  deriving DecidableEq, Repr

namespace Compiler

def fresh : Compiler := {}

def bracketFault (what : String) (line column : Int) : Fault :=
  .report ⟨.compilation,
    some (what ++ " at line " ++ Numeral.text line ++ ", col " ++ Numeral.text column),
    none, none⟩

def unmatched (line column : Int) : Fault := bracketFault "unmatched ']'" line column

def unclosed (line column : Int) : Fault := bracketFault "unclosed '['" line column

/-- Emits an instruction for an operation found in the source. -/
def emit (c : Compiler) (o : Op) (target : Option Int) (line column : Nat) :
    Except Fault Nat × Compiler :=
  match c with
  | ⟨program, openLoops⟩ =>
    let (r, program) := program.emit ⟨.op o, target⟩ (some ⟨line, column⟩)
    (r, ⟨program, openLoops⟩)

/-- Links the start of a loop to its end. -/
def link (c : Compiler) (start finish : Nat) : Except Fault Unit × Compiler :=
  match c with
  | ⟨program, openLoops⟩ =>
    let (r, program) := program.patch start (some finish)
    (r, ⟨program, openLoops⟩)

/-- Takes in one operation. A loop counts as open before its start is emitted, and as closed
before its end is. -/
def accept (c : Compiler) (o : Op) (line column : Nat) : Except Fault Unit × Compiler :=
  match o with
  | .loopStart =>
    let (r, c) := emit ⟨c.program, c.program.length :: c.openLoops⟩ .loopStart none line column
    (r.map fun _ => (), c)
  | .loopEnd =>
    match c.openLoops with
    | [] => (.error (unmatched line column), c)
    | start :: outer =>
      match emit ⟨c.program, outer⟩ .loopEnd (some start) line column with
      | (.error f, c) => (.error f, c)
      | (.ok finish, c) => c.link start finish
  | o =>
    let (r, c) := c.emit o none line column
    (r.map fun _ => (), c)

/-- Takes in tokens until one is refused or none is left. -/
def acceptAll : Compiler → List Token → Except Fault Unit × Compiler
  | c, [] => (.ok (), c)
  | c, t :: ts =>
    match t.op with
    | none => (.ok (), c)
    | some o =>
      match c.accept o t.line t.column with
      | (.error f, c) => (.error f, c)
      | (.ok (), c) => acceptAll c ts

/-- Ends a source: no loop may be open. -/
def close (c : Compiler) : Except Fault Program × Compiler :=
  match c.openLoops with
  | [] =>
    let program := c.program.freeze
    (.ok program, { c with program := program })
  | index :: _ =>
    match c.program.location index with
    | some l => (.error (unclosed l.line l.column), c)
    | none => (.error .noLocation, c)

def compileBytes (c : Compiler) (bytes : List UInt8) : Except Fault Program × Compiler :=
  match c.acceptAll (Scanner.ofBytes bytes).tokens with
  | (.error f, c) => (.error f, c)
  | (.ok (), c) => c.close

def compile (c : Compiler) (source : Source) : Except Fault Program × Compiler :=
  match source.read with
  | .error f => (.error f, c)
  | .ok bytes => c.compileBytes bytes

end Compiler

/-- The program of a source. -/
def compile (source : Source) : Except Fault Program := (Compiler.fresh.compile source).1

example : (compile (.text "+[-]")).map Program.instructions =
    .ok [⟨.op .increment, none⟩, ⟨.op .loopStart, some 3⟩, ⟨.op .decrement, none⟩,
      ⟨.op .loopEnd, some 1⟩] := by rfl

example : compile (.text "+\n]") = .error (Compiler.unmatched 2 1) := by rfl

end TapeMachine
