import TapeMachine.Machine.Basic

/-! The debug view's picture of a machine: its program with the next instruction marked, its
cells with the one under the pointer marked, its output, and a line of counts. -/

namespace TapeMachine

/-- What the view shows of a machine. -/
structure Frame where
  cells : List UInt8
  pointer : Int
  ip : Int
  steps : Int
  deriving DecidableEq, Repr

namespace Frame

def ofSnapshot (s : Snapshot) : Frame := ⟨s.cells, s.pointer, s.ip, s.steps⟩

def red : String := "\x1b[31m"
def onBlue : String := "\x1b[44m"
def black : String := "\x1b[30m"
def plain : String := "\x1b[0m"

/-- The mark of the next instruction. -/
def marked (s : String) : String := " |" ++ red ++ s ++ plain ++ "|"

/-- The mark of the cell under the pointer. -/
def highlighted (s : String) : String := onBlue ++ black ++ s ++ plain

/-- Symbols of which the first has the given index, the `ip`-th marked. -/
def marks (ip : Int) : Nat → List Char → List String
  | _, [] => []
  | index, c :: cs =>
    let s := String.singleton c
    (if index = ip then marked s ++ " " else s) :: marks ip (index + 1) cs

/-- What stands behind the program: a mark, if its end has been reached. -/
def endMark (f : Frame) (length : Nat) : String := if length ≤ f.ip then marked "<end>" else ""

/-- The program's line. -/
def code (f : Frame) (symbols : List Char) : String :=
  String.join (marks f.ip 0 symbols) ++ f.endMark symbols.length

/-- The lines of cells whose first has the given index. -/
def cellLines (pointer : Int) : Nat → List UInt8 → List String
  | _, [] => []
  | index, c :: cs =>
    let s := "[" ++ Numeral.text (index + 1) ++ "]: " ++ Numeral.text c.toNat
    (if index = pointer then highlighted s else s) :: cellLines pointer (index + 1) cs

def counts (f : Frame) : String :=
  "step " ++ Numeral.text f.steps ++ "  ip=" ++ Numeral.zeroPadded 4 f.ip ++ "  ptr=" ++
    Numeral.text f.pointer

/-- The status line, if there is anything to say. -/
def statusLine : Option String → List String
  | none => []
  | some s => if s = "" then [] else [s]

/-- The lines of the view of a program with the given symbols. -/
def view (f : Frame) (symbols : List Char) (output : List UInt8) (status : Option String) :
    List String :=
  [f.code symbols, "", "CELLS:", ""] ++ cellLines f.pointer 0 f.cells ++
    ["", "OUTPUT:", Utf8.decode output, "", f.counts] ++ statusLine status

/-- The whole view, unless an instruction has no symbol. -/
def render (f : Frame) (p : Program) (output : List UInt8) (status : Option String) :
    Except Fault String :=
  p.symbols.map fun symbols => "\n".intercalate (f.view symbols output status)

end Frame
end TapeMachine
