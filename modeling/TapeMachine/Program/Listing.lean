import TapeMachine.Program.Basic

/-! The listing of a program: one line an instruction, with its index, its text and its place. -/

namespace TapeMachine.Listing

def header : String := "INSTRUCTIONS:\n"

/-- Line and column, or question marks. -/
def place : Option Location → String
  | some l => Numeral.text l.line ++ ":" ++ Numeral.text l.column
  | none => "?:?"

def line (index : Nat) (text : String) (loc : Option Location) : String :=
  "  " ++ Numeral.zeroPadded 4 index ++ "  " ++ Numeral.padRight 10 text ++ "  " ++
    place loc ++ "\n"

/-- The lines of entries whose first has the given index, up to one that has no text. -/
def lines : Nat → List Entry → List String × Option Fault
  | _, [] => ([], none)
  | index, e :: es =>
    match e.instruction.text with
    | .error f => ([], some f)
    | .ok text =>
      let (rest, fault) := lines (index + 1) es
      (line index text e.location :: rest, fault)

/-- What is listed, and what cut it short. -/
def ofProgram (p : Program) : String × Option Fault :=
  let (ls, fault) := lines 0 p.entries.toList
  (String.join (header :: ls), fault)

end TapeMachine.Listing
