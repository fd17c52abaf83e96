import TapeMachine.Fault
import TapeMachine.Log
import TapeMachine.Text.Utf8

/-! The console: lines of text typed in, answers shown. -/

namespace TapeMachine

/-- What is met where the typed input stops: its end, or an interrupt from the keyboard. -/
inductive StreamEnd where
  | ended | interrupted
  deriving DecidableEq, Repr

/-- The text typed but not read yet, what follows it, and everything shown so far. -/
structure Console where
  pending : List Char := []
  atEnd : StreamEnd := .ended
  shown : Log String := {}
  deriving DecidableEq, Repr

/-- What comes of asking for a line. -/
inductive LineAnswer where
  | line (cs : List Char)
  | ended
  | interrupted
  deriving DecidableEq, Repr

namespace Console

/-- The first line of a text without its ending, and what follows the ending if there is one. A
line ends with a line feed, a carriage return, or the two in this order; a carriage return at the
very end is an ending only if the text is `complete`. -/
def firstLine (complete : Bool) : List Char → List Char × Option (List Char)
  | [] => ([], none)
  | '\n' :: rest => ([], some rest)
  | '\r' :: '\n' :: rest => ([], some rest)
  | ['\r'] => ([], if complete then some [] else none)
  | '\r' :: rest => ([], some rest)
  | c :: rest =>
    let (line, after) := firstLine complete rest
    (c :: line, after)

def put (c : Console) (text : String) : Console := { c with shown := c.shown.push text }

/-- Shows a prompt and reads the line typed in answer. A last line may lack its ending, unless
the input stops in an interrupt. -/
def ask (c : Console) (prompt : String) : LineAnswer × Console :=
  let c := c.put prompt
  match firstLine (c.atEnd = .ended) c.pending with
  | (line, some rest) => (.line line, { c with pending := rest })
  | (line, none) =>
    match c.atEnd with
    | .interrupted => (.interrupted, c)
    | .ended => if c.pending = [] then (.ended, c) else (.line line, { c with pending := [] })

/-- All that was shown, in one piece. -/
def screen (c : Console) : String := String.join c.shown.toList

end Console

end TapeMachine
