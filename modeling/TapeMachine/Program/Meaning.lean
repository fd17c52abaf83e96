import TapeMachine.Program.Block

/-! What a block means, without an index to the next instruction and without jumps: an action
changes a store, and a loop repeats its body while the cell under the pointer is not zero. -/

namespace TapeMachine

/-- Cells, a pointer to one of them, bytes still to be read, and bytes written. -/
structure Store where
  cells : List UInt8 := [0]
  pointer : Nat := 0
  input : List UInt8 := []
  output : List UInt8 := []
  deriving DecidableEq, Repr

/-- Why an action cannot be carried out. -/
inductive Obstacle where
  | leftEnd | endOfInput
  deriving DecidableEq, Repr

namespace Store

def cell (s : Store) : UInt8 := s.cells.getD s.pointer 0

def set (s : Store) (b : UInt8) : Store := { s with cells := s.cells.set s.pointer b }

def perform (s : Store) : Action → Except Obstacle Store
  | .moveRight =>
    .ok { s with
      pointer := s.pointer + 1
      cells := if s.pointer + 1 = s.cells.length then s.cells ++ [0] else s.cells }
  | .moveLeft => if s.pointer = 0 then .error .leftEnd else .ok { s with pointer := s.pointer - 1 }
  | .increment => .ok (s.set (s.cell + 1))
  | .decrement => .ok (s.set (s.cell - 1))
  | .output => .ok { s with output := s.output ++ [s.cell] }
  | .input =>
    match s.input with
    | [] => .error .endOfInput
    | b :: rest => .ok { s.set b with input := rest }

end Store

/-- How a block comes out: with a store and the number of instructions it took, or stopped at
the operation of a given index. -/
inductive Meaning where
  | finished (s : Store) (cost : Nat)
  | stopped (why : Obstacle) (index : Nat) (s : Store)
  deriving DecidableEq, Repr

namespace Meaning

/-- What follows, after `cost` instructions more. -/
def after (cost : Nat) : Meaning → Meaning
  | finished s n => finished s (cost + n)
  | stopped why index s => stopped why index s

end Meaning

namespace Block

/-- The meaning of a block whose first operation has the given index, if `fuel` is enough for the
longest chain of actions and rounds. A round of a loop costs its body and both brackets; a loop
that is not entered costs its brackets. -/
def eval : Nat → Block → Nat → Store → Option Meaning
  | 0, _, _, _ => none
  | _ + 1, done, _, s => some (.finished s 0)
  | fuel + 1, act a rest, index, s =>
    match s.perform a with
    | .error why => some (.stopped why index s)
    | .ok s => (eval fuel rest (index + 1) s).map (.after 1)
  | fuel + 1, loop body rest, index, s =>
    if s.cell = 0 then (eval fuel rest (index + body.size + 2) s).map (.after 2)
    else
      match eval fuel body (index + 1) s with
      | none => none
      | some (.stopped why index s) => some (.stopped why index s)
      | some (.finished s cost) =>
        if s.cell = 0 then (eval fuel rest (index + body.size + 2) s).map (.after (cost + 2))
        else (eval fuel (loop body rest) index s).map (.after (cost + 2))

end Block
end TapeMachine
