import TapeMachine.Program.Op
import TapeMachine.Stream.Input
import TapeMachine.Stream.Output
import TapeMachine.Tape

/-! The part of a machine that instructions act on, and what each of them does to it. -/

namespace TapeMachine

/-- Tape, streams, and the index of the next instruction. A jump along an unlinked loop leaves
no index at all. -/
structure Config where
  tape : Tape := .blank
  ip : Option Int := some 0
  input : Input := .ofBytes []
  output : Output := {}

namespace Config

def jump (c : Config) (target : Option Int) : Config := { c with ip := target }

def moveLeft (c : Config) (index : Int) : Except Fault Unit × Config :=
  match c.tape.moveLeft? with
  | none => (.error (.report ⟨.pointerUnderflow, none, none, some index⟩), c)
  | some tape => (.ok (), { c with tape := tape })

def readSymbol (c : Config) (index : Int) : Except Fault Unit × Config :=
  match c.input.readSymbol index with
  | (.error f, input) => (.error f, { c with input := input })
  | (.ok b, input) => (.ok (), { c with tape := c.tape.write b, input := input })

def writeSymbol (c : Config) (index : Int) : Except Fault Unit × Config :=
  let (r, output) := c.output.writeSymbol index c.tape.cell
  (r, { c with output := output })

/-- Carries out one operation. The index only serves to report where it failed. -/
def perform (c : Config) (o : Op) (target : Option Int) (index : Int) :
    Except Fault Unit × Config :=
  match o with
  | .moveRight => (.ok (), { c with tape := c.tape.moveRight })
  | .moveLeft => c.moveLeft index
  | .increment => (.ok (), { c with tape := c.tape.increment })
  | .decrement => (.ok (), { c with tape := c.tape.decrement })
  | .loopStart => (.ok (), if c.tape.cell = 0 then c.jump target else c)
  | .loopEnd => (.ok (), if c.tape.cell = 0 then c else c.jump target)
  | .output => c.writeSymbol index
  | .input => c.readSymbol index

def execute (c : Config) (i : Instruction) (index : Int) : Except Fault Unit × Config :=
  match i.opcode with
  | .unknown name => (.error (.unknownOpcode name), c)
  | .op o => c.perform o i.target index

end Config
end TapeMachine
