import TapeMachine.Fault

/-! The operations of the language and the instructions made of them. -/

namespace TapeMachine

inductive Op where
  | moveRight | moveLeft | increment | decrement | loopStart | loopEnd | output | input
  deriving DecidableEq, Repr

namespace Op

def all : List Op :=
  [moveRight, moveLeft, increment, decrement, loopStart, loopEnd, output, input]

theorem mem_all (o : Op) : o ∈ all := by cases o <;> decide

def name : Op → String
  | moveRight => "MOVE_RIGHT"
  | moveLeft => "MOVE_LEFT"
  | increment => "INCREMENT"
  | decrement => "DECREMENT"
  | loopStart => "LOOP_START"
  | loopEnd => "LOOP_END"
  | output => "OUTPUT"
  | input => "INPUT"

/-- The byte that stands for the operation in source text. -/
def byte : Op → UInt8
  | moveRight => 0x3E
  | moveLeft => 0x3C
  | increment => 0x2B
  | decrement => 0x2D
  | loopStart => 0x5B
  | loopEnd => 0x5D
  | output => 0x2E
  | input => 0x2C

def symbol (o : Op) : Char := Char.ofNat o.byte.toNat

/-- The operation that a byte of source text stands for. Every other byte is commentary. -/
def ofByte? (b : UInt8) : Option Op := all.find? (·.byte == b)

def ofName? (s : String) : Option Op := all.find? (·.name == s)

@[simp] theorem ofByte?_byte (o : Op) : ofByte? o.byte = some o := by cases o <;> rfl

theorem byte_of_ofByte? {b : UInt8} {o : Op} (h : ofByte? b = some o) : o.byte = b := by
  simpa using List.find?_some h

end Op

/-- What an instruction says to do: one of the operations, or a name that is none of theirs,
which only shows when the instruction is executed or displayed. -/
inductive Opcode where
  | op (o : Op)
  | unknown (name : String)
  deriving DecidableEq, Repr

namespace Opcode

def ofName (s : String) : Opcode :=
  match Op.ofName? s with
  | some o => .op o
  | none => .unknown s

def name : Opcode → String
  | op o => o.name
  | unknown s => s

@[simp] theorem ofName_name (o : Op) : ofName o.name = op o := by cases o <;> decide

end Opcode

/-- An opcode with, for the two loop operations, the index to jump to. -/
structure Instruction where
  opcode : Opcode
  target : Option Int := none
  deriving DecidableEq, Repr

namespace Instruction

def symbol (i : Instruction) : Except Fault Char :=
  match i.opcode with
  | .op o => .ok o.symbol
  | .unknown name => .error (.noSymbol name)

/-- Where a loop ends. -/
def endIndex (i : Instruction) : Except Fault (Option Int) :=
  if i.opcode = .op .loopStart then .ok i.target else .error (.noEndIndex i.opcode.name)

/-- Where a loop starts. -/
def startIndex (i : Instruction) : Except Fault (Option Int) :=
  if i.opcode = .op .loopEnd then .ok i.target else .error (.noStartIndex i.opcode.name)

/-- The symbol, with an arrow to the target if there is one. -/
def text (i : Instruction) : Except Fault String :=
  i.symbol.map fun c =>
    match i.target with
    | none => String.singleton c
    | some t => String.singleton c ++ " -> " ++ Numeral.text t

end Instruction
end TapeMachine
