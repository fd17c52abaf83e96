import TapeMachine.Program.Op

/-! Scanning source bytes for operations. All other bytes are commentary, but lines and columns
count every byte. -/

namespace TapeMachine

/-- How far scanning has come: bytes passed, and line and column of the next byte. -/
structure Place where
  pos : Nat := 0
  line : Nat := 1
  column : Nat := 1
  deriving DecidableEq, Repr

namespace Place

/-- The place after a byte. A line feed starts a line. -/
def past (p : Place) (b : UInt8) : Place :=
  if b = 0x0A then ⟨p.pos + 1, p.line + 1, 1⟩ else ⟨p.pos + 1, p.line, p.column + 1⟩

/-- The place one further, where the bytes have ended. -/
def pastEnd (p : Place) : Place := ⟨p.pos + 1, p.line, p.column + 1⟩

end Place

/-- An operation, or the end of the bytes, where it stands. -/
structure Token where
  op : Option Op
  line : Nat
  column : Nat
  deriving DecidableEq, Repr

namespace Token

def ofOp (o : Op) (p : Place) : Token := ⟨some o, p.line, p.column⟩

def theEnd (p : Place) : Token := ⟨none, p.line, p.column⟩

/-- The kind of the token: the symbol of its operation, or a word for the end. -/
def kind (t : Token) : String :=
  match t.op with
  | some o => String.singleton o.symbol
  | none => "EOF"

def value (t : Token) : Option UInt8 := t.op.map Op.byte

def text (t : Token) : String :=
  match t.value with
  | some b => t.kind ++ "(" ++ Numeral.text b.toNat ++ ")"
  | none => t.kind

end Token

/-- The bytes not scanned yet, and the place of the first of them. -/
structure Scanner where
  rest : List UInt8
  place : Place := {}
  deriving DecidableEq, Repr

namespace Scanner

def ofBytes (bytes : List UInt8) : Scanner := ⟨bytes, {}⟩

def current? (s : Scanner) : Option UInt8 := s.rest.head?

/-- Moves past the current byte; at the end only the place moves. -/
def advance (s : Scanner) : Scanner :=
  match s.rest with
  | [] => ⟨[], s.place.pastEnd⟩
  | b :: rest => ⟨rest, s.place.past b⟩

/-- What is left after the commentary that `bytes` starts with. -/
def skipFrom : List UInt8 → Place → Scanner
  | [], p => ⟨[], p⟩
  | b :: rest, p =>
    match Op.ofByte? b with
    | some _ => ⟨b :: rest, p⟩
    | none => skipFrom rest (p.past b)

def skipCommentary (s : Scanner) : Scanner := skipFrom s.rest s.place

/-- The token at a scanner that stands at an operation or at the end. The end is never
passed. -/
def take (s : Scanner) : Token × Scanner :=
  match s.rest with
  | [] => (.theEnd s.place, s)
  | b :: _ => (⟨Op.ofByte? b, s.place.line, s.place.column⟩, s.advance)

def next (s : Scanner) : Token × Scanner := s.skipCommentary.take

def tokensFrom : List UInt8 → Place → List Token
  | [], p => [.theEnd p]
  | b :: rest, p =>
    match Op.ofByte? b with
    | some o => .ofOp o p :: tokensFrom rest (p.past b)
    | none => tokensFrom rest (p.past b)

/-- All tokens from here on, the end included. -/
def tokens (s : Scanner) : List Token := tokensFrom s.rest s.place

/-- The scanner once all tokens have been taken. -/
def finish (s : Scanner) : Scanner := ⟨[], s.rest.foldl Place.past s.place⟩

end Scanner
end TapeMachine
