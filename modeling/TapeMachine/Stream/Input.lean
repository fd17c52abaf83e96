import TapeMachine.Stream.Prompted

/-! Input streams, read one symbol at a time. -/

namespace TapeMachine

/-- What a scripted stream hands out at one read. -/
inductive Chunk where
  | bytes (bs : List UInt8)
  | text (s : String)
  | fault (c : Cause)
  deriving DecidableEq, Repr

inductive Input where
  /-- Bytes in order, and what is met behind them. -/
  | bytes (rest : List UInt8) (atEnd : StreamEnd)
  /-- One chunk a read, then the end. -/
  | script (chunks : List Chunk)
  | closed
  | prompted (reader : PromptedInput)
  deriving DecidableEq, Repr

namespace Input

def ofBytes (bs : List UInt8) : Input := .bytes bs .ended

/-- One read: the bytes it delivers, none at the end, or what it raises. Text is delivered as
UTF-8. -/
def read : Input → Except Cause (List UInt8) × Input
  | bytes [] .ended => (.ok [], .bytes [] .ended)
  | bytes [] .interrupted => (.error .interrupt, .bytes [] .interrupted)
  | bytes (b :: rest) atEnd => (.ok [b], .bytes rest atEnd)
  | script [] => (.ok [], .script [])
  | script (.bytes bs :: rest) => (.ok bs, .script rest)
  | script (.text s :: rest) => (.ok (Utf8.encode s), .script rest)
  | script (.fault c :: rest) => (.error c, .script rest)
  | closed => (.error .closed, .closed)
  | prompted reader =>
    let (r, reader) := reader.read 1
    (r, .prompted reader)

/-- A read of one symbol: the first byte delivered. Nothing delivered is a failure, and so is
trouble with the stream; anything else that the stream raises passes through. -/
def readSymbol (index : Int) (i : Input) : Except Fault UInt8 × Input :=
  match i.read with
  | (.ok (b :: _), i) => (.ok b, i)
  | (.ok [], i) => (.error (.report ⟨.readSymbol, none, some .endOfInput, some index⟩), i)
  | (.error c, i) =>
    (.error (if c.kind.isStreamFailure then .report ⟨.readSymbol, none, some c, some index⟩
      else .stream c), i)

@[simp] theorem readSymbol_cons (index : Int) (b : UInt8) (rest : List UInt8) (e : StreamEnd) :
    (bytes (b :: rest) e).readSymbol index = (.ok b, bytes rest e) := rfl

@[simp] theorem readSymbol_nil (index : Int) :
    (bytes [] .ended).readSymbol index =
      (.error (.report ⟨.readSymbol, none, some .endOfInput, some index⟩), bytes [] .ended) := rfl

end Input
end TapeMachine
