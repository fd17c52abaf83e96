import TapeMachine.Fault
import TapeMachine.Log

/-! Output streams: what was written, which writes fail, and what is left of it all in the end. -/

namespace TapeMachine

structure Output where
  writes : Log UInt8 := {}
  /-- How many writes were tried, failed ones included. -/
  calls : Nat := 0
  /-- What the write of a given number raises, counting from 0. -/
  faultAt : Nat → Option Cause := fun _ => none

namespace Output

def reliable : Output := {}

def closed : Output := { faultAt := fun _ => some .closed }

def written (o : Output) : List UInt8 := o.writes.toList

def write (o : Output) (b : UInt8) : Except Cause Unit × Output :=
  let tried := { o with calls := o.calls + 1 }
  match o.faultAt o.calls with
  | some c => (.error c, tried)
  | none => (.ok (), { tried with writes := o.writes.push b })

/-- A write of one symbol. Trouble with the stream is a failure; anything else that the stream
raises passes through. -/
def writeSymbol (index : Int) (b : UInt8) (o : Output) : Except Fault Unit × Output :=
  match o.write b with
  | (.ok (), o) => (.ok (), o)
  | (.error c, o) =>
    (.error (if c.kind.isStreamFailure then .report ⟨.writeSymbol, none, some c, some index⟩
      else .stream c), o)

/-- Where no write fails, what is written is what was written before and the byte. -/
theorem written_writeSymbol {o : Output} (never : ∀ n, o.faultAt n = none) (index : Int)
    (b : UInt8) :
    (o.writeSymbol index b).1 = .ok () ∧
      (o.writeSymbol index b).2.written = o.written ++ [b] := by
  simp [writeSymbol, write, never, written]

end Output

/-- Where output leads: what each write to it raises, and what stands there of the bytes that were
written when the output has been flushed and closed, with what that raises. -/
structure Sink where
  faultAt : Nat → Option Cause := fun _ => none
  settle : List UInt8 → List UInt8 × Option Cause := fun bytes => (bytes, none)

namespace Sink

/-- The output that leads to the sink. -/
def output (s : Sink) : Output := { faultAt := s.faultAt }

/-- Writes bytes all at once: those that are taken, and what the write raises. -/
def take (s : Sink) (bytes : List UInt8) : List UInt8 × Option Cause :=
  match s.faultAt 0 with
  | none => (bytes, none)
  | some c => ([], some c)

/-- To flush and close the output loses nothing and raises nothing. -/
def Keeps (s : Sink) : Prop := ∀ bytes, s.settle bytes = (bytes, none)

end Sink
end TapeMachine
