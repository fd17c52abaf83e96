import TapeMachine.Stream.Console

/-! Input that is asked for: bytes of lines typed in answer to a prompt. No byte is lost, handed
out twice or out of order, however reads and lines fall. -/

namespace TapeMachine

/-- An input stream for programs that asks for a line whenever it has run dry. -/
structure PromptedInput where
  console : Console := {}
  prompt : String := "input> "
  buffer : List UInt8 := []
  deriving DecidableEq, Repr

namespace PromptedInput

/-- How much of a buffer a request for `size` bytes cuts off. A negative size leaves that many
bytes behind. -/
def cut (size : Int) (buffer : List UInt8) : Nat :=
  if 0 ≤ size then size.toNat else buffer.length - size.natAbs

def slice (r : PromptedInput) (size : Int) : List UInt8 × PromptedInput :=
  let n := cut size r.buffer
  (r.buffer.take n, { r with buffer := r.buffer.drop n })

/-- A request takes from the front and leaves the rest. -/
theorem slice_append (r : PromptedInput) (size : Int) :
    (r.slice size).1 ++ (r.slice size).2.buffer = r.buffer :=
  List.take_append_drop _ _

/-- Reads up to `size` bytes; none where the typed input has ended. -/
def read (r : PromptedInput) (size : Int) : Except Cause (List UInt8) × PromptedInput :=
  if r.buffer = [] then
    match r.console.ask r.prompt with
    | (.line cs, console) =>
      let typed := Utf8.encode (String.ofList cs) ++ [0x0A]
      let filled := { r with console := console, buffer := typed }
      let (data, r) := filled.slice size
      (.ok data, r)
    | (.ended, console) => (.ok [], { r with console := console })
    | (.interrupted, console) => (.error .interrupt, { r with console := console })
  else
    let (data, r) := r.slice size
    (.ok data, r)

end PromptedInput
end TapeMachine
