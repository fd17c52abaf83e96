import TapeMachine.Fault
import TapeMachine.Text.Utf8

/-! Where source text comes from. -/

namespace TapeMachine

inductive Source where
  | bytes (bs : List UInt8)
  | text (s : String)
  /-- A reader that fails when it is asked. -/
  | failing (c : Cause)
  deriving DecidableEq, Repr

/-- The bytes of a source. Trouble that the system reports while reading is a compilation
failure; any other passes through. -/
def Source.read : Source → Except Fault (List UInt8)
  | bytes bs => .ok bs
  | text s => .ok (Utf8.encode s)
  | failing c =>
    .error (if c.kind.isSystem then .report ⟨.compilation, none, some c, none⟩ else .stream c)

end TapeMachine
