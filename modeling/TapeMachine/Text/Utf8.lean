/-! UTF-8. Reading is lossy: each maximal part of the bytes that starts no character, or starts
one that is broken off, reads as one U+FFFD. -/

namespace TapeMachine.Utf8

def encode (s : String) : List UInt8 := s.toList.flatMap String.utf8EncodeChar

@[simp] theorem encode_empty : encode "" = [] := rfl

theorem encode_append (s t : String) : encode (s ++ t) = encode s ++ encode t := by
  simp [encode]

/-- What stands for bytes that are no character. -/
def replacement : Char := '\uFFFD'

/-- A character begun: its bits so far, the number of bytes still to come, and the range the
next of them must lie in. The range excludes overlong forms, surrogates and what lies beyond
U+10FFFF, all of which show at the second byte. -/
structure Begun where
  bits : Nat
  missing : Nat
  low : UInt8
  high : UInt8
  deriving DecidableEq, Repr

inductive Start where
  | char (c : Char)
  | lead (begun : Begun)
  | stray
  deriving DecidableEq, Repr

/-- What a byte means where a character may start. -/
def start (b : UInt8) : Start :=
  if b < 0x80 then .char (Char.ofNat b.toNat)
  else if b < 0xC2 then .stray
  else if b < 0xE0 then .lead ⟨b.toNat - 0xC0, 1, 0x80, 0xBF⟩
  else if b < 0xF0 then
    .lead ⟨b.toNat - 0xE0, 2, if b = 0xE0 then 0xA0 else 0x80, if b = 0xED then 0x9F else 0xBF⟩
  else if b < 0xF5 then
    .lead ⟨b.toNat - 0xF0, 3, if b = 0xF0 then 0x90 else 0x80, if b = 0xF4 then 0x8F else 0xBF⟩
  else .stray

/-- The characters of `bytes`, a character having been begun or not. A byte that breaks a
character off is read again as a start. -/
def decodeFrom : Option Begun → List UInt8 → List Char
  | none, [] => []
  | some _, [] => [replacement]
  | none, b :: bytes =>
    match start b with
    | .char c => c :: decodeFrom none bytes
    | .lead begun => decodeFrom (some begun) bytes
    | .stray => replacement :: decodeFrom none bytes
  | some begun, b :: bytes =>
    if begun.low ≤ b ∧ b ≤ begun.high then
      let bits := begun.bits * 64 + (b.toNat - 0x80)
      if begun.missing ≤ 1 then Char.ofNat bits :: decodeFrom none bytes
      else decodeFrom (some ⟨bits, begun.missing - 1, 0x80, 0xBF⟩) bytes
    else
      match start b with
      | .char c => replacement :: c :: decodeFrom none bytes
      | .lead again => replacement :: decodeFrom (some again) bytes
      | .stray => replacement :: replacement :: decodeFrom none bytes

def decode (bytes : List UInt8) : String := String.ofList (decodeFrom none bytes)

/-! A character whole, a surrogate, an overlong form, and a character broken off. -/

example : decodeFrom none [0xC3, 0xA9] = ['é'] := by decide

example : decodeFrom none [0xED, 0xA0, 0x80] = [replacement, replacement, replacement] := by decide

example : decodeFrom none [0xE0, 0x80] = [replacement, replacement] := by decide

example : decodeFrom none [0xF0, 0x9F, 0x41] = [replacement, 'A'] := by decide

end TapeMachine.Utf8
