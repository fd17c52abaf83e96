/-! Decimal numerals and columns of fixed least width. -/

namespace TapeMachine.Numeral

def digits (n : Nat) : List Char := Nat.toDigits 10 n

def sign (i : Int) : List Char := if i < 0 then ['-'] else []

/-- The shortest decimal numeral of an integer. -/
def text (i : Int) : String := String.ofList (sign i ++ digits i.natAbs)

/-- A numeral of at least `width` characters, the sign counted, filled with zeros after the
sign. -/
def zeroPadded (width : Nat) (i : Int) : String :=
  let ds := digits i.natAbs
  let fill := width - (sign i).length - ds.length
  String.ofList (sign i ++ List.replicate fill '0' ++ ds)

/-- Text filled with blanks on its right to at least `width` characters. -/
def padRight (width : Nat) (s : String) : String :=
  s ++ String.ofList (List.replicate (width - s.length) ' ')

example : zeroPadded 4 7 = "0007" ∧ zeroPadded 4 (-1) = "-001" ∧ zeroPadded 4 12345 = "12345" := by
  decide

example : padRight 3 "ab" = "ab " ∧ padRight 3 "abcd" = "abcd" := by decide

end TapeMachine.Numeral
