import TapeMachine.Text.Blank
import TapeMachine.Text.Digit

/-! Reading decimal numbers: a sign, digits with at most one point, an exponent of ten; or a word
for infinity or for no number. Digits of any script count, underscores may stand between digits,
and blanks around. -/

namespace TapeMachine.Decimal

/-- The blanks that may stand around a number. -/
def isMargin (c : Char) : Bool := c = ' ' || ('\t' ≤ c && c ≤ '\r')

/-- The text in the common alphabet. Only a text beyond it has its blanks and digits
rewritten. -/
def common (cs : List Char) : List Char :=
  if cs.all fun c => c.toNat < 0x80 then cs
  else cs.map fun c => if c.toNat < 0x7F then c else if isBlank c then ' ' else commonDigit c

def trimMargin (cs : List Char) : List Char :=
  ((cs.dropWhile isMargin).reverse.dropWhile isMargin).reverse

/-- The text without its underscores, if each stands between two digits. The first argument is
the character before. -/
def joined? : Char → List Char → Option (List Char)
  | last, [] => if last = '_' then none else some []
  | last, c :: cs =>
    if c = '_' then if last.isDigit then joined? c cs else none
    else if last = '_' && !c.isDigit then none
    else (joined? c cs).map (c :: ·)

def natOf (ds : List Char) : Nat := ds.foldl (fun n d => 10 * n + (d.toNat - 0x30)) 0

/-- The sign in front of a text: whether it is negative, and the rest. -/
def splitSign : List Char → Bool × List Char
  | '-' :: cs => (true, cs)
  | '+' :: cs => (false, cs)
  | cs => (false, cs)

/-- An exponent of ten at the end of a numeral; none where there is something else. -/
def exponent? : List Char → Option Int
  | [] => some 0
  | e :: cs =>
    if e = 'e' || e = 'E' then
      let (negative, ds) := splitSign cs
      if ds ≠ [] && ds.all Char.isDigit then
        some (if negative then -(natOf ds : Int) else natOf ds)
      else none
    else none

/-- The number nearest to a mantissa of the given digits times ten to the `power`. Powers that
lead beyond all numbers, or below all, are not computed. -/
def scaled (ds : List Char) (power : Int) : Float :=
  let significant := ds.dropWhile (· = '0')
  let magnitude := power + significant.length
  if significant = [] || magnitude < -400 then 0
  else if 400 < magnitude then 1 / 0
  else Float.ofScientific (natOf significant) (power < 0) power.natAbs

/-- An unsigned numeral: digits with at most one point, at least one digit, and an exponent. -/
def magnitude? (cs : List Char) : Option Float :=
  let whole := cs.takeWhile Char.isDigit
  let (fraction, tail) :=
    match cs.dropWhile Char.isDigit with
    | '.' :: after => (after.takeWhile Char.isDigit, after.dropWhile Char.isDigit)
    | after => ([], after)
  if whole = [] ∧ fraction = [] then none
  else (exponent? tail).map fun e => scaled (whole ++ fraction) (e - fraction.length)

def unsigned? (cs : List Char) : Option Float :=
  let word := cs.map Char.toLower
  if word = "inf".toList || word = "infinity".toList then some (1 / 0)
  else if word = "nan".toList then some (0 / 0)
  else magnitude? cs

/-- The number that a text stands for. -/
def read? (s : String) : Option Float :=
  (joined? ' ' (trimMargin (common s.toList))).bind fun cs =>
    let (negative, cs) := splitSign cs
    (unsigned? cs).map fun x => if negative then -x else x

end TapeMachine.Decimal
