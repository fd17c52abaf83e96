import TapeMachine.Text.Printable

/-! Text between quotes, on one line and with every invisible character escaped. -/

namespace TapeMachine.Quoted

/-- The lower-case hexadecimal numeral of `n`, of at least `width` digits. -/
def hex (width n : Nat) : List Char :=
  let ds := Nat.toDigits 16 n
  List.replicate (width - ds.length) '0' ++ ds

/-- The quote that needs no escape: the double one only where the text holds the single one
and not the double one. -/
def quoteOf (cs : List Char) : Char :=
  if cs.contains '\'' && !cs.contains '"' then '"' else '\''

def escape (quote c : Char) : List Char :=
  if c = quote || c = '\\' then ['\\', c]
  else if c = '\n' then ['\\', 'n']
  else if c = '\r' then ['\\', 'r']
  else if c = '\t' then ['\\', 't']
  else if isPrintable c then [c]
  else if c.toNat < 0x100 then '\\' :: 'x' :: hex 2 c.toNat
  else if c.toNat < 0x10000 then '\\' :: 'u' :: hex 4 c.toNat
  else '\\' :: 'U' :: hex 8 c.toNat

def quoted (s : String) : String :=
  let q := quoteOf s.toList
  String.ofList (q :: (s.toList.flatMap (escape q) ++ [q]))

example : quoted "NOPE" = "'NOPE'" ∧ quoted "it's" = "\"it's\"" := by decide

example : quoted "a\n\x01" = "'a\\n\\x01'" := by decide

end TapeMachine.Quoted
