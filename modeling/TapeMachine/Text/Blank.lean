/-! Blank characters: Unicode's white space together with the four information separators
U+001C to U+001F. -/

namespace TapeMachine

def isBlank (c : Char) : Bool :=
  let n := c.toNat
  (0x09 ≤ n && n ≤ 0x0D) || (0x1C ≤ n && n ≤ 0x20) || n == 0x85 || n == 0xA0 || n == 0x1680 ||
  (0x2000 ≤ n && n ≤ 0x200A) || n == 0x2028 || n == 0x2029 || n == 0x202F || n == 0x205F ||
  n == 0x3000

namespace Blank

/-- A list without the blanks it starts and ends with. -/
def trim (cs : List Char) : List Char :=
  ((cs.dropWhile isBlank).reverse.dropWhile isBlank).reverse

example : trim " \t:q\x1c\n".toList = ":q".toList := by decide

end Blank
end TapeMachine
