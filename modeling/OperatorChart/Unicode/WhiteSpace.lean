/-!
# White space

The property White_Space. It holds more than the space and the tab that indent a line, and
less than "invisible": U+200B and U+FEFF are not in it.
-/

namespace OperatorChart.Unicode

def isWhiteSpace (c : Char) : Bool :=
  let code := c.toNat
  (9 ≤ code && code ≤ 13) || code == 0x20 || code == 0x85 || code == 0xA0 || code == 0x1680 ||
    (0x2000 ≤ code && code ≤ 0x200A) || code == 0x2028 || code == 0x2029 || code == 0x202F ||
    code == 0x205F || code == 0x3000

end OperatorChart.Unicode
