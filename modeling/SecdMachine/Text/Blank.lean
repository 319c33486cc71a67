/-!
# SecdMachine.Text.Blank

The white-space characters that separate words and surround statements: the
characters with the Unicode property `White_Space`.  Zero-width spaces and
the byte-order mark do not have that property and count as ordinary
characters.
-/

namespace SecdMachine.Text

/-- Whether a character is white space: the controls from tab to carriage
return, the space, next-line, and the spaces and separators beyond ASCII. -/
def isBlank (c : Char) : Bool :=
  let n := c.toNat
  (9 ≤ n && n ≤ 13) || n == 0x20 || n == 0x85 || n == 0xA0 || n == 0x1680 ||
    (0x2000 ≤ n && n ≤ 0x200A) || n == 0x2028 || n == 0x2029 || n == 0x202F ||
    n == 0x205F || n == 0x3000

end SecdMachine.Text
