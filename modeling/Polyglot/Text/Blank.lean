/-!
# Blanks

The characters that Unicode calls `White_Space`, and what is cut off the ends of a text.

* `isBlank`: the blank characters.
* `isInlineBlank`: the blanks that do not end a line. Only the line feed ends one.
* `trim`: a text without the blanks at its two ends.
-/

namespace Polyglot

/-- The characters with the Unicode property `White_Space`. -/
def isBlank (c : Char) : Bool :=
  let n := c.toNat
  (0x09 ≤ n && n ≤ 0x0D) || n == 0x20 || n == 0x85 || n == 0xA0 || n == 0x1680 ||
    (0x2000 ≤ n && n ≤ 0x200A) || n == 0x2028 || n == 0x2029 || n == 0x202F || n == 0x205F ||
    n == 0x3000

/-- A blank that stays on its line. -/
def isInlineBlank (c : Char) : Bool :=
  c != '\n' && isBlank c

/-- The text without the blanks before it and after it. -/
def trim (cs : List Char) : List Char :=
  ((cs.dropWhile isBlank).reverse.dropWhile isBlank).reverse

end Polyglot
