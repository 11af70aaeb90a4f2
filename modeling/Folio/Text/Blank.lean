/-
# White space

The `White_Space` property of Unicode, twenty-five code points in all, and what is done with it:
trimming a text at both ends, and dropping every blank from a text.
-/

namespace Folio.Text

/-- **A blank**: a code point with the property `White_Space`. -/
def isBlank (c : Char) : Bool :=
  let n := c.toNat
  (9 ≤ n && n ≤ 13) || n == 0x20 || n == 0x85 || n == 0xA0 || n == 0x1680 ||
    (0x2000 ≤ n && n ≤ 0x200A) || n == 0x2028 || n == 0x2029 || n == 0x202F ||
    n == 0x205F || n == 0x3000

/-- The characters without the blanks at their end. -/
def trimEnd (cs : List Char) : List Char :=
  (cs.reverse.dropWhile isBlank).reverse

/-- The characters without the blanks at either end. -/
def trim (cs : List Char) : List Char :=
  trimEnd (cs.dropWhile isBlank)

/-- The characters without any blank. -/
def withoutBlanks (cs : List Char) : List Char :=
  cs.filter fun c => !isBlank c

end Folio.Text
