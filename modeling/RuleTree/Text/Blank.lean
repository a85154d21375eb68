/-!
# Blank characters

The characters that count as white space, and a text without those at its ends.
-/

namespace RuleTree.Text

/-- White space of any script: controls 9 to 13 and 28 to 31, the spaces, and the separators of lines and
paragraphs. -/
def isBlank (c : Char) : Bool :=
  let n := c.toNat
  (9 ≤ n && n ≤ 13) || (28 ≤ n && n ≤ 32) || n == 0x85 || n == 0xa0 || n == 0x1680
    || (0x2000 ≤ n && n ≤ 0x200a) || n == 0x2028 || n == 0x2029 || n == 0x202f || n == 0x205f || n == 0x3000

/-- The text without blanks at either end. -/
def strip (cs : List Char) : List Char :=
  ((cs.dropWhile isBlank).reverse.dropWhile isBlank).reverse

end RuleTree.Text
