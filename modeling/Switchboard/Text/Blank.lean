/-!
# Blank Characters

Which characters count as blank at the ends of a summary, and their removal.

The set is the one Unicode calls `White_Space`. It is neither what can be seen
nor what a keyboard calls space: the zero-width characters are not in it, nor
are the four information separators, and the two-byte next-line control is.

## Main definitions

* `isBlank`: The character class.
* `trimBlank`: A text without the blanks at its ends.
-/

namespace Switchboard

/-- The ranges of code points that are blank, ends included. -/
def blankRanges : List (Nat × Nat) :=
  [(0x0009, 0x000D), (0x0020, 0x0020), (0x0085, 0x0085), (0x00A0, 0x00A0), (0x1680, 0x1680),
   (0x2000, 0x200A), (0x2028, 0x2029), (0x202F, 0x202F), (0x205F, 0x205F), (0x3000, 0x3000)]

/-- Whether a character is blank. -/
def isBlank (c : Char) : Bool :=
  blankRanges.any fun range => range.1 ≤ c.toNat && c.toNat ≤ range.2

/-- The characters from the first that is not blank to the last. -/
def trimBlank (cs : List Char) : List Char :=
  ((cs.dropWhile isBlank).reverse.dropWhile isBlank).reverse

end Switchboard
