import BitLogic.Text.Utf8

/-!
# Blanks

White space in the sense of Unicode, which is wider than what separates tokens:
the no-break spaces, the spaces of the general punctuation block and the line and
paragraph separators belong to it too.

## Main definitions

* `isBlank`: The code point is white space.
* `trimBlanks`: A text without the blanks at its two ends.
-/

namespace BitLogic

/-- The code point is white space. -/
def isBlank (c : Nat) : Bool :=
  (9 ≤ c && c ≤ 13) || c == 0x20 || c == 0x85 || c == 0xA0 || c == 0x1680 ||
    (0x2000 ≤ c && c ≤ 0x200A) || c == 0x2028 || c == 0x2029 || c == 0x202F || c == 0x205F ||
    c == 0x3000

/-- How many bytes at the head of the code points are blanks. -/
def blankWidth (rs : List Utf8.CodePoint) : Nat :=
  (rs.takeWhile fun r => isBlank r.code).foldr (fun r n => r.width + n) 0

/-- The text without the blanks at its two ends. -/
def trimBlanks (t : Text) : Text :=
  let rest := t.drop (blankWidth (Utf8.codePoints t))
  rest.take (rest.length - blankWidth (Utf8.codePoints rest).reverse)

end BitLogic
