/-!
# Machine words

Lengths, levels and the numbers of a source are kept in words of 64 bits. A signed
word that would leave its range wraps around.

## Main definitions

* `Word.size`, `Word.half`: How many words there are, and how many of them are not
  negative.
* `Word.wrap`: The signed word of an integer.
* `Word.fits`: The integer is a signed word already.
-/

namespace BitLogic

namespace Word

/-- How many words of 64 bits there are. -/
def size : Nat := 18446744073709551616

/-- How many signed words are not negative. -/
def half : Nat := 9223372036854775808

/-- The signed word that an integer wraps around to. -/
def wrap (i : Int) : Int := Int.bmod i size

/-- The integer is a signed word. -/
def fits (i : Int) : Bool := -(half : Int) ≤ i && i < half

end Word

end BitLogic
