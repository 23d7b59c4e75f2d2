import BitLogic.Text.Ranges

/-!
# Control code points

The code points that carry no sign: controls, formats, surrogates and private
ones. Unassigned code points are not among them.

## Main definitions

* `Control.ranges`: The table, as of Unicode 15.0.
* `isControl`: Membership in the table.
-/

namespace BitLogic

namespace Control

/-- Controls, formats, surrogates and private code points. -/
def ranges : Ranges := [
  (0x0000, 0x001F), (0x007F, 0x009F), (0x00AD, 0x00AD), (0x0600, 0x0605),
  (0x061C, 0x061C), (0x06DD, 0x06DD), (0x070F, 0x070F), (0x0890, 0x0891),
  (0x08E2, 0x08E2), (0x180E, 0x180E), (0x200B, 0x200F), (0x202A, 0x202E),
  (0x2060, 0x2064), (0x2066, 0x206F), (0xD800, 0xF8FF), (0xFEFF, 0xFEFF),
  (0xFFF9, 0xFFFB), (0x110BD, 0x110BD), (0x110CD, 0x110CD), (0x13430, 0x1343F),
  (0x1BCA0, 0x1BCA3), (0x1D173, 0x1D17A), (0xE0001, 0xE0001), (0xE0020, 0xE007F),
  (0xF0000, 0xFFFFD), (0x100000, 0x10FFFD)]

end Control

/-- The code point is a control, a format, a surrogate or private. -/
def isControl (c : Nat) : Bool := Control.ranges.has c

end BitLogic
