import BitLogic.Text.Basic

/-!
# Code points

Reading a text as UTF-8, one code point at a time, without ever failing: where the
bytes are no UTF-8, a single byte is read as the replacement character U+FFFD. A
text is therefore always a sequence of code points, and their widths add up to its
length.

## Main definitions

* `Utf8.CodePoint`: A code point with the number of bytes it was read from.
* `Utf8.decode`: The code point at the head of a non-empty text.
* `Utf8.codePoints`: The code points of a whole text.
* `Utf8.encode`: The bytes of a code point.
* `Utf8.valid`: No byte of the text had to be replaced.
* `Utf8.chars?`, `Utf8.ofChars`: A valid text as characters, and the way back.
-/

namespace BitLogic

namespace Utf8

/-- A code point together with the number of bytes it takes in the text. -/
structure CodePoint where
  code : Nat
  width : Nat
  deriving Repr, DecidableEq, Inhabited

/-- The code point that stands for what cannot be read or written. -/
def replacement : Nat := 0xFFFD

/-- A byte that can be read neither alone nor with its successors. -/
def CodePoint.broken : CodePoint := ⟨replacement, 1⟩

/-- A code point that is neither a surrogate nor above the last plane. -/
def isScalar (c : Nat) : Bool := c < 0xD800 || (0xDFFF < c && c ≤ 0x10FFFF)

/-- A byte that continues a sequence. -/
def isTail (b : UInt8) : Bool := 0x80 ≤ b && b ≤ 0xBF

/-- The bytes that may stand second after a given first byte of three or four. The
    bounds keep out overlong forms, surrogates and values past the last plane. -/
def secondFits (first second : UInt8) : Bool :=
  if first = 0xE0 then 0xA0 ≤ second && second ≤ 0xBF
  else if first = 0xED then 0x80 ≤ second && second ≤ 0x9F
  else if first = 0xF0 then 0x90 ≤ second && second ≤ 0xBF
  else if first = 0xF4 then 0x80 ≤ second && second ≤ 0x8F
  else isTail second

/-- The low six bits of a continuation byte. -/
def tailBits (b : UInt8) : Nat := b.toNat % 64

/-- The code point that starts with the byte `b`, the bytes behind it being `rest`. -/
def decode (b : UInt8) (rest : Text) : CodePoint :=
  if b < 0x80 then ⟨b.toNat, 1⟩
  else if 0xC2 ≤ b && b ≤ 0xDF then
    match rest with
    | b1 :: _ => if isTail b1 then ⟨(b.toNat % 32) * 64 + tailBits b1, 2⟩ else .broken
    | [] => .broken
  else if 0xE0 ≤ b && b ≤ 0xEF then
    match rest with
    | b1 :: b2 :: _ =>
      if secondFits b b1 && isTail b2 then
        ⟨(b.toNat % 16) * 4096 + tailBits b1 * 64 + tailBits b2, 3⟩
      else .broken
    | _ => .broken
  else if 0xF0 ≤ b && b ≤ 0xF4 then
    match rest with
    | b1 :: b2 :: b3 :: _ =>
      if secondFits b b1 && isTail b2 && isTail b3 then
        ⟨(b.toNat % 8) * 262144 + tailBits b1 * 4096 + tailBits b2 * 64 + tailBits b3, 4⟩
      else .broken
    | _ => .broken
  else .broken

/-- The code points of a text, in order. -/
def codePoints : Text → List CodePoint
  | [] => []
  | b :: rest =>
    let r := decode b rest
    r :: codePoints (rest.drop (r.width - 1))
termination_by t => t.length
decreasing_by simp only [List.length_drop, List.length_cons]; omega

/-- The code points of a text, in order. -/
def codes (t : Text) : List Nat := (codePoints t).map CodePoint.code

/-- The bytes of a code point; the replacement character stands in for what is no
    code point. -/
def encode (c : Nat) : Text :=
  if c < 0x80 then [UInt8.ofNat c]
  else if c < 0x800 then [UInt8.ofNat (0xC0 + c / 64), UInt8.ofNat (0x80 + c % 64)]
  else if !isScalar c then [0xEF, 0xBF, 0xBD]
  else if c < 0x10000 then
    [UInt8.ofNat (0xE0 + c / 4096), UInt8.ofNat (0x80 + c / 64 % 64), UInt8.ofNat (0x80 + c % 64)]
  else
    [UInt8.ofNat (0xF0 + c / 262144), UInt8.ofNat (0x80 + c / 4096 % 64),
      UInt8.ofNat (0x80 + c / 64 % 64), UInt8.ofNat (0x80 + c % 64)]

/-- The text of a list of code points. -/
def ofCodes (cs : List Nat) : Text := cs.flatMap encode

/-- Every byte belongs to a well-formed sequence. -/
def valid (t : Text) : Bool := (codePoints t).all fun r => r.code ≠ replacement || r.width = 3

/-- The characters of a text, none if it is not valid. -/
def chars? (t : Text) : Option (List Char) :=
  if valid t then some ((codes t).map Char.ofNat) else none

/-- The text of a list of characters. -/
def ofChars (cs : List Char) : Text := cs.flatMap fun c => encode c.toNat

end Utf8

end BitLogic
