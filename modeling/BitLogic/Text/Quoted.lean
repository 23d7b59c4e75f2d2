import BitLogic.Text.Utf8
import BitLogic.Text.Printable

/-!
# Quoted texts

A text between quotation marks, written so that it can be shown on one line of a
terminal: printable code points stand for themselves, the quotation mark and the
backslash are escaped, the common controls have letters of their own, and all else
is given by its number. A byte that is no UTF-8 is given by its two hexadecimal
digits in a text; as a single character it is the replacement character.

## Main definitions

* `Quoted.char`: One code point between single quotation marks.
* `Quoted.text`: A text between double quotation marks.
-/

namespace BitLogic

namespace Quoted

/-- The letter that names a control after a backslash. -/
def shortEscape? (c : Nat) : Option UInt8 :=
  match c with
  | 7 => some 97
  | 8 => some 98
  | 12 => some 102
  | 10 => some 110
  | 13 => some 114
  | 9 => some 116
  | 11 => some 118
  | _ => none

/-- A code point inside quotation marks `mark`. -/
def escape (mark : Nat) (c : Nat) : Text :=
  if c = mark || c = 92 then [92, UInt8.ofNat c]
  else if isPrintable c then Utf8.encode c
  else match shortEscape? c with
    | some letter => [92, letter]
    | none =>
      if c < 32 || c = 127 then Text.ofString "\\x" ++ Text.hex 2 c
      else if c < 0x10000 then Text.ofString "\\u" ++ Text.hex 4 c
      else Text.ofString "\\U" ++ Text.hex 8 c

/-- One code point between single quotation marks. What is no code point is shown
    as the replacement character. -/
def char (c : Int) : Text :=
  let shown := if 0 ≤ c && Utf8.isScalar c.toNat then c.toNat else Utf8.replacement
  [39] ++ escape 39 shown ++ [39]

/-- The code points of a text with their bytes, inside double quotation marks. -/
def escapeAll : Text → List Utf8.CodePoint → Text
  | _, [] => []
  | t, r :: rs =>
    let shown :=
      if r = .broken then Text.ofString "\\x" ++ Text.hex 2 (t.headD 0).toNat
      else escape 34 r.code
    shown ++ escapeAll (t.drop r.width) rs

/-- A text between double quotation marks. -/
def text (t : Text) : Text := [34] ++ escapeAll t (Utf8.codePoints t) ++ [34]

end Quoted

end BitLogic
