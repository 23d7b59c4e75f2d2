import BitLogic.Text.Basic

/-!
# Base 64

Bytes written as groups of four letters of six bits each, the last group filled up
with equals signs. Line breaks between the letters do not count.

## Main definitions

* `Base64.decode?`: The bytes that a text stands for.
-/

namespace BitLogic

namespace Base64

/-- The six bits of a letter. -/
def bits? (c : Char) : Option Nat :=
  if 'A' ≤ c && c ≤ 'Z' then some (c.toNat - 'A'.toNat)
  else if 'a' ≤ c && c ≤ 'z' then some (c.toNat - 'a'.toNat + 26)
  else if '0' ≤ c && c ≤ '9' then some (c.toNat - '0'.toNat + 52)
  else if c = '+' then some 62
  else if c = '/' then some 63
  else none

/-- The bytes of groups of four letters. -/
def groups? : List Char → Option Text
  | [] => some []
  | a :: b :: c :: d :: rest => do
    let a ← bits? a
    let b ← bits? b
    let first := UInt8.ofNat (a * 4 + b / 16)
    if c = '=' then
      guard (d = '=' && rest.isEmpty)
      return [first]
    let c ← bits? c
    let second := UInt8.ofNat (b % 16 * 16 + c / 4)
    if d = '=' then
      guard rest.isEmpty
      return [first, second]
    let d ← bits? d
    let more ← groups? rest
    return first :: second :: UInt8.ofNat (c % 4 * 64 + d) :: more
  | _ => none

/-- The bytes that a text stands for. -/
def decode? (cs : List Char) : Option Text := groups? (cs.filter fun c => c ≠ '\n' && c ≠ '\r')

end Base64

end BitLogic
