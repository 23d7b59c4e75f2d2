/-!
# Texts

A text is a list of bytes. Sources, names, messages and everything printed are
texts, and none of them has to be valid UTF-8: a source file may hold any bytes,
and a message that quotes it must hold the same ones. Offsets into a text count
bytes.

String literals enter through `Text.ofString`, numbers through `Text.ofNat` and
`Text.ofInt`.

## Main definitions

* `Text`: A list of bytes.
* `Text.ofString`: The UTF-8 bytes of a string.
* `Text.ofNat`, `Text.ofInt`: A number in decimal.
* `Text.slice?`: The bytes between two offsets, when these are in range and in
  order.
* `Text.joinWith`: Texts with a separator between them.
* `Text.lines`: The pieces of a text between its line feeds.
* `Text.dropSuffix?`, `Text.dropPrefix?`: What is left of a text that ends or
  starts with another one.
* `Text.dropReturn`: A text without a carriage return at its end.

## Theorems

* `Text.dropReturn_concat`, `Text.dropReturn_of_ne`, `Text.dropReturn_eq_self_iff`: When
  a carriage return is dropped, and what is left.
* `Text.mem_of_mem_dropReturn`, `Text.length_dropReturn`: Nothing is added, and at most
  one byte is dropped.
-/

namespace BitLogic

/-- A list of bytes, valid UTF-8 or not. -/
abbrev Text := List UInt8

namespace Text

/-- The UTF-8 bytes of a string. -/
def ofString (s : String) : Text := s.toByteArray.data.toList

/-- The line feed byte. -/
def lineFeed : UInt8 := 10

/-- The carriage return byte. -/
def carriageReturn : UInt8 := 13

/-- The space byte. -/
def space : UInt8 := 32

/-- The byte of a decimal digit. -/
def digit (n : Nat) : UInt8 := UInt8.ofNat (48 + n)

/-- A natural number in decimal, without leading zeros. -/
def ofNat (n : Nat) : Text :=
  if n < 10 then [digit n] else ofNat (n / 10) ++ [digit (n % 10)]

/-- An integer in decimal, with a sign only when it is negative. -/
def ofInt (i : Int) : Text :=
  if i < 0 then ofString "-" ++ ofNat i.natAbs else ofNat i.natAbs

/-- The word for a truth value. -/
def ofBool (b : Bool) : Text := if b then ofString "true" else ofString "false"

/-- The value of a run of decimal digits. -/
def decimalValue (t : Text) : Nat := t.foldl (fun v d => v * 10 + (d.toNat - 48)) 0

/-- The bytes from one offset up to another. There are none when an offset is
    out of range or the two are out of order. -/
def slice? (t : Text) (lo hi : Int) : Option Text :=
  if 0 ≤ lo ∧ lo ≤ hi ∧ hi ≤ t.length then some ((t.drop lo.toNat).take (hi - lo).toNat) else none

/-- Texts in order with a separator between neighbours. -/
def joinWith (sep : Text) : List Text → Text
  | [] => []
  | [t] => t
  | t :: ts => t ++ sep ++ joinWith sep ts

/-- The pieces between the bytes equal to `sep`; a text without one is its own
    only piece. -/
def splitOn (sep : UInt8) (t : Text) : List Text :=
  t.foldr
    (fun b pieces =>
      if b = sep then [] :: pieces
      else match pieces with
        | [] => [[b]]
        | p :: ps => (b :: p) :: ps)
    [[]]

/-- The pieces of a text between its line feeds. -/
def lines (t : Text) : List Text := splitOn lineFeed t

/-- What follows `start` in a text that begins with it. -/
def dropPrefix? (start : Text) (t : Text) : Option Text :=
  if t.take start.length = start then some (t.drop start.length) else none

/-- What precedes `ending` in a text that ends with it. -/
def dropSuffix? (ending : Text) (t : Text) : Option Text :=
  (dropPrefix? ending.reverse t.reverse).map List.reverse

/-- Without a carriage return at its end. -/
def dropReturn (t : Text) : Text := (dropSuffix? [carriageReturn] t).getD t

@[simp]
theorem dropReturn_concat (t : Text) : dropReturn (t ++ [carriageReturn]) = t := by
  simp [dropReturn, dropSuffix?, dropPrefix?]

/-- A text that does not end in a carriage return is left as it is. -/
theorem dropReturn_of_ne (t : Text) (h : t.getLast? ≠ some carriageReturn) :
    dropReturn t = t := by
  -- The end of a text is looked at from behind, where it is the first byte.
  have hfirst : t.reverse.take 1 ≠ [carriageReturn] := by
    intro htake
    rw [List.getLast?_eq_head?_reverse] at h
    cases hrev : t.reverse with
    | nil =>
        rw [hrev] at htake
        simp only [List.take_nil, reduceCtorEq] at htake
    | cons b s =>
        rw [hrev] at htake h
        exact h (congrArg List.head? htake)
  have hnone : dropPrefix? [carriageReturn].reverse t.reverse = none := if_neg hfirst
  rw [dropReturn, dropSuffix?, hnone]
  rfl

theorem dropReturn_eq_self_iff (t : Text) :
    dropReturn t = t ↔ t.getLast? ≠ some carriageReturn := by
  refine ⟨fun h hlast => ?_, dropReturn_of_ne t⟩
  rcases List.getLast?_eq_some_iff.mp hlast with ⟨s, rfl⟩
  rw [dropReturn_concat] at h
  exact absurd (congrArg List.length h) (by simp)

theorem mem_of_mem_dropReturn (t : Text) (b : UInt8) (h : b ∈ dropReturn t) : b ∈ t := by
  by_cases hlast : t.getLast? = some carriageReturn
  · rcases List.getLast?_eq_some_iff.mp hlast with ⟨s, rfl⟩
    rw [dropReturn_concat] at h
    exact List.mem_append_left _ h
  · rw [dropReturn_of_ne t hlast] at h
    exact h

/-- At most one byte is dropped. -/
theorem length_dropReturn (t : Text) : t.length ≤ (dropReturn t).length + 1 := by
  unfold dropReturn dropSuffix? dropPrefix?
  split <;> simp
  omega

/-- Without the bytes at its end that satisfy a test. -/
def dropRightWhile (p : UInt8 → Bool) (t : Text) : Text := (t.reverse.dropWhile p).reverse

/-- A text repeated. -/
def times (n : Nat) (t : Text) : Text := (List.replicate n t).flatten

/-- A lower-case hexadecimal digit. -/
def hexDigit (n : Nat) : UInt8 := UInt8.ofNat (if n < 10 then 48 + n else 87 + n)

/-- An upper-case hexadecimal digit. -/
def upperHexDigit (n : Nat) : UInt8 := UInt8.ofNat (if n < 10 then 48 + n else 55 + n)

/-- The last `width` hexadecimal digits of a number, in lower case. -/
def hex (width n : Nat) : Text :=
  (List.range width).reverse.map fun i => hexDigit (n / Nat.pow 16 i % 16)

end Text

end BitLogic
