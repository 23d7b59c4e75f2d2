/-!
# Numerals

Numbers as they are written in settings files. An integer may have a sign and a base
prefix; a decimal may have a fraction and a power of ten. Both are read exactly, so
that whether a number fits a machine word or a double is a question about numbers
and not about rounding.

## Main definitions

* `Numeral.inBase?`: The value of digits in a base.
* `Numeral.integer?`: The integer that a numeral denotes.
* `Numeral.Decimal`: A natural number times a power of ten.
* `Numeral.decimal?`: The magnitude of the decimal that a numeral denotes.
* `Numeral.Decimal.fitsDouble`: The magnitude does not round to infinity.
-/

namespace BitLogic

namespace Numeral

/-- The value of a hexadecimal digit of either case. -/
def digit? (c : Char) : Option Nat :=
  if '0' ≤ c && c ≤ '9' then some (c.toNat - '0'.toNat)
  else if 'a' ≤ c && c ≤ 'f' then some (c.toNat - 'a'.toNat + 10)
  else if 'A' ≤ c && c ≤ 'F' then some (c.toNat - 'A'.toNat + 10)
  else none

/-- A hexadecimal digit of either case. -/
def isHexDigit (c : Char) : Bool := (digit? c).isSome

/-- The value of digits in a base, all of which have to be below it. -/
def inBase? (base : Nat) (digits : List Char) : Option Nat :=
  digits.foldlM
    (fun n c =>
      match digit? c with
      | some d => if d < base then some (n * base + d) else none
      | none => none)
    0

/-- The value of decimal digits. -/
def decimalValue (digits : List Char) : Nat := (inBase? 10 digits).getD 0

/-- A numeral without its sign, and whether that sign was a minus. -/
def unsigned : List Char → Bool × List Char
  | '+' :: rest => (false, rest)
  | '-' :: rest => (true, rest)
  | cs => (false, cs)

/-- The natural number of a numeral that may carry a base prefix. A leading zero alone
    is the prefix of base eight. -/
def natural? : List Char → Option Nat
  | [] => none
  | '0' :: x :: d :: ds =>
    if x = 'b' || x = 'B' then inBase? 2 (d :: ds)
    else if x = 'o' || x = 'O' then inBase? 8 (d :: ds)
    else if x = 'x' || x = 'X' then inBase? 16 (d :: ds)
    else inBase? 8 (x :: d :: ds)
  | '0' :: rest => inBase? 8 rest
  | digits => inBase? 10 digits

/-- The integer of a numeral that may carry a sign and a base prefix. -/
def integer? (cs : List Char) : Option Int :=
  let (negative, digits) := unsigned cs
  (natural? digits).map fun n => if negative then -(n : Int) else n

/-- A natural number times a power of ten. -/
structure Decimal where
  digits : Nat
  exponent : Int
  deriving Repr, DecidableEq, Inhabited

/-- The power of ten behind the digits of a decimal; one of zero if nothing is
    there. -/
def power? : List Char → Option Int
  | [] => some 0
  | e :: rest =>
    let (negative, digits) := unsigned rest
    if (e = 'e' || e = 'E') && !digits.isEmpty && digits.all Char.isDigit then
      let n : Int := decimalValue digits
      some (if negative then -n else n)
    else none

/-- The magnitude of a decimal: digits, which a point may divide, and perhaps a power
    of ten. There has to be a digit before the point or behind it. -/
def decimal? (cs : List Char) : Option Decimal :=
  let (_, body) := unsigned cs
  let whole := body.takeWhile Char.isDigit
  let (fraction, rest) :=
    match body.drop whole.length with
    | '.' :: r => (r.takeWhile Char.isDigit, r.dropWhile Char.isDigit)
    | r => ([], r)
  if whole.isEmpty && fraction.isEmpty then none
  else (power? rest).map fun n => ⟨decimalValue (whole ++ fraction), n - fraction.length⟩

/-- Halfway between the greatest double and the next power of two: what is not below
    it rounds to infinity. -/
def doubleBound : Nat := Nat.pow 2 1024 - Nat.pow 2 970

/-- The magnitude rounds to a finite double. Powers of ten that settle the question
    by their size alone are not computed. -/
def Decimal.fitsDouble (d : Decimal) : Bool :=
  if d.digits = 0 then true
  else if 0 ≤ d.exponent then
    d.exponent ≤ 400 && d.digits * Nat.pow 10 d.exponent.toNat < doubleBound
  else
    d.digits < doubleBound || d.digits.log2 < 3 * d.exponent.natAbs ||
      d.digits < doubleBound * Nat.pow 10 d.exponent.natAbs

/-- The numeral is a decimal that rounds to a finite double. -/
def isDouble (cs : List Char) : Bool := ((decimal? cs).map Decimal.fitsDouble).getD false

end Numeral

end BitLogic
