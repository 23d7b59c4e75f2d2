import BitLogic.Text.Numeral

/-!
# Moments

Dates and times of day in the notation `2006-01-02T15:04:05.5+01:00`, with or without
each of its parts. Settings never use a moment; a reader only has to tell whether one
is well formed, and that includes the length of the month.

## Main definitions

* `Moment.date?`, `Moment.clock?`, `Moment.zone?`: What follows a date, a time of day
  or an offset from universal time at the head of a text.
* `Moment.isDate`, `Moment.isClock`, `Moment.isStamp`: A text is a date, a time of day,
  or both.
-/

namespace BitLogic

namespace Moment

/-- How many digits the short fields have: always two, or one as well. -/
inductive Fields where
  | padded
  | short
  deriving Repr, DecidableEq, Inhabited

/-- A number of one or two digits at the head of a text. -/
def field? (fs : Fields) : List Char → Option (Nat × List Char)
  | [] => none
  | a :: rest =>
    let second := rest.head?.filter Char.isDigit
    if !a.isDigit then none
    else match second, fs with
      | some b, _ => some (Numeral.decimalValue [a, b], rest.drop 1)
      | none, .short => some (Numeral.decimalValue [a], rest)
      | none, .padded => none

/-- What follows one given character. -/
def skip? (c : Char) : List Char → Option (List Char)
  | [] => none
  | d :: rest => if d = c then some rest else none

/-- A year with a 29th of February. -/
def isLeap (year : Nat) : Bool := year % 4 = 0 && (year % 100 ≠ 0 || year % 400 = 0)

/-- The number of days of a month; none for a number that is no month. -/
def daysOf (year month : Nat) : Nat :=
  if month = 2 then (if isLeap year then 29 else 28)
  else if [4, 6, 9, 11].contains month then 30
  else if 1 ≤ month && month ≤ 12 then 31
  else 0

/-- What follows a date that exists. -/
def date? (fs : Fields) (cs : List Char) : Option (List Char) := do
  let year := cs.take 4
  guard (year.length = 4 && year.all Char.isDigit)
  let cs ← skip? '-' (cs.drop 4)
  let (month, cs) ← field? fs cs
  let cs ← skip? '-' cs
  let (day, cs) ← field? fs cs
  guard (1 ≤ day && day ≤ daysOf (Numeral.decimalValue year) month)
  return cs

/-- Without the parts of a second at its head, if there are any. -/
def dropFraction : List Char → List Char
  | '.' :: d :: rest => if d.isDigit then rest.dropWhile Char.isDigit else '.' :: d :: rest
  | cs => cs

/-- What follows a time of day, with parts of a second if there are any. -/
def clock? (fs : Fields) (cs : List Char) : Option (List Char) := do
  let (hour, cs) ← field? fs cs
  let cs ← skip? ':' cs
  let (minute, cs) ← field? fs cs
  let cs ← skip? ':' cs
  let (second, cs) ← field? fs cs
  guard (hour < 24 && minute < 60 && second < 60)
  return dropFraction cs

/-- What follows an offset from universal time. A full day and a full hour count as
    offsets too. -/
def zone? : List Char → Option (List Char)
  | [] => none
  | sign :: rest =>
    if sign = 'Z' then some rest
    else do
      guard (sign = '+' || sign = '-')
      let (hours, rest) ← field? .padded rest
      let rest ← skip? ':' rest
      let (minutes, rest) ← field? .padded rest
      guard (hours ≤ 24 && minutes ≤ 60)
      return rest

/-- The text is a time of day and nothing else. -/
def isClock (fs : Fields) (cs : List Char) : Bool := clock? fs cs == some []

/-- The text is a date and nothing else. -/
def isDate (fs : Fields) (cs : List Char) : Bool := date? fs cs == some []

/-- The text is a date and a time of day with `between` standing between them, and an
    offset behind them if `zoned` holds. -/
def isStamp (fs : Fields) (between : Char) (zoned : Bool) (cs : List Char) : Bool :=
  match date? fs cs >>= skip? between >>= clock? fs with
  | some rest => if zoned then zone? rest == some [] else rest.isEmpty
  | none => false

end Moment

end BitLogic
