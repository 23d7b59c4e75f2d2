import BitLogic.Text.Blank
import BitLogic.Text.Quoted
import BitLogic.Word

/-!
# Logs

A record is a message with attributes, written on one line as `key=value` pairs. A
value that could be misread is quoted: an empty one, and one that holds a blank, a
quotation mark, an equals sign or anything that does not print. All records are of
the lowest named level, and a log shows them when its threshold is not above that.

## Main definitions

* `Log.Record`, `Log.Record.line`: A record, and the line that it is written on.
* `Log.Logged`: A value with the records made on the way to it.
* `Log.Level`: The levels, and how they are read from text.
* `Log.write`: The lines of records at a threshold.
-/

namespace BitLogic

namespace Log

/-- A message with attributes. -/
structure Record where
  message : Text
  attrs : List (Text × Text)
  deriving Repr, DecidableEq, Inhabited

/-- A code point after which a value is quoted. Among the ASCII characters these are the
    controls, the space, the quotation mark and the equals sign; delete is not one
    of them. -/
def needsQuotes (r : Utf8.CodePoint) : Bool :=
  if r.code < 0x80 then r.code ≤ 32 || r.code == 34 || r.code == 61
  else r.code == Utf8.replacement || isBlank r.code || !isPrintable r.code

/-- A value as it stands in a line. -/
def value (t : Text) : Text :=
  if t.isEmpty || (Utf8.codePoints t).any needsQuotes then Quoted.text t else t

/-- A pair in a line. -/
def pair (key : Text) (t : Text) : Text := key ++ Text.ofString "=" ++ value t

/-- The line of a record. -/
def Record.line (r : Record) : Text :=
  let pairs := (Text.ofString "level", Text.ofString "DEBUG") ::
    (Text.ofString "msg", r.message) :: r.attrs
  Text.joinWith [Text.space] (pairs.map fun (k, v) => pair k v) ++ [Text.lineFeed]

/-- A value with the records made on the way to it. -/
structure Logged (α : Type) where
  value : α
  records : List Record
  deriving Repr

/-- The threshold of a log, higher levels being more severe. -/
abbrev Level := Int

namespace Level

/-- The level of all records. -/
def debug : Level := -4

/-- The level of warnings. -/
def warn : Level := 4

/-- The named levels. -/
def names : List (Text × Level) :=
  [(Text.ofString "DEBUG", debug), (Text.ofString "INFO", 0), (Text.ofString "WARN", warn),
    (Text.ofString "ERROR", 8)]

/-- The upper-case form of a code point as far as the names of levels need it: that
    of the ASCII letters and of the two other letters with an ASCII capital. -/
def upper (c : Nat) : Nat :=
  if 97 ≤ c ∧ c ≤ 122 then c - 32
  else if c = 0x131 then 73
  else if c = 0x17F then 83
  else c

/-- A signed number of digits that fits a word of 64 bits. -/
def offset? (t : Text) : Option Int :=
  let (negative, digits) :=
    match t with
    | 43 :: rest => (false, rest)
    | 45 :: rest => (true, rest)
    | _ => (false, t)
  if digits.isEmpty || digits.any (fun b => b < 48 || 57 < b) then none
  else
    let n : Int := Text.decimalValue digits
    let n := if negative then -n else n
    if Word.fits n then some n else none

/-- A level by its name in either case, with a signed distance behind it if one is
    wanted. -/
def ofText? (t : Text) : Option Level :=
  let name := t.takeWhile fun b => b ≠ 43 && b ≠ 45
  let distance := t.drop name.length
  let spelt := Utf8.ofCodes ((Utf8.codes name).map upper)
  match if distance.isEmpty then some 0 else offset? distance, names.lookup spelt with
  | some d, some level => some (Word.wrap (level + d))
  | _, _ => none

end Level

/-- The lines of records at a threshold. -/
def write (threshold : Level) (rs : List Record) : Text :=
  if threshold ≤ Level.debug then rs.flatMap Record.line else []

end Log

end BitLogic
