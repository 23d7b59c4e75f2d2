import BitLogic.Text.Moment
import BitLogic.Text.Utf8
import BitLogic.Word

/-!
# The scalars of TOML

Strings, numbers and moments at the head of a text. A string is basic or literal, on
one line or on several; the basic ones have escapes. A number or moment is first cut
out by the characters that may occur in it and then judged as a whole.

Every reader takes the remaining characters and gives its result with what remains
behind it, or nothing when the text is malformed. The loops take a number of steps
that the length of the text bounds.

## Main definitions

* `Toml.basic?`, `Toml.literal?`: The rest of a string on one line.
* `Toml.longBasic?`, `Toml.longLiteral?`: The rest of a string on several lines.
* `Toml.numeric?`: What follows a number or a moment.
-/

namespace BitLogic

namespace Toml

/-- The quotation mark around basic strings. -/
def basicQuote : Char := '\x22'

/-- The apostrophe around literal strings. -/
def literalQuote : Char := '\x27'

/-- A space or a tab. -/
def isBlank (c : Char) : Bool := c = ' ' || c = '\t'

/-- A line feed, or the carriage return before one. -/
def isBreak (c : Char) : Bool := c = '\n' || c = '\r'

/-- The character written with a fixed number of hexadecimal digits. -/
def codePoint? (width : Nat) (cs : List Char) : Option (Char × List Char) := do
  let digits := cs.take width
  guard (digits.length = width)
  let code ← Numeral.inBase? 16 digits
  guard (Utf8.isScalar code)
  return (Char.ofNat code, cs.drop width)

/-- The escapes of one letter. -/
def escapes : List (Char × Char) :=
  [('b', '\x08'), ('t', '\t'), ('n', '\n'), ('f', '\x0c'), ('r', '\r'), (basicQuote, basicQuote),
    ('\\', '\\')]

/-- What an escape stands for, the text starting behind its backslash. -/
def escape? : List Char → Option (Char × List Char)
  | [] => none
  | 'u' :: rest => codePoint? 4 rest
  | 'U' :: rest => codePoint? 8 rest
  | c :: rest => (escapes.lookup c).map fun d => (d, rest)

/-- A character in front of a result. -/
def before (c : Char) (r : List Char × List Char) : List Char × List Char := (c :: r.1, r.2)

/-- The rest of a basic string on one line, behind its first quotation mark. -/
def basicLoop : Nat → List Char → Option (List Char × List Char)
  | 0, _ => none
  | _, [] => none
  | steps + 1, c :: rest =>
    if c = basicQuote then some ([], rest)
    else if isBreak c then none
    else if c = '\\' then do
      let (d, rest) ← escape? rest
      return before d (← basicLoop steps rest)
    else (basicLoop steps rest).map (before c)

/-- The rest of a basic string on one line, behind its first quotation mark. -/
def basic? (cs : List Char) : Option (List Char × List Char) := basicLoop (cs.length + 1) cs

/-- The rest of a literal string on one line, behind its first apostrophe. -/
def literal? (cs : List Char) : Option (List Char × List Char) :=
  let body := cs.takeWhile fun c => c ≠ literalQuote && !isBreak c
  match cs.drop body.length with
  | c :: rest => if c = literalQuote then some (body, rest) else none
  | [] => none

/-- Without a line break at its head. -/
def dropFirstBreak : List Char → List Char
  | '\n' :: rest => rest
  | '\r' :: '\n' :: rest => rest
  | cs => cs

/-- The text starts with three quotes of a kind. -/
def atFence (quote : Char) (cs : List Char) : Bool := cs.take 3 = List.replicate 3 quote

/-- Five quotes of a kind have been read, last one first, when a sixth one follows. -/
def tooMany (quote : Char) (seen : List Char) : Bool := seen.take 5 = List.replicate 5 quote

/-- The rest of a basic string on several lines; `seen` is what has been read of it,
    last character first. One or two quotation marks may stand before the three that
    close the string. A backslash at the end of a line joins the lines, without the
    blanks at the head of the next one. -/
def longBasicLoop : Nat → List Char → List Char → Option (List Char × List Char)
  | 0, _, _ => none
  | _, _, [] => none
  | steps + 1, seen, c :: rest =>
    if atFence basicQuote (c :: rest) then
      let ahead := rest.drop 2
      let read := List.replicate 3 basicQuote ++ seen
      if ahead.head? ≠ some basicQuote then some ([], ahead)
      else if tooMany basicQuote read && (read.drop 5).head? ≠ some '\\' then none
      else (longBasicLoop steps (c :: seen) rest).map (before c)
    else if c = '\\' then
      let blanks := rest.takeWhile fun d => isBlank d || isBreak d
      if blanks.contains '\n' then
        longBasicLoop steps (blanks.reverse ++ c :: seen) (rest.drop blanks.length)
      else do
        let (d, next) ← escape? rest
        let raw := rest.take (rest.length - next.length)
        return before d (← longBasicLoop steps (raw.reverse ++ c :: seen) next)
    else (longBasicLoop steps (c :: seen) rest).map (before c)

/-- The rest of a basic string on several lines, behind its first three quotation
    marks. -/
def longBasic? (cs : List Char) : Option (List Char × List Char) :=
  longBasicLoop (cs.length + 1) [] (dropFirstBreak cs)

/-- The rest of a literal string on several lines; `seen` is what has been read of it,
    last character first. -/
def longLiteralLoop (seen : List Char) : List Char → Option (List Char × List Char)
  | [] => none
  | c :: rest =>
    if atFence literalQuote (c :: rest) then
      let ahead := rest.drop 2
      if ahead.head? ≠ some literalQuote then some ([], ahead)
      else if tooMany literalQuote (List.replicate 3 literalQuote ++ seen) then none
      else (longLiteralLoop (c :: seen) rest).map (before c)
    else (longLiteralLoop (c :: seen) rest).map (before c)

/-- The rest of a literal string on several lines, behind its first three
    apostrophes. -/
def longLiteral? (cs : List Char) : Option (List Char × List Char) :=
  longLiteralLoop [] (dropFirstBreak cs)

/-- Every underscore stands between two characters that may be digits. -/
def underscoresFit (cs : List Char) : Bool :=
  let (fits, afterDigit) := cs.foldl
    (fun (fits, afterDigit) c => (fits && (c ≠ '_' || afterDigit), Numeral.isHexDigit c))
    (true, false)
  fits && afterDigit

/-- A zero stands before other digits. -/
def hasLeadingZero (cs : List Char) : Bool :=
  let (_, digits) := Numeral.unsigned cs
  match digits with
  | '0' :: c :: _ => digits.length < cs.length || !(c = 'b' || c = 'o' || c = 'x')
  | _ => false

/-- Without its underscores. -/
def withoutUnderscores (cs : List Char) : List Char := cs.filter (· ≠ '_')

/-- A well-formed integer that fits a signed word of 64 bits. -/
def isInteger (cs : List Char) : Bool :=
  underscoresFit cs && !hasLeadingZero cs &&
    ((Numeral.integer? (withoutUnderscores cs)).map Word.fits).getD false

/-- A digit stands behind every point. -/
def pointsFit : List Char → Bool
  | [] => true
  | '.' :: rest => (rest.head?.map Char.isDigit).getD false && pointsFit rest
  | _ :: rest => pointsFit rest

/-- The parts of a float between its points and exponent marks. -/
def floatParts (cs : List Char) : List (List Char) :=
  (cs.splitOnP fun c => c = '.' || c = 'e' || c = 'E').filter (!·.isEmpty)

/-- A well-formed float that fits a double. -/
def isFloat (cs : List Char) : Bool :=
  let parts := floatParts cs
  parts.all underscoresFit && !(parts.head?.map hasLeadingZero).getD false && pointsFit cs &&
    Numeral.isDouble (withoutUnderscores cs)

/-- A moment: a date, a time of day, or both, and then perhaps an offset. A space or a
    letter in either case may stand between date and time. -/
def isMoment (cs : List Char) : Bool :=
  let cs := cs.map fun c => if c = 'z' then 'Z' else if c = 't' || c = ' ' then 'T' else c
  Moment.isStamp .padded 'T' true cs || Moment.isStamp .padded 'T' false cs ||
    Moment.isDate .padded cs || Moment.isClock .padded cs

/-- A character of a float behind its first point or exponent mark. -/
def inFloat (c : Char) : Bool := c.isDigit || ['_', '.', '-', '+', 'e', 'E'].contains c

/-- A character of a moment behind its first separator. -/
def inMoment (c : Char) : Bool :=
  c.isDigit || ['-', ':', 'T', 't', ' ', '.', 'Z', 'z', '+'].contains c

/-- What a number or moment turns out to be. -/
inductive Numeric where
  | number
  | moment
  deriving Repr, DecidableEq, Inhabited

/-- What follows a numeral of a known length, if it passes a test. -/
def numeral? (length : Nat) (test : List Char → Bool) (cs : List Char) :
    Option (Numeric × List Char) :=
  if test (cs.take length) then some (.number, cs.drop length) else none

/-- A float whose first `start` characters are known to belong to it. -/
def float? (start : Nat) (cs : List Char) : Option (Numeric × List Char) :=
  numeral? (start + ((cs.drop start).takeWhile inFloat).length) isFloat cs

/-- A decimal number whose first `start` characters are known to belong to it. -/
def decimalNumber? (start : Nat) (cs : List Char) : Option (Numeric × List Char) :=
  let length := start + ((cs.drop start).takeWhile fun c => c.isDigit || c = '_').length
  match (cs.drop length).head? with
  | some c =>
    if c = '.' || c = 'e' || c = 'E' then float? length cs else numeral? length isInteger cs
  | none => numeral? length isInteger cs

/-- A moment. The spaces behind it are passed over. -/
def moment? (cs : List Char) : Option (Numeric × List Char) :=
  let stamp := cs.takeWhile inMoment
  if isMoment (stamp.reverse.dropWhile (· = ' ')).reverse then
    some (.moment, cs.drop stamp.length)
  else none

/-- A number or moment that starts with a digit. -/
def numberOrMoment? (cs : List Char) : Option (Numeric × List Char) :=
  let length := (cs.takeWhile Char.isDigit).length
  match (cs.drop length).head? with
  | some c => if c = '-' || c = ':' then moment? cs else decimalNumber? length cs
  | none => decimalNumber? length cs

/-- The infinite numbers and the one that is none. -/
def special? (cs : List Char) : Option (Numeric × List Char) :=
  let word := cs.take 3
  if word = ['i', 'n', 'f'] || word = ['n', 'a', 'n'] then some (.number, cs.drop 3) else none

/-- The digits of the base that a letter stands for. -/
def baseDigits? (c : Char) : Option (Char → Bool) :=
  if c = 'b' then some fun d => d = '0' || d = '1'
  else if c = 'o' then some fun d => '0' ≤ d && d ≤ '7'
  else if c = 'x' then some Numeral.isHexDigit
  else none

/-- A number that starts with a zero and the letter of a base; a digit of that base has
    to follow. -/
def baseNumber? (isDigit : Char → Bool) (cs : List Char) : Option (Numeric × List Char) :=
  let body := cs.drop 2
  if (body.head?.map isDigit).getD false then
    numeral? (2 + (body.takeWhile fun c => isDigit c || c = '_').length) isInteger cs
  else none

/-- What follows a number or a moment at the head of a text, and which of the two it
    was. Only numbers without a sign may have a base prefix, and a time of day or date
    has two digits before its first separator. -/
def numeric? (cs : List Char) : Option (Numeric × List Char) :=
  match cs with
  | '0' :: rest =>
    match rest.head?.bind baseDigits? with
    | some isDigit => baseNumber? isDigit cs
    | none =>
      if (rest.head?.map Char.isDigit).getD false then numberOrMoment? cs
      else decimalNumber? 1 cs
  | c :: rest =>
    if c.isDigit then numberOrMoment? cs
    else if c = '+' || c = '-' then
      match rest with
      | '0' :: d :: _ => if (baseDigits? d).isSome then none else decimalNumber? 2 cs
      | d :: _ => if d.isDigit then decimalNumber? 2 cs else special? rest
      | [] => none
    else special? cs
  | [] => none

end Toml

end BitLogic
