import BitLogic.Text.Base64
import BitLogic.Text.Moment
import BitLogic.Word
import BitLogic.Yaml.Node

/-!
# The kinds of YAML scalars

A plain scalar without a tag shows by its text what it is: null, a truth value, a
number, a moment or a text. A tag names the kind, and then the text has to be of that
kind; an integer may stand for a float, and any text for a text or for bytes in
base 64. What stands in quotes is a text.

## Main definitions

* `Yaml.Kind`: The kinds of scalars, and their tags.
* `Yaml.Kind.ofText`: The kind that a text shows.
* `Yaml.Meaning`: What a scalar means for settings.
* `Yaml.meaning?`: The meaning of a scalar.
-/

namespace BitLogic

namespace Yaml

/-- The kinds of scalars. -/
inductive Kind where
  | null
  | flag (b : Bool)
  | integer
  | float
  | moment
  | text
  deriving Repr, DecidableEq, Inhabited

namespace Kind

/-- The tag of a kind, without what all tags of the standard start with. -/
def tag : Kind → Text
  | .null => Text.ofString "null"
  | .flag _ => Text.ofString "bool"
  | .integer => Text.ofString "int"
  | .float => Text.ofString "float"
  | .moment => Text.ofString "timestamp"
  | .text => Text.ofString "str"

/-- The words that have a kind of their own. -/
def words : List (String × Kind) :=
  let under (k : Kind) (ws : List String) := ws.map fun w => (w, k)
  under (.flag true) ["true", "True", "TRUE"] ++
    under (.flag false) ["false", "False", "FALSE"] ++
    under .null ["", "~", "null", "Null", "NULL"] ++
    under .float [".nan", ".NaN", ".NAN", ".inf", ".Inf", ".INF", "+.inf", "+.Inf", "+.INF",
      "-.inf", "-.Inf", "-.INF"]

/-- An integer that fits a signed word or, if no sign is written, an unsigned one. -/
def isInteger (cs : List Char) : Bool :=
  match Numeral.integer? cs with
  | some i => Word.fits i || (cs.head? ≠ some '+' && 0 ≤ i && i < Word.size)
  | none => false

/-- A date, or a date with a time of day. -/
def isMoment (cs : List Char) : Bool :=
  Moment.isStamp .short 'T' true cs || Moment.isStamp .short 't' true cs ||
    Moment.isStamp .short ' ' false cs || Moment.isDate .short cs

/-- The kind of a numeral, if it starts like one; only where `moments` holds may it be
    a moment. Underscores between digits do not count. -/
def ofNumeral (moments : Bool) (cs : List Char) : Kind :=
  let digits := cs.filter (· ≠ '_')
  if moments && isMoment cs then .moment
  else if isInteger digits then .integer
  else if Numeral.isDouble digits then .float
  else .text

/-- The kind that a text shows; only where `moments` holds may it be a moment. -/
def ofText (moments : Bool) (cs : List Char) : Kind :=
  match words.lookup (String.ofList cs), cs with
  | some k, _ => k
  | none, '.' :: _ => if Numeral.isDouble cs then .float else .text
  | none, c :: _ => if c.isDigit || c = '+' || c = '-' then ofNumeral moments cs else .text
  | none, [] => .text

end Kind

/-- What a scalar means for settings: nothing, a truth value, a text, or something that
    is neither but can be used as the text that it is written as. -/
inductive Meaning where
  | null
  | flag (b : Bool) (written : Text)
  | text (t : Text)
  | other (written : Text)
  deriving Repr, DecidableEq, Inhabited

namespace Meaning

/-- The meaning of a text of some kind. -/
def ofKind (cs : List Char) : Kind → Meaning
  | .null => .null
  | .flag b => .flag b (Utf8.ofChars cs)
  | .text => .text (Utf8.ofChars cs)
  | _ => .other (Utf8.ofChars cs)

/-- The text that a scalar stands for where a text is wanted, if it is not null. -/
def written? : Meaning → Option Text
  | .null => none
  | .flag _ t => some t
  | .text t => some t
  | .other t => some t

end Meaning

/-- What the tags of the standard start with. -/
def standardTag : Text := Text.ofString "tag:yaml.org,2002:"

/-- The name of a tag of the standard, in its long or short form. -/
def standardName? (tag : Text) : Option Text :=
  (Text.dropPrefix? standardTag tag).or (Text.dropPrefix? (Text.ofString "!!") tag)

/-- The tag says nothing about the kind: there is none, or only a lone exclamation
    mark. -/
def isUnspecific (tag : Text) : Bool := tag.isEmpty || tag = Text.ofString "!"

/-- The meaning of a scalar; none if its text is not of the kind that its tag names. -/
def meaning? (tag : Text) (plain : Bool) (cs : List Char) : Option Meaning :=
  if isUnspecific tag then
    some (.ofKind cs (if plain then Kind.ofText true cs else .text))
  else do
    let name ← standardName? tag
    if name = Kind.text.tag then return .ofKind cs .text
    else if name = Text.ofString "binary" then return .text (← Base64.decode? cs)
    else
      let kind := Kind.ofText (name = Kind.moment.tag) cs
      guard (kind.tag = name || (name = Kind.float.tag && kind = .integer))
      return .ofKind cs kind

end Yaml

end BitLogic
