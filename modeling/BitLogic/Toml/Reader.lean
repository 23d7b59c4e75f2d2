import BitLogic.Toml.Scalar
import BitLogic.Toml.Syntax

/-!
# Reading TOML

From the bytes of a document to its items. A document has to be valid UTF-8 without
control characters other than tabs and line breaks; a carriage return only ever
stands before a line feed. A byte order mark at its head is passed over.

Values nest, so the reader of values takes a number of steps; every value takes at
least one character, so the length of the document is enough.

## Main definitions

* `Toml.withoutControls`: A document has only characters that may occur in one.
* `Toml.value?`: The value at the head of a text.
* `Toml.items?`: The items of a document.
-/

namespace BitLogic

namespace Toml

/-- No character is a control except tabs, line feeds, and carriage returns before line
    feeds. -/
def withoutControls : List Char → Bool
  | [] => true
  | c :: rest =>
    (if c = '\r' then rest.head? = some '\n'
      else c = '\t' || c = '\n' || (' ' ≤ c && c ≠ '\x7f')) &&
      withoutControls rest

/-- Without the byte order mark of any encoding. -/
def dropMark : Text → Text
  | 0xFF :: 0xFE :: rest => rest
  | 0xFE :: 0xFF :: rest => rest
  | 0xEF :: 0xBB :: 0xBF :: rest => rest
  | t => t

/-- Without blanks at its head. -/
def dropBlanks (cs : List Char) : List Char := cs.dropWhile isBlank

/-- From the end of the line on. -/
def dropLine (cs : List Char) : List Char := cs.dropWhile (!isBreak ·)

/-- Without blanks, line breaks and comments at its head. -/
def dropLayoutLoop : Nat → List Char → List Char
  | 0, cs => cs
  | steps + 1, cs =>
    match cs.dropWhile fun c => isBlank c || isBreak c with
    | '#' :: rest => dropLayoutLoop steps (dropLine rest)
    | rest => rest

/-- Without blanks, line breaks and comments at its head. -/
def dropLayout (cs : List Char) : List Char := dropLayoutLoop (cs.length + 1) cs

/-- A character of a key without quotes. -/
def isBare (c : Char) : Bool := c.isAlphanum || c = '_' || c = '-'

/-- One part of a key. -/
def part? : List Char → Option (List Char × List Char)
  | [] => none
  | c :: rest =>
    if c = basicQuote then basic? rest
    else if c = literalQuote then literal? rest
    else
      let name := (c :: rest).takeWhile isBare
      if name.isEmpty then none else some (name, (c :: rest).drop name.length)

/-- A key: parts with points between them, blanks allowed around each. -/
def pathLoop : Nat → List Char → Option (Path × List Char)
  | 0, _ => none
  | steps + 1, cs => do
    let (part, rest) ← part? (dropBlanks cs)
    let part := Utf8.ofChars part
    match dropBlanks rest with
    | '.' :: rest =>
      let (parts, rest) ← pathLoop steps rest
      return (part :: parts, rest)
    | rest => return ([part], rest)

/-- A key and what follows it and the blanks behind it. -/
def path? (cs : List Char) : Option (Path × List Char) := pathLoop (cs.length + 1) cs

/-- A key and the text behind its equals sign. -/
def key? (cs : List Char) : Option (Path × List Char) := do
  match ← path? cs with
  | (path, '=' :: rest) => return (path, rest)
  | _ => none

/-- The truth value at the head of a text. -/
def flag? : List Char → Option (Bool × List Char)
  | 't' :: 'r' :: 'u' :: 'e' :: rest => some (true, rest)
  | 'f' :: 'a' :: 'l' :: 's' :: 'e' :: rest => some (false, rest)
  | _ => none

/-- The string at the head of a text, of whichever of the four kinds; the outer result
    is nothing if no string starts there. -/
def string? (cs : List Char) : Option (Option (List Char × List Char)) :=
  if atFence basicQuote cs then some (longBasic? (cs.drop 3))
  else if atFence literalQuote cs then some (longLiteral? (cs.drop 3))
  else if cs.head? = some basicQuote then some (basic? (cs.drop 1))
  else if cs.head? = some literalQuote then some (literal? (cs.drop 1))
  else none

/-- The value at the head of a text that has no other values in it. -/
def scalar? (cs : List Char) : Option (Value × List Char) :=
  match string? cs, flag? cs with
  | some r, _ => r.map fun (s, rest) => (.text (Utf8.ofChars s), rest)
  | none, some (b, rest) => some (.flag b, rest)
  | none, none =>
    (numeric? cs).map fun (n, rest) => (if n = .moment then .moment else .number, rest)

mutual

/-- The value at the head of a text, blanks before it allowed. -/
def valueLoop : Nat → List Char → Option (Value × List Char)
  | 0, _ => none
  | steps + 1, cs =>
    match dropBlanks cs with
    | '[' :: rest => (arrayLoop steps rest).map fun (vs, rest) => (.array vs, rest)
    | '\x7b' :: rest =>
      match dropBlanks rest with
      | '\x7d' :: rest => some (.record [], rest)
      | rest => (recordLoop steps rest).map fun (ps, rest) => (.record ps, rest)
    | cs => scalar? cs
termination_by structural steps => steps

/-- The rest of an array behind its bracket or a comma. A comma may stand behind the
    last value. -/
def arrayLoop : Nat → List Char → Option (List Value × List Char)
  | 0, _ => none
  | steps + 1, cs =>
    match dropLayout cs with
    | ']' :: rest => some ([], rest)
    | cs => do
      let (v, rest) ← valueLoop steps cs
      match dropLayout rest with
      | ',' :: rest =>
        let (vs, rest) ← arrayLoop steps rest
        return (v :: vs, rest)
      | ']' :: rest => return ([v], rest)
      | _ => none
termination_by structural steps => steps

/-- The rest of a record behind its brace or a comma. It stays on one line, and a
    comma needs a pair behind it. -/
def recordLoop : Nat → List Char → Option (List (Path × Value) × List Char)
  | 0, _ => none
  | steps + 1, cs => do
    let (path, rest) ← key? cs
    let (v, rest) ← valueLoop steps rest
    match dropBlanks rest with
    | ',' :: rest =>
      let (ps, rest) ← recordLoop steps rest
      return ((path, v) :: ps, rest)
    | '\x7d' :: rest => return ([(path, v)], rest)
    | _ => none
termination_by structural steps => steps

end

/-- The value at the head of a text. -/
def value? (cs : List Char) : Option (Value × List Char) := valueLoop (cs.length + 1) cs

/-- From the end of the line on, if nothing but a comment stands before it. -/
def lineEnd? (cs : List Char) : Option (List Char) :=
  match dropBlanks cs with
  | [] => some []
  | '#' :: rest => some (dropLine rest)
  | c :: rest => if isBreak c then some rest else none

/-- The item at the head of a line. -/
def item? (cs : List Char) : Option (Item × List Char) := do
  match cs with
  | '[' :: '[' :: rest =>
    match ← path? rest with
    | (path, ']' :: ']' :: rest) => return (.element path, rest)
    | _ => none
  | '[' :: rest =>
    match ← path? rest with
    | (path, ']' :: rest) => return (.table path, rest)
    | _ => none
  | _ =>
    let (path, rest) ← key? cs
    let (v, rest) ← value? rest
    return (.pair path v, rest)

/-- The items of the rest of a document. -/
def itemLoop : Nat → List Char → Option (List Item)
  | 0, _ => none
  | steps + 1, cs =>
    match dropLayout cs with
    | [] => some []
    | cs => do
      let (item, rest) ← item? cs
      let items ← itemLoop steps (← lineEnd? rest)
      return item :: items

/-- The items of a document. -/
def items? (source : Text) : Option (List Item) := do
  let cs ← Utf8.chars? (dropMark source)
  guard (withoutControls cs)
  itemLoop (cs.length + 1) cs

end Toml

end BitLogic
