import BitLogic.Text.Utf8

/-!
# Positions in a YAML stream

A YAML stream is a sequence of characters, read from UTF-8 or, if a byte order mark
says so, from UTF-16. A cursor is what remains of the stream with the place reached:
columns matter, because indentation gives blocks their structure, and lines matter,
because a key without a mark of its own has to fit on one.

## Main definitions

* `Yaml.decode?`: The characters of a stream, none if one may not occur.
* `Yaml.Cursor`: The rest of a stream and the place of its head.
* `Yaml.Cursor.advance`, `Yaml.Cursor.newline`: Moving along a line, and over its end.
-/

namespace BitLogic

namespace Yaml

/-- A character that may occur in a stream. -/
def isAllowed (c : Char) : Bool :=
  c = '\t' || c = '\n' || c = '\r' || (' ' ≤ c && c ≤ '~') || c = '\u0085' ||
    ('\u00a0' ≤ c && c ≤ '\ufffd') || c.toNat > 0xFFFF

/-- The 16-bit units of bytes in pairs. -/
def units? (bigEndian : Bool) : Text → Option (List Nat)
  | [] => some []
  | [_] => none
  | a :: b :: rest =>
    (units? bigEndian rest).map fun us =>
      (if bigEndian then a.toNat * 256 + b.toNat else b.toNat * 256 + a.toNat) :: us

/-- The characters of 16-bit units, in which surrogates come in pairs. -/
def ofUnits? : List Nat → Option (List Char)
  | [] => some []
  | u :: us =>
    if 0xDC00 ≤ u && u ≤ 0xDFFF then none
    else if 0xD800 ≤ u && u ≤ 0xDBFF then
      match us with
      | v :: us =>
        if 0xDC00 ≤ v && v ≤ 0xDFFF then
          (ofUnits? us).map (Char.ofNat (0x10000 + (u - 0xD800) * 0x400 + (v - 0xDC00)) :: ·)
        else none
      | [] => none
    else (ofUnits? us).map (Char.ofNat u :: ·)

/-- The characters of bytes, read as their byte order mark says and as UTF-8 if there
    is none. -/
def decodeMarked? : Text → Option (List Char)
  | 0xFF :: 0xFE :: rest => (units? false rest).bind ofUnits?
  | 0xFE :: 0xFF :: rest => (units? true rest).bind ofUnits?
  | 0xEF :: 0xBB :: 0xBF :: rest => Utf8.chars? rest
  | t => Utf8.chars? t

/-- The characters of a stream; none if it is not encoded correctly or holds one that
    may not occur. -/
def decode? (t : Text) : Option (List Char) :=
  (decodeMarked? t).bind fun cs => if cs.all isAllowed then some cs else none

/-- A space or a tab. -/
def isBlank (c : Char) : Bool := c = ' ' || c = '\t'

/-- The separators of lines and of paragraphs. -/
def isSeparator (c : Char) : Bool := c = '\u2028' || c = '\u2029'

/-- A character that ends a line; a carriage return with a line feed behind it ends
    only one. -/
def isBreak (c : Char) : Bool := c = '\n' || c = '\r' || c = '\u0085' || isSeparator c

/-- A blank or a break. -/
def isSpace (c : Char) : Bool := isBlank c || isBreak c

/-- A character of names. -/
def isWord (c : Char) : Bool := c.isAlphanum || c = '_' || c = '-'

/-- The stream ends here or goes on with a blank or break. -/
def atGap (cs : List Char) : Bool := (cs.head?.map isSpace).getD true

/-- A line ends here, the last one of the stream too. -/
def atLineEnd (cs : List Char) : Bool := (cs.head?.map isBreak).getD true

/-- A line break comes next. -/
def atBreak (cs : List Char) : Bool := (cs.head?.map isBreak).getD false

/-- The rest of a stream and the place of its head. -/
structure Cursor where
  rest : List Char
  index : Nat
  line : Nat
  column : Nat
  deriving Repr, DecidableEq, Inhabited

namespace Cursor

/-- The head of a stream. -/
def ofChars (cs : List Char) : Cursor := ⟨cs, 0, 0, 0⟩

/-- Some characters further on the same line. -/
def advance (c : Cursor) (n : Nat) : Cursor :=
  ⟨c.rest.drop n, c.index + n, c.line, c.column + n⟩

/-- Behind the characters at the head that satisfy a test. -/
def advanceWhile (c : Cursor) (p : Char → Bool) : Cursor := c.advance (c.rest.takeWhile p).length

/-- A given character comes next. -/
def isAt (c : Cursor) (b : Char) : Bool := c.rest.head? = some b

/-- Behind the blanks at the head and a comment, if one follows them. -/
def skipComment (c : Cursor) : Cursor :=
  let c := c.advanceWhile isBlank
  if c.isAt '#' then c.advanceWhile (!isBreak ·) else c

/-- The line break at the head as text, and the cursor behind it. All breaks become
    line feeds except the two separators of lines and paragraphs. -/
def newline (c : Cursor) : List Char × Cursor :=
  let behind (n : Nat) (rest : List Char) : Cursor := ⟨rest, c.index + n, c.line + 1, 0⟩
  match c.rest with
  | '\r' :: '\n' :: rest => (['\n'], behind 2 rest)
  | b :: rest =>
    if isSeparator b then ([b], behind 1 rest)
    else if isBreak b then (['\n'], behind 1 rest)
    else ([], c)
  | [] => ([], c)

/-- A line starts here with three of a character and then a gap. -/
def atRule (c : Cursor) (mark : Char) : Bool :=
  c.column = 0 && c.rest.take 3 = List.replicate 3 mark && atGap (c.rest.drop 3)

/-- A document ends or starts here. -/
def atDocumentMark (c : Cursor) : Bool := c.atRule '-' || c.atRule '.'

end Cursor

end Yaml

end BitLogic
