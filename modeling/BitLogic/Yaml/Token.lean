import BitLogic.Yaml.Scalar

/-!
# The tokens of YAML

A stream as tokens. Indentation becomes tokens too: a block starts where a key or an
entry stands right of the block around it, and ends where the text returns to the
left. A key without a mark of its own is only known for one when the colon behind it
is found; its token is then put in before it, so a key that may still turn out to be
one is remembered for every nesting of flow collections.

The scan goes on to the end of the stream or to the first error, and the tokens
before the error count: a document is complete when it is read up to its end.

## Main definitions

* `Yaml.Token`: The tokens.
* `Yaml.Scanner`: A scan in progress.
* `Yaml.Scanner.fetch?`: The scan after the next token.
* `Yaml.Tokens.ofChars`: The tokens of a stream.
-/

namespace BitLogic

namespace Yaml

/-- The tokens of a stream. -/
inductive Token where
  | streamEnd
  | version (major minor : Nat)
  | handle (name start : Text)
  | documentStart
  | documentEnd
  | blockSequence
  | blockMapping
  | blockEnd
  | flowSequence
  | flowSequenceEnd
  | flowMapping
  | flowMappingEnd
  | entry
  | comma
  | key
  | value
  | alias (name : List Char)
  | anchor (name : List Char)
  | tag (handle rest : Text)
  | scalar (plain : Bool) (text : List Char)
  deriving Repr, DecidableEq, Inhabited

/-- What may turn out to be a key: the number and the place of its first token. One at
    the indentation of its block has to be a key. -/
structure Candidate where
  number : Nat
  index : Nat
  line : Nat
  column : Nat
  required : Bool
  deriving Repr, DecidableEq, Inhabited

/-- A scan in progress. The indentations of the blocks around the current one are
    kept innermost first, and so are the candidates for keys, one place for every
    nesting of flow collections and one for the block around them. -/
structure Scanner where
  cursor : Cursor
  flow : Nat
  indent : Int
  outer : List Int
  keyAllowed : Bool
  candidate : Option Candidate
  candidates : List (Option Candidate)
  tokens : Array Token
  deriving Repr, Inhabited

namespace Scanner

/-- The scan of a stream before its first token. -/
def ofChars (cs : List Char) : Scanner :=
  { cursor := .ofChars cs, flow := 0, indent := -1, outer := [], keyAllowed := true,
    candidate := none, candidates := [], tokens := #[] }

/-- One more token. -/
def push (s : Scanner) (t : Token) : Scanner := { s with tokens := s.tokens.push t }

/-- Some characters further. -/
def advance (s : Scanner) (n : Nat) : Scanner := { s with cursor := s.cursor.advance n }

/-- One more token of some length. -/
def emit (s : Scanner) (t : Token) (length : Nat) : Scanner := (s.advance length).push t

/-- At the next comment, if nothing but blanks and line breaks stands before it. -/
def nextComment? : Nat → Cursor → Option Cursor
  | 0, _ => none
  | steps + 1, c =>
    let c := c.advanceWhile isBlank
    if c.isAt '#' then some c
    else if atBreak c.rest then nextComment? steps c.newline.2
    else none

/-- Behind a comment and those that follow it, at the end of the last one's line. -/
def skipComments : Nat → Cursor → Cursor
  | 0, c => c
  | steps + 1, c =>
    let c := c.advanceWhile (!isBreak ·)
    match nextComment? (c.rest.length + 1) c with
    | some d => skipComments steps d
    | none => c

/-- Passes over blanks, comments and line breaks. Tabs only pass where no key may
    start; behind a line break in a block a key may. -/
def skipLoop : Nat → Scanner → Scanner
  | 0, s => s
  | steps + 1, s =>
    let c := s.cursor
    let c := if c.column = 0 && c.isAt '\ufeff' then c.advance 1 else c
    let c := c.advanceWhile fun b => b = ' ' || (b = '\t' && (0 < s.flow || !s.keyAllowed))
    let c := if c.isAt '#' then skipComments (c.rest.length + 1) c else c
    if atBreak c.rest then
      skipLoop steps { s with cursor := c.newline.2, keyAllowed := s.flow = 0 || s.keyAllowed }
    else { s with cursor := c }

/-- Passes over what stands between tokens. -/
def skip (s : Scanner) : Scanner := skipLoop (s.cursor.rest.length + 1) s

/-- Passes over a comment on the line of a token. -/
def skipLineComment (s : Scanner) : Scanner :=
  if (s.cursor.advanceWhile isBlank).isAt '#' then { s with cursor := s.cursor.skipComment } else s

/-- Ends the blocks that stand right of a column. -/
def unrollLoop (column : Int) : List Int → Scanner → Scanner
  | [], s => s
  | i :: is, s =>
    if column < s.indent then
      unrollLoop column is { s.push .blockEnd with indent := i, outer := is }
    else s

/-- Ends the blocks that stand right of a column, except inside a flow collection. -/
def unroll (s : Scanner) (column : Int) : Scanner :=
  if 0 < s.flow then s else unrollLoop column s.outer s

/-- Starts a block at a column if it is right of the current one, the token that says
    so standing at a given number. -/
def roll (s : Scanner) (column number : Nat) (t : Token) : Scanner :=
  if 0 < s.flow || (column : Int) ≤ s.indent then s
  else { s with
    indent := column, outer := s.indent :: s.outer
    tokens := s.tokens.insertIdxIfInBounds number t }

/-- Gives up the current candidate, unless it has to be a key. -/
def dropCandidate? (s : Scanner) : Option Scanner :=
  match s.candidate with
  | some k => if k.required then none else some { s with candidate := none }
  | none => some s

/-- The next token may be a key, if one is allowed here. -/
def saveCandidate? (s : Scanner) : Option Scanner :=
  if s.keyAllowed then do
    let s ← s.dropCandidate?
    let c := s.cursor
    let required := s.flow = 0 && s.indent = c.column
    return { s with candidate := some ⟨s.tokens.size, c.index, c.line, c.column, required⟩ }
  else some s

/-- The candidate that the current place leaves possible: a key fits on one line and
    has at most 1024 characters. The result is none if a candidate that had to be a key
    no longer can. -/
def liveCandidate? (s : Scanner) : Option (Option Candidate) :=
  match s.candidate with
  | none => some none
  | some k =>
    if k.line < s.cursor.line || k.index + 1024 < s.cursor.index then
      (if k.required then none else some none)
    else some (some k)

/-- Ends all blocks, gives up the candidate, and allows no key. -/
def settle? (s : Scanner) : Option Scanner := do
  let s ← (s.unroll (-1)).dropCandidate?
  return { s with keyAllowed := false }

/-- The end of the stream, which is at the start of a line. -/
def fetchEnd? (s : Scanner) : Option Scanner := do
  return (← s.settle?).push .streamEnd

/-- The mark before or behind a document. -/
def fetchDocumentMark? (s : Scanner) (t : Token) : Option Scanner := do
  return (← s.settle?).emit t 3

/-- The head of a flow collection, which may be a key as a whole. -/
def fetchFlowStart? (s : Scanner) (t : Token) : Option Scanner := do
  let s ← s.saveCandidate?
  return { s.emit t 1 with
    flow := s.flow + 1, candidate := none, candidates := s.candidate :: s.candidates,
    keyAllowed := true }

/-- The end of a flow collection. -/
def fetchFlowEnd? (s : Scanner) (t : Token) : Option Scanner := do
  let s ← s.dropCandidate?
  let s := { s.emit t 1 with keyAllowed := false }
  match s.candidates with
  | k :: ks => return { s with flow := s.flow - 1, candidate := k, candidates := ks }
  | [] => return s

/-- A comma. -/
def fetchComma? (s : Scanner) : Option Scanner := do
  return { (← s.dropCandidate?).emit .comma 1 with keyAllowed := true }

/-- The mark of an entry in a block sequence. -/
def fetchEntry? (s : Scanner) : Option Scanner := do
  guard (0 < s.flow || s.keyAllowed)
  let s ← (s.roll s.cursor.column s.tokens.size .blockSequence).dropCandidate?
  return { s.emit .entry 1 with keyAllowed := true }

/-- The mark of a key. -/
def fetchKey? (s : Scanner) : Option Scanner := do
  guard (0 < s.flow || s.keyAllowed)
  let s ← (s.roll s.cursor.column s.tokens.size .blockMapping).dropCandidate?
  return { s.emit .key 1 with keyAllowed := s.flow = 0 }

/-- The mark of a value. If there is a candidate, it was a key, and the mapping that it
    belongs to may start with it. -/
def fetchValue? (s : Scanner) : Option Scanner := do
  match ← s.liveCandidate? with
  | some k =>
    let s := { s with candidate := none, tokens := s.tokens.insertIdxIfInBounds k.number .key }
    return { (s.roll k.column k.number .blockMapping).emit .value 1 with keyAllowed := false }
  | none =>
    let s := { s with candidate := none }
    guard (0 < s.flow || s.keyAllowed)
    let s := s.roll s.cursor.column s.tokens.size .blockMapping
    return { s.emit .value 1 with keyAllowed := s.flow = 0 }

/-- A token that may be a key, read by a function that gives it with the cursor behind
    it. -/
def fetchCandidate? (s : Scanner) (read : Cursor → Option (Token × Cursor)) : Option Scanner := do
  let s ← s.saveCandidate?
  let (t, c) ← read s.cursor
  return { s.push t with cursor := c, keyAllowed := false }

/-- A plain scalar. If a line ended behind it, a key may follow. -/
def fetchPlain? (s : Scanner) : Option Scanner := do
  let s ← s.saveCandidate?
  let p ← plain? (0 < s.flow) s.indent s.cursor
  return { s.push (.scalar true p.text) with
    cursor := p.cursor, keyAllowed := p.broken }

/-- A quoted scalar. -/
def fetchQuoted? (s : Scanner) (q : Quote) : Option Scanner :=
  s.fetchCandidate? fun c =>
    (quoted? q (c.advance 1)).map fun (text, c) => (.scalar false text, c)

/-- A block scalar. -/
def fetchBlock? (s : Scanner) (folded : Bool) : Option Scanner := do
  let s ← s.dropCandidate?
  let (text, c) ← block? folded s.indent (s.cursor.advance 1)
  return { s.push (.scalar false text) with cursor := c, keyAllowed := true }

/-- An anchor or an alias: the name behind its mark, which a gap or one of a few marks
    has to follow. -/
def readName? (make : List Char → Token) (c : Cursor) : Option (Token × Cursor) := do
  let c := c.advance 1
  let name := c.rest.takeWhile isWord
  let c := c.advance name.length
  let ends := ['?', ':', ',', ']', '\x7d', '%', '@', '\x60'].any c.isAt
  guard (!name.isEmpty && (atGap c.rest || ends))
  return (make name, c)

/-- The escaped bytes of one character in a tag. -/
def uriBytes? : Nat → List Char → Option (Text × List Char)
  | 0, cs => some ([], cs)
  | n + 1, '%' :: a :: b :: rest => do
    let byte ← Numeral.inBase? 16 [a, b]
    let (bytes, rest) ← uriBytes? n rest
    return (UInt8.ofNat byte :: bytes, rest)
  | _, _ => none

/-- How many bytes a character takes, by its first byte. -/
def sequenceLength? (b : UInt8) : Option Nat :=
  if b < 0x80 then some 1
  else if 0xC0 ≤ b && b < 0xE0 then some 2
  else if 0xE0 ≤ b && b < 0xF0 then some 3
  else if 0xF0 ≤ b && b < 0xF8 then some 4
  else none

/-- A character of a tag. -/
def isUri (c : Char) : Bool :=
  isWord c ||
    [';', '/', '?', ':', '@', '&', '=', '+', '$', ',', '.', '!', '~', '*', '\x27', '(', ')', '[',
      ']'].contains c

/-- The rest of a tag. A percent sign starts an escaped character. -/
def uriLoop : Nat → List Char → Option (Text × List Char)
  | 0, _ => none
  | steps + 1, cs =>
    match cs with
    | [] => some ([], [])
    | '%' :: _ => do
      let (first, _) ← uriBytes? 1 cs
      let length ← first.head?.bind sequenceLength?
      let (bytes, rest) ← uriBytes? length cs
      guard ((bytes.drop 1).all Utf8.isTail)
      let (more, rest) ← uriLoop steps rest
      return (bytes ++ more, rest)
    | c :: rest =>
      if isUri c then do
        let (more, rest) ← uriLoop steps rest
        return (Utf8.encode c.toNat ++ more, rest)
      else some ([], cs)

/-- The rest of a tag and the cursor behind it. -/
def uri? (c : Cursor) : Option (Text × Cursor) :=
  (uriLoop (c.rest.length + 1) c.rest).map fun (text, rest) =>
    (text, c.advance (c.rest.length - rest.length))

/-- The handle of a tag: a name between exclamation marks, of which the second one may
    be missing. -/
def handle? (c : Cursor) : Option (List Char × Cursor) :=
  if c.isAt '!' then
    let name := (c.rest.drop 1).takeWhile isWord
    let c := c.advance (name.length + 1)
    if c.isAt '!' then some ('!' :: name ++ ['!'], c.advance 1) else some ('!' :: name, c)
  else none

/-- A handle that is closed by a second exclamation mark. -/
def isClosed (handle : List Char) : Bool := 1 < handle.length && handle.getLast? = some '!'

/-- A tag: given whole between angle brackets, or as a handle with more behind it, or
    as a lone exclamation mark. -/
def readTag? (c : Cursor) : Option (Token × Cursor) := do
  let (t, c) ←
    if (c.advance 1).isAt '<' then do
      let (text, c) ← uri? (c.advance 2)
      guard (!text.isEmpty && c.isAt '>')
      pure (Token.tag [] text, c.advance 1)
    else do
      let (handle, c) ← handle? c
      let (more, c) ← uri? c
      if isClosed handle then do
        guard (!more.isEmpty)
        pure (Token.tag (Utf8.ofChars handle) more, c)
      else
        let mark := Text.ofString "!"
        let text := Utf8.ofChars (handle.drop 1) ++ more
        pure (if text.isEmpty then Token.tag [] mark else Token.tag mark text, c)
  guard (atGap c.rest)
  return (t, c)

/-- A number of a version: one or two digits. -/
def versionNumber? (c : Cursor) : Option (Nat × Cursor) :=
  let digits := c.rest.takeWhile Char.isDigit
  if digits.isEmpty || 2 < digits.length then none
  else some (Numeral.decimalValue digits, c.advance digits.length)

/-- The version or tag handle that a directive declares. -/
def readDirective? (c : Cursor) : Option (Token × Cursor) := do
  let name := (c.rest.drop 1).takeWhile isWord
  let c := c.advance (name.length + 1)
  guard (!name.isEmpty && atGap c.rest)
  let c := c.advanceWhile isBlank
  if name = ['Y', 'A', 'M', 'L'] then
    let (major, c) ← versionNumber? c
    guard (c.isAt '.')
    let (minor, c) ← versionNumber? (c.advance 1)
    return (.version major minor, c)
  else if name = ['T', 'A', 'G'] then
    let (handle, c) ← handle? c
    guard (handle = ['!'] || isClosed handle)
    guard ((c.rest.head?.map isBlank).getD false)
    let (text, c) ← uri? (c.advanceWhile isBlank)
    guard (!text.isEmpty && atGap c.rest)
    return (.handle (Utf8.ofChars handle) text, c)
  else none

/-- A directive, which has a line of its own. -/
def fetchDirective? (s : Scanner) : Option Scanner := do
  let s ← s.settle?
  let (t, c) ← readDirective? s.cursor
  let c := c.skipComment
  guard (atLineEnd c.rest)
  return { s.push t with cursor := c.newline.2 }

/-- A character that cannot start a plain scalar, or only under conditions. -/
def isMark (c : Char) : Bool :=
  ['-', '?', ':', ',', '[', ']', '\x7b', '\x7d', '#', '&', '*', '!', '|', '>', '\x27', '\x22', '%',
    '@', '\x60'].contains c

/-- The next token by its first character `b`, the characters behind it being `rest`. -/
def fetchAt? (s : Scanner) (b : Char) (rest : List Char) : Option Scanner :=
  let inFlow := 0 < s.flow
  if b = '[' then s.fetchFlowStart? .flowSequence
  else if b = '\x7b' then s.fetchFlowStart? .flowMapping
  else if b = ']' then s.fetchFlowEnd? .flowSequenceEnd
  else if b = '\x7d' then s.fetchFlowEnd? .flowMappingEnd
  else if b = ',' then s.fetchComma?
  else if b = '-' && atGap rest then s.fetchEntry?
  else if b = '?' && (inFlow || atGap rest) then s.fetchKey?
  else if b = ':' && (inFlow || atGap rest) then s.fetchValue?
  else if b = '*' then s.fetchCandidate? (readName? .alias)
  else if b = '&' then s.fetchCandidate? (readName? .anchor)
  else if b = '!' then s.fetchCandidate? readTag?
  else if b = '|' && !inFlow then s.fetchBlock? false
  else if b = '>' && !inFlow then s.fetchBlock? true
  else if b = Quote.single.mark then s.fetchQuoted? .single
  else if b = Quote.double.mark then s.fetchQuoted? .double
  else if !(isSpace b || isMark b) || b = '-' || (!inFlow && (b = '?' || b = ':')) then
    s.fetchPlain?
  else none

/-- The scan after the next token, which the ends of blocks may come before. -/
def fetch? (s : Scanner) : Option Scanner :=
  let s := s.skip
  let s := s.unroll s.cursor.column
  match s.cursor.rest with
  | [] => s.fetchEnd?
  | b :: rest =>
    if s.cursor.column = 0 && b = '%' then s.fetchDirective?
    else if s.cursor.atRule '-' then s.fetchDocumentMark? .documentStart
    else if s.cursor.atRule '.' then s.fetchDocumentMark? .documentEnd
    else (s.fetchAt? b rest).map fun s =>
      if s.tokens.back? = some .entry then s else s.skipLineComment

/-- The tokens of the rest of the stream, and whether its end was reached. -/
def run : Nat → Scanner → Array Token × Bool
  | 0, s => (s.tokens, false)
  | steps + 1, s =>
    match s.fetch? with
    | none => (s.tokens, false)
    | some s => if s.tokens.back? = some .streamEnd then (s.tokens, true) else run steps s

end Scanner

/-- The tokens of a stream, up to its end or up to an error. -/
structure Tokens where
  list : List Token
  complete : Bool
  deriving Repr, Inhabited

namespace Tokens

/-- The tokens of a stream. Every token but the last takes a character. -/
def ofChars (cs : List Char) : Tokens :=
  let (tokens, complete) := Scanner.run (cs.length + 1) (Scanner.ofChars cs)
  ⟨tokens.toList, complete⟩

end Tokens

end Yaml

end BitLogic
