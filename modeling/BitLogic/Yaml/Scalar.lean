import BitLogic.Text.Numeral
import BitLogic.Yaml.Cursor

/-!
# The scalars of YAML

A scalar is plain, quoted once or twice, or a block that keeps or folds its lines.
Lines of the first kinds are folded: one line break between words becomes a space,
and of several the first one goes. Each reader starts behind the mark that announced
the scalar and gives its text with the cursor behind it.

## Main definitions

* `Yaml.Gap`: Blanks and line breaks between the words of a scalar.
* `Yaml.plain?`: A scalar without quotes.
* `Yaml.quoted?`: The rest of a scalar in quotes.
* `Yaml.block?`: The rest of a block scalar.
-/

namespace BitLogic

namespace Yaml

/-- Blanks and line breaks between the words of a scalar: the blanks as long as there
    is no break, then the first break and the others. -/
structure Gap where
  blanks : List Char := []
  first : List Char := []
  more : List Char := []
  broken : Bool := false
  deriving Repr, DecidableEq, Inhabited

namespace Gap

/-- What a gap between two words turns into. -/
def fold (g : Gap) : List Char :=
  if !g.broken then g.blanks
  else if g.first.head? = some '\n' then (if g.more.isEmpty then [' '] else g.more)
  else g.first ++ g.more

/-- Reads on through a gap. Behind a break, a tab may not stand left of the column
    `margin`. -/
def readLoop (margin : Int) : Nat → Gap → Cursor → Option (Gap × Cursor)
  | 0, _, _ => none
  | steps + 1, g, c =>
    match c.rest with
    | [] => some (g, c)
    | b :: _ =>
      if isBlank b then
        if g.broken && c.column < margin && b = '\t' then none
        else
          let g := if g.broken then g else { g with blanks := g.blanks ++ [b] }
          readLoop margin steps g (c.advance 1)
      else if isBreak b then
        let (text, c) := c.newline
        let g := if g.broken then { g with more := g.more ++ text }
          else { g with blanks := [], first := text, broken := true }
        readLoop margin steps g c
      else some (g, c)

/-- Reads on through a gap. -/
def read? (margin : Int) (g : Gap) (c : Cursor) : Option (Gap × Cursor) :=
  readLoop margin (c.rest.length + 1) g c

end Gap

/-- A character that ends a plain scalar in a flow collection. -/
def isFlowMark (c : Char) : Bool := [',', '?', '[', ']', '\x7b', '\x7d'].contains c

/-- How many characters at the head belong to a word of a plain scalar. A colon ends
    the word if a gap follows it. -/
def wordLength (inFlow : Bool) : List Char → Nat
  | [] => 0
  | c :: cs =>
    if isSpace c || (c = ':' && atGap cs) || (inFlow && isFlowMark c) then 0
    else wordLength inFlow cs + 1

/-- A plain scalar: its text, the cursor behind it, and whether a line ended behind its
    last word. -/
structure Plain where
  text : List Char
  cursor : Cursor
  broken : Bool
  deriving Repr, Inhabited

/-- Reads on in a plain scalar; `gap` is what was read behind the last word. The words
    on further lines stand at the column `margin` or right of it. -/
def plainLoop (inFlow : Bool) (margin : Int) : Nat → List Char → Gap → Cursor → Option Plain
  | 0, _, _, _ => none
  | steps + 1, text, gap, c =>
    let length := wordLength inFlow c.rest
    if c.atDocumentMark || c.isAt '#' || length = 0 then some ⟨text, c, gap.broken⟩
    else
      let text := text ++ gap.fold ++ c.rest.take length
      let c := c.advance length
      if c.rest.isEmpty || !atGap c.rest then some ⟨text, c, false⟩
      else do
        let (gap, c) ← Gap.read? margin {} c
        if !inFlow && c.column < margin then return ⟨text, c, gap.broken⟩
        plainLoop inFlow margin steps text gap c

/-- The plain scalar at a cursor, inside a block of the given indentation. -/
def plain? (inFlow : Bool) (indent : Int) (c : Cursor) : Option Plain :=
  plainLoop inFlow (indent + 1) (c.rest.length + 1) [] {} c

/-- What the character behind a backslash stands for. -/
def escapes : List (Char × Char) :=
  [('0', '\x00'), ('a', '\x07'), ('b', '\x08'), ('t', '\t'), ('\t', '\t'), ('n', '\n'),
    ('v', '\x0b'), ('f', '\x0c'), ('r', '\r'), ('e', '\x1b'), (' ', ' '), ('\x22', '\x22'),
    ('\x27', '\x27'), ('\\', '\\'), ('N', '\u0085'), ('_', '\u00a0'), ('L', '\u2028'),
    ('P', '\u2029')]

/-- The escapes that give a code point in digits, and how many these are. -/
def codeEscapes : List (Char × Nat) := [('x', 2), ('u', 4), ('U', 8)]

/-- The character of an escape with a fixed number of hexadecimal digits. -/
def escapedCode? (width : Nat) (cs : List Char) : Option Char := do
  let digits := cs.take width
  guard (digits.length = width)
  let code ← Numeral.inBase? 16 digits
  guard (Utf8.isScalar code)
  return Char.ofNat code

/-- The character of an escape and its length, the text starting behind the
    backslash. -/
def escape? : List Char → Option (Char × Nat)
  | [] => none
  | c :: cs =>
    match escapes.lookup c, codeEscapes.lookup c with
    | some d, _ => some (d, 1)
    | none, some width => (escapedCode? width cs).map fun d => (d, width + 1)
    | none, none => none

/-- The kinds of quotes. -/
inductive Quote where
  | single
  | double
  deriving Repr, DecidableEq, Inhabited

/-- The character of a quote. -/
def Quote.mark : Quote → Char
  | .single => '\x27'
  | .double => '\x22'

/-- The characters of a quoted scalar up to a gap, the closing quote or a backslash at
    the end of a line. In the last case the cursor is behind that line, and a gap has
    begun. A single quote is written twice, a double one with a backslash. -/
def quotedWordLoop (q : Quote) :
    Nat → List Char → Cursor → Option (List Char × Bool × Cursor)
  | 0, _, _ => none
  | steps + 1, text, c =>
    match c.rest with
    | [] => some (text, false, c)
    | b :: rest =>
      if isSpace b then some (text, false, c)
      else if q = .single && b = q.mark && rest.head? = some q.mark then
        quotedWordLoop q steps (text ++ [b]) (c.advance 2)
      else if b = q.mark then some (text, false, c)
      else if q = .single || b ≠ '\\' then quotedWordLoop q steps (text ++ [b]) (c.advance 1)
      else if atBreak rest then some (text, true, (c.advance 1).newline.2)
      else do
        let (d, length) ← escape? rest
        quotedWordLoop q steps (text ++ [d]) (c.advance (length + 1))

/-- Reads on in a quoted scalar. No document may end or start inside it. -/
def quotedLoop (q : Quote) : Nat → List Char → Cursor → Option (List Char × Cursor)
  | 0, _, _ => none
  | steps + 1, text, c =>
    if c.atDocumentMark || c.rest.isEmpty then none
    else do
      let (word, joined, c) ← quotedWordLoop q (c.rest.length + 1) [] c
      let text := text ++ word
      if c.isAt q.mark then return (text, c.advance 1)
      let (gap, c) ← Gap.read? (-1) { broken := joined } c
      quotedLoop q steps (text ++ gap.fold) c

/-- The rest of a scalar in quotes, behind the first of them. -/
def quoted? (q : Quote) (c : Cursor) : Option (List Char × Cursor) :=
  quotedLoop q (c.rest.length + 1) [] c

/-- What becomes of the line breaks at the end of a block scalar. -/
inductive Chomp where
  | strip
  | clip
  | keep
  deriving Repr, DecidableEq, Inhabited

/-- The sign for keeping or stripping the last breaks. -/
def chomp? (c : Cursor) : Option Chomp :=
  if c.isAt '+' then some .keep
  else if c.isAt '-' then some .strip
  else none

/-- The digit that sets the indentation. Zero is refused. -/
def indentation? (c : Cursor) : Option (Nat × Cursor) :=
  match c.rest with
  | d :: _ =>
    if d = '0' then none
    else if d.isDigit then some (Numeral.decimalValue [d], c.advance 1)
    else some (0, c)
  | [] => some (0, c)

/-- The signs behind the mark of a block scalar, in either order. An indentation of
    zero means that the text shows it. -/
def blockHead? (c : Cursor) : Option (Chomp × Nat × Cursor) :=
  match chomp? c with
  | some chomp => (indentation? (c.advance 1)).map fun (n, c) => (chomp, n, c)
  | none => do
    let (n, d) ← indentation? c
    match if n = 0 then none else chomp? d with
    | some chomp => return (chomp, n, d.advance 1)
    | none => return (.clip, n, d)

/-- Reads through the empty lines and the indentation before a line of a block
    scalar. An indentation of zero is not known yet; `widest` is the widest one seen
    so far. Tabs may not stand inside the indentation. -/
def blockBreaksLoop (indent : Nat) :
    Nat → List Char → Nat → Cursor → Option (List Char × Nat × Cursor)
  | 0, _, _, _ => none
  | steps + 1, breaks, widest, c =>
    let spaces := (c.rest.takeWhile (· = ' ')).length
    let c := c.advance (if indent = 0 then spaces else min spaces (indent - c.column))
    let widest := max widest c.column
    if (indent = 0 || c.column < indent) && c.isAt '\t' then none
    else if atBreak c.rest then
      let (text, c) := c.newline
      blockBreaksLoop indent steps (breaks ++ text) widest c
    else some (breaks, widest, c)

/-- The empty lines before a line of a block scalar, the indentation of the scalar,
    which is settled now if it was not known, and the cursor behind them. -/
def blockBreaks? (outer : Int) (indent : Nat) (c : Cursor) : Option (List Char × Nat × Cursor) :=
  (blockBreaksLoop indent (c.rest.length + 1) [] 0 c).map fun (breaks, widest, c) =>
    (breaks, if indent = 0 then max (max widest (outer + 1).toNat) 1 else indent, c)

/-- What has been read of a block scalar: its text, the break behind the last line, the
    empty lines behind that, and whether the last line started with a blank. -/
structure Block where
  text : List Char := []
  last : List Char := []
  breaks : List Char := []
  wasBlank : Bool := false
  deriving Repr, DecidableEq, Inhabited

namespace Block

/-- What stands between the last line and the next one. Lines that start with a blank
    are never folded into one. -/
def joint (b : Block) (folded startsBlank : Bool) : List Char :=
  if folded && !b.wasBlank && !startsBlank && b.last.head? = some '\n' then
    (if b.breaks.isEmpty then [' '] else b.breaks)
  else b.last ++ b.breaks

/-- The whole text, with as many of the last breaks as are wanted. -/
def close (b : Block) : Chomp → List Char
  | .strip => b.text
  | .clip => b.text ++ b.last
  | .keep => b.text ++ b.last ++ b.breaks

end Block

/-- Reads on in a block scalar as long as lines stand at its indentation. -/
def blockLoop (folded : Bool) (outer : Int) (indent : Nat) :
    Nat → Block → Cursor → Option (Block × Cursor)
  | 0, _, _ => none
  | steps + 1, b, c =>
    if c.column = indent && !c.rest.isEmpty then do
      let startsBlank := (c.rest.head?.map isBlank).getD false
      let line := c.rest.takeWhile (!isBreak ·)
      let (last, c) := (c.advance line.length).newline
      let (breaks, _, c) ← blockBreaks? outer indent c
      let text := b.text ++ b.joint folded startsBlank ++ line
      blockLoop folded outer indent steps ⟨text, last, breaks, startsBlank⟩ c
    else some (b, c)

/-- The rest of a block scalar behind its mark, in a block of the given indentation.
    Only a comment may stand on the line of the mark. -/
def block? (folded : Bool) (outer : Int) (c : Cursor) : Option (List Char × Cursor) := do
  let (chomp, increment, c) ← blockHead? c
  let c := c.skipComment
  guard (atLineEnd c.rest)
  let c := c.newline.2
  let indent := if increment = 0 then 0 else outer.toNat + increment
  let (breaks, indent, c) ← blockBreaks? outer indent c
  let (b, c) ← blockLoop folded outer indent (c.rest.length + 1) { breaks } c
  return (b.close chomp, c)

end Yaml

end BitLogic
