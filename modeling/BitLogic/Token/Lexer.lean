import BitLogic.Token
import BitLogic.Text.Utf8

/-!
# Lexing

A lexer holds the bytes it has not read and the number of bytes it has. Reading a
raw token takes the longest run of blanks, digits or letters at the head of the
rest, or else a single character; at the end of the source there is one token
more, the empty `eof`, and after it none. The classes hold ASCII characters only,
so a run of characters is a run of bytes.

Blanks separate tokens and are dropped: `next?` skips them, `tokens` never shows
them.

## Main definitions

* `Lexer`: The rest of a source and how far it has been read.
* `Lexer.scan?`: The next raw token, blanks included.
* `Lexer.next?`: The next token that is not blank.
* `Lexer.run`: All tokens that are left.
* `lex`: The tokens of a source.

## Theorems

* `Lexer.left_scan?`, `Lexer.left_next?`: Reading a token leaves less to read.
-/

namespace BitLogic

/-- The rest of a source, the number of bytes read before it, and whether the end
    has been announced. -/
structure Lexer where
  rest : Text
  offset : Nat
  done : Bool
  deriving Repr, DecidableEq, Inhabited

namespace Lexer

/-- A lexer at the start of a source. -/
def ofSource (src : Text) : Lexer := ⟨src, 0, false⟩

/-- Space, tab, line feed, form feed and carriage return. -/
def isSpace (b : UInt8) : Bool := b == 32 || b == 9 || b == 10 || b == 12 || b == 13

/-- An ASCII letter of either case. -/
def isLetter (b : UInt8) : Bool := (97 ≤ b && b ≤ 122) || (65 ≤ b && b ≤ 90)

/-- The kind of token that a byte is the whole of. -/
def symbol? (b : UInt8) : Option Token.Kind :=
  if b = 40 then some .lparen
  else if b = 41 then some .rparen
  else if b = 44 then some .comma
  else none

/-- The kind and the number of bytes of the raw token that starts with the byte
    `b`. -/
def classify (b : UInt8) (rest : Text) : Token.Kind × Nat :=
  if isSpace b then (.whitespace, 1 + (rest.takeWhile isSpace).length)
  else if Token.isDigit b then (.number, 1 + (rest.takeWhile Token.isDigit).length)
  else if isLetter b then (.ident, 1 + (rest.takeWhile isLetter).length)
  else match symbol? b with
    | some k => (k, 1)
    | none => let r := Utf8.decode b rest; (.unexpected r.code, r.width)

/-- The next raw token, blanks included, and the lexer behind it. -/
def scan? (l : Lexer) : Option (Token × Lexer) :=
  if l.done then none
  else match l.rest with
    | [] => some (.endAt l.offset, { l with done := true })
    | b :: rest =>
      let (kind, n) := classify b rest
      some (⟨kind, ⟨l.offset, l.offset + n⟩⟩, ⟨rest.drop (n - 1), l.offset + n, false⟩)

/-- How many raw tokens are left at most. -/
def left (l : Lexer) : Nat := if l.done then 0 else l.rest.length + 1

/-- Reading a raw token leaves less to read. -/
theorem left_scan? {l l' : Lexer} {t : Token} (h : l.scan? = some (t, l')) : l'.left < l.left := by
  unfold scan? at h
  split at h
  · simp at h
  · next hdone =>
    have hleft : l.left = l.rest.length + 1 := by simp [left, hdone]
    split at h
    · simp only [Option.some.injEq, Prod.mk.injEq] at h
      rw [hleft, ← h.2]
      simp [left]
    · next b rest hrest =>
      simp only [Option.some.injEq, Prod.mk.injEq] at h
      rw [hleft, ← h.2, hrest]
      simp only [left, List.length_drop, List.length_cons]
      split <;> omega

/-- The next token that is not blank, and the lexer behind it. -/
def next? (l : Lexer) : Option (Token × Lexer) :=
  match _h : l.scan? with
  | none => none
  | some (t, l') => if t.kind = .whitespace then l'.next? else some (t, l')
termination_by l.left
decreasing_by exact left_scan? _h

/-- The raw tokens that are left, blanks included. -/
def raw (l : Lexer) : List Token :=
  match _h : l.scan? with
  | none => []
  | some (t, l') => t :: l'.raw
termination_by l.left
decreasing_by exact left_scan? _h

/-- Skipping blanks does not add to what is left. -/
theorem left_next? {l l' : Lexer} {t : Token} (h : l.next? = some (t, l')) : l'.left < l.left := by
  fun_induction next? l with
  | case1 => simp at h
  | case2 l u m hscan _ ih => exact Nat.lt_trans (ih h) (left_scan? hscan)
  | case3 l u m hscan _ =>
    simp only [Option.some.injEq, Prod.mk.injEq] at h
    rw [← h.2]
    exact left_scan? hscan

/-- All tokens that are left. The lexer behind them is at its end. -/
def run (l : Lexer) : List Token × Lexer :=
  match _h : l.next? with
  | none => ([], l)
  | some (t, l') =>
    let (ts, last) := l'.run
    (t :: ts, last)
termination_by l.left
decreasing_by exact left_next? _h

end Lexer

/-- The tokens of a source, the last of them `eof`. -/
def lex (src : Text) : List Token := (Lexer.ofSource src).run.1

end BitLogic
