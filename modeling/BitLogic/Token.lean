import BitLogic.Span
import BitLogic.Text.Quoted

/-!
# Tokens

A token is a kind and the span of the source that it was read from; what it spells
is the source between the two ends of the span. A character that no token starts
with is a token too, of the kind `unexpected`, so that lexing never fails and the
complaint is left to whoever expected something else.

## Main definitions

* `Token.Kind`: The kinds of tokens.
* `Token`: A kind with a span.
* `Token.lexeme?`: What a token spells.
* `Token.Kind.name`, `Token.Kind.text`: A kind in messages, without and with the
  offending character.
* `Token.appendDigit?`: One more digit behind a 64-bit word.
* `Token.numberValue?`: The value of a spelt number that fits a 64-bit word.
-/

namespace BitLogic

namespace Token

/-- What a token is. Kinds that no lexer makes are known by number only. -/
inductive Kind where
  | eof
  | ident
  | number
  | lparen
  | rparen
  | comma
  | whitespace
  | unexpected (char : Int)
  | other (code : Nat)
  deriving Repr, DecidableEq, Inhabited

namespace Kind

/-- The name of a kind. -/
def name : Kind → Text
  | .eof => Text.ofString "Eof"
  | .ident => Text.ofString "Ident"
  | .number => Text.ofString "Number"
  | .lparen => Text.ofString "LParen"
  | .rparen => Text.ofString "RParen"
  | .comma => Text.ofString "Comma"
  | .whitespace => Text.ofString "Whitespace"
  | .unexpected _ => Text.ofString "ErrorUnexpected"
  | .other code => Text.ofString "TokenType(" ++ Text.ofNat code ++ Text.ofString ")"

/-- The name of a kind, with the offending character where there is one. -/
def text : Kind → Text
  | .unexpected c => name (.unexpected c) ++ Text.ofString "(" ++ Quoted.char c ++ Text.ofString ")"
  | k => k.name

end Kind

end Token

/-- A kind of token at a place in the source. -/
structure Token where
  kind : Token.Kind
  span : Span
  deriving Repr, DecidableEq, Inhabited

namespace Token

/-- What the token spells; nothing when its span does not lie in the source. -/
def lexeme? (t : Token) (src : Text) : Option Text := src.slice? t.span.start t.span.stop

/-- The token that ends a source of `n` bytes. -/
def endAt (n : Nat) : Token := ⟨.eof, ⟨n, n⟩⟩

/-- A decimal digit. -/
def isDigit (b : UInt8) : Bool := 48 ≤ b && b ≤ 57

/-- The least word that is no longer a word when it is multiplied by ten. -/
def tooManyTens : UInt64 := 1844674407370955162

/-- The word with one more digit behind it, if that is a word. Multiplying is ruled out
    in advance where it would wrap around; adding the digit has wrapped around if the
    sum is less than what it was added to. -/
def appendDigit? (n : UInt64) (b : UInt8) : Option UInt64 :=
  if isDigit b && n < tooManyTens then
    let tens := n * 10
    let sum := tens + (b - 48).toUInt64
    if sum < tens then none else some sum
  else none

/-- The value of a non-empty run of digits, gathered in an unsigned word and given up
    where it does not fit. -/
def numberValue? (t : Text) : Option Nat :=
  if t.isEmpty then none else (t.foldlM appendDigit? 0).map UInt64.toNat

end Token

end BitLogic
