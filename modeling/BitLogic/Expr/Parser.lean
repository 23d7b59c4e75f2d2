import BitLogic.Expr
import BitLogic.Fault
import BitLogic.Token.Lexer

/-!
# Parsing

The grammar is

    Program := Number Number* Expr Eof
    Expr    := Ident [ '(' [ Expr { ',' Expr } ] ')' ]

where the leading number says how many bits follow. One token of lookahead decides
everything, so the parser is a machine with a stack: its phase says what may come
next, the calls that are still open are stacked, and every token is either taken,
which gives the next phase, or refused, which ends the run. A refused token is not
consumed. A token may also be taken and then turn out to be wrong, when what it
spells is no number that fits.

A parser can be run again after it has stopped and goes on where it stopped. The
token that it refused is still its lookahead, and `eof` is refused by every phase,
so nothing behind an `eof` is ever read.

## Main definitions

* `Parser.Phase`: What may come next.
* `Parser.take?`: The phase after a token, if the token is taken.
* `Parser.refuse`: How a run ends at a token that is not taken.
* `Parser`: A source, the lookahead, and the tokens not yet fetched.
* `Parser.pending`: The tokens that are still to be consumed.
* `Parser.peek`, `Parser.next`: The token ahead, and the parser behind it.
* `Parser.run`: One run and the parser after it.
* `parse`: The program of a source.

## Theorems

* `Parser.takeAfter?_eof`, `Parser.take?_eof`: No phase takes `eof`.
* `Parser.length_pending_next`: Consuming a token leaves fewer of them.
-/

namespace BitLogic

namespace Parser

/-- A call whose arguments are being read, the last argument first. -/
structure Frame where
  ident : Ident
  args : List Expr
  deriving Repr, Inhabited

/-- What may come next. Bits are gathered last one first; the innermost open call
    is the head of the stack. -/
inductive Phase where
  | count
  | bits (left : Nat) (gathered : List Bool)
  | operand (bits : List Bool) (stack : List Frame)
  | named (bits : List Bool) (stack : List Frame) (ident : Ident)
  | opened (bits : List Bool) (stack : List Frame) (ident : Ident)
  | complete (bits : List Bool) (stack : List Frame) (expr : Expr)
  deriving Repr, Inhabited

/-- The phase in which `left` more bits are wanted. -/
def Phase.wanting (left : Nat) (gathered : List Bool) : Phase :=
  if left = 0 then .operand gathered.reverse [] else .bits left gathered

/-- The value that a number token spells. -/
def valueOf (src : Text) (t : Token) : Except Stop Nat :=
  match t.lexeme? src with
  | none => .error (.breach .outOfRange)
  | some s =>
    match Token.numberValue? s with
    | none => .error (.fault ⟨.number, t.span⟩)
    | some n => .ok n

/-- After the leading number. -/
def takeCount (src : Text) (t : Token) : Except Stop Phase := do
  let n ← valueOf src t
  if maxArgs < n then .error (.fault ⟨.argLimit, t.span⟩)
  else .ok (.wanting n [])

/-- After a bit. -/
def takeBit (src : Text) (left : Nat) (gathered : List Bool) (t : Token) : Except Stop Phase := do
  let n ← valueOf src t
  if 1 < n then .error (.fault ⟨.badBit, t.span⟩)
  else .ok (.wanting (left - 1) (decide (n = 1) :: gathered))

/-- After an identifier. -/
def takeIdent (src : Text) (bits : List Bool) (stack : List Frame) (t : Token) :
    Except Stop Phase :=
  match t.lexeme? src with
  | none => .error (.breach .outOfRange)
  | some name => .ok (.named bits stack ⟨name, t.span⟩)

/-- The call that a closing parenthesis completes, its arguments given last one
    first. -/
def closeCall (ident : Ident) (args : List Expr) (t : Token) : Expr :=
  .call ident args.reverse (ident.span.cover t.span)

/-- After a complete expression: a comma asks for another argument and a closing
    parenthesis completes the innermost call. -/
def takeAfter? (bits : List Bool) (stack : List Frame) (e : Expr) (t : Token) :
    Option (Except Stop Phase) :=
  match stack, t.kind with
  | f :: fs, .comma => some (.ok (.operand bits (⟨f.ident, e :: f.args⟩ :: fs)))
  | f :: fs, .rparen => some (.ok (.complete bits fs (closeCall f.ident (e :: f.args) t)))
  | _, _ => none

/-- The phase after a token, if the token is taken. -/
def take? (src : Text) : Phase → Token → Option (Except Stop Phase)
  | .count, t => if t.kind = .number then some (takeCount src t) else none
  | .bits left gathered, t =>
    if t.kind = .number then some (takeBit src left gathered t) else none
  | .operand bits stack, t =>
    if t.kind = .ident then some (takeIdent src bits stack t) else none
  | .named bits stack ident, t =>
    if t.kind = .lparen then some (.ok (.opened bits stack ident))
    else takeAfter? bits stack (.var ident ident.span) t
  | .opened bits stack ident, t =>
    if t.kind = .rparen then some (.ok (.complete bits stack (closeCall ident [] t)))
    else if t.kind = .ident then some (takeIdent src bits (⟨ident, []⟩ :: stack) t)
    else none
  | .complete bits stack e, t => takeAfter? bits stack e t

/-- How a run ends when an expression is complete and the next token is not
    taken. -/
def refuseAfter (bits : List Bool) (stack : List Frame) (e : Expr) (t : Token) :
    Except Stop Program :=
  if stack.isEmpty then
    if t.kind = .eof then .ok ⟨bits, e⟩ else .error (.fault ⟨.trailing t.kind, t.span⟩)
  else .error (.fault ⟨.tokenAmong [.comma, .rparen] t.kind, t.span⟩)

/-- How a run ends at a token that is not taken. -/
def refuse : Phase → Token → Except Stop Program
  | .count, t => .error (.fault ⟨.token .number t.kind, t.span⟩)
  | .bits _ _, t => .error (.fault ⟨.missingBit t.kind, t.span⟩)
  | .operand _ _, t => .error (.fault ⟨.token .ident t.kind, t.span⟩)
  | .named bits stack ident, t => refuseAfter bits stack (.var ident ident.span) t
  | .opened _ _ _, t => .error (.fault ⟨.token .ident t.kind, t.span⟩)
  | .complete bits stack e, t => refuseAfter bits stack e t

theorem takeAfter?_eof (bits : List Bool) (stack : List Frame) (e : Expr) (t : Token)
    (h : t.kind = .eof) : takeAfter? bits stack e t = none := by
  unfold takeAfter?
  rw [h]
  cases stack <;> rfl

/-- No phase takes `eof`, so a run never gets past one. -/
theorem take?_eof (src : Text) (ph : Phase) (t : Token) (h : t.kind = .eof) :
    take? src ph t = none := by
  cases ph with
  | count => rw [take?, h, if_neg (by decide)]
  | bits left gathered => rw [take?, h, if_neg (by decide)]
  | operand bits stack => rw [take?, h, if_neg (by decide)]
  | named bits stack ident =>
      rw [take?, if_neg (by rw [h]; decide)]
      exact takeAfter?_eof _ _ _ t h
  | opened bits stack ident =>
      rw [take?, if_neg (by rw [h]; decide), if_neg (by rw [h]; decide)]
  | complete bits stack e => exact takeAfter?_eof _ _ _ t h

end Parser

/-- A source, the token that has been fetched and not consumed, and the tokens that
    have not been fetched. -/
structure Parser where
  source : Text
  ahead : Option Token
  supply : List Token
  deriving Repr, DecidableEq, Inhabited

namespace Parser

/-- A fresh parser over a list of tokens. -/
def ofTokens (src : Text) (ts : List Token) : Parser := ⟨src, none, ts⟩

/-- A fresh parser over the tokens of a source. -/
def ofSource (src : Text) : Parser := ofTokens src (lex src)

/-- The tokens that are still to be consumed. -/
def pending (p : Parser) : List Token := p.ahead.toList ++ p.supply

/-- The token ahead, and the parser that holds it. The token is fetched unless it has
    been already. A supply that has run out goes on like one that ends in `eof`. -/
def peek (p : Parser) : Token × Parser :=
  match p.ahead, p.supply with
  | some t, _ => (t, p)
  | none, t :: ts => (t, ⟨p.source, some t, ts⟩)
  | none, [] => (.endAt p.source.length, ⟨p.source, some (.endAt p.source.length), []⟩)

/-- The parser behind the token ahead. An `eof` stays ahead, since nothing is expected
    behind it. -/
def next (p : Parser) : Parser :=
  if p.peek.1.kind = .eof then p.peek.2 else ⟨p.source, none, p.peek.2.supply⟩

/-- Consuming a token leaves fewer of them. -/
theorem length_pending_next (p : Parser) (h : p.peek.1.kind ≠ .eof) :
    p.next.pending.length < p.pending.length := by
  rcases p with ⟨src, _ | t, ts⟩
  · cases ts with
    | nil => exact absurd rfl h
    | cons u us =>
        rw [next, if_neg h]
        exact Nat.lt_succ_self us.length
  · rw [next, if_neg h]
    exact Nat.lt_succ_self ts.length

/-- A run from a phase on, and the parser after it. The token ahead is looked at in
    every phase and consumed only if the phase takes it. -/
@[semireducible]
def runFrom (p : Parser) (ph : Phase) : Except Stop Program × Parser :=
  match _h : take? p.source ph p.peek.1 with
  | none => (refuse ph p.peek.1, p.peek.2)
  | some (.error stop) => (.error stop, p.next)
  | some (.ok later) => p.next.runFrom later
termination_by p.pending.length
decreasing_by
  refine length_pending_next p fun heof => ?_
  rw [take?_eof _ ph _ heof] at _h
  simp at _h

/-- One run, and the parser after it. -/
def run (p : Parser) : Except Stop Program × Parser := p.runFrom .count

/-- The outcomes of several runs of one parser. -/
def runs (p : Parser) : Nat → List (Except Stop Program)
  | 0 => []
  | n + 1 =>
    let (outcome, rest) := p.run
    outcome :: rest.runs n

end Parser

/-- The program that a source spells. -/
def parse (src : Text) : Except Stop Program := (Parser.ofSource src).run.1

end BitLogic
