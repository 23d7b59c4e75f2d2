import BitLogic.Proofs.Digits
import BitLogic.Proofs.Lexing
import BitLogic.Proofs.Trace
import Mathlib.Data.List.Forall2

/-!
# The Grammar

The language of the parser as a relation between tokens and programs, and the proof
that the parser decides it.

The relation is the grammar written down. A phrase is an expression, the arguments of
a call, or what follows an argument, and each has one rule per way of writing it. Every
rule says which tokens it takes and which tree it gives, so the tree of a derivation is
part of what is derived. The rules know nothing of phases, of a stack, or of looking
ahead.

The parser works the other way around. It never sees a phrase as a whole, only the
next token and what it has put aside, so the two directions need different bridges.

From a derivation to a run, `reads_of_derives` follows the derivation: from a phase that
wants an expression, the tokens of one lead to a phase in which it is complete, whatever
calls are open around it. `Done` covers the two phases in which that is so, since a
variable is known to be complete only by the token behind it.

From a run to a derivation, `Parsed` says what the tokens taken so far have been
derived as. The calls that are still open have begun and not ended; `Opened` gives
their tokens, outermost first, and `Listed` the arguments that each of them has
already, with the comma behind every one. A step keeps this (`parsed_step`), a trace
therefore does, and a run that accepts has all its calls closed.

## Main definitions

* `Grammar.IsNumber`, `Grammar.IsName`: A token spells a number or a name.
* `Grammar.Phrase`, `Grammar.Derives`: Phrases and their derivations.
* `Grammar.DerivesProgram`: The derivations of programs.
* `Parser.Done`: An expression is complete.
* `Parser.Parsed`: What the tokens taken so far have been derived as.

## Theorems

* `Parser.valueOf_eq_ok_iff`: The parser reads the number that a token spells.
* `Parser.take?_done`, `Parser.refuse_done`: Behind a complete expression.
* `Parser.takeAfter?_comma`, `Parser.takeAfter?_rparen`, `Parser.take?_operand`: What
  single tokens do.
* `Parser.advances_opened`: The first argument of a call.
* `Parser.reads_of_derives`: A derived phrase is read to its end.
* `Parser.take?_bits`, `Parser.advances_wanting`, `Parser.advances_counted`,
  `Parser.advances_head`: The head of a program is read.
* `Parser.drive_of_derives`: A derived program is accepted.
* `Parser.derives_args_of_listed`: The arguments that an open call has gathered are
  derived.
* `Parser.parsed_after`, `Parser.parsed_wanting`: What is derived when an argument or a
  bit is complete.
* `Parser.bounded_ok`, `Parser.takeIdent_ok`: What is known of a number or a name that
  was taken.
* `Parser.parsed_step`, `Parser.parsed_of_advances`: Taking tokens keeps the derivation
  of the tokens so far.
* `Parser.derives_of_refuse`: A run that accepts has derived a program.
* `Parser.run_eq_ok_iff`: The parser accepts what is derived.
* `Grammar.derivesProgram_ends`: The only `eof` of a derivation is its last token.
* `Grammar.derivesProgram_unique`: No tokens are derived as two programs.
* `first_eof_unique`: A list has one first `eof`.
* `parse_eq_ok_iff`: A source is parsed as what its tokens are derived as.
* `length_args_of_parse`: A program has no more bits than are allowed.
-/

namespace BitLogic

namespace Grammar

/-- The token is a number, and its digits have the value `n`. -/
def IsNumber (src : Text) (t : Token) (n : Nat) : Prop :=
  t.kind = .number ∧ ∃ s, t.lexeme? src = some s ∧ IsNumeral n s

/-- The token is an identifier that spells the name. -/
def IsName (src : Text) (t : Token) (name : Text) : Prop :=
  t.kind = .ident ∧ t.lexeme? src = some name

/-- What tokens can be derived as: an expression, the arguments of a call, or the
    arguments behind the first, each with its comma. -/
inductive Phrase where
  | expr (e : Expr)
  | args (es : List Expr)
  | more (es : List Expr)

/-- The derivations of phrases over a source:

        Expr := Ident [ '(' Args ')' ]
        Args := [ Expr More ]
        More := { ',' Expr }
-/
inductive Derives (src : Text) : Phrase → List Token → Prop
  | var (t : Token) (name : Text) (ht : IsName src t name) :
      Derives src (.expr (.var ⟨name, t.span⟩ t.span)) [t]
  | call (t o c : Token) (name : Text) (ts : List Token) (es : List Expr)
      (ht : IsName src t name) (ho : o.kind = .lparen) (hargs : Derives src (.args es) ts)
      (hc : c.kind = .rparen) :
      Derives src (.expr (.call ⟨name, t.span⟩ es (t.span.cover c.span))) (t :: o :: (ts ++ [c]))
  | noArgs : Derives src (.args []) []
  | args (e : Expr) (es : List Expr) (ts us : List Token) (he : Derives src (.expr e) ts)
      (hmore : Derives src (.more es) us) : Derives src (.args (e :: es)) (ts ++ us)
  | noMore : Derives src (.more []) []
  | more (c : Token) (e : Expr) (es : List Expr) (ts us : List Token) (hc : c.kind = .comma)
      (he : Derives src (.expr e) ts) (hmore : Derives src (.more es) us) :
      Derives src (.more (e :: es)) (c :: (ts ++ us))

/-- The tokens are as many bits as there are and their values. -/
def AreBits (src : Text) (ts : List Token) (bits : List Bool) : Prop :=
  List.Forall₂ (fun t bit => IsNumber src t bit.toNat) ts bits

/-- The head of a program: the number of its bits, of which there are not too many, and
    the bits. -/
inductive DerivesHead (src : Text) : List Bool → List Token → Prop
  | mk (t : Token) (ts : List Token) (bits : List Bool) (ht : IsNumber src t bits.length)
      (hmax : bits.length ≤ maxArgs) (hbits : AreBits src ts bits) :
      DerivesHead src bits (t :: ts)

/-- A program is a head, an expression, and the end. -/
inductive DerivesProgram (src : Text) : Program → List Token → Prop
  | mk (bits : List Bool) (e : Expr) (hs ts : List Token) (z : Token)
      (hhead : DerivesHead src bits hs) (he : Derives src (.expr e) ts) (hz : z.kind = .eof) :
      DerivesProgram src ⟨bits, e⟩ (hs ++ ts ++ [z])

end Grammar

namespace Parser

open Grammar

/-- The parser reads the number that a token spells, if it fits a word. -/
theorem valueOf_eq_ok_iff (src : Text) (t : Token) (n : Nat) (hk : t.kind = .number) :
    valueOf src t = .ok n ↔ IsNumber src t n ∧ n < Word.size := by
  unfold valueOf
  constructor
  · intro h
    split at h
    · simp only [reduceCtorEq] at h
    · next s hs =>
      split at h
      · simp only [reduceCtorEq] at h
      · next m hm =>
        rw [Except.ok.injEq] at h
        rw [h, Token.numberValue?_eq_some_iff] at hm
        exact ⟨⟨hk, s, hs, hm.1⟩, hm.2⟩
  · rintro ⟨⟨-, s, hs, hnum⟩, hn⟩
    have hvalue := (Token.numberValue?_eq_some_iff s n).mpr ⟨hnum, hn⟩
    rw [hs]
    simp only [hvalue]

/-- The expression is complete. After a variable the parser does not know that yet,
    and behaves as if it did at every token but an opening parenthesis. -/
inductive Done (bits : List Bool) (stack : List Frame) : Expr → Phase → Prop
  | named (ident : Ident) : Done bits stack (.var ident ident.span) (.named bits stack ident)
  | complete (e : Expr) : Done bits stack e (.complete bits stack e)

/-- Where an expression is complete, what is done with a token depends on the calls around
    it, except that a name may still be called. -/
theorem take?_done {src : Text} {bits : List Bool} {stack : List Frame} {e : Expr} {ph : Phase}
    {t : Token} (h : Done bits stack e ph) (ht : t.kind ≠ .lparen) :
    take? src ph t = takeAfter? bits stack e t := by
  cases h with
  | named ident => rw [take?, if_neg ht]
  | complete e => rfl

theorem refuse_done {bits : List Bool} {stack : List Frame} {e : Expr} {ph : Phase} {t : Token}
    (h : Done bits stack e ph) : refuse ph t = refuseAfter bits stack e t := by
  cases h with
  | named ident => rfl
  | complete e => rfl

theorem takeAfter?_comma (bits : List Bool) (f : Frame) (fs : List Frame) (e : Expr) (t : Token)
    (ht : t.kind = .comma) : takeAfter? bits (f :: fs) e t =
      some (.ok (.operand bits (⟨f.ident, e :: f.args⟩ :: fs))) := by
  unfold takeAfter?
  rw [ht]

theorem takeAfter?_rparen (bits : List Bool) (f : Frame) (fs : List Frame) (e : Expr) (t : Token)
    (ht : t.kind = .rparen) : takeAfter? bits (f :: fs) e t =
      some (.ok (.complete bits fs (closeCall f.ident (e :: f.args) t))) := by
  unfold takeAfter?
  rw [ht]

theorem take?_operand (src : Text) (bits : List Bool) (stack : List Frame) (t : Token)
    (name : Text) (ht : IsName src t name) :
    take? src (.operand bits stack) t = some (.ok (.named bits stack ⟨name, t.span⟩)) := by
  rw [take?, if_pos ht.1, takeIdent, ht.2]

/-- An open call without arguments goes on like one that wants an argument, as long as
    there are tokens of one. -/
theorem advances_opened {src : Text} {bits : List Bool} {stack : List Frame} {ident : Ident}
    {ph : Phase} {t : Token} {ts : List Token}
    (h : Advances src (.operand bits (⟨ident, []⟩ :: stack)) (t :: ts) ph) :
    Advances src (.opened bits stack ident) (t :: ts) ph := by
  cases h with
  | step _ next _ _ _ htake hrest =>
      -- A closing parenthesis would be taken otherwise, and that is no name.
      refine Advances.step _ next _ t ts ?_ hrest
      rw [take?, Option.ite_none_right_eq_some] at htake
      rw [take?, if_neg (by rw [htake.1]; decide), if_pos htake.1]
      exact htake.2

/-- Reading a phrase to its end. Arguments are read up to the closing parenthesis
    behind them, because only that completes the call. -/
def ReadsPhrase (src : Text) : Phrase → List Token → Prop
  | .expr e, ts => ∀ bits stack,
      ∃ t us ph, ts = t :: us ∧ Advances src (.operand bits stack) ts ph ∧ Done bits stack e ph
  | .args es, ts => ∀ bits stack ident c, c.kind = .rparen →
      Advances src (.opened bits stack ident) (ts ++ [c])
        (.complete bits stack (closeCall ident es.reverse c))
  | .more es, ts => ∀ bits stack ident args e ph c,
      Done bits (⟨ident, args⟩ :: stack) e ph → c.kind = .rparen →
      Advances src ph (ts ++ [c])
        (.complete bits stack (closeCall ident (es.reverse ++ e :: args) c))

/-- A derived phrase is read to its end, whatever is open around it. -/
theorem reads_of_derives (src : Text) (phrase : Phrase) (ts : List Token)
    (h : Derives src phrase ts) : ReadsPhrase src phrase ts := by
  induction h with
  | var t name ht =>
      intro bits stack
      exact ⟨t, [], _, rfl, advances_single (take?_operand src bits stack t name ht), .named _⟩
  | call t o c name ts es ht ho _ hc ih =>
      intro bits stack
      have hopen : take? src (.named bits stack ⟨name, t.span⟩) o =
          some (.ok (.opened bits stack ⟨name, t.span⟩)) := by
        rw [take?, if_pos ho]
      -- The call gathers its arguments backwards and turns them around when it is closed.
      have hargs := ih bits stack ⟨name, t.span⟩ c hc
      rw [closeCall, List.reverse_reverse] at hargs
      refine ⟨t, o :: (ts ++ [c]), _, rfl, ?_, .complete _⟩
      exact Advances.step _ _ _ t _ (take?_operand src bits stack t name ht)
        (Advances.step _ _ _ o _ hopen hargs)
  | noArgs =>
      intro bits stack ident c hc
      refine advances_single ?_
      rw [take?, if_pos hc]
      rfl
  | args e es ts us _ _ ihe ihmore =>
      intro bits stack ident c hc
      -- The first argument is read as an operand, and the call is open behind it.
      rcases ihe bits (⟨ident, []⟩ :: stack) with ⟨t, us', ph, rfl, hadv, hdone⟩
      have hrest := ihmore bits stack ident [] e ph c hdone hc
      rw [List.append_assoc, List.reverse_cons]
      exact advances_trans (advances_opened hadv) hrest
  | noMore =>
      intro bits stack ident args e ph c hdone hc
      refine advances_single ?_
      rw [take?_done hdone (by rw [hc]; decide), takeAfter?_rparen _ _ _ _ _ hc]
      rfl
  | more c' e' es ts us hc' _ _ ihe ihmore =>
      intro bits stack ident args e ph c hdone hc
      have hcomma : take? src ph c' =
          some (.ok (.operand bits (⟨ident, e :: args⟩ :: stack))) := by
        rw [take?_done hdone (by rw [hc']; decide), takeAfter?_comma _ _ _ _ _ hc']
      rcases ihe bits (⟨ident, e :: args⟩ :: stack) with ⟨t, us', ph', -, hadv, hdone'⟩
      have hrest := ihmore bits stack ident (e :: args) e' ph' c hdone' hc
      rw [List.cons_append, List.append_assoc, List.reverse_cons, List.append_assoc]
      exact Advances.step _ _ _ c' _ hcomma (advances_trans hadv hrest)

/-- Where a bit is wanted, a number that is one is taken. -/
theorem take?_bits (src : Text) (left : Nat) (gathered : List Bool) (t : Token) (bit : Bool)
    (ht : IsNumber src t bit.toNat) : take? src (.bits left gathered) t =
      some (.ok (.wanting (left - 1) (bit :: gathered))) := by
  have hsmall : bit.toNat < Word.size := Nat.lt_of_le_of_lt (Bool.toNat_le bit) (by decide)
  rw [take?, if_pos ht.1, takeBit, (valueOf_eq_ok_iff src t _ ht.1).mpr ⟨ht, hsmall⟩]
  cases bit <;> rfl

/-- Bits that are read are wanted no longer. -/
theorem advances_wanting (src : Text) (us : List Token) (bits : List Bool)
    (h : AreBits src us bits) : ∀ (left : Nat) (gathered : List Bool), bits.length ≤ left →
      Advances src (.wanting left gathered) us
        (.wanting (left - bits.length) (bits.reverse ++ gathered)) := by
  -- Along the bits: each one gathers one more and leaves one less.
  induction h with
  | nil => intro left gathered _; exact Advances.refl _
  | @cons t bit us bits ht _ ih =>
      intro left gathered hleft
      rw [List.length_cons] at hleft
      have hrest := ih (left - 1) (bit :: gathered) (by omega)
      have hcount : left - (bit :: bits).length = left - 1 - bits.length := by
        rw [List.length_cons]
        omega
      rw [hcount, List.reverse_cons, List.append_assoc]
      rw [Phase.wanting, if_neg (by omega)]
      exact Advances.step _ _ _ t us (take?_bits src left gathered t bit ht) hrest

/-- A number within the limit leads to the bits, and those that are there lead to the ones
    that are still wanted. -/
theorem advances_counted (src : Text) (c : Token) (n : Nat) (hc : IsNumber src c n)
    (hn : n ≤ maxArgs) (us : List Token) (bits : List Bool) (h : AreBits src us bits)
    (hlen : bits.length ≤ n) :
    Advances src .count (c :: us) (.wanting (n - bits.length) bits.reverse) := by
  have hsmall : n < Word.size := Nat.lt_of_le_of_lt hn (by decide)
  have hcount : take? src .count c = some (.ok (.wanting n [])) := by
    rw [take?, if_pos hc.1, takeCount, (valueOf_eq_ok_iff src c n hc.1).mpr ⟨hc, hsmall⟩]
    simp only [bind, Except.bind]
    rw [if_neg (by omega)]
  have hbits := advances_wanting src us bits h n [] hlen
  rw [List.append_nil] at hbits
  exact Advances.step _ _ _ c us hcount hbits

/-- The head of a program leads to its expression. -/
theorem advances_head (src : Text) (bits : List Bool) (hs : List Token)
    (h : DerivesHead src bits hs) : Advances src .count hs (.operand bits []) := by
  cases h with
  | mk t ts _ ht hmax hbits =>
      have hadv := advances_counted src t _ ht hmax ts bits hbits (Nat.le_refl _)
      rw [Nat.sub_self, Phase.wanting, if_pos rfl, List.reverse_reverse] at hadv
      exact hadv

/-- A derived program is accepted, whatever stands behind its end. -/
theorem drive_of_derives (src : Text) (p : Program) (ts us : List Token)
    (h : DerivesProgram src p ts) (hpre : ts <+: us ++ [.endAt src.length]) :
    (drive src .count us).1 = .ok p := by
  cases h with
  | mk bits e hs ts z hhead he hz =>
      -- The end is refused behind the expression, with no call open.
      rcases reads_of_derives src _ ts he bits [] with ⟨-, -, ph, -, hadv, hdone⟩
      have htrace := advances_trans (advances_head src bits hs hhead) hadv
      rw [drive_of_refused src .count _ us z ph htrace hpre (take?_eof src ph z hz),
        refuse_done hdone, refuseAfter, if_pos List.isEmpty_nil, if_pos hz]

/-- Arguments of an open call, the last one first, and the tokens of these with the
    comma behind each. -/
inductive Listed (src : Text) : List Expr → List Token → Prop
  | nil : Listed src [] []
  | snoc (e : Expr) (es : List Expr) (as ts : List Token) (c : Token) (has : Listed src es as)
      (he : Derives src (.expr e) ts) (hc : c.kind = .comma) :
      Listed src (e :: es) (as ++ ts ++ [c])

/-- Open calls, the innermost first, and the tokens that have opened them and given
    them arguments. -/
inductive Opened (src : Text) : List Frame → List Token → Prop
  | nil : Opened src [] []
  | cons (fs : List Frame) (cs as : List Token) (t o : Token) (name : Text) (es : List Expr)
      (hcs : Opened src fs cs) (ht : IsName src t name) (ho : o.kind = .lparen)
      (has : Listed src es as) :
      Opened src (⟨⟨name, t.span⟩, es⟩ :: fs) (cs ++ t :: o :: as)

/-- What the tokens taken so far have been derived as. -/
inductive Parsed (src : Text) : Phase → List Token → Prop
  | count : Parsed src .count []
  | bits (left : Nat) (gathered : List Bool) (t : Token) (ts : List Token)
      (ht : IsNumber src t (gathered.length + left)) (hmax : gathered.length + left ≤ maxArgs)
      (hbits : AreBits src ts gathered.reverse) (hleft : 0 < left) :
      Parsed src (.bits left gathered) (t :: ts)
  | operand (bits : List Bool) (stack : List Frame) (hs cs : List Token)
      (hhead : DerivesHead src bits hs) (hcs : Opened src stack cs) :
      Parsed src (.operand bits stack) (hs ++ cs)
  | named (bits : List Bool) (stack : List Frame) (hs cs : List Token) (t : Token) (name : Text)
      (hhead : DerivesHead src bits hs) (hcs : Opened src stack cs) (ht : IsName src t name) :
      Parsed src (.named bits stack ⟨name, t.span⟩) (hs ++ cs ++ [t])
  | opened (bits : List Bool) (stack : List Frame) (hs cs : List Token) (t o : Token)
      (name : Text) (hhead : DerivesHead src bits hs) (hcs : Opened src stack cs)
      (ht : IsName src t name) (ho : o.kind = .lparen) :
      Parsed src (.opened bits stack ⟨name, t.span⟩) (hs ++ cs ++ [t, o])
  | complete (bits : List Bool) (stack : List Frame) (e : Expr) (hs cs ts : List Token)
      (hhead : DerivesHead src bits hs) (hcs : Opened src stack cs)
      (he : Derives src (.expr e) ts) : Parsed src (.complete bits stack e) (hs ++ cs ++ ts)

/-- The arguments of an open call, one more, and what follows it are the arguments of
    the call. The open call gathers them from the left and a derivation lists them from
    the right, so the induction passes them over one by one. -/
theorem derives_args_of_listed (src : Text) (es : List Expr) (as : List Token)
    (h : Listed src es as) : ∀ (e : Expr) (more : List Expr) (ts us : List Token),
      Derives src (.expr e) ts → Derives src (.more more) us →
      Derives src (.args (es.reverse ++ e :: more)) (as ++ (ts ++ us)) := by
  induction h with
  | nil =>
      intro e more ts us he hmore
      exact .args e more ts us he hmore
  | snoc e' es as ts' c _ he' hc ih =>
      intro e more ts us he hmore
      have hrest := ih e' (e :: more) ts' (c :: (ts ++ us)) he' (.more c e more ts us hc he hmore)
      rw [List.reverse_cons, List.append_assoc, List.append_assoc, List.append_assoc]
      exact hrest

/-- A complete expression is an argument of the innermost open call, which goes on or is
    completed with it. -/
theorem parsed_after (src : Text) (bits : List Bool) (stack : List Frame) (e : Expr)
    (hs cs ts : List Token) (t : Token) (next : Phase) (hhead : DerivesHead src bits hs)
    (hcs : Opened src stack cs) (he : Derives src (.expr e) ts)
    (htake : takeAfter? bits stack e t = some (.ok next)) :
    Parsed src next (hs ++ cs ++ ts ++ [t]) := by
  cases hcs with
  -- Without an open call neither a comma nor a parenthesis is taken.
  | nil => simp only [takeAfter?, reduceCtorEq] at htake
  | cons fs cs as t' o name es hcs ht' ho has =>
      by_cases hcomma : t.kind = .comma
      · -- the expression is listed with its comma, and the call stays open
        rw [takeAfter?_comma _ _ _ _ _ hcomma] at htake
        simp only [Option.some.injEq, Except.ok.injEq] at htake
        have hopen := Opened.cons fs cs _ t' o name _ hcs ht' ho (.snoc e es as ts t has he hcomma)
        have hparsed := Parsed.operand bits _ hs _ hhead hopen
        rw [← htake]
        simpa only [List.append_assoc, List.cons_append] using hparsed
      by_cases hrparen : t.kind = .rparen
      · -- the expression is the last argument, and the call is derived as a whole
        rw [takeAfter?_rparen _ _ _ _ _ hrparen] at htake
        simp only [Option.some.injEq, Except.ok.injEq] at htake
        have hargs := derives_args_of_listed src es as has e [] ts [] he .noMore
        rw [List.append_nil] at hargs
        have hcall := Derives.call t' o t name _ _ ht' ho hargs hrparen
        have hparsed := Parsed.complete bits fs _ hs cs _ hhead hcs hcall
        rw [← htake, closeCall, List.reverse_cons]
        simpa only [List.append_assoc, List.cons_append] using hparsed
      · exfalso
        unfold takeAfter? at htake
        split at htake
        · next hk => exact hcomma hk
        · next hk => exact hrparen hk
        · simp only [reduceCtorEq] at htake

/-- Behind the last bit that is wanted the head of the program is derived, and before it
    one bit more is. -/
theorem parsed_wanting (src : Text) (left : Nat) (gathered : List Bool) (t : Token)
    (ts : List Token) (ht : IsNumber src t (gathered.length + left))
    (hmax : gathered.length + left ≤ maxArgs) (hbits : AreBits src ts gathered.reverse) :
    Parsed src (.wanting left gathered) (t :: ts) := by
  unfold Phase.wanting
  split
  · next hleft =>
    rw [hleft, Nat.add_zero, ← List.length_reverse] at ht hmax
    have hparsed := Parsed.operand _ [] _ [] (.mk t ts _ ht hmax hbits) .nil
    rwa [List.append_nil] at hparsed
  · next hleft => exact Parsed.bits left gathered t ts ht hmax hbits (by omega)

/-- A number that is taken has a value within its bound. -/
theorem bounded_ok (src : Text) (t : Token) (bound : Nat) (c : Cause) (after : Nat → Phase)
    (next : Phase)
    (h : (do let n ← valueOf src t
             if bound < n then .error (.fault ⟨c, t.span⟩) else .ok (after n) :
           Except Stop Phase) = .ok next) :
    ∃ n, valueOf src t = .ok n ∧ n ≤ bound ∧ after n = next := by
  rcases bounded_cases src t bound c after _ h with
    ⟨stop, -, herr⟩ | ⟨n, -, -, herr⟩ | ⟨n, hval, hn, hok⟩
  · simp only [reduceCtorEq] at herr
  · simp only [reduceCtorEq] at herr
  · exact ⟨n, hval, hn, (Except.ok.inj hok).symm⟩

theorem takeIdent_ok (src : Text) (bits : List Bool) (stack : List Frame) (t : Token)
    (next : Phase) (hk : t.kind = .ident) (h : takeIdent src bits stack t = .ok next) :
    ∃ name, IsName src t name ∧ .named bits stack ⟨name, t.span⟩ = next := by
  unfold takeIdent at h
  split at h
  · simp only [reduceCtorEq] at h
  · next name hname => exact ⟨name, ⟨hk, hname⟩, Except.ok.inj h⟩

/-- Taking a token keeps the derivation of the tokens taken so far. -/
theorem parsed_step (src : Text) (ph next : Phase) (pre : List Token) (t : Token)
    (h : Parsed src ph pre) (htake : take? src ph t = some (.ok next)) :
    Parsed src next (pre ++ [t]) := by
  cases h with
  | count =>
      rw [take?, Option.ite_none_right_eq_some, Option.some.injEq] at htake
      rcases bounded_ok src t _ _ _ next htake.2 with ⟨n, hval, hn, rfl⟩
      have ht := ((valueOf_eq_ok_iff src t n htake.1).mp hval).1
      exact parsed_wanting src n [] t [] (by simpa using ht) (by simpa using hn) .nil
  | bits left gathered t' ts ht' hmax hbits hleft =>
      rw [take?, Option.ite_none_right_eq_some, Option.some.injEq] at htake
      rcases bounded_ok src t _ _ (fun n => .wanting (left - 1) (decide (n = 1) :: gathered))
        next htake.2 with ⟨n, hval, hn, rfl⟩
      have ht := ((valueOf_eq_ok_iff src t n htake.1).mp hval).1
      rw [← Bool.toNat_decide_eq_one n hn] at ht
      -- One bit more is gathered and one less is left, so the count stays what it was.
      have hlen : (decide (n = 1) :: gathered).length + (left - 1) = gathered.length + left := by
        rw [List.length_cons]
        omega
      rw [← hlen] at ht' hmax
      refine parsed_wanting src _ _ t' _ ht' hmax ?_
      rw [List.reverse_cons]
      exact List.rel_append hbits (.cons ht .nil)
  | operand bits stack hs cs hhead hcs =>
      rw [take?, Option.ite_none_right_eq_some, Option.some.injEq] at htake
      rcases takeIdent_ok src bits stack t next htake.1 htake.2 with ⟨name, ht, rfl⟩
      exact Parsed.named bits stack hs cs t name hhead hcs ht
  -- A parenthesis makes the name a call; otherwise it was a variable.
  | named bits stack hs cs t' name hhead hcs ht' =>
      rw [take?] at htake
      split at htake
      · next ho =>
        simp only [Option.some.injEq, Except.ok.injEq] at htake
        have hparsed := Parsed.opened bits stack hs cs t' t name hhead hcs ht' ho
        rw [← htake, List.append_assoc]
        exact hparsed
      · exact parsed_after src bits stack _ hs cs [t'] t next hhead hcs (.var t' name ht') htake
  | opened bits stack hs cs t' o name hhead hcs ht' ho =>
      rw [take?] at htake
      split at htake
      · next hc =>
        simp only [Option.some.injEq, Except.ok.injEq] at htake
        have hcall := Derives.call t' o t name [] [] ht' ho .noArgs hc
        have hparsed := Parsed.complete bits stack _ hs cs _ hhead hcs hcall
        rw [← htake, closeCall, List.append_assoc (hs ++ cs)]
        exact hparsed
      · rw [Option.ite_none_right_eq_some, Option.some.injEq] at htake
        rcases takeIdent_ok src bits _ t next htake.1 htake.2 with ⟨name', ht, rfl⟩
        -- The name begins the first argument, so the call goes onto the stack.
        have hopen := Opened.cons stack cs [] t' o name [] hcs ht' ho .nil
        have hparsed := Parsed.named bits _ hs _ t name' hhead hopen ht
        rw [List.append_assoc hs cs]
        exact hparsed
  | complete bits stack e hs cs ts hhead hcs he =>
      exact parsed_after src bits stack e hs cs ts t next hhead hcs he htake

/-- A trace keeps the derivation of the tokens so far, by induction along it. -/
theorem parsed_of_advances {src : Text} {ph last : Phase} {ts : List Token}
    (hadv : Advances src ph ts last) : ∀ pre : List Token, Parsed src ph pre →
      Parsed src last (pre ++ ts) := by
  induction hadv with
  | refl ph =>
      intro pre h
      rwa [List.append_nil]
  | step ph next last t ts htake _ ih =>
      intro pre h
      have hrest := ih (pre ++ [t]) (parsed_step src ph next pre t h htake)
      rwa [List.append_assoc, List.singleton_append] at hrest

/-- A token that ends a run with success is `eof`, and everything is derived that stands
    before it. -/
theorem derives_of_refuse (src : Text) (ph : Phase) (pre : List Token) (z : Token)
    (p : Program) (h : Parsed src ph pre) (hok : refuse ph z = .ok p) :
    DerivesProgram src p (pre ++ [z]) := by
  -- The two phases in which an expression is complete end in the same way.
  have hafter : ∀ (bits : List Bool) (stack : List Frame) (e : Expr) (hs cs ts : List Token),
      DerivesHead src bits hs → Opened src stack cs → Derives src (.expr e) ts →
      refuseAfter bits stack e z = .ok p → DerivesProgram src p (hs ++ cs ++ ts ++ [z]) := by
    intro bits stack e hs cs ts hhead hcs he hend
    unfold refuseAfter at hend
    cases hcs with
    | cons => simp only [List.isEmpty_cons, Bool.false_eq_true, if_false, reduceCtorEq] at hend
    | nil =>
        rw [if_pos List.isEmpty_nil] at hend
        split at hend
        · next hz =>
          rw [← Except.ok.inj hend, List.append_nil]
          exact .mk bits e hs ts z hhead he hz
        · simp only [reduceCtorEq] at hend
  cases h with
  -- In the other phases something is still wanted, and no token is refused with success.
  | count => simp only [refuse, reduceCtorEq] at hok
  | bits => simp only [refuse, reduceCtorEq] at hok
  | operand => simp only [refuse, reduceCtorEq] at hok
  | opened => simp only [refuse, reduceCtorEq] at hok
  | named bits stack hs cs t name hhead hcs ht =>
      exact hafter bits stack _ hs cs [t] hhead hcs (.var t name ht) hok
  | complete bits stack e hs cs ts hhead hcs he =>
      exact hafter bits stack e hs cs ts hhead hcs he hok

/-- The parser accepts a stream exactly when a program is derived from its first tokens,
    the end being implied where the stream has none. -/
theorem run_eq_ok_iff (src : Text) (us : List Token) (p : Program) :
    (drive src .count us).1 = .ok p ↔
      ∃ ts, DerivesProgram src p ts ∧ ts <+: us ++ [.endAt src.length] := by
  constructor
  · intro hok
    rcases drive_ends src us .count with ⟨pre, t, last, hpre, hadv, hend⟩
    rcases hend with ⟨-, hrun⟩ | ⟨stop, -, hrun⟩
    · have hparsed := parsed_of_advances hadv [] .count
      rw [List.nil_append] at hparsed
      exact ⟨pre ++ [t], derives_of_refuse src last pre t p hparsed (hrun.symm.trans hok), hpre⟩
    · -- A token that is found wrong ends the run with a fault.
      rw [hrun] at hok
      simp only [reduceCtorEq] at hok
  · rintro ⟨ts, hts, hpre⟩
    exact drive_of_derives src p ts us hts hpre

end Parser

namespace Grammar

/-- The only `eof` of a derivation is its last token. -/
theorem derivesProgram_ends (src : Text) (p : Program) (ts : List Token)
    (h : DerivesProgram src p ts) :
    ∃ body z, ts = body ++ [z] ∧ z.kind = .eof ∧ ∀ t ∈ body, t.kind ≠ .eof := by
  cases h with
  | mk bits e hs ts z hhead he hz =>
      rcases Parser.reads_of_derives src _ ts he bits [] with ⟨-, -, ph, -, hadv, -⟩
      have htrace := Parser.advances_trans (Parser.advances_head src bits hs hhead) hadv
      exact ⟨hs ++ ts, z, rfl, hz, Parser.not_eof_of_advances htrace⟩

/-- No tokens are derived as two programs, because the parser finds only one. -/
theorem derivesProgram_unique (src : Text) (p q : Program) (ts : List Token)
    (hp : DerivesProgram src p ts) (hq : DerivesProgram src q ts) : p = q := by
  have hpre : ts <+: ts ++ [.endAt src.length] := List.prefix_append ts _
  have hrun := Parser.drive_of_derives src p ts ts hp hpre
  rw [Parser.drive_of_derives src q ts ts hq hpre] at hrun
  exact (Except.ok.inj hrun).symm

end Grammar

/-- A list has one first `eof`. -/
theorem first_eof_unique (xs ys more more' : List Token) (z w : Token)
    (hxs : ∀ t ∈ xs, t.kind ≠ .eof) (hys : ∀ t ∈ ys, t.kind ≠ .eof) (hz : z.kind = .eof)
    (hw : w.kind = .eof) (h : xs ++ z :: more = ys ++ w :: more') : xs = ys ∧ z = w := by
  have hrun : ∀ l : List Token, (∀ t ∈ l, t.kind ≠ .eof) →
      l.all (fun t => t.kind != .eof) = true :=
    fun l hl => List.all_eq_true.mpr fun t ht => bne_iff_ne.mpr (hl t ht)
  have hend : ∀ (e : Token) (l : List Token), e.kind = .eof →
      ∀ t, (e :: l).head? = some t → (t.kind != .eof) = false := by
    intro e l he t ht
    rw [List.head?_cons, Option.some.injEq] at ht
    rw [← ht, he]
    rfl
  -- What stands before the first `eof` is a run of other tokens.
  rcases List.run_inj (fun t => t.kind != .eof) xs ys _ _ (hrun xs hxs) (hrun ys hys)
    (hend z more hz) (hend w more' hw) h with ⟨hsame, hrest⟩
  exact ⟨hsame, (List.cons.inj hrest).1⟩

/-- A source is parsed as a program exactly when its tokens are derived as that
    program. -/
theorem parse_eq_ok_iff (src : Text) (p : Program) :
    parse src = .ok p ↔ Grammar.DerivesProgram src p (lex src) := by
  rw [parse_eq_drive, Parser.run_eq_ok_iff]
  constructor
  · rintro ⟨ts, hts, hpre⟩
    -- Both lists end at their only `eof`, so neither is longer than the other.
    rcases Grammar.derivesProgram_ends src p ts hts with ⟨body, z, rfl, hz, hbody⟩
    rcases lex_ends src with ⟨xs, hlex, hxs⟩
    rcases hpre with ⟨more, hmore⟩
    rw [hlex, List.append_assoc, List.append_assoc, List.singleton_append,
      List.singleton_append] at hmore
    rcases first_eof_unique body xs _ _ z _ hbody hxs hz rfl hmore with ⟨rfl, rfl⟩
    rw [hlex]
    exact hts
  · intro h
    exact ⟨lex src, h, List.prefix_append _ _⟩

/-- A program that is parsed has no more bits than are allowed. -/
theorem length_args_of_parse (src : Text) (p : Program) (h : parse src = .ok p) :
    p.args.length ≤ maxArgs := by
  rw [parse_eq_ok_iff] at h
  generalize lex src = ts at h
  cases h with
  | mk bits e hs ts z hhead he hz =>
      cases hhead with
      | mk t ts _ ht hmax hbits => exact hmax

end BitLogic
