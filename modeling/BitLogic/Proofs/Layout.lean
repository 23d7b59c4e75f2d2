import BitLogic.Proofs.Lexing
import BitLogic.Proofs.Slices
import Mathlib.Data.List.Forall2

/-!
# Lexemes on a Page

The lexer read backwards: which sources have given tokens.

A lexeme is a kind of token together with a spelling. A source lays out a list of lexemes
if it has them in order with blanks before, between and behind them. The blanks are
free. Where there is none, two lexemes must not run together, which happens only to two
numbers or two names; `Lexeme.goesOn` says which bytes would make a lexeme longer. Every
source that lays out a list of lexemes has these lexemes for its tokens, and the spans
of the tokens are where the lexemes stand.

The proof goes along the layout. Ahead of a lexeme the blanks are skipped, the lexeme is
the longest run of its class because the byte behind it does not go on with it, and
reading continues behind the lexeme with the bytes read so far in front.

## Main definitions

* `Lexeme`: A kind of token and a spelling.
* `Lexeme.Fits`: The spelling is one of the kind.
* `Lexeme.goesOn`: A byte that would make the lexeme longer.
* `LaidOut`: A source has the lexemes in order, with blanks around them.
* `Spells`: A token of the kind of a lexeme that spells it.

## Theorems

* `Lexer.classify_lexeme`: A lexeme is classified in its whole length.
* `Lexer.scan?_lexeme`, `Lexer.next?_lexeme`: A lexeme is read as one token.
* `Lexer.run_of_laidOut`: The tokens of lexemes behind some bytes already read.
* `lex_of_laidOut`: The tokens of a source that lays out lexemes.
* `Lexeme.goesOn_eq_false`, `Lexeme.goesOn_space`, `Lexeme.goesOn_rparen`,
  `Lexeme.goesOn_comma`: Bytes that make no lexeme longer.
* `laidOut_gap`, `laidOut_space`: Blanks in front of a layout.
* `laidOut_lexeme`, `laidOut_singleton`: A lexeme with no blanks ahead.
* `laidOut_append`: Two layouts with nothing running together are one.
* `laidOut_spaced`: Lexemes with a space behind each are laid out.
-/

namespace BitLogic

/-- A kind of token and a spelling of it. -/
structure Lexeme where
  kind : Token.Kind
  text : Text
  deriving Repr, DecidableEq

namespace Lexeme

/-- The spelling is one that the kind can have. -/
inductive Fits : Lexeme → Prop
  | number (s : Text) (hne : s ≠ []) (h : s.all Token.isDigit = true) : Fits ⟨.number, s⟩
  | name (s : Text) (hne : s ≠ []) (h : s.all Lexer.isLetter = true) : Fits ⟨.ident, s⟩
  | lparen : Fits ⟨.lparen, [40]⟩
  | rparen : Fits ⟨.rparen, [41]⟩
  | comma : Fits ⟨.comma, [44]⟩

/-- The byte would make the lexeme longer if it stood behind it. -/
def goesOn (w : Lexeme) (b : UInt8) : Bool :=
  match w.kind with
  | .number => Token.isDigit b
  | .ident => Lexer.isLetter b
  | _ => false

end Lexeme

/-- The source has the lexemes in order, with blanks around them, and no two of them run
    together. -/
inductive LaidOut : List Lexeme → Text → Prop
  | nil (gap : Text) (hgap : gap.all Lexer.isSpace = true) : LaidOut [] gap
  | cons (gap : Text) (w : Lexeme) (ws : List Lexeme) (rest : Text)
      (hgap : gap.all Lexer.isSpace = true)
      (hapart : ∀ b, rest.head? = some b → w.goesOn b = false) (hrest : LaidOut ws rest) :
      LaidOut (w :: ws) (gap ++ w.text ++ rest)

/-- The token is of the kind of the lexeme and spells it. -/
def Spells (src : Text) (t : Token) (w : Lexeme) : Prop :=
  t.kind = w.kind ∧ t.lexeme? src = some w.text

namespace Lexer

/-- A lexeme is classified as its kind and in its whole length. -/
theorem classify_lexeme (w : Lexeme) (b : UInt8) (s rest : Text) (hw : w.Fits)
    (htext : w.text = b :: s) (hapart : ∀ c, rest.head? = some c → w.goesOn c = false) :
    classify b (s ++ rest) = (w.kind, 1 + s.length) := by
  cases hw with
  | number text _ h =>
      simp only at htext
      rw [htext, List.all_cons, Bool.and_eq_true] at h
      rw [classify_digit b _ h.1, List.takeWhile_run _ s rest h.2 hapart]
  | name text _ h =>
      simp only at htext
      rw [htext, List.all_cons, Bool.and_eq_true] at h
      rw [classify_letter b _ h.1, List.takeWhile_run _ s rest h.2 hapart]
  -- A symbol is the whole of its lexeme.
  | lparen => rw [← (List.cons.inj htext).1, ← (List.cons.inj htext).2]; rfl
  | rparen => rw [← (List.cons.inj htext).1, ← (List.cons.inj htext).2]; rfl
  | comma => rw [← (List.cons.inj htext).1, ← (List.cons.inj htext).2]; rfl

/-- A lexeme is read as one token. -/
theorem scan?_lexeme (w : Lexeme) (rest : Text) (n : Nat) (hw : w.Fits)
    (hapart : ∀ b, rest.head? = some b → w.goesOn b = false) :
    scan? ⟨w.text ++ rest, n, false⟩ =
      some (⟨w.kind, ⟨n, n + w.text.length⟩⟩, ⟨rest, n + w.text.length, false⟩) := by
  cases htext : w.text with
  | nil => cases hw <;> simp_all
  | cons b s =>
      rw [List.cons_append, scan?_cons, classify_lexeme w b s rest hw htext hapart,
        List.length_cons, Nat.add_sub_cancel_left, List.drop_left]
      simp only [Nat.add_comm 1]

/-- A lexeme is not blank, so it is the next token. -/
theorem next?_lexeme (w : Lexeme) (rest : Text) (n : Nat) (hw : w.Fits)
    (hapart : ∀ b, rest.head? = some b → w.goesOn b = false) :
    next? ⟨w.text ++ rest, n, false⟩ =
      some (⟨w.kind, ⟨n, n + w.text.length⟩⟩, ⟨rest, n + w.text.length, false⟩) := by
  have hkind : w.kind ≠ .whitespace := by
    cases hw <;> simp only [ne_eq, reduceCtorEq, not_false_eq_true]
  rw [next?_eq _ _ _ (scan?_lexeme w rest n hw hapart), if_neg hkind]

/-- The tokens of lexemes that are laid out behind some bytes already read. -/
theorem run_of_laidOut (ws : List Lexeme) (rest : Text) (h : LaidOut ws rest) :
    (∀ w ∈ ws, w.Fits) → ∀ before : Text,
      ∃ ts, (run ⟨rest, before.length, false⟩).1 = ts ++ [.endAt (before ++ rest).length] ∧
        List.Forall₂ (Spells (before ++ rest)) ts ws := by
  induction h with
  | nil gap hgap =>
      intro _ before
      have hnext := next?_gap gap [] before.length hgap
      rw [List.append_nil] at hnext
      refine ⟨[], ?_, .nil⟩
      rw [run_eq _ _ _ (hnext.trans (next?_eq _ _ _ (scan?_nil _))), run_done,
        List.length_append]
      rfl
  | cons gap w ws rest hgap hapart _ ih =>
      intro hfits before
      rw [List.forall_mem_cons] at hfits
      have hnext := next?_gap gap (w.text ++ rest) before.length hgap
      rw [next?_lexeme w rest _ hfits.1 hapart, ← List.append_assoc] at hnext
      have hbefore : (before ++ gap ++ w.text).length =
          before.length + gap.length + w.text.length := by
        rw [List.length_append, List.length_append]
      have hsrc : before ++ gap ++ w.text ++ rest = before ++ (gap ++ w.text ++ rest) := by
        simp only [List.append_assoc]
      -- The rest is read with the blanks and the lexeme among the bytes in front of it, so
      -- its tokens spell their lexemes in the same source.
      rcases ih hfits.2 (before ++ gap ++ w.text) with ⟨ts, hts, hspells⟩
      rw [hbefore, hsrc] at hts
      rw [hsrc] at hspells
      refine ⟨_ :: ts, by rw [run_eq _ _ _ hnext, hts]; rfl, .cons ⟨rfl, ?_⟩ hspells⟩
      have hslice := Text.slice?_middle (before ++ gap) w.text rest
      rw [hsrc, List.length_append] at hslice
      exact hslice

end Lexer

/-- A source that lays out lexemes has these lexemes for its tokens. -/
theorem lex_of_laidOut (ws : List Lexeme) (src : Text) (h : LaidOut ws src)
    (hfits : ∀ w ∈ ws, w.Fits) :
    ∃ ts, lex src = ts ++ [.endAt src.length] ∧ List.Forall₂ (Spells src) ts ws :=
  Lexer.run_of_laidOut ws src h hfits []

/-! ## Layouts put together -/

/-- A byte that is neither a digit nor a letter makes no lexeme longer. -/
theorem Lexeme.goesOn_eq_false (w : Lexeme) (b : UInt8) (hdigit : Token.isDigit b = false)
    (hletter : Lexer.isLetter b = false) : w.goesOn b = false := by
  unfold goesOn
  split
  · exact hdigit
  · exact hletter
  · rfl

@[simp]
theorem Lexeme.goesOn_space (w : Lexeme) : w.goesOn Text.space = false :=
  w.goesOn_eq_false Text.space rfl rfl

@[simp]
theorem Lexeme.goesOn_rparen (w : Lexeme) : w.goesOn 41 = false := w.goesOn_eq_false 41 rfl rfl

@[simp]
theorem Lexeme.goesOn_comma (w : Lexeme) : w.goesOn 44 = false := w.goesOn_eq_false 44 rfl rfl

/-- Blanks in front of a layout become part of its first gap. -/
theorem laidOut_gap (gap : Text) (hgap : gap.all Lexer.isSpace = true) (ws : List Lexeme)
    (rest : Text) (h : LaidOut ws rest) : LaidOut ws (gap ++ rest) := by
  have hall : ∀ t : Text, t.all Lexer.isSpace = true → (gap ++ t).all Lexer.isSpace = true := by
    intro t ht
    rw [List.all_append, hgap, ht]
    rfl
  -- The first gap of the layout is the one that grows, be there a lexeme behind it or not.
  cases h with
  | nil _ hgap' => exact .nil _ (hall _ hgap')
  | cons gap' w ws rest hgap' hapart hrest =>
      rw [← List.append_assoc, ← List.append_assoc]
      exact .cons (gap ++ gap') w ws rest (hall gap' hgap') hapart hrest

theorem laidOut_space (ws : List Lexeme) (rest : Text) (h : LaidOut ws rest) :
    LaidOut ws (Text.space :: rest) :=
  laidOut_gap [Text.space] rfl ws rest h

theorem laidOut_lexeme (w : Lexeme) (ws : List Lexeme) (rest : Text)
    (hapart : ∀ b, rest.head? = some b → w.goesOn b = false) (hrest : LaidOut ws rest) :
    LaidOut (w :: ws) (w.text ++ rest) :=
  .cons [] w ws rest rfl hapart hrest

theorem laidOut_singleton (w : Lexeme) : LaidOut [w] w.text := by
  have hword := laidOut_lexeme w [] [] (fun b hb => by simp at hb) (.nil [] rfl)
  rw [List.append_nil] at hword
  exact hword

/-- Two layouts with nothing running together are one. -/
theorem laidOut_append (ws : List Lexeme) (s : Text) (h : LaidOut ws s) (vs : List Lexeme)
    (t : Text) (ht : LaidOut vs t) : (∀ w ∈ ws, ∀ b, t.head? = some b → w.goesOn b = false) →
      LaidOut (ws ++ vs) (s ++ t) := by
  induction h with
  | nil gap hgap => exact fun _ => laidOut_gap gap hgap vs t ht
  | cons gap w ws rest hgap hapart _ ih =>
      intro hborder
      rw [List.forall_mem_cons] at hborder
      rw [List.cons_append, List.append_assoc]
      refine .cons gap w (ws ++ vs) (rest ++ t) hgap ?_ (ih hborder.2)
      intro b hb
      -- The byte behind the lexeme is in the first layout, if that goes on at all.
      cases rest with
      | nil => exact hborder.1 b hb
      | cons c rest => exact hapart b hb

/-- The lexemes with a space behind each. -/
def spaced (ws : List Lexeme) : Text := ws.flatMap fun w => w.text ++ [Text.space]

/-- Lexemes with a space behind each are laid out, so every list of lexemes has a source. -/
theorem laidOut_spaced (ws : List Lexeme) : LaidOut ws (spaced ws) := by
  induction ws with
  | nil => exact .nil [] rfl
  | cons w ws ih =>
      rw [spaced, List.flatMap_cons, List.append_assoc]
      exact laidOut_lexeme w ws _ (by simp) (laidOut_space ws _ ih)

end BitLogic
