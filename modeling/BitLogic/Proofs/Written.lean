import BitLogic.Proofs.Grammar
import BitLogic.Proofs.Layout

/-!
# Every Program Can Be Written

The parser accepts its grammar and nothing else, and the grammar leaves no program
out: every list of bits that is not too long and every tree of names can be written
down, and whichever way that is done, the parser gives the bits and the tree back.

To write a program is to lay out its lexemes. Those of the expression are determined by
the tree. A number may have leading zeros, so the lexemes of the bits are determined up
to these, and the blanks between the lexemes are free. What is not written is where
things stand: a parsed tree has the spans of its source, and `Expr.bare` forgets them.

The tokens of a written program spell its lexemes, and they are derived as the program by
following the tree. The rest is the equivalence of parser and grammar.

## Main definitions

* `Expr.bare`: The tree without its spans.
* `Expr.lexemes`: The lexemes of an expression.
* `Expr.Named`: Every name is a non-empty run of letters.
* `Program.Written`: A source is a way of writing the program.

## Theorems

* `Expr.bareAll_eq_map`: Several trees without their spans.
* `spells_append`: Tokens that spell two lists of lexemes are two lists.
* `derives_more_of_spells`, `derives_args_of_spells`: Tokens that spell arguments are
  derived as them.
* `derives_of_spells`: Tokens that spell an expression are derived as it.
* `isNumber_of_spells`, `areBits_of_spells`: Tokens that spell numerals are numbers, and
  bits.
* `Expr.fits_moreLexemes`, `Expr.fits_argLexemes`, `Expr.fits_lexemes`: The spellings of
  a tree with proper names are proper.
* `Program.fits_writtenIn`: The same for a whole program.
* `Program.exists_written`: Every program can be written.
* `Program.parse_written`: A written program is parsed as it was.
* `parse_iff_derives_and_written`: The parser accepts its grammar and nothing else, and
  finds every program in its written forms.
* `named_negated`, `written_negated`, `parse_iff_derives_and_written_negated`: A program
  that is written with a leading zero.
-/

namespace BitLogic

namespace Expr

mutual

/-- The tree without its spans. -/
def bare : Expr → Expr
  | .var id _ => .var ⟨id.name, ⟨0, 0⟩⟩ ⟨0, 0⟩
  | .call id args _ => .call ⟨id.name, ⟨0, 0⟩⟩ (bareAll args) ⟨0, 0⟩
  | .blank _ => .blank ⟨0, 0⟩

/-- Trees without their spans. -/
def bareAll : List Expr → List Expr
  | [] => []
  | e :: es => e.bare :: bareAll es

end

@[simp]
theorem bareAll_eq_map (es : List Expr) : bareAll es = es.map bare := by
  induction es with
  | nil => rfl
  | cons e es ih => rw [bareAll, ih, List.map_cons]

mutual

/-- The lexemes of an expression. -/
def lexemes : Expr → List Lexeme
  | .var id _ => [⟨.ident, id.name⟩]
  | .call id args _ =>
    ⟨.ident, id.name⟩ :: ⟨.lparen, [40]⟩ :: (argLexemes args ++ [⟨.rparen, [41]⟩])
  | .blank _ => []

/-- The lexemes of the arguments of a call. -/
def argLexemes : List Expr → List Lexeme
  | [] => []
  | e :: es => e.lexemes ++ moreLexemes es

/-- The lexemes of the arguments behind the first, each with its comma. -/
def moreLexemes : List Expr → List Lexeme
  | [] => []
  | e :: es => ⟨.comma, [44]⟩ :: (e.lexemes ++ moreLexemes es)

end

/-- Every node is a variable or a call, and its name a non-empty run of letters. -/
inductive Named : Expr → Prop
  | var (id : Ident) (s : Span) (hne : id.name ≠ [])
      (hname : id.name.all Lexer.isLetter = true) : Named (.var id s)
  | call (id : Ident) (args : List Expr) (s : Span) (hne : id.name ≠ [])
      (hname : id.name.all Lexer.isLetter = true) (hargs : ∀ a ∈ args, Named a) :
      Named (.call id args s)

end Expr

/-- The lexemes of a program: the number of its bits, the bits, and its expression. -/
inductive Program.WrittenIn : Program → List Lexeme → Prop
  | mk (bits : List Bool) (e : Expr) (count : Text) (numerals : List Text)
      (hcount : IsNumeral bits.length count)
      (hbits : List.Forall₂ (fun bit s => IsNumeral bit.toNat s) bits numerals) :
      WrittenIn ⟨bits, e⟩ (⟨.number, count⟩ :: (numerals.map (Lexeme.mk .number) ++ e.lexemes))

/-- The source is a way of writing the program. -/
def Program.Written (p : Program) (src : Text) : Prop := ∃ ws, p.WrittenIn ws ∧ LaidOut ws src

/-- Tokens that spell two lists of lexemes are two lists of tokens. -/
theorem spells_append (src : Text) (ts : List Token) (ws vs : List Lexeme)
    (h : List.Forall₂ (Spells src) ts (ws ++ vs)) :
    ∃ ts₁ ts₂, ts = ts₁ ++ ts₂ ∧ List.Forall₂ (Spells src) ts₁ ws ∧
      List.Forall₂ (Spells src) ts₂ vs :=
  ⟨ts.take ws.length, ts.drop ws.length, (List.take_append_drop _ ts).symm,
    List.forall₂_take_append ts ws vs h, List.forall₂_drop_append ts ws vs h⟩

open Grammar in
/-- Tokens that spell further arguments are derived as these, if each of the arguments
    can be. -/
theorem derives_more_of_spells (src : Text) (es : List Expr)
    (hes : ∀ e ∈ es, ∀ ts, List.Forall₂ (Spells src) ts e.lexemes →
      ∃ e', Derives src (.expr e') ts ∧ e'.bare = e.bare) :
    ∀ ts, List.Forall₂ (Spells src) ts (Expr.moreLexemes es) →
      ∃ es', Derives src (.more es') ts ∧ Expr.bareAll es' = Expr.bareAll es := by
  -- Along the arguments; the tokens of each begin with its comma.
  induction es with
  | nil =>
      intro ts h
      cases h
      exact ⟨[], .noMore, rfl⟩
  | cons e es ih =>
      intro ts h
      rw [List.forall_mem_cons] at hes
      rw [Expr.moreLexemes] at h
      cases h with
      | @cons c _ ts _ hc h =>
          rcases spells_append src ts _ _ h with ⟨ts₁, ts₂, rfl, h₁, h₂⟩
          rcases hes.1 ts₁ h₁ with ⟨e', he', hbare⟩
          rcases ih hes.2 ts₂ h₂ with ⟨es', hes', hbares⟩
          refine ⟨e' :: es', .more c e' es' ts₁ ts₂ hc.1 he' hes', ?_⟩
          simpa [hbare] using hbares

open Grammar in
/-- Tokens that spell arguments are derived as these. The first has no comma before it. -/
theorem derives_args_of_spells (src : Text) (es : List Expr)
    (hes : ∀ e ∈ es, ∀ ts, List.Forall₂ (Spells src) ts e.lexemes →
      ∃ e', Derives src (.expr e') ts ∧ e'.bare = e.bare) (ts : List Token)
    (h : List.Forall₂ (Spells src) ts (Expr.argLexemes es)) :
    ∃ es', Derives src (.args es') ts ∧ Expr.bareAll es' = Expr.bareAll es := by
  cases es with
  | nil =>
      rw [Expr.argLexemes] at h
      cases h
      exact ⟨[], .noArgs, rfl⟩
  | cons e es =>
      rw [List.forall_mem_cons] at hes
      rw [Expr.argLexemes] at h
      rcases spells_append src ts _ _ h with ⟨ts₁, ts₂, rfl, h₁, h₂⟩
      rcases hes.1 ts₁ h₁ with ⟨e', he', hbare⟩
      rcases derives_more_of_spells src es hes.2 ts₂ h₂ with ⟨es', hes', hbares⟩
      refine ⟨e' :: es', .args e' es' ts₁ ts₂ he' hes', ?_⟩
      simpa [hbare] using hbares

open Grammar in
/-- Tokens that spell an expression are derived as it, up to spans. -/
theorem derives_of_spells (src : Text) (e : Expr) (he : e.Named) :
    ∀ ts, List.Forall₂ (Spells src) ts e.lexemes →
      ∃ e', Derives src (.expr e') ts ∧ e'.bare = e.bare := by
  induction he with
  | var id s _ _ =>
      intro ts h
      rw [Expr.lexemes] at h
      cases h with
      | @cons t _ _ _ ht hnil =>
          cases hnil
          exact ⟨_, .var t id.name ht, rfl⟩
  | call id args s _ _ _ ih =>
      intro ts h
      rw [Expr.lexemes] at h
      -- The name and the parenthesis are the first two tokens, the closing one is the last.
      rcases List.forall₂_cons_right_iff.mp h with ⟨t, ts₁, ht, h₁, rfl⟩
      rcases List.forall₂_cons_right_iff.mp h₁ with ⟨o, ts₂, ho, h₂, rfl⟩
      rcases spells_append src ts₂ _ _ h₂ with ⟨as, cs, rfl, has, hcs⟩
      rcases List.forall₂_cons_right_iff.mp hcs with ⟨c, cs', hc, hnil, rfl⟩
      cases hnil
      rcases derives_args_of_spells src args ih as has with ⟨es, hes, hbares⟩
      refine ⟨_, .call t o c id.name as es ht ho.1 hes hc.1, ?_⟩
      rw [Expr.bare, Expr.bare, hbares]

theorem isNumber_of_spells (src : Text) (t : Token) (n : Nat) (s : Text) (hs : IsNumeral n s)
    (ht : Spells src t ⟨.number, s⟩) : Grammar.IsNumber src t n :=
  ⟨ht.1, s, ht.2, hs⟩

/-- Tokens that spell the numerals of bits are these bits. -/
theorem areBits_of_spells (src : Text) (bits : List Bool) (numerals : List Text)
    (hbits : List.Forall₂ (fun bit s => IsNumeral bit.toNat s) bits numerals) :
    ∀ ts, List.Forall₂ (Spells src) ts (numerals.map (Lexeme.mk .number)) →
      Grammar.AreBits src ts bits := by
  induction hbits with
  | nil =>
      intro ts h
      cases h
      exact .nil
  | @cons bit s bits numerals hbit _ ih =>
      intro ts h
      rw [List.map_cons] at h
      rcases List.forall₂_cons_right_iff.mp h with ⟨t, ts', ht, h', rfl⟩
      exact .cons (isNumber_of_spells src t _ s hbit ht) (ih ts' h')

namespace Expr

theorem fits_moreLexemes (es : List Expr) (h : ∀ e ∈ es, ∀ w ∈ e.lexemes, w.Fits) :
    ∀ w ∈ moreLexemes es, w.Fits := by
  induction es with
  | nil => exact List.forall_mem_nil _
  | cons e es ih =>
      rw [List.forall_mem_cons] at h
      rw [moreLexemes, List.forall_mem_cons, List.forall_mem_append]
      exact ⟨.comma, h.1, ih h.2⟩

theorem fits_argLexemes (es : List Expr) (h : ∀ e ∈ es, ∀ w ∈ e.lexemes, w.Fits) :
    ∀ w ∈ argLexemes es, w.Fits := by
  cases es with
  | nil => exact List.forall_mem_nil _
  | cons e es =>
      rw [List.forall_mem_cons] at h
      rw [argLexemes, List.forall_mem_append]
      exact ⟨h.1, fits_moreLexemes es h.2⟩

/-- The spellings of a tree with proper names fit their kinds. -/
theorem fits_lexemes (e : Expr) (h : e.Named) : ∀ w ∈ e.lexemes, w.Fits := by
  -- Along the derivation that the names are proper, which has one case for a variable and one for
  -- a call.
  induction h with
  | var id s hne hname =>
      rw [lexemes, List.forall_mem_singleton]
      exact .name id.name hne hname
  | call id args s hne hname _ ih =>
      rw [lexemes, List.forall_mem_cons, List.forall_mem_cons, List.forall_mem_append,
        List.forall_mem_singleton]
      exact ⟨.name id.name hne hname, .lparen, fits_argLexemes args ih, .rparen⟩

end Expr

namespace Program

/-- The lexemes of a written program fit their kinds. -/
theorem fits_writtenIn (p : Program) (ws : List Lexeme) (hnamed : p.expr.Named)
    (h : p.WrittenIn ws) : ∀ w ∈ ws, w.Fits := by
  cases h with
  | mk bits e count numerals hcount hbits =>
      rw [List.forall_mem_cons, List.forall_mem_append]
      refine ⟨.number count hcount.1 hcount.2.1, ?_, e.fits_lexemes hnamed⟩
      intro w hw
      rcases List.mem_map.mp hw with ⟨s, hs, rfl⟩
      -- Every numeral stands beside a bit, which makes it one.
      rcases List.forall₂_iff_get.mp hbits with ⟨hlen, hget⟩
      rcases List.mem_iff_get.mp hs with ⟨i, rfl⟩
      have hnum := hget i.1 (by omega) i.2
      exact .number _ hnum.1 hnum.2.1

/-- Every program can be written. -/
theorem exists_written (p : Program) : ∃ src, p.Written src := by
  rcases p with ⟨bits, e⟩
  have hbits : List.Forall₂ (fun bit s => IsNumeral (Bool.toNat bit) s) bits
      (bits.map fun bit => Text.ofNat bit.toNat) := by
    rw [List.forall₂_map_right_iff]
    exact List.forall₂_same.mpr fun bit _ => isNumeral_ofNat bit.toNat
  exact ⟨_, _, .mk bits e _ _ (isNumeral_ofNat bits.length) hbits, laidOut_spaced _⟩

/-- A written program is parsed as it was, its spans apart. -/
theorem parse_written (p : Program) (hargs : p.args.length ≤ maxArgs) (hnamed : p.expr.Named)
    (src : Text) (h : p.Written src) :
    ∃ e, parse src = .ok ⟨p.args, e⟩ ∧ e.bare = p.expr.bare := by
  rcases h with ⟨ws, hws, hlaid⟩
  rcases lex_of_laidOut ws src hlaid (p.fits_writtenIn ws hnamed hws) with ⟨ts, hlex, hspells⟩
  cases hws with
  | mk bits e count numerals hcount hbits =>
      -- The tokens fall into the count, the bits and the expression, as the lexemes do.
      rcases List.forall₂_cons_right_iff.mp hspells with ⟨t, ts', ht, hspells', rfl⟩
      rcases spells_append src ts' _ _ hspells' with ⟨bs, es, rfl, hbs, hes⟩
      rcases derives_of_spells src e hnamed es hes with ⟨e', he', hbare⟩
      have hhead := Grammar.DerivesHead.mk t bs bits (isNumber_of_spells src t _ count hcount ht)
        hargs (areBits_of_spells src bits numerals hbits bs hbs)
      refine ⟨e', (parse_eq_ok_iff src _).mpr ?_, hbare⟩
      rw [hlex]
      exact .mk bits e' (t :: bs) es (.endAt src.length) hhead he' rfl

end Program

/-- The parser accepts its grammar and nothing else, and gives the program of the
    derivation. Every program with proper names and not too many bits can be written,
    and each way of writing it is parsed as the program, its spans apart. No tokens are
    derived as two programs. -/
theorem parse_iff_derives_and_written :
    (∀ (src : Text) (p : Program), parse src = .ok p ↔ Grammar.DerivesProgram src p (lex src)) ∧
    (∀ p : Program, p.args.length ≤ maxArgs → p.expr.Named →
      (∃ src, p.Written src) ∧ ∀ src, p.Written src →
        ∃ e, parse src = .ok ⟨p.args, e⟩ ∧ e.bare = p.expr.bare) ∧
    ∀ (src : Text) (ts : List Token) (p q : Program), Grammar.DerivesProgram src p ts →
      Grammar.DerivesProgram src q ts → p = q := by
  refine ⟨parse_eq_ok_iff, fun p hargs hnamed => ⟨p.exists_written, ?_⟩, ?_⟩
  · exact p.parse_written hargs hnamed
  · exact fun src ts p q => Grammar.derivesProgram_unique src p q ts

/-- The program `not(A)` with one bit. -/
def negated : Program :=
  ⟨[true], .call ⟨[110, 111, 116], ⟨0, 0⟩⟩ [.var ⟨[65], ⟨0, 0⟩⟩ ⟨0, 0⟩] ⟨0, 0⟩⟩

theorem named_negated : negated.expr.Named := by
  refine .call _ _ _ (List.cons_ne_nil _ _) rfl ?_
  rw [List.forall_mem_singleton]
  exact .var _ _ (List.cons_ne_nil _ _) rfl

/-- One way of writing that program is `1 01not( A)`, with a leading zero and hardly a
    blank. -/
theorem written_negated : negated.Written [49, 32, 48, 49, 110, 111, 116, 40, 32, 65, 41] := by
  refine ⟨_, .mk [true] negated.expr [49] [[48, 49]] (by decide) (.cons (by decide) .nil), ?_⟩
  refine .cons [] _ _ [32, 48, 49, 110, 111, 116, 40, 32, 65, 41] rfl ?_ ?_
  · rintro b ⟨⟩; rfl
  refine .cons [32] _ _ [110, 111, 116, 40, 32, 65, 41] rfl ?_ ?_
  · rintro b ⟨⟩; rfl
  refine .cons [] _ _ [40, 32, 65, 41] rfl ?_ ?_
  · rintro b ⟨⟩; rfl
  refine .cons [] _ _ [32, 65, 41] rfl ?_ ?_
  · rintro b ⟨⟩; rfl
  refine .cons [32] _ _ [41] rfl ?_ ?_
  · rintro b ⟨⟩; rfl
  exact .cons [] _ _ [] rfl (by rintro b ⟨⟩) (.nil [] rfl)

theorem parse_iff_derives_and_written_negated :
    negated.args.length ≤ maxArgs ∧ negated.expr.Named ∧
    negated.Written [49, 32, 48, 49, 110, 111, 116, 40, 32, 65, 41] ∧
    ∃ e, parse [49, 32, 48, 49, 110, 111, 116, 40, 32, 65, 41] = .ok ⟨[true], e⟩ ∧
      e.bare = negated.expr.bare :=
  ⟨by decide, named_negated, written_negated,
    (parse_iff_derives_and_written.2.1 negated (by decide) named_negated).2 _ written_negated⟩

end BitLogic
