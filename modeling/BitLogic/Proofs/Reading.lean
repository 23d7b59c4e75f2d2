import BitLogic.Proofs.Tiling

/-!
# Reading a Part of a Text

The tokens of a text that stands somewhere in a source, with a blank behind it or with other
text before it.

Text in front that has been read already leaves nothing but an offset, and the offset is all
that can differ in the tokens (`run_shift`). Text behind is the harder case. The tokens before
it are read with it in sight, so it has to be shown that a blank ends every token
(`classify_before_space`). For a number or a name that is plain. For any other character it is
a fact about encodings: no byte behind the first of a sequence is ASCII, so a sequence that
was broken off is not completed by a blank (`Utf8.decode_before_ascii`).

The lexer recurses on what is left of its source, and a token may be of any length. The steps
that it takes are given once as an induction over texts (`text_induction`).

## Main definitions

* `Span.shift`, `Token.shift`: Moved by a number of bytes.

## Theorems

* `Lexer.lt_of_isSpace`: A blank is ASCII.
* `Lexer.classify_before_space`: A blank ends every token.
* `Lexer.classify_ne_whitespace`: What does not begin with a blank is no blank.
* `Lexer.run_nil`, `Lexer.run_gap`, `Lexer.run_space`, `Lexer.run_token`: The tokens of
  a text, by what it begins with.
* `Lexer.text_induction`: Induction over a text as the lexer reads it.
* `Lexer.run_before_space`: The tokens before a blank.
* `Token.shift_mk`, `Token.shift_zero`, `Token.shift_shift`, `Token.shift_endAt`: Moving
  tokens.
* `Token.Called.lexeme?_shift`: What a token spells where it is moved to.
* `Lexer.run_shift`: The tokens at another offset.
* `lex_trailing`, `lex_leading`: The tokens of a source with blanks at an end.
-/

namespace BitLogic

/-! ## Tokens before a blank -/

namespace Lexer

theorem lt_of_isSpace (b : UInt8) (h : isSpace b = true) : b.toNat < 128 := by
  simp only [isSpace, Bool.or_eq_true, beq_iff_eq] at h
  rcases h with (((rfl | rfl) | rfl) | rfl) | rfl <;> decide

/-- A blank ends every token that is none itself. -/
theorem classify_before_space (b w : UInt8) (s rest : Text) (hb : isSpace b = false)
    (hw : isSpace w = true) : classify b (s ++ w :: rest) = classify b s := by
  rcases byte_cases b with ⟨k, p, hk, hpb⟩ | rfl | rfl | rfl | hstray
  · -- A run of digits or letters stops at the blank, if not before.
    have hpw : p w = false := by
      have hother := not_digit_not_letter_of_isSpace w hw
      cases k with
      | whitespace =>
          cases hk
          rw [hb] at hpb
          exact absurd hpb Bool.false_ne_true
      | number => cases hk; exact hother.1
      | ident => cases hk; exact hother.2
      | _ => simp only [Token.Kind.run?, reduceCtorEq] at hk
    rw [classify_run k p b _ hk hpb, classify_run k p b _ hk hpb,
      List.takeWhile_append_cons p s rest w hpw]
  · rfl
  · rfl
  · rfl
  · -- Any other character is decoded alike, as a blank never completes a sequence.
    rw [classify_stray b _ hstray, classify_stray b _ hstray,
      Utf8.decode_before_ascii b w s rest (lt_of_isSpace w hw)]

theorem classify_ne_whitespace (b : UInt8) (rest : Text) (hb : isSpace b = false) :
    (classify b rest).1 ≠ .whitespace := by
  intro hspace
  rcases classify_callsFor b rest with ⟨s, after, -, -, hcall, -⟩
  rw [hspace] at hcall
  have hspace := hcall.of_run rfl
  rw [hb] at hspace
  exact Bool.false_ne_true hspace

@[simp]
theorem run_nil (n : Nat) : (run ⟨[], n, false⟩).1 = [.endAt n] := by
  have hnext : next? ⟨[], n, false⟩ = some (.endAt n, ⟨[], n, true⟩) := by
    rw [next?_eq _ _ _ (scan?_nil n)]
    rfl
  rw [run_eq _ _ _ hnext, run_done]

/-- Blanks in front of a text are passed over. -/
theorem run_gap (gap rest : Text) (n : Nat) (hgap : gap.all isSpace = true) :
    (run ⟨gap ++ rest, n, false⟩).1 = (run ⟨rest, n + gap.length, false⟩).1 :=
  run_congr _ _ (next?_gap gap rest n hgap)

/-- A text that does not begin with a blank begins with a token. -/
theorem run_token (b : UInt8) (rest : Text) (n : Nat) (hb : isSpace b = false) :
    (run ⟨b :: rest, n, false⟩).1 =
      ⟨(classify b rest).1, ⟨n, n + (classify b rest).2⟩⟩ ::
        (run ⟨rest.drop ((classify b rest).2 - 1), n + (classify b rest).2, false⟩).1 := by
  have hnext := next?_eq _ _ _ (scan?_cons b rest n)
  rw [if_neg (classify_ne_whitespace b rest hb)] at hnext
  exact run_eq _ _ _ hnext

/-- Induction over a text as the lexer reads it: it is empty, or begins with a blank, or
    begins with a token behind which there is less of it. -/
@[elab_as_elim]
theorem text_induction {P : Text → Prop} (nil : P [])
    (space : ∀ b s, isSpace b = true → P s → P (b :: s))
    (token : ∀ b s, isSpace b = false → P (s.drop ((classify b s).2 - 1)) → P (b :: s))
    (s : Text) : P s := by
  induction hs : s.length using Nat.strongRecOn generalizing s with
  | _ len ih =>
      cases s with
      | nil => exact nil
      | cons b s =>
          rw [List.length_cons] at hs
          by_cases hb : isSpace b = true
          · exact space b s hb (ih s.length (by omega) s rfl)
          · rw [Bool.not_eq_true] at hb
            exact token b s hb (ih _ (by rw [List.length_drop]; omega) _ rfl)

theorem run_space (b : UInt8) (rest : Text) (n : Nat) (hb : isSpace b = true) :
    (run ⟨b :: rest, n, false⟩).1 = (run ⟨rest, n + 1, false⟩).1 := by
  have hgap : [b].all isSpace = true := by
    rw [List.all_cons, hb]
    rfl
  exact run_gap [b] rest n hgap

/-- The tokens before a blank are those of the text that stands there. -/
theorem run_before_space (w : UInt8) (rest : Text) (hw : isSpace w = true) (s : Text) :
    ∀ n : Nat, ∃ ts, (run ⟨s, n, false⟩).1 = ts ++ [.endAt (n + s.length)] ∧
      (run ⟨s ++ w :: rest, n, false⟩).1 = ts ++ (run ⟨w :: rest, n + s.length, false⟩).1 := by
  induction s using text_induction with
  | nil => exact fun n => ⟨[], run_nil n, rfl⟩
  | space b s hb ih =>
      intro n
      rcases ih (n + 1) with ⟨ts, hts, hlong⟩
      have hend : n + 1 + s.length = n + (b :: s).length := by
        rw [List.length_cons]
        omega
      rw [hend] at hts hlong
      refine ⟨ts, (run_space b s n hb).trans hts, ?_⟩
      exact (run_space b (s ++ w :: rest) n hb).trans hlong
  | token b s hb ih =>
      intro n
      -- The token is the same with the blank in sight, and so is what is behind it.
      have hbounds := classify_bounds b s
      have hsame := classify_before_space b w s rest hb hw
      rcases ih (n + (classify b s).2) with ⟨ts, hts, hlong⟩
      have hend : n + (classify b s).2 + (s.drop ((classify b s).2 - 1)).length =
          n + (b :: s).length := by
        rw [List.length_drop, List.length_cons]
        omega
      rw [hend] at hts hlong
      refine ⟨⟨(classify b s).1, ⟨n, n + (classify b s).2⟩⟩ :: ts, ?_, ?_⟩
      · rw [run_token b s n hb, hts]
        rfl
      · rw [List.cons_append, run_token b _ n hb, hsame,
          List.drop_append_of_le_length (by omega), hlong]
        rfl

end Lexer

/-! ## Tokens at another offset -/

/-- The span moved by a number of bytes. -/
def Span.shift (d : Int) (s : Span) : Span := ⟨s.start + d, s.stop + d⟩

/-- The token moved by a number of bytes. -/
def Token.shift (d : Int) (t : Token) : Token := ⟨t.kind, t.span.shift d⟩

theorem Token.shift_mk (d a n : Nat) (k : Token.Kind) :
    Token.shift d ⟨k, ⟨a, a + n⟩⟩ = ⟨k, ⟨(a + d : Nat), (a + d : Nat) + n⟩⟩ := by
  simp only [Token.shift, Span.shift, Token.mk.injEq, Span.mk.injEq, true_and]
  omega

@[simp]
theorem Token.shift_zero (t : Token) : t.shift 0 = t := by
  simp only [shift, Span.shift, Int.add_zero]

@[simp]
theorem Token.shift_shift (a b : Int) (t : Token) : (t.shift a).shift b = t.shift (a + b) := by
  simp only [shift, Span.shift, Int.add_assoc]

/-- The end that is moved is the end of a longer source. -/
theorem Token.shift_endAt (d : Int) (n m : Nat) (h : n + d = m) :
    Token.shift d (.endAt n) = .endAt m := by
  simp only [endAt, shift, Span.shift, h]

/-- A token spells the same in a longer source, where it is moved. -/
theorem Token.Called.lexeme?_shift {src : Text} {t : Token} (h : t.Called src)
    (before after : Text) : ∃ text, (t.shift before.length).lexeme? (before ++ src ++ after) =
      some text ∧ t.lexeme? src = some text := by
  rcases h with ⟨front, text, back, rfl, hspan, -⟩
  -- Where the token stands now, there is as much text before it as it was moved by.
  have hmoved : (t.shift before.length).span =
      ⟨(before ++ front).length, (before ++ front).length + text.length⟩ := by
    simp only [Token.shift, hspan, Span.shift, List.length_append, Span.mk.injEq]
    omega
  have hlong : before ++ (front ++ text ++ back) ++ after =
      before ++ front ++ text ++ (back ++ after) := by
    simp only [List.append_assoc]
  refine ⟨text, ?_, Token.lexeme?_of_span t front text back hspan⟩
  rw [hlong]
  exact Token.lexeme?_of_span _ _ text _ hmoved

/-- The tokens of a text do not depend on where it begins, but for their offsets. -/
theorem Lexer.run_shift (d : Nat) (s : Text) : ∀ n : Nat,
    (run ⟨s, n + d, false⟩).1 = (run ⟨s, n, false⟩).1.map (Token.shift d) := by
  induction s using text_induction with
  | nil =>
      intro n
      rw [run_nil, run_nil]
      rfl
  | space b s hb ih =>
      intro n
      rw [run_space b s _ hb, run_space b s n hb, ← ih (n + 1), Nat.add_right_comm]
  | token b s hb ih =>
      intro n
      rw [run_token b s _ hb, run_token b s n hb, List.map_cons, ← ih (n + (classify b s).2),
        Token.shift_mk, Nat.add_right_comm]

/-- Blanks behind a source only move its end. -/
theorem lex_trailing (src gap : Text) (hgap : gap.all Lexer.isSpace = true) :
    ∃ ts, lex src = ts ++ [.endAt src.length] ∧
      lex (src ++ gap) = ts ++ [.endAt (src ++ gap).length] := by
  cases gap with
  | nil =>
      rcases lex_ends src with ⟨ts, hts, -⟩
      rw [List.append_nil]
      exact ⟨ts, hts, hts⟩
  | cons w gap =>
      have hw : Lexer.isSpace w = true := by
        rw [List.all_cons, Bool.and_eq_true] at hgap
        exact hgap.1
      rcases Lexer.run_before_space w gap hw src 0 with ⟨ts, hts, hlong⟩
      rw [Nat.zero_add] at hts hlong
      -- Behind the source there are only blanks, and then the end.
      refine ⟨ts, hts, hlong.trans ?_⟩
      have hend := Lexer.run_gap (w :: gap) [] src.length hgap
      rw [List.append_nil, Lexer.run_nil] at hend
      rw [hend, List.length_append]

/-- Blanks before a source move every token. -/
theorem lex_leading (gap src : Text) (hgap : gap.all Lexer.isSpace = true) :
    lex (gap ++ src) = (lex src).map (Token.shift gap.length) := by
  have hskip := Lexer.run_gap gap src 0 hgap
  rw [Lexer.run_shift gap.length src 0] at hskip
  exact hskip

end BitLogic
