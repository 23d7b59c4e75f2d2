import BitLogic.Proofs.Reading
import BitLogic.Proofs.Respacing

/-!
# Blanks at the Ends of a Source

A source with blanks before or behind it has the value and the faults of the source without
them. Blanks behind it only move its end, and blanks before it move every fault by as many
bytes.

What is known of the tokens is carried over to the answers by following two runs of the parser
at once, over tokens that are alike. The spans of a tree are never empty, which tells them
apart from the span of the end.

## Main definitions

* `Span.EndMoved`: The same span, but for the end of the source.

## Theorems

* `evaluate_like`: Sources whose tokens are alike.
* `evaluate_trailing`, `evaluate_leading`: The value of a source with blanks at an end.
-/

namespace BitLogic

/-- Sources whose tokens are alike are evaluated alike. -/
theorem evaluate_like {S R : Span → Span → Prop} (src src' : Text) (body body' : List Token)
    (hlex : lex src = body ++ [.endAt src.length])
    (hlex' : lex src' = body' ++ [.endAt src'.length])
    (hcover : ∀ s s' r r', R s s' → R r r' → R (s.cover r) (s'.cover r'))
    (hplace : ∀ s s', R s s' → S s s') (hend : S (Token.endAt src.length).span
      (Token.endAt src'.length).span)
    (hbody : List.Forall₂ (Token.Like S R src src') body body') :
    Alike S Eq (evaluate src) (evaluate src') := by
  -- The ends are alike as places of faults, and never in a tree.
  have hlast : Token.Like S R src src' (.endAt src.length) (.endAt src'.length) :=
    ⟨rfl, ⟨[], Token.lexeme?_endAt src, Token.lexeme?_endAt src'⟩, hend,
      fun heof => absurd rfl heof⟩
  have hparse : Alike S (Program.Like R) (parse src) (parse src') := by
    rw [parse_eq_drive, parse_eq_drive, hlex, hlex']
    exact Parser.drive_like hcover hlast _ _ (List.rel_append hbody (.cons hlast .nil)) _ _ .count
  refine (hparse.and_left (length_args_of_parse src)).bind ?_
  intro p q hpq
  exact (Program.eval_like p q hpq.1 hpq.2).mono hplace fun _ _ h => h

/-- The span is the same, but the end of a source of `n` bytes has become the end of one of
    `m` bytes. -/
def Span.EndMoved (n m : Nat) (s s' : Span) : Prop :=
  if s = ⟨n, n⟩ then s' = ⟨m, m⟩ else s' = s

/-- Blanks behind a source change nothing but where its end is reported. -/
theorem evaluate_trailing (src gap : Text) (hgap : gap.all Lexer.isSpace = true) :
    Alike (Span.EndMoved (src ++ gap).length src.length) Eq (evaluate (src ++ gap))
      (evaluate src) := by
  rcases lex_trailing src gap hgap with ⟨ts, hts, hlong⟩
  rcases lex_inOrder src with ⟨body, hlex, hin, hbody⟩
  have hsame := (List.append_inj' (hts.symm.trans hlex) rfl).1
  rw [hsame] at hlong
  -- Spans in a tree are not empty, so none of them is taken for the end.
  have hplace : ∀ s s' : Span, s' = s ∧ s.start < s.stop →
      Span.EndMoved (src ++ gap).length src.length s s' := by
    intro s s' hs
    rw [Span.EndMoved, if_neg]
    · exact hs.1
    · intro hempty
      rw [hempty] at hs
      exact absurd hs.2 (Int.lt_irrefl _)
  have hend : Span.EndMoved (src ++ gap).length src.length (Token.endAt (src ++ gap).length).span
      (Token.endAt src.length).span := by
    rw [Span.EndMoved, Token.endAt, if_pos rfl]
    rfl
  refine evaluate_like _ _ body body hlong hlex ?_ hplace hend ?_
  · intro s s' r r' hs hr
    rw [hs.1, hr.1]
    refine ⟨rfl, ?_⟩
    simp only [Span.cover]
    omega
  · rw [List.forall₂_same]
    intro t ht
    have hne := (hin.bounds t ht).2.1
    rcases (hbody t ht).2.lexeme?_shift [] gap with ⟨text, hmoved, htext⟩
    rw [List.length_nil, Int.natCast_zero, Token.shift_zero] at hmoved
    exact ⟨rfl, ⟨text, hmoved, htext⟩, hplace _ _ ⟨rfl, hne⟩, fun _ => ⟨rfl, hne⟩⟩

/-- Blanks before a source move what is reported. -/
theorem evaluate_leading (gap src : Text) (hgap : gap.all Lexer.isSpace = true) :
    Alike (fun s s' => s = s'.shift gap.length) Eq (evaluate (gap ++ src)) (evaluate src) := by
  rcases lex_inOrder src with ⟨body, hlex, -, hbody⟩
  have hend : Token.shift gap.length (.endAt src.length) = .endAt (gap ++ src).length :=
    Token.shift_endAt _ _ _ (by rw [List.length_append]; omega)
  have hlong : lex (gap ++ src) =
      body.map (Token.shift gap.length) ++ [.endAt (gap ++ src).length] := by
    rw [lex_leading gap src hgap, hlex, List.map_append, List.map_singleton, hend]
  refine evaluate_like _ _ _ body hlong hlex ?_ (fun _ _ h => h) ?_ ?_
  · intro s s' r r' hs hr
    rw [hs, hr]
    simp only [Span.cover, Span.shift, Span.mk.injEq]
    omega
  · rw [← hend]
    rfl
  · rw [List.forall₂_map_left_iff, List.forall₂_same]
    intro t ht
    rcases (hbody t ht).2.lexeme?_shift gap [] with ⟨text, hmoved, htext⟩
    rw [List.append_nil] at hmoved
    exact ⟨rfl, ⟨text, hmoved, htext⟩, rfl, fun _ => rfl⟩

end BitLogic
