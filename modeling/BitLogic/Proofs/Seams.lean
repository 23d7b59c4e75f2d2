import BitLogic.Proofs.Reading

/-!
# Taking a Source Apart

Where a source can be divided so that the tokens of the parts are the tokens of the whole.

One such place is a blank. The tokens before it are those of the text that stands there,
since a blank ends every token, and the tokens behind it are those of the rest, moved. So
lexing takes a text with a blank in it to the tokens of its two parts, for any bytes
whatever, also where one part breaks off in the middle of a character or the other begins
there (`lex_seam`).

The other places are the borders of tokens. What stands before a token has no influence on
it, because the lexer only looks ahead, and hence a source can be cut before any token
(`run_drop`). What stands behind a token has none either, but that is a property of the
tokens: the lexer did look at the byte behind a run, and found that the run does not go on.
Where the source ends instead, it does not go on either (`classify_cut`), so a source can be
cut behind any token (`run_take`). Both cuts together give the tokens of a slice
(`lex_slice`).

## Theorems

* `Lexer.classify_cut`: A token does not depend on what stands behind it.
* `Lexer.run_drop`, `Lexer.run_take`: The tokens behind a cut and before it.
* `Lexer.run_unshift`: The tokens of a text, from those at another offset.
* `lex_slice`: The tokens of a slice from the start of a token to the end of another.
* `lex_seam`: The tokens of two parts with a blank between them.
* `lexing_composes_at_blanks`: Lexing divides a source at each of its blanks.
* `lexing_composes_at_blanks_broken`: A seam between characters that are broken off.
-/

namespace BitLogic

/-! ## Cuts at the borders of tokens -/

namespace Lexer

/-- A token that ends within a text does not depend on what stands behind the text. -/
theorem classify_cut (b : UInt8) (s rest : Text)
    (h : (classify b (s ++ rest)).2 ≤ s.length + 1) : classify b s = classify b (s ++ rest) := by
  rcases byte_cases b with ⟨k, p, hk, hb⟩ | rfl | rfl | rfl | hstray
  · -- A run that ends within the text is the longest run there, too.
    rw [classify_run k p b _ hk hb] at h
    simp only at h
    rw [classify_run k p b _ hk hb, classify_run k p b _ hk hb,
      List.takeWhile_of_length_le p s rest (by omega)]
  · rfl
  · rfl
  · rfl
  · -- A character that ends within the text is decoded from the text alone.
    rw [classify_stray b _ hstray] at h
    rw [classify_stray b _ hstray, classify_stray b _ hstray, Utf8.decode_cut b s rest h]

/-- A source can be cut before a token. The tokens from there on are the same. -/
theorem run_drop (s : Text) : ∀ (n : Nat) (xs : List Token) (t : Token) (ys : List Token),
    (run ⟨s, n, false⟩).1 = xs ++ t :: ys →
      ∃ k : Nat, k ≤ s.length ∧ t.span.start = (n + k : Nat) ∧
        (run ⟨s.drop k, n + k, false⟩).1 = t :: ys := by
  -- By induction on the text, one blank or token at a time. A token further on is one of what
  -- is left, at a later offset.
  induction s using text_induction with
  | nil =>
      intro n xs t ys h
      rw [run_nil] at h
      cases xs with
      | nil =>
          refine ⟨0, Nat.le_refl 0, ?_, ?_⟩
          · rw [← (List.cons.inj h).1]
            rfl
          · rw [List.drop_zero, Nat.add_zero, run_nil]
            exact h
      | cons x xs => simp at h
  | space b s hb ih =>
      intro n xs t ys h
      rw [run_space b s n hb] at h
      rcases ih (n + 1) xs t ys h with ⟨k, hk, hstart, hrun⟩
      have hoffset : n + 1 + k = n + (k + 1) := by omega
      rw [hoffset] at hstart hrun
      exact ⟨k + 1, Nat.succ_le_succ hk, hstart, hrun⟩
  | token b s hb ih =>
      intro n xs t ys h
      cases xs with
      | nil =>
          refine ⟨0, Nat.zero_le _, ?_, h⟩
          rw [run_token b s n hb] at h
          rw [← (List.cons.inj h).1]
          rfl
      | cons x xs =>
          rw [run_token b s n hb] at h
          have hbounds := classify_bounds b s
          rcases ih _ xs t ys (List.cons.inj h).2 with ⟨k, hk, hstart, hrun⟩
          rw [List.length_drop] at hk
          rw [List.drop_drop] at hrun
          have hoffset : n + (classify b s).2 + k = n + ((classify b s).2 - 1 + k + 1) := by omega
          rw [hoffset] at hstart hrun
          exact ⟨(classify b s).2 - 1 + k + 1, by rw [List.length_cons]; omega, hstart, hrun⟩

/-- A source can be cut behind a token. The tokens up to there are the same. -/
theorem run_take (s : Text) : ∀ (n : Nat) (xs : List Token) (t : Token) (ys : List Token),
    (run ⟨s, n, false⟩).1 = xs ++ t :: ys → t.kind ≠ .eof →
      ∃ k : Nat, k ≤ s.length ∧ t.span.stop = (n + k : Nat) ∧
        (run ⟨s.take k, n, false⟩).1 = xs ++ [t, .endAt (n + k)] := by
  -- By the same induction, but here the tokens before the cut are read again from less text.
  induction s using text_induction with
  | nil =>
      intro n xs t ys h hne
      rw [run_nil] at h
      cases xs with
      | nil =>
          rw [← (List.cons.inj h).1] at hne
          exact absurd rfl hne
      | cons x xs => simp at h
  | space b s hb ih =>
      intro n xs t ys h hne
      rw [run_space b s n hb] at h
      rcases ih (n + 1) xs t ys h hne with ⟨k, hk, hstop, hrun⟩
      have hoffset : n + 1 + k = n + (k + 1) := by omega
      rw [hoffset] at hstop hrun
      refine ⟨k + 1, Nat.succ_le_succ hk, hstop, ?_⟩
      rw [List.take_succ_cons, run_space b _ n hb]
      exact hrun
  | token b s hb ih =>
      intro n xs t ys h hne
      rw [run_token b s n hb] at h
      have hbounds := classify_bounds b s
      -- However much is kept behind the token, the token itself is the same.
      have hkeep : ∀ k : Nat, classify b (s.take ((classify b s).2 - 1 + k)) = classify b s := by
        intro k
        have hcut := classify_cut b (s.take ((classify b s).2 - 1 + k))
          (s.drop ((classify b s).2 - 1 + k))
        rw [List.take_append_drop] at hcut
        refine hcut ?_
        rw [List.length_take]
        omega
      -- A cut further on keeps the token and cuts what is behind it.
      have hrest : ∀ k : Nat, (run ⟨(b :: s).take ((classify b s).2 - 1 + k + 1), n, false⟩).1 =
          ⟨(classify b s).1, ⟨n, n + (classify b s).2⟩⟩ ::
            (run ⟨(s.drop ((classify b s).2 - 1)).take k, n + (classify b s).2, false⟩).1 := by
        intro k
        rw [List.take_succ_cons, run_token b _ n hb, hkeep k, List.drop_take,
          Nat.add_sub_cancel_left]
      cases xs with
      | nil =>
          refine ⟨(classify b s).2 - 1 + 0 + 1, ?_, ?_, ?_⟩
          · rw [List.length_cons]
            omega
          · rw [← (List.cons.inj h).1]
            simp only
            omega
          · have hoffset : n + ((classify b s).2 - 1 + 0 + 1) = n + (classify b s).2 := by omega
            rw [hrest 0, List.take_zero, run_nil, (List.cons.inj h).1, hoffset]
            rfl
      | cons x xs =>
          rcases ih _ xs t ys (List.cons.inj h).2 hne with ⟨k, hk, hstop, hrun⟩
          rw [List.length_drop] at hk
          have hoffset : n + (classify b s).2 + k = n + ((classify b s).2 - 1 + k + 1) := by omega
          refine ⟨(classify b s).2 - 1 + k + 1, by rw [List.length_cons]; omega, ?_, ?_⟩
          · rw [hstop, hoffset]
          · rw [hrest k, hrun, (List.cons.inj h).1, hoffset]
            rfl

/-- The tokens of a text are those at another offset, moved back. -/
theorem run_unshift (d : Nat) (s : Text) :
    (run ⟨s, 0, false⟩).1 = (run ⟨s, d, false⟩).1.map (Token.shift (-d)) := by
  have hback : ∀ t : Token, (t.shift d).shift (-d) = t := by
    intro t
    simp only [Token.shift_shift, Int.add_right_neg, Token.shift_zero]
  have hshift := run_shift d s 0
  rw [Nat.zero_add] at hshift
  rw [hshift, List.map_map]
  exact (List.map_id'' hback _).symm

end Lexer

/-- The tokens of a slice that begins with one token and ends with another are the tokens
    from the one to the other, moved. -/
theorem lex_slice (src : Text) (xs us ys : List Token) (t u : Token)
    (h : lex src = xs ++ us ++ ys) (ht : us.head? = some t) (hu : us.getLast? = some u)
    (hne : u.kind ≠ .eof) :
    ∃ text, src.slice? t.span.start u.span.stop = some text ∧
      lex text = us.map (Token.shift (-t.span.start)) ++ [.endAt text.length] := by
  rcases List.head?_eq_some_iff.mp ht with ⟨us', hhead⟩
  rcases List.getLast?_eq_some_iff.mp hu with ⟨vs, hlast⟩
  -- Cut before the first token, and what is left behind the last.
  have hfirst : lex src = xs ++ t :: (us' ++ ys) := by
    rw [h, hhead, List.append_assoc, List.cons_append]
  rcases Lexer.run_drop src 0 xs t _ hfirst with ⟨k, hk, hstart, hdrop⟩
  have hbehind : (Lexer.run ⟨src.drop k, 0 + k, false⟩).1 = vs ++ u :: ys := by
    rw [hdrop, ← List.cons_append, ← hhead, hlast, List.append_assoc, List.singleton_append]
  rcases Lexer.run_take _ _ vs u ys hbehind hne with ⟨m, hm, hstop, htake⟩
  rw [List.length_drop] at hm
  rw [Nat.zero_add] at hstart hstop htake
  have hlen : ((src.drop k).take m).length = m := by
    rw [List.length_take, List.length_drop]
    omega
  refine ⟨(src.drop k).take m, ?_, ?_⟩
  · have hcount : ((k + m : Nat) - (k : Int)).toNat = m := by omega
    rw [hstart, hstop, Text.slice?, if_pos (by omega), Int.toNat_natCast, hcount]
  · have hend : Token.shift (-k) (.endAt (k + m)) = .endAt m :=
      Token.shift_endAt _ _ _ (by omega)
    -- Its tokens were read further on in the source, so they are moved back.
    have hmoved := Lexer.run_unshift k ((src.drop k).take m)
    rw [htake, ← List.singleton_append, ← List.append_assoc, ← hlast, List.map_append,
      List.map_singleton, hend] at hmoved
    rw [hlen, hstart]
    exact hmoved

/-! ## Seams at blanks -/

/-- The tokens of two parts with a blank between them. -/
theorem lex_seam (s t : Text) (w : UInt8) (hw : Lexer.isSpace w = true) :
    ∃ body, lex s = body ++ [.endAt s.length] ∧
      lex (s ++ w :: t) = body ++ (lex t).map (Token.shift (s.length + 1 : Nat)) := by
  rcases Lexer.run_before_space w t hw s 0 with ⟨body, hbody, hlong⟩
  rw [Nat.zero_add] at hbody hlong
  have hbehind := Lexer.run_shift (s.length + 1) t 0
  rw [Nat.zero_add] at hbehind
  refine ⟨body, hbody, ?_⟩
  rw [lex, Lexer.ofSource, hlong, Lexer.run_space w t _ hw, hbehind]
  rfl

/-- Lexing divides a source at each of its blanks: its tokens are those of the part before
    the blank, without the `eof` that ends them, and those of the part behind it, moved to
    where that part stands. -/
theorem lexing_composes_at_blanks (s t : Text) (w : UInt8)
    (hw : w ∈ ([32, 9, 10, 12, 13] : List UInt8)) :
    ∃ body, lex s = body ++ [.endAt s.length] ∧ (∀ u ∈ body, u.kind ≠ .eof) ∧
      lex (s ++ [w] ++ t) = body ++ (lex t).map (Token.shift (s.length + 1)) := by
  have hspace : Lexer.isSpace w = true := by
    simp only [List.mem_cons, List.not_mem_nil, or_false] at hw
    rcases hw with rfl | rfl | rfl | rfl | rfl <;> rfl
  rcases lex_seam s t w hspace with ⟨body, hbody, hseam⟩
  rcases lex_ends s with ⟨ts, hts, hne⟩
  -- There is only one way to take the `eof` off the tokens of the first part.
  have hsame := (List.append_inj' (hts.symm.trans hbody) rfl).1
  refine ⟨body, hbody, hsame ▸ hne, ?_⟩
  rw [List.append_assoc, List.singleton_append]
  exact hseam

/-- A name with a broken character at its end, and a continuation byte before a number: a
    character is broken off before the seam, and another begins without its first byte. -/
theorem lexing_composes_at_blanks_broken :
    (32 : UInt8) ∈ ([32, 9, 10, 12, 13] : List UInt8) ∧
    ∃ body, lex [65, 0xC3] = body ++ [.endAt 2] ∧ (∀ u ∈ body, u.kind ≠ .eof) ∧
      lex ([65, 0xC3] ++ [32] ++ [0xA9, 49]) =
        body ++ (lex [0xA9, 49]).map (Token.shift ((2 : Nat) + 1)) :=
  ⟨by decide, lexing_composes_at_blanks [65, 0xC3] [0xA9, 49] 32 (by decide)⟩

end BitLogic
