import BitLogic.Token.Lexer
import BitLogic.Proofs.Basics

/-!
# The Lexer Step by Step

Equations for the three layers of the lexer, so that no later proof has to open them.
Reading a raw token, skipping blanks, and reading all tokens are each defined by
recursion on what is left of the source, which is a measure and not a subterm. The
definitions therefore do not unfold by themselves, and every fact about a list of
tokens would otherwise begin with the same few steps.

Two facts come out of them. Blanks ahead of a token can be cut off (`next?_skip`),
and the tokens of a source are some tokens that are not `eof` followed by one that
is (`lex_ends`).

## Main definitions

* `Lexer.Reads`: A token that is not `eof` was read, or the end was.

## Theorems

* `Utf8.width_decode`: A code point takes at least one byte, and no more than there are.
* `Lexer.classify_bounds`: The same for a raw token.
* `Lexer.symbol?_ne_eof`, `Lexer.classify_ne_eof`: Where there are bytes, the end is not
  read.
* `Lexer.not_digit_not_letter_of_isSpace`, `Lexer.not_digit_of_isLetter`: The classes of
  bytes have none in common.
* `Lexer.classify_digit`, `Lexer.classify_letter`: A first byte decides the class.
* `Lexer.scan?_nil`, `Lexer.scan?_cons`: Reading a raw token.
* `Lexer.next?_eq`: Reading a token, by the raw token ahead.
* `Lexer.next?_done`, `Lexer.run_done`: Behind the end there is nothing to read.
* `Lexer.next?_skip`, `Lexer.next?_gap`: Blanks ahead are skipped.
* `Lexer.run_eq`, `Lexer.run_none`, `Lexer.run_congr`: Reading all tokens, by the token
  ahead.
* `Lexer.scan?_reads`, `Lexer.next?_reads`: Reading goes on or comes to its end.
* `Lexer.run_ends`: The tokens that are left end in the only `eof`.
* `lex_ends`: The only `eof` of a source is its last token.
-/

namespace BitLogic

/-- A code point takes at least one byte, and no more than there are. -/
theorem Utf8.width_decode (b : UInt8) (rest : Text) :
    1 ≤ (Utf8.decode b rest).width ∧ (Utf8.decode b rest).width ≤ rest.length + 1 := by
  unfold Utf8.decode
  -- Each branch names its width, and the pattern of the branch shows the bytes.
  repeat' split
  all_goals simp only [CodePoint.broken, List.length_cons, List.length_nil]
  all_goals omega

namespace Lexer

/-- A raw token takes its first byte and no more bytes than there are. This is what makes
    reading end. -/
theorem classify_bounds (b : UInt8) (rest : Text) :
    1 ≤ (classify b rest).2 ∧ (classify b rest).2 ≤ rest.length + 1 := by
  have hrun : ∀ p : UInt8 → Bool, (rest.takeWhile p).length ≤ rest.length :=
    fun p => (List.takeWhile_prefix p).length_le
  have hspace := hrun isSpace
  have hdigit := hrun Token.isDigit
  have hletter := hrun isLetter
  -- The runs take bytes that are there, and the other tokens take one byte or a code point.
  unfold classify
  split
  · simp only []; omega
  split
  · simp only []; omega
  split
  · simp only []; omega
  split
  · simp only []; omega
  · exact Utf8.width_decode b rest

theorem symbol?_ne_eof (b : UInt8) : symbol? b ≠ some .eof := by
  unfold symbol?
  repeat' split
  all_goals simp only [ne_eq, Option.some.injEq, reduceCtorEq, not_false_eq_true]

/-- A raw token that starts with a byte is not the end. -/
theorem classify_ne_eof (b : UInt8) (rest : Text) : (classify b rest).1 ≠ .eof := by
  unfold classify
  split
  · simp only [ne_eq, reduceCtorEq, not_false_eq_true]
  split
  · simp only [ne_eq, reduceCtorEq, not_false_eq_true]
  split
  · simp only [ne_eq, reduceCtorEq, not_false_eq_true]
  split
  · -- Of the kinds in the table of symbols none is `eof`.
    next k hk =>
    intro heof
    exact symbol?_ne_eof b (heof ▸ hk)
  · simp only [ne_eq, reduceCtorEq, not_false_eq_true]

/-- A blank is neither a digit nor a letter. -/
theorem not_digit_not_letter_of_isSpace (b : UInt8) (h : isSpace b = true) :
    Token.isDigit b = false ∧ isLetter b = false := by
  simp only [isSpace, Bool.or_eq_true, beq_iff_eq] at h
  rcases h with (((rfl | rfl) | rfl) | rfl) | rfl <;> exact ⟨rfl, rfl⟩

theorem not_digit_of_isLetter (b : UInt8) (h : isLetter b = true) : Token.isDigit b = false := by
  simp only [isLetter, Bool.or_eq_true, Bool.and_eq_true, decide_eq_true_eq,
    UInt8.le_iff_toNat_le] at h
  simp only [Token.isDigit, Bool.and_eq_false_iff, decide_eq_false_iff_not,
    UInt8.le_iff_toNat_le]
  simp at h ⊢
  omega

theorem classify_digit (b : UInt8) (rest : Text) (h : Token.isDigit b = true) :
    classify b rest = (.number, 1 + (rest.takeWhile Token.isDigit).length) := by
  have hspace : ¬ isSpace b = true := by
    intro hs
    rw [(not_digit_not_letter_of_isSpace b hs).1] at h
    exact absurd h (by decide)
  rw [classify, if_neg hspace, if_pos h]

theorem classify_letter (b : UInt8) (rest : Text) (h : isLetter b = true) :
    classify b rest = (.ident, 1 + (rest.takeWhile isLetter).length) := by
  have hspace : ¬ isSpace b = true := by
    intro hs
    rw [(not_digit_not_letter_of_isSpace b hs).2] at h
    exact absurd h (by decide)
  have hdigit : ¬ Token.isDigit b = true := by
    rw [not_digit_of_isLetter b h]
    decide
  rw [classify, if_neg hspace, if_neg hdigit, if_pos h]

@[simp]
theorem scan?_nil (n : Nat) :
    scan? ⟨[], n, false⟩ = some (.endAt n, ⟨[], n, true⟩) := rfl

theorem scan?_cons (b : UInt8) (rest : Text) (n : Nat) :
    scan? ⟨b :: rest, n, false⟩ =
      some (⟨(classify b rest).1, ⟨n, n + (classify b rest).2⟩⟩,
        ⟨rest.drop ((classify b rest).2 - 1), n + (classify b rest).2, false⟩) := rfl

/-- Reading a token, by the raw token ahead. -/
theorem next?_eq (l l' : Lexer) (t : Token) (h : l.scan? = some (t, l')) :
    l.next? = if t.kind = .whitespace then l'.next? else some (t, l') := by
  rw [next?]
  split
  · next hnone => rw [h] at hnone; simp only [reduceCtorEq] at hnone
  · next u m hsome =>
    rw [h, Option.some.injEq, Prod.mk.injEq] at hsome
    rw [hsome.1, hsome.2]

@[simp]
theorem next?_done (rest : Text) (n : Nat) : next? ⟨rest, n, true⟩ = none := by
  rw [next?]
  split
  · rfl
  · next t l' hsome => simp only [scan?, if_true, reduceCtorEq] at hsome

/-- Blanks ahead are skipped, however many there are. -/
theorem next?_skip (rest : Text) (n : Nat) : next? ⟨rest, n, false⟩ =
    next? ⟨rest.dropWhile isSpace, n + (rest.takeWhile isSpace).length, false⟩ := by
  cases rest with
  | nil => rfl
  | cons b rest =>
      by_cases hb : isSpace b = true
      · -- All blanks ahead are one raw token, so one step skips them.
        have hclass : classify b rest = (.whitespace, 1 + (rest.takeWhile isSpace).length) := by
          rw [classify, if_pos hb]
        rw [next?_eq _ _ _ (scan?_cons b rest n), hclass, if_pos rfl,
          List.dropWhile_cons_of_pos hb, List.takeWhile_cons_of_pos hb, List.length_cons,
          Nat.add_sub_cancel_left, List.drop_length_takeWhile, Nat.add_comm 1]
      · rw [List.dropWhile_cons_of_neg hb, List.takeWhile_cons_of_neg hb]
        rfl

/-- Blanks in front of a source are skipped. -/
theorem next?_gap (gap rest : Text) (n : Nat) (hgap : gap.all isSpace = true) :
    next? ⟨gap ++ rest, n, false⟩ = next? ⟨rest, n + gap.length, false⟩ := by
  rw [List.all_eq_true] at hgap
  rw [next?_skip (gap ++ rest), next?_skip rest, List.dropWhile_append_of_pos hgap,
    List.takeWhile_append_of_pos hgap, List.length_append, Nat.add_assoc]

/-- Reading all tokens, by the token ahead. -/
theorem run_eq (l l' : Lexer) (t : Token) (h : l.next? = some (t, l')) :
    l.run.1 = t :: l'.run.1 := by
  rw [run]
  split
  · next hnone => rw [h] at hnone; simp only [reduceCtorEq] at hnone
  · next u m hsome =>
    rw [h, Option.some.injEq, Prod.mk.injEq] at hsome
    rw [hsome.1, hsome.2]

theorem run_none (l : Lexer) (h : l.next? = none) : l.run.1 = [] := by
  rw [run]
  split
  · rfl
  · next t l' hsome => rw [h] at hsome; simp only [reduceCtorEq] at hsome

@[simp]
theorem run_done (rest : Text) (n : Nat) : (run ⟨rest, n, true⟩).1 = [] :=
  run_none _ (next?_done rest n)

/-- Lexers that read the same token next read the same tokens. -/
theorem run_congr (l l' : Lexer) (h : l.next? = l'.next?) : l.run.1 = l'.run.1 := by
  cases hnext : l'.next? with
  | none => rw [run_none l (h.trans hnext), run_none l' hnext]
  | some read =>
      rcases read with ⟨t, m⟩
      rw [run_eq l m t (h.trans hnext), run_eq l' m t hnext]

/-- Reading goes on or comes to its end: the token is not `eof` and the rest of the
    source is left, or it is the `eof` of the source. -/
def Reads (l l' : Lexer) (t : Token) : Prop :=
  (t.kind ≠ .eof ∧ l'.done = false ∧ l'.offset + l'.rest.length = l.offset + l.rest.length) ∨
    (t = .endAt (l.offset + l.rest.length) ∧ l'.done = true)

/-- Reading a raw token goes on or comes to its end. -/
theorem scan?_reads (l : Lexer) (hl : l.done = false) :
    ∃ t l', l.scan? = some (t, l') ∧ Reads l l' t := by
  rcases l with ⟨rest, n, done⟩
  simp only at hl
  subst hl
  cases rest with
  | nil => exact ⟨_, _, scan?_nil n, Or.inr ⟨rfl, rfl⟩⟩
  | cons b rest =>
      have hbounds := classify_bounds b rest
      refine ⟨_, _, scan?_cons b rest n, Or.inl ⟨classify_ne_eof b rest, rfl, ?_⟩⟩
      simp only [List.length_drop, List.length_cons]
      omega

/-- Skipping blanks leaves reading what it is, by induction on what is left. -/
theorem next?_reads (l : Lexer) (hl : l.done = false) :
    ∃ t l', l.next? = some (t, l') ∧ Reads l l' t := by
  induction hn : l.left using Nat.strongRecOn generalizing l with
  | _ n ih =>
      rcases scan?_reads l hl with ⟨t, l', hscan, hreads⟩
      have hnext := next?_eq l l' t hscan
      by_cases hblank : t.kind = .whitespace
      · rw [if_pos hblank] at hnext
        rcases hreads with ⟨-, hl', htotal⟩ | ⟨ht, -⟩
        · -- A blank was read, so it was not the end, and what is left is smaller.
          rcases ih l'.left (hn ▸ left_scan? hscan) l' hl' rfl with ⟨u, m, hm, hu⟩
          refine ⟨u, m, hnext.trans hm, ?_⟩
          unfold Reads at hu ⊢
          rw [← htotal]
          exact hu
        · rw [ht] at hblank
          simp only [Token.endAt, reduceCtorEq] at hblank
      · rw [if_neg hblank] at hnext
        exact ⟨t, l', hnext, hreads⟩

/-- The tokens that are left are some that are not `eof` and then one that is. -/
theorem run_ends (l : Lexer) (hl : l.done = false) :
    ∃ ts, l.run.1 = ts ++ [.endAt (l.offset + l.rest.length)] ∧ ∀ t ∈ ts, t.kind ≠ .eof := by
  induction hn : l.left using Nat.strongRecOn generalizing l with
  | _ n ih =>
      rcases next?_reads l hl with ⟨t, l', hnext, hreads⟩
      rcases hreads with ⟨ht, hl', htotal⟩ | ⟨ht, hl'⟩
      · rcases ih l'.left (hn ▸ left_next? hnext) l' hl' rfl with ⟨ts, hts, hne⟩
        refine ⟨t :: ts, ?_, List.forall_mem_cons.mpr ⟨ht, hne⟩⟩
        rw [run_eq l l' t hnext, hts, htotal, List.cons_append]
      · refine ⟨[], ?_, List.forall_mem_nil _⟩
        rcases l' with ⟨rest, m, done⟩
        simp only at hl'
        rw [run_eq l _ t hnext, hl', run_done, ht, List.nil_append]

end Lexer

/-- The only `eof` of a source is its last token, and it stands behind the last byte. -/
theorem lex_ends (src : Text) :
    ∃ ts, lex src = ts ++ [.endAt src.length] ∧ ∀ t ∈ ts, t.kind ≠ .eof := by
  rcases Lexer.run_ends (Lexer.ofSource src) rfl with ⟨ts, hts, hne⟩
  refine ⟨ts, ?_, hne⟩
  rw [lex, hts]
  simp only [Lexer.ofSource, Nat.zero_add]

end BitLogic
