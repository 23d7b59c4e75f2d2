import BitLogic.Proofs.Grammar
import BitLogic.Proofs.Reading

/-!
# The Alphabet of Sources

Which bytes a source can have that is parsed: blanks, digits, letters, parentheses and commas.

A byte of any other sort is stray. The lexer makes an unexpected token of it, alone or with
the bytes behind it that belong to its character, and the grammar has a place for every kind
of token but that one. So the argument runs backwards. A parsed source has only tokens that
are expected (`expected_of_derivesProgram`). The bytes of an expected token are not stray
(`CallsFor.not_stray`), and neither are the blanks between tokens. Every byte of a source
belongs to a token or to blanks, which is the induction over a text as the lexer reads it
(`not_stray_of_run`).

What is not stray is ASCII, and every character that is printed in more than one column or
none is outside of it, as are the blanks that the lexer does not skip.

## Main definitions

* `Token.Kind.isExpected`: The grammar has a place for tokens of the kind.

## Theorems

* `CallsFor.not_stray`: The bytes of an expected token.
* `Lexer.not_stray_of_run`: The bytes of a text whose tokens are expected.
* `Grammar.expected_of_derives`, `Grammar.expected_of_areBits`,
  `Grammar.expected_of_derivesProgram`: The tokens of what is derived are expected.
* `not_stray_of_parse`: The bytes of a source that can be parsed.
* `toNat_of_not_stray`: What is not stray is ASCII.
-/

namespace BitLogic

/-- The kind is one that the grammar has a place for. -/
def Token.Kind.isExpected : Token.Kind → Bool
  | .unexpected _ => false
  | _ => true

/-- What calls for a token that is expected has no stray bytes. -/
theorem CallsFor.not_stray {text after : Text} {k : Token.Kind} (h : CallsFor text after k)
    (hk : k.isExpected = true) : ∀ b ∈ text, ¬ Stray b := by
  intro b hb hstray
  rcases hstray with ⟨hspace, hdigit, hletter, h40, h41, h44⟩
  cases h with
  | run _ p _ _ hp hne hall =>
      -- All bytes of a run are of one class, and a stray byte is of none.
      have hpb := List.all_eq_true.mp hall b hb
      cases k with
      | whitespace => cases hp; exact absurd (hspace.symm.trans hpb) Bool.false_ne_true
      | number => cases hp; exact absurd (hdigit.symm.trans hpb) Bool.false_ne_true
      | ident => cases hp; exact absurd (hletter.symm.trans hpb) Bool.false_ne_true
      | _ => simp only [Token.Kind.run?, reduceCtorEq] at hp
  | lparen => exact h40 (List.mem_singleton.mp hb)
  | rparen => exact h41 (List.mem_singleton.mp hb)
  | comma => exact h44 (List.mem_singleton.mp hb)
  -- A stray byte calls for a token that is not expected.
  | other _ _ _ code _ _ => exact Bool.false_ne_true hk

/-- A text without unexpected tokens has no bytes but those of blanks, numbers, names and
    signs. -/
theorem Lexer.not_stray_of_run (s : Text) : ∀ n : Nat,
    (∀ t ∈ (run ⟨s, n, false⟩).1, t.kind.isExpected = true) → ∀ b ∈ s, ¬ Stray b := by
  induction s using text_induction with
  | nil => exact fun n _ => List.forall_mem_nil _
  | space b s hb ih =>
      intro n h
      rw [run_space b s n hb] at h
      -- A blank is no token, so it has to be seen from the byte itself.
      rw [List.forall_mem_cons]
      refine ⟨fun hstray => ?_, ih (n + 1) h⟩
      rw [hstray.1] at hb
      exact Bool.false_ne_true hb
  | token b s hb ih =>
      intro n h
      rw [run_token b s n hb, List.forall_mem_cons] at h
      rcases classify_callsFor b s with ⟨text, after, hs, hlen, hcall, -⟩
      -- The token has the bytes that call for it, and the rest is the shorter text.
      have htext := hcall.not_stray h.1
      have hafter := ih _ h.2
      rw [hlen, hs, List.length_cons, Nat.add_sub_cancel, List.drop_left] at hafter
      rw [hs, ← List.cons_append, List.forall_mem_append]
      exact ⟨htext, hafter⟩

namespace Grammar

theorem expected_of_derives (src : Text) (phrase : Phrase) (ts : List Token)
    (h : Derives src phrase ts) : ∀ t ∈ ts, t.kind.isExpected = true := by
  induction h with
  | var t name ht =>
      rw [List.forall_mem_singleton, ht.1]
      rfl
  | call t o c name ts es ht ho _ hc ih =>
      rw [List.forall_mem_cons, List.forall_mem_cons, List.forall_mem_append,
        List.forall_mem_singleton, ht.1, ho, hc]
      exact ⟨rfl, rfl, ih, rfl⟩
  | noArgs => exact List.forall_mem_nil _
  | args e es ts us _ _ ihe ihmore => exact List.forall_mem_append.mpr ⟨ihe, ihmore⟩
  | noMore => exact List.forall_mem_nil _
  | more c e es ts us hc _ _ ihe ihmore =>
      rw [List.forall_mem_cons, List.forall_mem_append, hc]
      exact ⟨rfl, ihe, ihmore⟩

theorem expected_of_areBits (src : Text) (ts : List Token) (bits : List Bool)
    (h : AreBits src ts bits) : ∀ t ∈ ts, t.kind.isExpected = true := by
  induction h with
  | nil => exact List.forall_mem_nil _
  | cons ht _ ih =>
      rw [List.forall_mem_cons, ht.1]
      exact ⟨rfl, ih⟩

theorem expected_of_derivesProgram (src : Text) (p : Program) (ts : List Token)
    (h : DerivesProgram src p ts) : ∀ t ∈ ts, t.kind.isExpected = true := by
  cases h with
  | mk bits e hs ts z hhead he hz =>
      cases hhead with
      | mk t hs bits ht _ hbits =>
          rw [List.forall_mem_append, List.forall_mem_append, List.forall_mem_cons,
            List.forall_mem_singleton, ht.1, hz]
          exact ⟨⟨⟨rfl, expected_of_areBits src hs bits hbits⟩,
            expected_of_derives src _ ts he⟩, rfl⟩

end Grammar

/-- A source that can be parsed has no stray bytes. -/
theorem not_stray_of_parse (src : Text) (p : Program) (h : parse src = .ok p) :
    ∀ b ∈ src, ¬ Stray b := by
  rw [parse_eq_ok_iff] at h
  exact Lexer.not_stray_of_run src 0 (Grammar.expected_of_derivesProgram src p _ h)

/-- What is not stray is ASCII, and the vertical tab is stray. -/
theorem toNat_of_not_stray (b : UInt8) (h : ¬ Stray b) : b.toNat < 128 ∧ b.toNat ≠ 11 := by
  -- By the classes of bytes, each of which is a range or a few single codes.
  rcases Lexer.byte_cases b with ⟨k, p, hk, hp⟩ | rfl | rfl | rfl | hstray
  · cases k with
    | whitespace =>
        cases hk
        simp only [Lexer.isSpace, Bool.or_eq_true, beq_iff_eq] at hp
        rcases hp with (((rfl | rfl) | rfl) | rfl) | rfl <;> decide
    | number =>
        cases hk
        rw [Token.isDigit, UInt8.between_iff] at hp
        simp only [UInt8.reduceToNat] at hp
        omega
    | ident =>
        cases hk
        rw [Lexer.isLetter, Bool.or_eq_true, UInt8.between_iff, UInt8.between_iff] at hp
        simp only [UInt8.reduceToNat] at hp
        omega
    | _ => simp only [Token.Kind.run?, reduceCtorEq] at hk
  · decide
  · decide
  · decide
  · exact absurd hstray h

end BitLogic
