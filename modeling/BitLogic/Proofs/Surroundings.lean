import BitLogic.Proofs.Alphabet
import BitLogic.Proofs.Located
import BitLogic.Proofs.Wording

/-!
# What Stands at a Fault and Before It

Three things that a diagnostic of a source can rely on, wherever the fault is.

What stands before the fault on its line is written in the bytes of blanks, numbers, names and
signs. If the source could be parsed, all of it is. If not, the fault lies at the first token
that could not be taken, and everything before that token was (`not_stray_before`).

What stands at the fault has no blank in it, unless the fault is that of a call. A token ends
before a blank, and a variable is a name. A call may have blanks between its parts, line ends
among them.

And what is said about the fault has no line feed in it, since the only texts that are taken
from the source as they are, are names.

## Main definitions

* `Cause.isAboutCall`: The cause concerns a call as a whole.

## Theorems

* `Parser.take?_unexpected`, `Parser.expected_of_advances`: Tokens that are taken are
  expected.
* `Lexer.not_stray_before`: The bytes before a token behind expected ones.
* `Diagnostic.mem_of_mem_before`: What is shown before a fault stands before it.
* `not_stray_before_fault`: The bytes before a fault on its line.
* `CallsFor.spaceless`, `lex_spaceless`: A token has no blanks in it.
* `not_space_of_isLetter`: A letter is no blank.
* `Expr.Placed.var_names`, `Expr.Placed.call_names`: The name of a node in place.
* `Ident.Names.spaceless`, `Ident.Names.unbroken`: A name has no blanks in it and no
  line feed.
* `spaceless_of_located`: Nor has the text at a fault, calls apart.
* `located_of_run`: A run that fails ends with a fault of the source.
* `Cause.quoted_of_token`: A complaint about a token takes over no text.
* `unbroken_message_of_located`: The wording of a fault is unbroken.
-/

namespace BitLogic

/-- The cause concerns a call as a whole, and not a token or a name. -/
def Cause.isAboutCall : Cause → Bool
  | .arity _ _ _ => true
  | .undefinedFunction _ => true
  | _ => false

/-! ## Before a fault -/

namespace Parser

/-- No phase takes a token that the grammar has no place for. -/
theorem take?_unexpected (src : Text) (ph : Phase) (t : Token)
    (h : t.kind.isExpected = false) : take? src ph t = none := by
  rcases t with ⟨k, s⟩
  cases k with
  | unexpected c =>
      -- Behind an expression only commas and parentheses are taken.
      have hafter : ∀ bits stack e, takeAfter? bits stack e ⟨.unexpected c, s⟩ = none := by
        intro bits stack e
        cases stack <;> rfl
      cases ph with
      | named bits stack ident => exact hafter _ _ _
      | complete bits stack e => exact hafter _ _ _
      | _ => rfl
  | _ => simp only [Token.Kind.isExpected, Bool.true_eq_false] at h

theorem expected_of_advances {src : Text} {a b : Phase} {ts : List Token}
    (h : Advances src a ts b) : ∀ t ∈ ts, t.kind.isExpected = true := by
  induction h with
  | refl ph => exact List.forall_mem_nil _
  | step ph next last t ts h _ ih =>
      rw [List.forall_mem_cons]
      refine ⟨?_, ih⟩
      by_contra hk
      rw [take?_unexpected src ph t (Bool.not_eq_true _ ▸ hk)] at h
      simp only [reduceCtorEq] at h

end Parser

/-- Before a token, if all tokens there are expected, there are only the bytes of blanks,
    numbers, names and signs. -/
theorem Lexer.not_stray_before (s : Text) : ∀ (n : Nat) (xs : List Token) (t : Token)
    (ys : List Token), (run ⟨s, n, false⟩).1 = xs ++ t :: ys →
      (∀ x ∈ xs, x.kind.isExpected = true) →
      ∃ k : Nat, t.span.start = (n + k : Nat) ∧ ∀ b ∈ s.take k, ¬ Stray b := by
  -- By induction on the text, one blank or token at a time, up to the token in question.
  induction s using text_induction with
  | nil =>
      intro n xs t ys h _
      rw [run_nil] at h
      cases xs with
      | nil => exact ⟨0, by rw [← (List.cons.inj h).1]; rfl, List.forall_mem_nil _⟩
      | cons x xs => simp at h
  | space b s hb ih =>
      intro n xs t ys h hxs
      rw [run_space b s n hb] at h
      rcases ih (n + 1) xs t ys h hxs with ⟨k, hstart, hk⟩
      refine ⟨k + 1, by rw [hstart]; congr 1; omega, ?_⟩
      rw [List.take_succ_cons, List.forall_mem_cons]
      refine ⟨fun hstray => ?_, hk⟩
      rw [hstray.1] at hb
      exact Bool.false_ne_true hb
  | token b s hb ih =>
      intro n xs t ys h hxs
      rw [run_token b s n hb] at h
      cases xs with
      | nil => exact ⟨0, by rw [← (List.cons.inj h).1]; rfl, List.forall_mem_nil _⟩
      | cons x xs =>
          rw [List.forall_mem_cons, ← (List.cons.inj h).1] at hxs
          rcases classify_callsFor b s with ⟨text, after, hs, hlen, hcall, -⟩
          rcases ih _ xs t ys (List.cons.inj h).2 hxs.2 with ⟨k, hstart, hk⟩
          rw [hlen, hs, List.length_cons, Nat.add_sub_cancel, List.drop_left] at hk
          refine ⟨(b :: text).length + k, ?_, ?_⟩
          · rw [hstart, hlen]
            congr 1
            omega
          · rw [hs, ← List.cons_append, List.take_length_add_append, List.forall_mem_append]
            exact ⟨hcall.not_stray hxs.1, hk⟩

theorem Diagnostic.mem_of_mem_before (src : Text) (span : Span) (b : UInt8)
    (h : b ∈ (sections src span).before) :
    b ∈ src.take (span.clamp src.length).start.toNat := by
  rw [sections, lastLine, List.mem_reverse] at h
  exact List.mem_reverse.mp ((List.takeWhile_sublist _).mem h)

/-- Before a fault on its line there are only the bytes of blanks, numbers, names and
    signs. -/
theorem not_stray_before_fault (src : Text) (f : Fault) (h : Located src f) :
    ∀ b ∈ (Diagnostic.sections src f.span).before, ¬ Stray b := by
  intro b hb
  have hmem := Diagnostic.mem_of_mem_before src f.span b hb
  rw [(shown_of_located src f h).clamp] at hmem
  -- Of a source that was parsed no byte is stray, wherever it is.
  have hparsed : ∀ p, parse src = .ok p → ¬ Stray b := fun p hp =>
    not_stray_of_parse src p hp b (List.mem_of_mem_take hmem)
  cases h with
  | token _ _ hparse _ _ =>
      -- Of one that was not, all tokens before the fault were taken.
      rcases fault_of_parse src _ hparse with ⟨g, pre, t, post, last, hg, hlex, hadv, hspan, -⟩
      rcases Lexer.not_stray_before src 0 pre t post hlex (Parser.expected_of_advances hadv) with
        ⟨k, hstart, hk⟩
      rw [Stop.fault.inj hg, hspan, hstart, Int.toNat_natCast, Nat.zero_add] at hmem
      exact hk b hmem
  | unbound p _ hparse _ _ => exact hparsed p hparse
  | unknown p _ _ _ _ hparse _ _ => exact hparsed p hparse
  | arity p _ _ _ _ _ hparse _ _ => exact hparsed p hparse

/-! ## At a fault -/

/-- What calls for a token has no blanks in it, unless it is a run of them. -/
theorem CallsFor.spaceless {text after : Text} {k : Token.Kind} (h : CallsFor text after k)
    (hk : k ≠ .whitespace) : ∀ b ∈ text, Lexer.isSpace b = false := by
  intro b hb
  cases h with
  | run _ p _ _ hp hne hall =>
      have hpb := List.all_eq_true.mp hall b hb
      by_contra hspace
      rw [Bool.not_eq_false] at hspace
      have hnot := Lexer.not_digit_not_letter_of_isSpace b hspace
      cases k with
      | whitespace => exact hk rfl
      | number => cases hp; exact absurd (hnot.1.symm.trans hpb) Bool.false_ne_true
      | ident => cases hp; exact absurd (hnot.2.symm.trans hpb) Bool.false_ne_true
      | _ => simp only [Token.Kind.run?, reduceCtorEq] at hp
  | lparen => rw [List.mem_singleton.mp hb]; rfl
  | rparen => rw [List.mem_singleton.mp hb]; rfl
  | comma => rw [List.mem_singleton.mp hb]; rfl
  | other c s _ code hc h =>
      rcases List.mem_cons.mp hb with rfl | hb
      · exact hc.1
      · -- The bytes behind the first of a character are not ASCII, and blanks are.
        have hge := Utf8.tail_of_yields c s after code h b hb
        by_contra hspace
        rw [Bool.not_eq_false] at hspace
        have hlt := Lexer.lt_of_isSpace b hspace
        omega

/-- A token has no blanks in it. -/
theorem lex_spaceless (src : Text) (t : Token) (ht : t ∈ lex src) (text : Text)
    (h : t.lexeme? src = some text) : ∀ b ∈ text, Lexer.isSpace b = false := by
  rcases lex_inOrder src with ⟨body, hlex, -, hbody⟩
  have hkind : t.kind ≠ .whitespace := by
    have hfilter : lex src = (Lexer.ofSource src).raw.filter fun t => t.kind ≠ .whitespace :=
      Lexer.run_eq_filter_raw _
    rw [hfilter, List.mem_filter, decide_eq_true_eq] at ht
    exact ht.2
  rw [hlex, List.mem_append, List.mem_singleton] at ht
  rcases ht with ht | rfl
  · rcases (hbody t ht).2 with ⟨before, text', after, rfl, hspan, hcall⟩
    rw [Token.lexeme?_of_span t before text' after hspan, Option.some.injEq] at h
    rw [← h]
    exact hcall.spaceless hkind
  · rw [Token.lexeme?, Token.endAt] at h
    rcases (Text.slice?_eq_some_iff _ _ _ _).mp h with ⟨before, after, -, hlo, hhi⟩
    simp only at hlo hhi
    rw [List.length_eq_zero_iff.mp (by omega : text.length = 0)]
    exact List.forall_mem_nil _

theorem not_space_of_isLetter (b : UInt8) (h : Lexer.isLetter b = true) :
    Lexer.isSpace b = false := by
  by_contra hspace
  rw [Bool.not_eq_false] at hspace
  rw [(Lexer.not_digit_not_letter_of_isSpace b hspace).2] at h
  exact Bool.false_ne_true h

theorem Expr.Placed.var_names {src : Text} {id : Ident} {s : Span}
    (h : (Expr.var id s).Placed src) : id.Names src := by
  cases h with
  | var _ hid => exact hid

theorem Expr.Placed.call_names {src : Text} {id : Ident} {args : List Expr} {s : Span}
    (h : (Expr.call id args s).Placed src) : id.Names src := by
  cases h with
  | call _ _ _ hid _ _ _ _ => exact hid

theorem Ident.Names.spaceless {src : Text} {id : Ident} (h : id.Names src) :
    ∀ b ∈ id.name, Lexer.isSpace b = false := fun b hb =>
  not_space_of_isLetter b (List.all_eq_true.mp h.letters b hb)

/-- A name has no line feed in it, since that is a blank. -/
theorem Ident.Names.unbroken {src : Text} {id : Ident} (h : id.Names src) :
    Text.Unbroken id.name := fun hmem => by
  have hfeed := h.spaceless Text.lineFeed hmem
  exact absurd hfeed (by decide)

/-- The text at a fault has no blank in it, unless the fault is that of a call. -/
theorem spaceless_of_located (src : Text) (f : Fault) (h : Located src f)
    (hcall : f.cause.isAboutCall = false) :
    ∀ b ∈ (Diagnostic.sections src f.span).offending, Lexer.isSpace b = false := by
  have hshown := (shown_of_located src f h).offending
  cases h with
  | token _ t _ ht hspan =>
      rw [hspan] at hshown ⊢
      exact lex_spaceless src t ht _ hshown
  | unbound p id hparse hnode hslice =>
      have hname := (placed_of_parse src p hparse _ hnode).var_names
      rw [hslice, Option.some.injEq] at hshown
      rw [← hshown]
      exact hname.spaceless
  | unknown p id args s inner hparse hnode hslice =>
      simp only [Cause.isAboutCall, Bool.true_eq_false] at hcall
  | arity p id args s inner wanted hparse hnode hslice =>
      simp only [Cause.isAboutCall, Bool.true_eq_false] at hcall

/-- A run that fails ends with a fault of the source. -/
theorem located_of_run (src : Text) (stop : Stop)
    (h : (Interpreter.run src).value = .error stop) : ∃ f, stop = .fault f ∧ Located src f := by
  have hreported := reported_evaluate src
  rw [← Interpreter.value_run, h] at hreported
  cases hreported with
  | fault f hlocated => exact ⟨f, rfl, hlocated⟩

/-! ## About a fault -/

/-- A complaint about a token takes over no text. -/
theorem Cause.quoted_of_token (src : Text) (t : Token) (f : Fault)
    (h : f.cause.OfKind t.kind ∨ Parser.Wrong src t (.fault f)) : f.cause.quoted = [] := by
  rcases h with h | h
  · generalize f.cause = c at h
    cases h <;> rfl
  · cases h with
    | number _ => rfl
    | beyond c bound n hc _ _ =>
        cases c with
        | argLimit => rfl
        | badBit => rfl
        | _ => simp only [Cause.bound?, reduceCtorEq] at hc

/-- The wording of a fault is unbroken. -/
theorem unbroken_message_of_located (src : Text) (f : Fault) (h : Located src f) :
    Text.Unbroken f.message := by
  refine f.cause.unbroken_message ?_
  cases h with
  | token _ _ hparse _ _ =>
      rcases fault_of_parse src _ hparse with ⟨g, pre, t, post, last, hg, -, -, -, hcause⟩
      rw [Stop.fault.inj hg] at hcause ⊢
      rw [Cause.quoted_of_token src t g hcause]
      exact List.not_mem_nil
  | unbound p id hparse hnode _ => exact (placed_of_parse src p hparse _ hnode).var_names.unbroken
  | unknown p id args s inner hparse hnode _ =>
      exact (placed_of_parse src p hparse _ hnode).call_names.unbroken
  | arity p id args s inner wanted hparse hnode _ =>
      exact (placed_of_parse src p hparse _ hnode).call_names.unbroken

end BitLogic
