import BitLogic.Proofs.Trace

/-!
# Parse Faults Point at the First Wrong Token

A fault of the parser names a token, and it is the right one: what stands before the
token can still become a program, and what ends with the token cannot.

The second half is about the run alone. A token ends a run by being refused or by
being found wrong, and `drive_of_refused` and `drive_of_wrong` say that whatever
follows it makes no difference.

The first half asks for a program that begins with given tokens, and those can have
brought the parser anywhere: in the middle of the bits, or inside any number of
calls. So it is stated for phases rather than for tokens. `Completes` says that a
phase can be led to the end of a program by tokens over some longer source.
`completes_step` appends one byte to the source and the token of that byte to the
stream, and leaves the rest to the next phase. Bits are completed by zeros, an operand
by a letter, and open calls by closing parentheses, one per call.

## Main definitions

* `Parser.Completes`: A phase can be led to the end of a program.

## Theorems

* `Parser.refuse_error`: A fault lies at the token that is refused.
* `Parser.kind_nextToken`, `Parser.within_nextToken`, `Parser.lexeme?_nextToken`: The
  token of one more byte.
* `Parser.completes_step`: One more token towards the end of a program.
* `Parser.completes_complete`, `Parser.completes_named`: Open calls are closed.
* `Parser.completes_operand`: An operand is given.
* `Parser.take?_bits_zero`, `Parser.completes_wanting`: Bits that are wanted are given.
* `Parser.completes`: Every phase can be led to the end of a program.
* `Parser.fault_at_first_wrong_token`: A fault lies at the first wrong token.
* `Parser.fault_at_first_wrong_token_trailingComma`: An argument that is missing behind
  a comma.
-/

namespace BitLogic

namespace Parser

/-- A refused token carries the fault. -/
theorem refuse_error (ph : Phase) (t : Token) (stop : Stop) (h : refuse ph t = .error stop) :
    ∃ c, stop = .fault ⟨c, t.span⟩ := by
  rcases refuse_cases ph t with ⟨p, hok, -⟩ | ⟨c, -, hfault⟩
  · rw [hok] at h
    simp only [reduceCtorEq] at h
  · rw [hfault] at h
    exact ⟨c, (Except.error.inj h).symm⟩

/-- Tokens over some longer source lead from the phase to the end of a program. -/
def Completes (src : Text) (ph : Phase) : Prop :=
  ∃ (more : Text) (ks : List Token) (p : Program),
    (∀ k ∈ ks, k.span.Within (src ++ more).length) ∧ (drive (src ++ more) ph ks).1 = .ok p

/-- The token of the byte behind a source. -/
def nextToken (src : Text) (k : Token.Kind) : Token := ⟨k, ⟨src.length, src.length + 1⟩⟩

@[simp]
theorem kind_nextToken (src : Text) (k : Token.Kind) : (nextToken src k).kind = k := rfl

theorem within_nextToken (src : Text) (k : Token.Kind) (b : UInt8) :
    (nextToken src k).span.Within (src ++ [b]).length := by
  rw [List.length_append]
  simp only [nextToken, Span.Within, List.length_cons, List.length_nil]
  omega

@[simp]
theorem lexeme?_nextToken (src : Text) (k : Token.Kind) (b : UInt8) :
    (nextToken src k).lexeme? (src ++ [b]) = some [b] := by
  have hslice := Text.slice?_middle src [b] []
  rw [List.append_nil] at hslice
  exact hslice

/-- One byte and its token lead to a phase from which the rest is known. -/
theorem completes_step (src : Text) (ph next : Phase) (k : Token.Kind) (b : UInt8)
    (htake : take? (src ++ [b]) ph (nextToken src k) = some (.ok next))
    (hnext : Completes (src ++ [b]) next) : Completes src ph := by
  rcases hnext with ⟨more, ks, p, hin, hrun⟩
  have hk := within_nextToken src k b
  -- The source of the rest is the given one with the byte behind it.
  have hsrc : src ++ (b :: more) = src ++ [b] ++ more := by
    rw [List.append_assoc, List.singleton_append]
  refine ⟨b :: more, nextToken src k :: ks, p, ?_, ?_⟩
  · rw [hsrc, List.forall_mem_cons]
    refine ⟨hk.mono ?_, hin⟩
    simp only [List.length_append]
    omega
  · rw [hsrc, drive, take?_append _ more ph _ hk, htake]
    exact hrun

/-- Open calls are completed by closing parentheses, from the innermost outwards. -/
theorem completes_complete (bits : List Bool) (stack : List Frame) : ∀ (src : Text) (e : Expr),
    Completes src (.complete bits stack e) := by
  induction stack with
  | nil =>
      intro src e
      exact ⟨[], [], ⟨bits, e⟩, List.forall_mem_nil _, rfl⟩
  | cons f fs ih =>
      intro src e
      exact completes_step src _ _ .rparen 41 rfl (ih _ _)

theorem completes_named (src : Text) (bits : List Bool) (stack : List Frame) (ident : Ident) :
    Completes src (.named bits stack ident) := by
  -- No call is open, or the name is the last argument of the innermost one.
  cases stack with
  | nil => exact ⟨[], [], ⟨bits, .var ident ident.span⟩, List.forall_mem_nil _, rfl⟩
  | cons f fs => exact completes_step src _ _ .rparen 41 rfl (completes_complete bits fs _ _)

/-- Where an operand is wanted, a letter is one. -/
theorem completes_operand (src : Text) (bits : List Bool) (stack : List Frame) :
    Completes src (.operand bits stack) := by
  have hnamed := completes_named (src ++ [65]) bits stack ⟨[65], (nextToken src .ident).span⟩
  refine completes_step src _ _ .ident 65 ?_ hnamed
  simp [take?, takeIdent]

theorem take?_bits_zero (src : Text) (left : Nat) (gathered : List Bool) :
    take? (src ++ [48]) (.bits left gathered) (nextToken src .number) =
      some (.ok (.wanting (left - 1) (false :: gathered))) := by
  rw [take?, if_pos (kind_nextToken src .number), takeBit, valueOf, lexeme?_nextToken]
  rfl

/-- The bits that are still wanted are completed by zeros. -/
theorem completes_wanting (left : Nat) : ∀ (src : Text) (gathered : List Bool),
    Completes src (.wanting left gathered) := by
  induction left with
  | zero =>
      intro src gathered
      exact completes_operand src _ _
  | succ n ih =>
      intro src gathered
      rw [Phase.wanting, if_neg (Nat.succ_ne_zero n)]
      exact completes_step src _ _ .number 48 (take?_bits_zero src (n + 1) gathered) (ih _ _)

/-- Every phase can be led to the end of a program. -/
theorem completes (src : Text) (ph : Phase) : Completes src ph := by
  cases ph with
  | count =>
      refine completes_step src _ (.wanting 0 []) .number 48 ?_ (completes_wanting 0 _ _)
      rw [take?, if_pos (kind_nextToken src .number), takeCount, valueOf, lexeme?_nextToken]
      rfl
  | bits left gathered =>
      exact completes_step src _ _ .number 48 (take?_bits_zero src left gathered)
        (completes_wanting _ _ _)
  | operand bits stack => exact completes_operand src bits stack
  | named bits stack ident => exact completes_named src bits stack ident
  | opened bits stack ident =>
      exact completes_step src _ _ .rparen 41 rfl (completes_complete bits stack _ _)
  | complete bits stack e => exact completes_complete bits stack src e

/-- A fault of the parser lies at the first token that cannot be right. The tokens
    before it can be continued to a program, over a source that begins with the given
    one, and every stream that agrees up to it has the same fault. When the stream has
    run out, the token is the `eof` that is implied. -/
theorem fault_at_first_wrong_token (src : Text) (ts : List Token)
    (hin : ∀ t ∈ ts, t.span.Within src.length) (stop : Stop)
    (hfail : (ofTokens src ts).run.1 = .error stop) :
    ∃ (f : Fault) (pre : List Token) (t : Token), stop = .fault f ∧
      pre ++ [t] <+: ts ++ [.endAt src.length] ∧ f.span = t.span ∧
      (∃ (more : Text) (ks : List Token) (p : Program),
        (∀ k ∈ ks, k.span.Within (src ++ more).length) ∧
        (ofTokens (src ++ more) (pre ++ ks)).run.1 = .ok p) ∧
      ∀ us : List Token, pre ++ [t] <+: us ++ [.endAt src.length] →
        (ofTokens src us).run.1 = .error stop := by
  rw [run_ofTokens] at hfail
  rcases drive_ends src ts .count with ⟨pre, t, last, hpre, hadv, hend⟩
  -- Every token of the stream lies within the source, the implied `eof` included.
  have hall : ∀ u ∈ pre ++ [t], u.span.Within src.length := by
    intro u hu
    rcases List.mem_append.mp (hpre.subset hu) with hts | heof
    · exact hin u hts
    · rw [List.mem_singleton.mp heof]
      exact Token.within_endAt src.length
  -- The parser stands in some phase behind the tokens it has taken, and that phase can be
  -- completed.
  have hcont : ∃ (more : Text) (ks : List Token) (p : Program),
      (∀ k ∈ ks, k.span.Within (src ++ more).length) ∧
      (ofTokens (src ++ more) (pre ++ ks)).run.1 = .ok p := by
    rcases completes src last with ⟨more, ks, p, hks, hrun⟩
    have hadv' := advances_append more hadv fun u hu => hall u (List.mem_append_left [t] hu)
    exact ⟨more, ks, p, hks, by rw [run_ofTokens, drive_append hadv' ks, hrun]⟩
  rcases hend with ⟨htake, hrun⟩ | ⟨stop', htake, hrun⟩
  · -- the token is refused
    rw [hrun] at hfail
    rcases refuse_error last t stop hfail with ⟨c, hstop⟩
    refine ⟨⟨c, t.span⟩, pre, t, hstop, hpre, rfl, hcont, fun us hus => ?_⟩
    rw [run_ofTokens, drive_of_refused src .count pre us t last hadv hus htake, hfail]
  · -- the token is taken and found wrong
    rw [hrun, Except.error.injEq] at hfail
    rw [hfail] at htake
    have ht := hall t (List.mem_append_right pre List.mem_cons_self)
    rcases take?_error src last t ht stop htake with ⟨c, hstop⟩
    refine ⟨⟨c, t.span⟩, pre, t, hstop, hpre, rfl, hcont, fun us hus => ?_⟩
    rw [run_ofTokens, drive_of_wrong src .count pre us t last hadv hus stop htake]

/-- The source `1 1 or(A,)`, whose closing parenthesis stands where an argument
    should. -/
def trailingComma : Text := Text.ofString "1 1 or(A,)"

/-- The tokens of that source up to the closing parenthesis. -/
def trailingCommaTokens : List Token :=
  [⟨.number, ⟨0, 1⟩⟩, ⟨.number, ⟨2, 3⟩⟩, ⟨.ident, ⟨4, 6⟩⟩, ⟨.lparen, ⟨6, 7⟩⟩,
    ⟨.ident, ⟨7, 8⟩⟩, ⟨.comma, ⟨8, 9⟩⟩, ⟨.rparen, ⟨9, 10⟩⟩]

theorem fault_at_first_wrong_token_trailingComma :
    (∀ t ∈ trailingCommaTokens, t.span.Within trailingComma.length) ∧
    (ofTokens trailingComma trailingCommaTokens).run.1 =
      .error (.fault ⟨.token .ident .rparen, ⟨9, 10⟩⟩) ∧
    ∃ (f : Fault) (pre : List Token) (t : Token),
      Stop.fault ⟨.token .ident .rparen, ⟨9, 10⟩⟩ = .fault f ∧
      pre ++ [t] <+: trailingCommaTokens ++ [.endAt trailingComma.length] ∧ f.span = t.span ∧
      (∃ (more : Text) (ks : List Token) (p : Program),
        (∀ k ∈ ks, k.span.Within (trailingComma ++ more).length) ∧
        (ofTokens (trailingComma ++ more) (pre ++ ks)).run.1 = .ok p) ∧
      ∀ us : List Token, pre ++ [t] <+: us ++ [.endAt trailingComma.length] →
        (ofTokens trailingComma us).run.1 = .error (.fault ⟨.token .ident .rparen, ⟨9, 10⟩⟩) :=
  ⟨by decide, rfl, fault_at_first_wrong_token trailingComma trailingCommaTokens (by decide) _ rfl⟩

end Parser

end BitLogic
