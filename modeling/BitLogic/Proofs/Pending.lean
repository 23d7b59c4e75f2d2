import BitLogic.Expr.Parser

/-!
# A Parser Is Its Pending Tokens

A parser fetches a token when it needs one, keeps the token it has looked at and not
consumed, and never lets go of an `eof`. None of this can be told from outside. What a
run returns depends on the tokens that are pending and on nothing else, and what is
pending afterwards is a rest of what was pending before.

`drive` is the same run without the buffer: it recurses over a list of tokens and hands
back the tokens that it has not consumed. The two are compared token by token. At the
head of the pending tokens it makes no difference whether a token has been fetched
(`peek_of_pending`), and behind a token that is consumed the buffer is empty
(`next_of_pending`). At the end of the stream there is a difference to keep track of:
the parser holds an `eof` that no stream has supplied, while the list is empty.
`LeftWith` allows for that, and `runFrom_leftWith` carries it through a run, whichever
way the run ends.

Runs can be repeated. Each of them starts where the one before has stopped, so the
tokens of a stream are consumed in order and at most once, over all runs together.

## Main definitions

* `Cause.OfKind`: A cause that is about the kind of a token.
* `Parser.drive`: A run over a list of tokens, and the tokens left behind it.
* `Parser.LeftWith`: The tokens that a parser still has to consume.
* `Parser.Reaches`: What becomes of a parser by looking at tokens and consuming them.
* `Parser.after`: A parser after a number of runs.

## Theorems

* `Parser.leftWith_ofTokens`: A fresh parser is left with its whole list.
* `Parser.peek_of_pending`, `Parser.peek_of_exhausted`: The token ahead is the first one
  pending, or an implied `eof`.
* `Parser.next_of_pending`: What is behind it.
* `Parser.ne_eof_of_take?`: The end is never taken.
* `Parser.refuseAfter_cases`, `Parser.refuse_cases`: The two ways in which a refused
  token ends a run.
* `Parser.runFrom_eq`, `Parser.runFrom_eof`: A run, by the token ahead.
* `Parser.runFrom_leftWith`, `Parser.run_leftWith`: A run with a buffer is a run over
  the pending tokens.
* `Parser.run_ofTokens`: A fresh parser runs over its list.
* `Parser.drive_consumes`: A run consumes tokens from the front, none of them `eof`.
* `Parser.reaches_trans`, `Parser.reaches_runFrom`, `Parser.reaches_after`: Runs look at
  tokens and consume them, and do nothing else.
* `Parser.leftWith_peek`, `Parser.leftWith_next`: One step of a parser.
* `Parser.leftWith_of_reaches`: Any number of steps.
* `Parser.after_succ`, `Parser.getElem?_runs`: Runs one after the other.
* `Parser.after_leftWith`, `Parser.leftAfter_consumes`: What is left after a number of
  runs.
* `Parser.runs_consume_in_order`: Several runs of one parser.
* `parse_eq_drive`: A source is parsed by a run over its tokens.
-/

namespace BitLogic

/-- The cause is about the kind of a token, and not about what the token spells. -/
inductive Cause.OfKind (k : Token.Kind) : Cause → Prop
  | missingBit : OfKind k (.missingBit k)
  | token (wanted : Token.Kind) : OfKind k (.token wanted k)
  | tokenAmong (wanted : List Token.Kind) : OfKind k (.tokenAmong wanted k)
  | trailing : OfKind k (.trailing k)

namespace Parser

/-- A run over a list of tokens: how it ends, and the tokens that it has not consumed. A
    list that has run out goes on like one that ends in `eof`. -/
def drive (src : Text) : Phase → List Token → Except Stop Program × List Token
  | ph, [] => (refuse ph (.endAt src.length), [])
  | ph, t :: ts =>
    match take? src ph t with
    | none => (refuse ph t, t :: ts)
    | some (.error stop) => (.error stop, ts)
    | some (.ok later) => drive src later ts

/-- The parser still has the tokens `ts` of its stream to consume. When there are none it
    may hold the `eof` that is implied. -/
def LeftWith (p : Parser) (src : Text) (ts : List Token) : Prop :=
  p.source = src ∧ (p.pending = ts ∨ ts = [] ∧ p.pending = [.endAt src.length])

theorem leftWith_ofTokens (src : Text) (ts : List Token) : (ofTokens src ts).LeftWith src ts :=
  ⟨rfl, Or.inl rfl⟩

/-- The token ahead is the first one pending, whether it has been fetched or not. -/
theorem peek_of_pending (p : Parser) (t : Token) (ts : List Token) (h : p.pending = t :: ts) :
    p.peek = (t, ⟨p.source, some t, ts⟩) := by
  rcases p with ⟨src, _ | u, us⟩
  · have hus : us = t :: ts := h
    rw [hus]
    rfl
  · rcases List.cons.inj h with ⟨rfl, rfl⟩
    rfl

/-- Where nothing is pending an `eof` is made up, and kept. -/
theorem peek_of_exhausted (p : Parser) (h : p.pending = []) :
    p.peek = (.endAt p.source.length, ⟨p.source, some (.endAt p.source.length), []⟩) := by
  rcases p with ⟨src, _ | u, us⟩
  · have hus : us = [] := h
    rw [hus]
    rfl
  · exact absurd h (List.cons_ne_nil u us)

/-- A token that is consumed leaves an empty buffer. -/
theorem next_of_pending (p : Parser) (t : Token) (ts : List Token) (h : p.pending = t :: ts)
    (ht : t.kind ≠ .eof) : p.next = ⟨p.source, none, ts⟩ := by
  rw [next, peek_of_pending p t ts h, if_neg ht]

/-- No phase takes an `eof`, whatever comes of the token it takes. -/
theorem ne_eof_of_take? (src : Text) (ph : Phase) (t : Token) (outcome : Except Stop Phase)
    (h : take? src ph t = some outcome) : t.kind ≠ .eof := by
  intro heof
  rw [take?_eof src ph t heof] at h
  simp only [reduceCtorEq] at h

/-- Behind a complete expression a refused token ends the program, or is in the way of that.
    -/
theorem refuseAfter_cases (bits : List Bool) (stack : List Frame) (e : Expr) (t : Token) :
    (∃ p, refuseAfter bits stack e t = .ok p ∧ t.kind = .eof) ∨
      ∃ c, c.OfKind t.kind ∧ refuseAfter bits stack e t = .error (.fault ⟨c, t.span⟩) := by
  unfold refuseAfter
  -- Only an `eof` ends a program, and only when no call is open.
  by_cases hstack : stack.isEmpty = true
  · rw [if_pos hstack]
    by_cases heof : t.kind = .eof
    · rw [if_pos heof]
      exact Or.inl ⟨_, rfl, heof⟩
    · rw [if_neg heof]
      exact Or.inr ⟨_, .trailing, rfl⟩
  · rw [if_neg hstack]
    exact Or.inr ⟨_, .tokenAmong _, rfl⟩

/-- A token that is refused is the `eof` behind a program, or its kind is wrong and it
    carries the fault. -/
theorem refuse_cases (ph : Phase) (t : Token) :
    (∃ p, refuse ph t = .ok p ∧ t.kind = .eof) ∨
      ∃ c, c.OfKind t.kind ∧ refuse ph t = .error (.fault ⟨c, t.span⟩) := by
  cases ph with
  | count => exact Or.inr ⟨_, .token _, rfl⟩
  | bits left gathered => exact Or.inr ⟨_, .missingBit, rfl⟩
  | operand bits stack => exact Or.inr ⟨_, .token _, rfl⟩
  | named bits stack ident => exact refuseAfter_cases bits stack (.var ident ident.span) t
  | opened bits stack ident => exact Or.inr ⟨_, .token _, rfl⟩
  | complete bits stack e => exact refuseAfter_cases bits stack e t

/-- A run, by what the phase does with the token ahead. -/
theorem runFrom_eq (p : Parser) (ph : Phase) : p.runFrom ph =
    match take? p.source ph p.peek.1 with
    | none => (refuse ph p.peek.1, p.peek.2)
    | some (.error stop) => (.error stop, p.next)
    | some (.ok later) => p.next.runFrom later := by
  rw [runFrom]
  split <;> rename_i h <;> rw [h]

/-- An `eof` ahead ends the run and stays ahead. -/
theorem runFrom_eof (p : Parser) (ph : Phase) (h : p.peek.1.kind = .eof) :
    p.runFrom ph = (refuse ph p.peek.1, p.peek.2) := by
  rw [runFrom_eq, take?_eof _ ph _ h]

/-- A run with a buffer is a run over the pending tokens: it ends in the same way and is
    left with the same tokens, by induction on these. -/
theorem runFrom_leftWith (src : Text) (ts : List Token) : ∀ (p : Parser) (ph : Phase),
    p.LeftWith src ts → (p.runFrom ph).1 = (drive src ph ts).1 ∧
      (p.runFrom ph).2.LeftWith src (drive src ph ts).2 := by
  induction ts with
  | nil =>
      -- The stream has run out. The `eof` ahead is made up now, or was in an earlier run.
      rintro p ph ⟨rfl, hp⟩
      have hpeek : p.peek = (.endAt p.source.length,
          ⟨p.source, some (.endAt p.source.length), []⟩) := by
        rcases hp with hp | ⟨-, hp⟩
        · exact peek_of_exhausted p hp
        · exact peek_of_pending p _ [] hp
      rw [runFrom_eof p ph (by rw [hpeek]; rfl), hpeek]
      exact ⟨rfl, rfl, Or.inr ⟨rfl, rfl⟩⟩
  | cons t ts ih =>
      rintro p ph ⟨rfl, hp⟩
      -- The parser has the token still to come, since the list is not empty.
      have hp : p.pending = t :: ts := by
        rcases hp with hp | ⟨hnil, -⟩
        · exact hp
        · exact absurd hnil (List.cons_ne_nil t ts)
      rw [runFrom_eq, drive, peek_of_pending p t ts hp]
      simp only []
      cases htake : take? p.source ph t with
      | none => exact ⟨rfl, rfl, Or.inl rfl⟩
      | some outcome =>
          -- The token is consumed, also when it turns out to be wrong.
          rw [next_of_pending p t ts hp (ne_eof_of_take? _ ph t outcome htake)]
          cases outcome with
          | error stop => exact ⟨rfl, rfl, Or.inl rfl⟩
          | ok later => exact ih ⟨p.source, none, ts⟩ later ⟨rfl, Or.inl rfl⟩

theorem run_leftWith (p : Parser) (src : Text) (ts : List Token) (h : p.LeftWith src ts) :
    p.run.1 = (drive src .count ts).1 ∧ p.run.2.LeftWith src (drive src .count ts).2 :=
  runFrom_leftWith src ts p .count h

/-- A fresh parser runs over its list. -/
theorem run_ofTokens (src : Text) (ts : List Token) :
    (ofTokens src ts).run.1 = (drive src .count ts).1 :=
  (run_leftWith _ src ts (leftWith_ofTokens src ts)).1

/-- A run consumes tokens from the front of the list, and no `eof` among them. -/
theorem drive_consumes (src : Text) (ts : List Token) : ∀ ph : Phase,
    ∃ taken, ts = taken ++ (drive src ph ts).2 ∧ ∀ t ∈ taken, t.kind ≠ .eof := by
  induction ts with
  | nil => intro ph; exact ⟨[], rfl, List.forall_mem_nil _⟩
  | cons t ts ih =>
      intro ph
      rw [drive]
      cases htake : take? src ph t with
      | none => exact ⟨[], rfl, List.forall_mem_nil _⟩
      | some outcome =>
          have ht := ne_eof_of_take? src ph t outcome htake
          cases outcome with
          -- The token that is found wrong has been consumed too.
          | error stop => exact ⟨[t], rfl, List.forall_mem_singleton.mpr ht⟩
          | ok later =>
              rcases ih later with ⟨taken, hsplit, hne⟩
              refine ⟨t :: taken, ?_, List.forall_mem_cons.mpr ⟨ht, hne⟩⟩
              rw [List.cons_append, ← hsplit]

/-- What becomes of a parser by looking at tokens and consuming them, in any order. -/
inductive Reaches (p : Parser) : Parser → Prop
  | refl : Reaches p p
  | peek (q : Parser) (h : Reaches p q) : Reaches p q.peek.2
  | next (q : Parser) (h : Reaches p q) : Reaches p q.next

theorem reaches_trans {p q r : Parser} (h : Reaches p q) (h' : Reaches q r) : Reaches p r := by
  induction h' with
  | refl => exact h
  | peek s _ ih => exact .peek s ih
  | next s _ ih => exact .next s ih

/-- A run does nothing else. -/
theorem reaches_runFrom (p : Parser) (ph : Phase) : Reaches p (p.runFrom ph).2 := by
  fun_induction runFrom p ph with
  | case1 p ph htake => exact .peek p .refl
  | case2 p ph stop htake => exact .next p .refl
  | case3 p ph later htake ih => exact reaches_trans (.next p .refl) ih

/-- Looking at the token ahead consumes nothing. -/
theorem leftWith_peek (p : Parser) (src : Text) (ts : List Token) (h : p.LeftWith src ts) :
    p.peek.2.LeftWith src ts := by
  rcases h with ⟨rfl, hp⟩
  cases hpend : p.pending with
  | nil =>
      have hts : ts = [] := by
        rcases hp with hp | ⟨hnil, -⟩
        · rw [← hp, hpend]
        · exact hnil
      rw [peek_of_exhausted p hpend]
      exact ⟨rfl, Or.inr ⟨hts, rfl⟩⟩
  | cons t us =>
      rw [hpend] at hp
      rw [peek_of_pending p t us hpend]
      exact ⟨rfl, hp⟩

/-- Consuming takes the first token, unless that is an `eof`. -/
theorem leftWith_next (p : Parser) (src : Text) (ts : List Token) (h : p.LeftWith src ts) :
    ∃ taken left, ts = taken ++ left ∧ (∀ t ∈ taken, t.kind ≠ .eof) ∧
      p.next.LeftWith src left := by
  by_cases heof : p.peek.1.kind = .eof
  · rw [next, if_pos heof]
    exact ⟨[], ts, rfl, List.forall_mem_nil _, leftWith_peek p src ts h⟩
  · rcases h with ⟨rfl, hp⟩
    cases hpend : p.pending with
    | nil =>
        -- The `eof` that is implied would be ahead.
        rw [peek_of_exhausted p hpend] at heof
        exact absurd rfl heof
    | cons t us =>
        rw [peek_of_pending p t us hpend] at heof
        rw [next_of_pending p t us hpend heof]
        rcases hp with hp | ⟨-, hp⟩
        · rw [hpend] at hp
          exact ⟨[t], us, hp.symm, List.forall_mem_singleton.mpr heof, rfl, Or.inl rfl⟩
        · -- What is pending is the implied `eof`, and that is not consumed.
          rw [hpend, List.cons.injEq] at hp
          rw [hp.1] at heof
          exact absurd rfl heof

/-- Whatever is looked at and consumed, a rest of the stream is left, and no `eof` was
    consumed before it. -/
theorem leftWith_of_reaches (src : Text) (ts : List Token) (q : Parser)
    (h : Reaches (ofTokens src ts) q) : ∃ consumed left, ts = consumed ++ left ∧
      (∀ t ∈ consumed, t.kind ≠ .eof) ∧ q.LeftWith src left := by
  induction h with
  | refl => exact ⟨[], ts, rfl, List.forall_mem_nil _, leftWith_ofTokens src ts⟩
  | peek q _ ih =>
      rcases ih with ⟨consumed, left, hts, hne, hleft⟩
      exact ⟨consumed, left, hts, hne, leftWith_peek q src left hleft⟩
  | next q _ ih =>
      rcases ih with ⟨consumed, left, rfl, hne, hleft⟩
      rcases leftWith_next q src left hleft with ⟨taken, left', rfl, hne', hleft'⟩
      exact ⟨consumed ++ taken, left', (List.append_assoc ..).symm,
        List.forall_mem_append.mpr ⟨hne, hne'⟩, hleft'⟩

/-- The parser after a number of runs. -/
def after (p : Parser) : Nat → Parser
  | 0 => p
  | n + 1 => p.run.2.after n

theorem after_succ (n : Nat) : ∀ p : Parser, p.after (n + 1) = (p.after n).run.2 := by
  induction n with
  | zero => intro p; rfl
  | succ n ih => intro p; exact ih p.run.2

/-- Each of several outcomes is that of one run after the runs before it. -/
theorem getElem?_runs (m : Nat) : ∀ (p : Parser) (n : Nat), n < m →
    (p.runs m)[n]? = some (p.after n).run.1 := by
  induction m with
  | zero => intro p n hn; omega
  | succ m ih =>
      intro p n hn
      rw [runs]
      cases n with
      | zero => rfl
      | succ n => exact ih p.run.2 n (by omega)

/-- The tokens of a stream that are left after a number of runs. -/
def leftAfter (src : Text) (ts : List Token) : Nat → List Token
  | 0 => ts
  | n + 1 => (drive src .count (leftAfter src ts n)).2

/-- After a number of runs a parser is left with what the runs over lists have left. -/
theorem after_leftWith (src : Text) (ts : List Token) (n : Nat) :
    ((ofTokens src ts).after n).LeftWith src (leftAfter src ts n) := by
  induction n with
  | zero => exact leftWith_ofTokens src ts
  | succ n ih =>
      rw [after_succ]
      exact (run_leftWith _ src _ ih).2

/-- What is left after a number of runs is a rest of the stream, and no `eof` was consumed.
    -/
theorem leftAfter_consumes (src : Text) (ts : List Token) (n : Nat) :
    ∃ consumed, ts = consumed ++ leftAfter src ts n ∧ ∀ t ∈ consumed, t.kind ≠ .eof := by
  induction n with
  | zero => exact ⟨[], rfl, List.forall_mem_nil _⟩
  | succ n ih =>
      rcases ih with ⟨consumed, hts, hne⟩
      -- One more run consumes from the front of what was left.
      rcases drive_consumes src (leftAfter src ts n) .count with ⟨taken, hleft, hne'⟩
      refine ⟨consumed ++ taken, ?_, List.forall_mem_append.mpr ⟨hne, hne'⟩⟩
      rw [leftAfter, List.append_assoc, ← hleft]
      exact hts

theorem reaches_after (n : Nat) (p : Parser) : Reaches p (p.after n) := by
  induction n with
  | zero => exact .refl
  | succ n ih =>
      rw [after_succ]
      exact reaches_trans ih (reaches_runFrom _ .count)

/-- At every moment a parser is left with a rest of its stream, no `eof` having been
    consumed before it. That holds after any number of runs, however each of them ends.
    Each run leaves a rest of what it was left with, and returns what a fresh parser
    returns for these tokens. -/
theorem runs_consume_in_order (src : Text) (ts : List Token) :
    (∀ q, Reaches (ofTokens src ts) q → ∃ consumed left, ts = consumed ++ left ∧
      (∀ t ∈ consumed, t.kind ≠ .eof) ∧ q.LeftWith src left) ∧
    ∃ left : Nat → List Token, left 0 = ts ∧ ∀ n,
      Reaches (ofTokens src ts) ((ofTokens src ts).after n) ∧
      ((ofTokens src ts).after n).LeftWith src (left n) ∧
      (∃ consumed, ts = consumed ++ left n ∧ ∀ t ∈ consumed, t.kind ≠ .eof) ∧
      left (n + 1) <:+ left n ∧
      ∀ m, n < m → ((ofTokens src ts).runs m)[n]? = some (ofTokens src (left n)).run.1 := by
  refine ⟨leftWith_of_reaches src ts, leftAfter src ts, rfl, fun n => ?_⟩
  have hleft := after_leftWith src ts n
  refine ⟨reaches_after n _, hleft, leftAfter_consumes src ts n, ?_, fun m hn => ?_⟩
  · rcases drive_consumes src (leftAfter src ts n) .count with ⟨taken, hsplit, -⟩
    exact ⟨taken, hsplit.symm⟩
  · rw [getElem?_runs m _ n hn, (run_leftWith _ src _ hleft).1, run_ofTokens]

end Parser

/-- A source is parsed by a run over its tokens. -/
theorem parse_eq_drive (src : Text) : parse src = (Parser.drive src .count (lex src)).1 :=
  Parser.run_ofTokens src (lex src)

end BitLogic
