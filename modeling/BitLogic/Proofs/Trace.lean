import BitLogic.Proofs.Pending
import BitLogic.Proofs.Slices

/-!
# Parser Traces

How a run of the parser gets to where it ends.

A run takes tokens until it meets one that it does not take, or one that it takes and
then finds wrong. `Advances` is the part before that: a list of tokens, all of them
taken, leads from one phase to another. It composes, and `drive_append` says that a
run over more tokens is the rest of the run from the phase that has been reached.

A stream that has run out goes on like one that ends in `eof`. The statements here
therefore speak of the stream with such a token behind it. `drive_ends` says once
what a run can do: some token of that stream ends it, all tokens before it having been
taken. `drive_of_refused` and `drive_of_wrong` are the way back, and they say that
nothing behind the ending token is ever looked at.

Tokens that are taken are read for what they spell, and what a token spells does not
change when the source gets longer, as long as the token lies within it. A trace over
a source is therefore a trace over every longer source.

## Main definitions

* `Cause.bound?`: The limit that a complaint about a number is about.
* `Parser.Wrong`: What can be wrong with a token that is taken.
* `Parser.Advances`: Tokens that are all taken lead from phase to phase.

## Theorems

* `Token.lexeme?_append`: A token within a source spells the same in a longer one.
* `Token.within_endAt`: The end of a source lies within it.
* `Parser.bounded_cases`: The three things that can happen to a number.
* `Parser.wrong_of_valueOf`, `Parser.wrong_of_bounded`, `Parser.wrong_of_takeIdent`:
  What is wrong with a number, a bounded number and a name.
* `Parser.takeAfter?_ne_error`: Behind a complete expression nothing is found wrong.
* `Parser.wrong_of_take?`: A token that is taken and found wrong.
* `Parser.lexeme?_of_within`: A token within the source spells something.
* `Parser.take?_error`: The fault then lies at the token.
* `Parser.take?_append`: Appending to the source keeps what a token does.
* `Parser.advances_trans`, `Parser.advances_single`: Traces compose, and a token that is
  taken is one.
* `Parser.advances_append`: A trace over a source is one over a longer source.
* `Parser.not_eof_of_advances`: A trace has no `eof`.
* `Parser.drive_append`: A run goes on from the phase a trace has reached.
* `Parser.drive_ends`: Some token ends a run.
* `Parser.drive_of_first`: The token that ends a run is the first that is not taken.
* `Parser.drive_of_refused`, `Parser.drive_of_wrong`: Which one it is, and how it ends
  the run.
-/

namespace BitLogic

/-- A token that lies within a source spells the same in every longer one. -/
theorem Token.lexeme?_append (t : Token) (src more : Text) (h : t.span.Within src.length) :
    t.lexeme? (src ++ more) = t.lexeme? src :=
  Text.slice?_append src more _ _ h.1 h.2.1 h.2.2

theorem Token.within_endAt (n : Nat) : (Token.endAt n).span.Within n :=
  ⟨Int.natCast_nonneg n, Int.le_refl _, Int.le_refl _⟩

/-- The limit that a number has exceeded if this is said of it. -/
def Cause.bound? : Cause → Option Nat
  | .argLimit => some maxArgs
  | .badBit => some 1
  | _ => none

namespace Parser

/-- What can be wrong with a token that is taken: it lies outside of the source, it is a
    number that has no value, or the value is beyond a limit. -/
inductive Wrong (src : Text) (t : Token) : Stop → Prop
  | outside (h : t.lexeme? src = none) : Wrong src t (.breach .outOfRange)
  | number (h : valueOf src t = .error (.fault ⟨.number, t.span⟩)) :
      Wrong src t (.fault ⟨.number, t.span⟩)
  | beyond (c : Cause) (bound n : Nat) (hc : c.bound? = some bound)
      (hn : valueOf src t = .ok n) (h : bound < n) : Wrong src t (.fault ⟨c, t.span⟩)

/-- The count and the bits are numbers with a bound. A number has no value, a value
    beyond its bound, or one that leads on. -/
theorem bounded_cases (src : Text) (t : Token) (bound : Nat) (c : Cause) (next : Nat → Phase)
    (outcome : Except Stop Phase)
    (h : (do let n ← valueOf src t
             if bound < n then .error (.fault ⟨c, t.span⟩) else .ok (next n) :
           Except Stop Phase) = outcome) :
    (∃ stop, valueOf src t = .error stop ∧ outcome = .error stop) ∨
      (∃ n, valueOf src t = .ok n ∧ bound < n ∧ outcome = .error (.fault ⟨c, t.span⟩)) ∨
      ∃ n, valueOf src t = .ok n ∧ n ≤ bound ∧ outcome = .ok (next n) := by
  rw [← h]
  cases valueOf src t with
  | error stop => exact Or.inl ⟨stop, rfl, rfl⟩
  | ok n =>
      simp only [bind, Except.bind]
      by_cases hn : bound < n
      · rw [if_pos hn]
        exact Or.inr (Or.inl ⟨n, rfl, hn, rfl⟩)
      · rw [if_neg hn]
        exact Or.inr (Or.inr ⟨n, rfl, by omega, rfl⟩)

/-- A number that cannot be read lies outside of the source or has no value. -/
theorem wrong_of_valueOf (src : Text) (t : Token) (stop : Stop)
    (h : valueOf src t = .error stop) : Wrong src t stop := by
  cases hlex : t.lexeme? src with
  | none =>
      rw [valueOf, hlex] at h
      rw [← Except.error.inj h]
      exact .outside hlex
  | some s =>
      have hval := h
      rw [valueOf, hlex] at hval
      simp only at hval
      -- The token spells something, so what failed is its value.
      split at hval
      · have hstop := Except.error.inj hval
        rw [← hstop] at h ⊢
        exact .number h
      · simp only [reduceCtorEq] at hval

theorem wrong_of_bounded (src : Text) (t : Token) (bound : Nat) (c : Cause)
    (next : Nat → Phase) (stop : Stop) (hc : c.bound? = some bound)
    (h : (do let n ← valueOf src t
             if bound < n then .error (.fault ⟨c, t.span⟩) else .ok (next n) :
           Except Stop Phase) = .error stop) : Wrong src t stop := by
  rcases bounded_cases src t bound c next _ h with
    ⟨stop', hval, hstop⟩ | ⟨n, hval, hn, hstop⟩ | ⟨n, -, -, hok⟩
  · rw [Except.error.inj hstop]
    exact wrong_of_valueOf src t stop' hval
  · rw [Except.error.inj hstop]
    exact .beyond c bound n hc hval hn
  · simp only [reduceCtorEq] at hok

/-- A name can only be wrong by lying outside of the source. -/
theorem wrong_of_takeIdent (src : Text) (bits : List Bool) (stack : List Frame) (t : Token)
    (stop : Stop) (h : takeIdent src bits stack t = .error stop) : Wrong src t stop := by
  cases hlex : t.lexeme? src with
  | none =>
      rw [takeIdent, hlex] at h
      rw [← Except.error.inj h]
      exact .outside hlex
  | some name =>
      rw [takeIdent, hlex] at h
      simp only [reduceCtorEq] at h

/-- Behind a complete expression a token is taken or refused, and never found wrong. -/
theorem takeAfter?_ne_error (bits : List Bool) (stack : List Frame) (e : Expr) (t : Token)
    (stop : Stop) : takeAfter? bits stack e t ≠ some (.error stop) := by
  unfold takeAfter?
  split <;> simp only [ne_eq, Option.some.injEq, reduceCtorEq, not_false_eq_true]

/-- Where a token is taken and the run ends nevertheless, this is what is wrong with it. -/
theorem wrong_of_take? (src : Text) (ph : Phase) (t : Token) (stop : Stop)
    (h : take? src ph t = some (.error stop)) : Wrong src t stop := by
  -- Where a number or a name is wanted, that is what is wrong; elsewhere a token is not looked
  -- into.
  cases ph with
  | count =>
      rw [take?, Option.ite_none_right_eq_some, Option.some.injEq] at h
      exact wrong_of_bounded src t maxArgs .argLimit (fun n => .wanting n []) stop rfl h.2
  | bits left gathered =>
      rw [take?, Option.ite_none_right_eq_some, Option.some.injEq] at h
      exact wrong_of_bounded src t 1 .badBit
        (fun n => .wanting (left - 1) (decide (n = 1) :: gathered)) stop rfl h.2
  | operand bits stack =>
      rw [take?, Option.ite_none_right_eq_some, Option.some.injEq] at h
      exact wrong_of_takeIdent src bits stack t stop h.2
  | named bits stack ident =>
      rw [take?] at h
      split at h
      · simp only [Option.some.injEq, reduceCtorEq] at h
      · exact absurd h (takeAfter?_ne_error _ _ _ t stop)
  | opened bits stack ident =>
      rw [take?] at h
      split at h
      · simp only [Option.some.injEq, reduceCtorEq] at h
      · rw [Option.ite_none_right_eq_some, Option.some.injEq] at h
        exact wrong_of_takeIdent src bits _ t stop h.2
  | complete bits stack e => exact absurd h (takeAfter?_ne_error _ _ _ t stop)

theorem lexeme?_of_within (src : Text) (t : Token) (h : t.span.Within src.length) :
    ∃ s, t.lexeme? src = some s := by
  unfold Token.lexeme? Text.slice?
  exact ⟨_, if_pos ⟨h.1, h.2.1, h.2.2⟩⟩

/-- A token that is taken and found wrong carries the fault, if it lies within the
    source. -/
theorem take?_error (src : Text) (ph : Phase) (t : Token) (h : t.span.Within src.length)
    (stop : Stop) (htake : take? src ph t = some (.error stop)) :
    ∃ c, stop = .fault ⟨c, t.span⟩ := by
  cases wrong_of_take? src ph t stop htake with
  | outside hnone =>
      rcases lexeme?_of_within src t h with ⟨s, hs⟩
      rw [hs] at hnone
      simp only [reduceCtorEq] at hnone
  | number _ => exact ⟨_, rfl⟩
  | beyond c _ _ _ _ _ => exact ⟨c, rfl⟩

/-- A token within the source does what it did when the source gets longer. -/
theorem take?_append (src more : Text) (ph : Phase) (t : Token) (h : t.span.Within src.length) :
    take? (src ++ more) ph t = take? src ph t := by
  have hlex := t.lexeme?_append src more h
  have hval : valueOf (src ++ more) t = valueOf src t := by rw [valueOf, valueOf, hlex]
  -- Only what the token spells is asked of the source.
  cases ph with
  | count => rw [take?, take?, takeCount, takeCount, hval]
  | bits left gathered => rw [take?, take?, takeBit, takeBit, hval]
  | operand bits stack => rw [take?, take?, takeIdent, takeIdent, hlex]
  | named bits stack ident => rfl
  | opened bits stack ident => rw [take?, take?, takeIdent, takeIdent, hlex]
  | complete bits stack e => rfl

/-- The tokens are taken one after the other and lead from one phase to another. -/
inductive Advances (src : Text) : Phase → List Token → Phase → Prop
  | refl (ph : Phase) : Advances src ph [] ph
  | step (ph next last : Phase) (t : Token) (ts : List Token)
      (h : take? src ph t = some (.ok next)) (hrest : Advances src next ts last) :
      Advances src ph (t :: ts) last

theorem advances_trans {src : Text} {a b c : Phase} {ts us : List Token}
    (h1 : Advances src a ts b) (h2 : Advances src b us c) : Advances src a (ts ++ us) c := by
  induction h1 with
  | refl _ => exact h2
  | step ph next _ t ts h _ ih => exact Advances.step ph next c t (ts ++ us) h (ih h2)

theorem advances_single {src : Text} {a b : Phase} {t : Token}
    (h : take? src a t = some (.ok b)) : Advances src a [t] b :=
  Advances.step a b b t [] h (Advances.refl b)

/-- A trace over a source is a trace over every longer source, since its tokens spell the
    same there. -/
theorem advances_append {src : Text} {a b : Phase} {ts : List Token} (more : Text)
    (h : Advances src a ts b) (hin : ∀ t ∈ ts, t.span.Within src.length) :
    Advances (src ++ more) a ts b := by
  induction h with
  | refl ph => exact Advances.refl ph
  | step ph next last t ts h _ ih =>
      have ht := take?_append src more ph t (hin t List.mem_cons_self)
      exact Advances.step ph next last t ts (ht.trans h)
        (ih fun u hu => hin u (List.mem_cons_of_mem t hu))

/-- The end is never taken, so a trace has no `eof`. -/
theorem not_eof_of_advances {src : Text} {a b : Phase} {ts : List Token}
    (h : Advances src a ts b) : ∀ t ∈ ts, t.kind ≠ .eof := by
  induction h with
  | refl ph => exact List.forall_mem_nil _
  | step ph next last t ts h _ ih =>
      rw [List.forall_mem_cons]
      refine ⟨fun heof => ?_, ih⟩
      rw [take?_eof src ph t heof] at h
      simp only [reduceCtorEq] at h

/-- A run goes on from the phase that a trace has reached. -/
theorem drive_append {src : Text} {a b : Phase} {ts : List Token} (h : Advances src a ts b)
    (rest : List Token) : drive src a (ts ++ rest) = drive src b rest := by
  induction h with
  | refl _ => rfl
  | step ph next last t ts h _ ih =>
      rw [List.cons_append, drive, h]
      exact ih

/-- What a run can do, with an `eof` behind the stream: tokens are taken up to one
    that is refused, or that is taken and found wrong. -/
theorem drive_ends (src : Text) (ts : List Token) : ∀ ph : Phase,
    ∃ pre t last, pre ++ [t] <+: ts ++ [.endAt src.length] ∧ Advances src ph pre last ∧
      ((take? src last t = none ∧ (drive src ph ts).1 = refuse last t) ∨
        ∃ stop, take? src last t = some (.error stop) ∧ (drive src ph ts).1 = .error stop) := by
  -- Along the tokens. The phase changes with each that is taken, so it stays general.
  induction ts with
  | nil =>
      intro ph
      -- The tokens have run out, and the `eof` that stands for that is refused by every phase.
      exact ⟨[], .endAt src.length, ph, List.prefix_refl _, Advances.refl ph,
        Or.inl ⟨take?_eof src ph _ rfl, rfl⟩⟩
  | cons t ts ih =>
      intro ph
      cases htake : take? src ph t with
      | none =>
          refine ⟨[], t, ph, ⟨ts ++ [.endAt src.length], rfl⟩, Advances.refl ph,
            Or.inl ⟨htake, ?_⟩⟩
          rw [drive, htake]
      | some outcome =>
          cases outcome with
          | error stop =>
              refine ⟨[], t, ph, ⟨ts ++ [.endAt src.length], rfl⟩, Advances.refl ph,
                Or.inr ⟨stop, htake, ?_⟩⟩
              rw [drive, htake]
          | ok next =>
              have hrun : drive src ph (t :: ts) = drive src next ts := by rw [drive, htake]
              rcases ih next with ⟨pre, u, last, hpre, hadv, hend⟩
              refine ⟨t :: pre, u, last, ?_, Advances.step ph next last t pre htake hadv, ?_⟩
              · exact (List.prefix_cons_inj t).mpr hpre
              · rw [hrun]
                exact hend

/-- A token that begins what is left, or that stands for its end, is the first token
    of the run. -/
theorem drive_of_first (src : Text) (ph : Phase) (pre us : List Token) (t : Token)
    (last : Phase) (hadv : Advances src ph pre last)
    (hpre : pre ++ [t] <+: us ++ [.endAt src.length]) :
    (drive src ph us = drive src last [] ∧ t = .endAt src.length) ∨
      ∃ rest, drive src ph us = drive src last (t :: rest) := by
  rcases hpre with ⟨more, hmore⟩
  rcases List.eq_nil_or_concat more with rfl | ⟨rest, z, rfl⟩
  · -- nothing stands behind the token, so it is the implied `eof`
    rw [List.append_nil] at hmore
    have hlast := List.append_inj' hmore rfl
    rw [← hlast.1, ← List.append_nil pre, drive_append hadv []]
    exact Or.inl ⟨rfl, List.singleton_inj.mp hlast.2⟩
  · -- the implied `eof` stands further on, so the token is in the stream
    rw [List.concat_eq_append, ← List.append_assoc] at hmore
    have hlast := List.append_inj' hmore rfl
    rw [← hlast.1, List.append_assoc, drive_append hadv]
    exact Or.inr ⟨rest, rfl⟩

/-- A token that is refused where a trace has led ends the run, and it is what the complaint
    is about. -/
theorem drive_of_refused (src : Text) (ph : Phase) (pre us : List Token) (t : Token)
    (last : Phase) (hadv : Advances src ph pre last)
    (hpre : pre ++ [t] <+: us ++ [.endAt src.length]) (ht : take? src last t = none) :
    (drive src ph us).1 = refuse last t := by
  rcases drive_of_first src ph pre us t last hadv hpre with ⟨hrun, rfl⟩ | ⟨rest, hrun⟩
  · rw [hrun]
    rfl
  · rw [hrun, drive, ht]

theorem drive_of_wrong (src : Text) (ph : Phase) (pre us : List Token) (t : Token)
    (last : Phase) (hadv : Advances src ph pre last)
    (hpre : pre ++ [t] <+: us ++ [.endAt src.length]) (stop : Stop)
    (ht : take? src last t = some (.error stop)) : (drive src ph us).1 = .error stop := by
  rcases drive_of_first src ph pre us t last hadv hpre with ⟨-, rfl⟩ | ⟨rest, hrun⟩
  · -- The implied `eof` is refused, so it is not this token.
    rw [take?_eof src last _ rfl] at ht
    simp only [reduceCtorEq] at ht
  · rw [hrun, drive, ht]

end Parser

end BitLogic
