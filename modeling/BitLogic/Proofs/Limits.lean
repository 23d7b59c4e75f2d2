import BitLogic.Proofs.Grammar
import Mathlib.Algebra.Group.Nat.Defs

/-!
# Numbers and Their Limits

A program has numbers in two places, in front as the number of its bits and then as the
bits, and each place has a limit. What becomes of a number depends on its value and on
nothing else about its spelling: one that is no word is no number, one that is a word
beyond the limit of its place is refused there, and one within the limit leads on.

Both places read their number in the same way, so there is one statement for them,
`classified_at`, about a phase that takes a number with a limit. Half of it is a
computation. A number that is taken is read exactly, and a run over tokens goes on behind
those that it has taken (`runFrom_append`).

The other half goes back from a complaint to the number that it is about. A run could in
principle get past a number and make the same complaint, about the same span, at a token
further on. But a complaint about a number is always about the text at its span
(`number_of_fault`), and the same text has the same value. This needs nothing about where
tokens stand, so it holds for tokens with spans of any kind.

## Main definitions

* `Parser.Blames`: What a complaint about a number says of the text at its span.

## Theorems

* `Parser.valueOf_span`: The value of a token is decided by its span.
* `Parser.valueOf_of_isNumber`, `Parser.isNumber_unique`: A number is read exactly, or
  is no word.
* `Parser.runFrom_cons`, `Parser.runFrom_append`: A run over tokens.
* `Parser.blames_of_kind`, `Parser.blames_of_wrong`: What single tokens are blamed for.
* `Parser.number_of_fault`: What a complaint about a number says of it.
* `Parser.run_at_number`: A run that gets to a number.
* `Parser.classified_at`: What becomes of a number in a phase that takes one.
* `Parser.length_args_of_run`: The leading number is that of the bits.
* `Parser.numbers_classified`: What becomes of the leading number and of bits.
* `Parser.numbers_classified_padded`: A number with zeros in front, and one that is no
  word.
-/

namespace BitLogic

namespace Parser

open Grammar

/-- The value of a token is decided by its span. -/
theorem valueOf_span (src : Text) (t u : Token) (h : t.span = u.span) :
    valueOf src t = valueOf src u := by
  rw [valueOf, valueOf, Token.lexeme?, Token.lexeme?, h]

/-- A number is read exactly, or it is no word. -/
theorem valueOf_of_isNumber (src : Text) (t : Token) (v : Nat) (h : IsNumber src t v) :
    valueOf src t =
      if Word.size ≤ v then .error (.fault ⟨.number, t.span⟩) else .ok v := by
  by_cases hv : Word.size ≤ v
  · rw [if_pos hv]
    rcases h with ⟨-, s, hs, hnum⟩
    have hnone : Token.numberValue? s = none := by
      rw [Option.eq_none_iff_forall_ne_some]
      intro n hn
      -- The digits have only one value, and that is too large.
      rcases (Token.numberValue?_eq_some_iff s n).mp hn with ⟨hnum', hsmall⟩
      have heq : v = n := hnum.2.2.symm.trans hnum'.2.2
      omega
    rw [valueOf, hs]
    simp only [hnone]
  · rw [if_neg hv, valueOf_eq_ok_iff src t v h.1]
    exact ⟨h, by omega⟩

theorem isNumber_unique (src : Text) (t : Token) (v w : Nat) (hv : IsNumber src t v)
    (hw : IsNumber src t w) : v = w := by
  rcases hv with ⟨-, s, hs, hv⟩
  rcases hw with ⟨-, r, hr, hw⟩
  rw [hs, Option.some.injEq] at hr
  rw [← hv.2.2, ← hw.2.2, hr]

/-! ## Runs over tokens -/

/-- A run over tokens, by what the phase does with the first of them. -/
theorem runFrom_cons (src : Text) (ph : Phase) (t : Token) (ts : List Token) :
    (ofTokens src (t :: ts)).runFrom ph =
      match take? src ph t with
      | none => (refuse ph t, ⟨src, some t, ts⟩)
      | some (.error stop) => (.error stop, ofTokens src ts)
      | some (.ok later) => (ofTokens src ts).runFrom later := by
  -- A fresh parser has looked at nothing, so its list is what is pending.
  have hpend : (ofTokens src (t :: ts)).pending = t :: ts := rfl
  have hsrc : (ofTokens src (t :: ts)).source = src := rfl
  rw [runFrom_eq, peek_of_pending _ t ts hpend, hsrc]
  cases htake : take? src ph t with
  | none => rfl
  | some outcome =>
      rw [next_of_pending _ t ts hpend (ne_eof_of_take? src ph t outcome htake), hsrc]
      cases outcome <;> rfl

/-- A run goes on behind the tokens that it has taken, as if it had started there. -/
theorem runFrom_append {src : Text} {a b : Phase} {ts : List Token} (h : Advances src a ts b)
    (rest : List Token) :
    (ofTokens src (ts ++ rest)).runFrom a = (ofTokens src rest).runFrom b := by
  induction h with
  | refl _ => rfl
  | step ph next last t ts h _ ih =>
      rw [List.cons_append, runFrom_cons, h]
      exact ih

/-! ## Complaints about numbers -/

/-- What a complaint says of the text at its span: if it is about no number there is no
    value, and if it is about a limit there is a value beyond it. -/
def Blames (src : Text) (f : Fault) : Prop :=
  (f.cause = .number → ∀ n, valueOf src ⟨.number, f.span⟩ ≠ .ok n) ∧
    ∀ bound, f.cause.bound? = some bound →
      ∃ n, valueOf src ⟨.number, f.span⟩ = .ok n ∧ bound < n

/-- A complaint about the kind of a token blames no number. -/
theorem blames_of_kind (src : Text) (f : Fault) (k : Token.Kind) (h : f.cause.OfKind k) :
    Blames src f := by
  have hnot : f.cause ≠ .number ∧ f.cause.bound? = none := by
    generalize f.cause = c at h
    cases h <;> exact ⟨by simp only [ne_eq, reduceCtorEq, not_false_eq_true], rfl⟩
  refine ⟨fun hc => absurd hc hnot.1, fun bound hb => ?_⟩
  rw [hnot.2] at hb
  simp only [reduceCtorEq] at hb

/-- A token that is found wrong is blamed rightly. -/
theorem blames_of_wrong (src : Text) (t : Token) (f : Fault) (h : Wrong src t (.fault f)) :
    Blames src f := by
  have hspan := valueOf_span src t ⟨.number, t.span⟩ rfl
  cases h with
  | number hval =>
      refine ⟨fun _ n hn => ?_, fun bound hb => ?_⟩
      · rw [← hspan, hval] at hn
        simp only [reduceCtorEq] at hn
      · simp only [Cause.bound?, reduceCtorEq] at hb
  | beyond c bound n hc hn hlt =>
      refine ⟨fun hcause => ?_, fun b hb => ⟨n, hspan.symm.trans hn, ?_⟩⟩
      · rw [show c = .number from hcause] at hc
        simp only [Cause.bound?, reduceCtorEq] at hc
      · have hsame : some b = some bound := hb.symm.trans hc
        rw [Option.some.inj hsame]
        exact hlt

/-- A complaint of a run about a number is about the text at its span, whichever token the
    run has met it at. -/
theorem number_of_fault (src : Text) (ph : Phase) (ts : List Token) (f : Fault)
    (h : (drive src ph ts).1 = .error (.fault f)) : Blames src f := by
  rcases drive_ends src ts ph with ⟨pre, t, last, -, -, ⟨-, hend⟩ | ⟨stop, htake, hend⟩⟩
  · rw [hend] at h
    rcases refuse_cases last t with ⟨p, hok, -⟩ | ⟨c, hkind, hfault⟩
    · rw [hok] at h
      simp only [reduceCtorEq] at h
    · rw [hfault] at h
      rw [← Stop.fault.inj (Except.error.inj h)]
      exact blames_of_kind src _ t.kind hkind
  · -- The token was taken, so it is the number that is blamed.
    rw [hend, Except.error.injEq] at h
    rw [h] at htake
    exact blames_of_wrong src t f (wrong_of_take? src last t _ htake)

/-! ## Classification -/

/-- A run that gets to a number in a phase that takes one with a limit. -/
theorem run_at_number (src : Text) (t : Token) (v : Nat) (ht : IsNumber src t v)
    (pre rest : List Token) (ph : Phase) (hadv : Advances src .count pre ph) (bound : Nat)
    (c : Cause) (next : Nat → Phase)
    (htake : take? src ph t = some (do
      let n ← valueOf src t
      if bound < n then .error (.fault ⟨c, t.span⟩) else .ok (next n))) :
    (ofTokens src (pre ++ t :: rest)).run =
      if Word.size ≤ v then (.error (.fault ⟨.number, t.span⟩), ofTokens src rest)
      else if bound < v then (.error (.fault ⟨c, t.span⟩), ofTokens src rest)
      else (ofTokens src rest).runFrom (next v) := by
  rw [run, runFrom_append hadv, runFrom_cons, htake, valueOf_of_isNumber src t v ht]
  -- The value is compared with the words before it is compared with the limit.
  by_cases hword : Word.size ≤ v
  · rw [if_pos hword, if_pos hword]
    rfl
  · rw [if_neg hword, if_neg hword]
    simp only [bind, Except.bind]
    by_cases hv : bound < v
    · rw [if_pos hv, if_pos hv]
    · rw [if_neg hv, if_neg hv]

/-- What becomes of a number in a phase that takes one with a limit, wherever in a run
    that is. -/
theorem classified_at (src : Text) (t : Token) (v : Nat) (ht : IsNumber src t v)
    (pre rest : List Token) (ph : Phase) (hadv : Advances src .count pre ph) (bound : Nat)
    (c : Cause) (next : Nat → Phase) (hbound : c.bound? = some bound)
    (htake : take? src ph t = some (do
      let n ← valueOf src t
      if bound < n then .error (.fault ⟨c, t.span⟩) else .ok (next n))) :
    ((ofTokens src (pre ++ t :: rest)).run.1 = .error (.fault ⟨.number, t.span⟩) ↔
      Word.size ≤ v) ∧
    ((ofTokens src (pre ++ t :: rest)).run.1 = .error (.fault ⟨c, t.span⟩) ↔
      bound < v ∧ v < Word.size) ∧
    (bound < v ∨ Word.size ≤ v →
      (ofTokens src (pre ++ t :: rest)).run.2 = ofTokens src rest) ∧
    (v ≤ bound → v < Word.size →
      (ofTokens src (pre ++ t :: rest)).run = (ofTokens src rest).runFrom (next v)) := by
  have hrun := run_at_number src t v ht pre rest ph hadv bound c next htake
  -- Whatever the run complains about at this span, it blames this number.
  have hblames : ∀ c', (ofTokens src (pre ++ t :: rest)).run.1 = .error (.fault ⟨c', t.span⟩) →
      Blames src ⟨c', t.span⟩ := by
    intro c' h
    rw [run_ofTokens] at h
    exact number_of_fault src .count _ _ h
  have hspan : valueOf src ⟨.number, t.span⟩ =
      if Word.size ≤ v then .error (.fault ⟨.number, t.span⟩) else .ok v := by
    rw [← valueOf_of_isNumber src t v ht]
    exact valueOf_span src _ _ rfl
  refine ⟨⟨fun h => ?_, fun h => ?_⟩, ⟨fun h => ?_, fun h => ?_⟩, fun h => ?_, fun h h' => ?_⟩
  · -- The number has a value, and the complaint says that it has none.
    by_contra hword
    rw [if_neg hword] at hspan
    exact (hblames _ h).1 rfl v hspan
  · rw [hrun, if_pos h]
  · rcases (hblames _ h).2 bound hbound with ⟨n, hn, hlt⟩
    rw [hn] at hspan
    by_cases hword : Word.size ≤ v
    · rw [if_pos hword] at hspan
      simp only [reduceCtorEq] at hspan
    · rw [if_neg hword, Except.ok.injEq] at hspan
      omega
  · rw [hrun, if_neg (by omega), if_pos h.1]
  · rw [hrun]
    by_cases hword : Word.size ≤ v
    · rw [if_pos hword]
    · rw [if_neg hword, if_pos (by omega)]
  · rw [hrun, if_neg (by omega), if_neg (by omega)]

/-- The leading number of a program that is accepted is the number of its bits. -/
theorem length_args_of_run (src : Text) (t : Token) (v : Nat) (ht : IsNumber src t v)
    (rest : List Token) (p : Program) (h : (ofTokens src (t :: rest)).run.1 = .ok p) :
    p.args.length = v := by
  rw [run_ofTokens, run_eq_ok_iff] at h
  rcases h with ⟨ts, hderives, more, hmore⟩
  cases hderives with
  | mk bits e hs us z hhead _ _ =>
      cases hhead with
      | mk u hs _ hu _ _ =>
          -- A derivation begins with the same token as the stream.
          have hfirst : u = t := (List.cons.inj hmore).1
          rw [hfirst] at hu
          exact isNumber_unique src t _ _ hu ht

/-- Numbers are classified by their exact value. In front of a program, a number of 2^64 or
    more is no number, one from 27 on is too many bits, nothing behind either is looked
    at, and any other number is that of the bits to come: bits that follow are counted
    against it, and a program that is accepted has as many. Among the bits, a number of 2^64
    or more is no number, one from 2 on is no bit, and any other is the next bit. -/
theorem numbers_classified (src : Text) (t : Token) (v : Nat) (ht : IsNumber src t v)
    (rest : List Token) :
    (((ofTokens src (t :: rest)).run.1 = .error (.fault ⟨.number, t.span⟩) ↔ 2 ^ 64 ≤ v) ∧
      ((ofTokens src (t :: rest)).run.1 = .error (.fault ⟨.argLimit, t.span⟩) ↔
        27 ≤ v ∧ v < 2 ^ 64) ∧
      (27 ≤ v → (ofTokens src (t :: rest)).run.2 = ofTokens src rest) ∧
      (v ≤ 26 → ∀ us bits more, rest = us ++ more → AreBits src us bits → bits.length ≤ v →
        (ofTokens src (t :: rest)).run =
          (ofTokens src more).runFrom (.wanting (v - bits.length) bits.reverse)) ∧
      ∀ p, (ofTokens src (t :: rest)).run.1 = .ok p → p.args.length = v) ∧
    ∀ c n us bits, IsNumber src c n → n ≤ 26 → AreBits src us bits → bits.length < n →
      ((ofTokens src (c :: us ++ t :: rest)).run.1 = .error (.fault ⟨.number, t.span⟩) ↔
        2 ^ 64 ≤ v) ∧
      ((ofTokens src (c :: us ++ t :: rest)).run.1 = .error (.fault ⟨.badBit, t.span⟩) ↔
        2 ≤ v ∧ v < 2 ^ 64) ∧
      (2 ≤ v → (ofTokens src (c :: us ++ t :: rest)).run.2 = ofTokens src rest) ∧
      (v ≤ 1 → (ofTokens src (c :: us ++ t :: rest)).run =
        (ofTokens src rest).runFrom
          (.wanting (n - (bits.length + 1)) (decide (v = 1) :: bits.reverse))) := by
  have hsize : Word.size = 2 ^ 64 := by decide
  constructor
  · rcases classified_at src t v ht [] rest .count (Advances.refl _) maxArgs .argLimit
      (fun n => .wanting n []) rfl (by rw [take?, if_pos ht.1]; rfl) with
      ⟨hnumber, hlimit, hbehind, -⟩
    rw [hsize] at hnumber hlimit
    refine ⟨hnumber, hlimit, fun h => hbehind (Or.inl h), ?_, length_args_of_run src t v ht rest⟩
    rintro hv us bits more rfl hbits hlen
    exact runFrom_append (advances_counted src t v ht hv us bits hbits hlen) more
  · intro c n us bits hc hn hbits hlen
    have hadv := advances_counted src c n hc hn us bits hbits (by omega)
    rw [Phase.wanting, if_neg (by omega)] at hadv
    -- The bits before this one have been taken, so it is met in the phase that wants the next.
    rcases classified_at src t v ht (c :: us) rest _ hadv 1 .badBit
      (fun m => .wanting (n - bits.length - 1) (decide (m = 1) :: bits.reverse)) rfl
      (by rw [take?, if_pos ht.1]; rfl) with ⟨hnumber, hbit, hbehind, hnext⟩
    rw [hsize] at hnumber hbit hnext
    refine ⟨hnumber, hbit, fun h => hbehind (Or.inl h), fun h => ?_⟩
    rw [Nat.sub_add_eq]
    exact hnext h (by omega)

/-- A count of 26 with zeros in front, and a bit that is the least number beyond a word. -/
def padded : Text := Text.ofString "0026 18446744073709551616"

theorem numbers_classified_padded :
    lex padded = [⟨.number, ⟨0, 4⟩⟩, ⟨.number, ⟨5, 25⟩⟩, .endAt 25] ∧
    IsNumber padded ⟨.number, ⟨0, 4⟩⟩ 26 ∧
    IsNumber padded ⟨.number, ⟨5, 25⟩⟩ 18446744073709551616 ∧
    parse padded = .error (.fault ⟨.number, ⟨5, 25⟩⟩) := by
  have hlex : lex padded = [⟨.number, ⟨0, 4⟩⟩, ⟨.number, ⟨5, 25⟩⟩, .endAt 25] := by
    with_unfolding_all rfl
  have hcount : IsNumber padded ⟨.number, ⟨0, 4⟩⟩ 26 := ⟨rfl, _, rfl, by decide⟩
  have hbit : IsNumber padded ⟨.number, ⟨5, 25⟩⟩ 18446744073709551616 := ⟨rfl, _, rfl, by decide⟩
  refine ⟨hlex, hcount, hbit, ?_⟩
  rw [parse, ofSource, hlex]
  exact ((numbers_classified padded _ _ hbit [.endAt 25]).2 _ 26 [] [] hcount (by decide) .nil
    (by decide)).1.mpr (by decide)

end Parser

end BitLogic
