import BitLogic.Proofs.Pending

/-!
# Runs That Settle

A parser can be run any number of times, and after a while nothing changes any more.

A run begins by asking for a number. If the token ahead is none, the run ends there and
leaves the token where it is, so the next run meets the same token and ends in the same
way; the parser is settled. If it is a number, the run consumes it, whatever happens
behind it. Tokens that can be consumed are therefore used up by every run of a parser that
is not settled, and a stream of `n` tokens lasts for `n` such runs at most. `unread` counts
these tokens. An `eof` is not among them, since it is never consumed.

A run that succeeds has stopped in front of an `eof`, which is no number, so it settles the
parser too. A run that fails need not: one that has consumed a wrong number leaves the
tokens behind it, and these may well be a program.

## Main definitions

* `Parser.unread`: The number of tokens that can still be consumed.
* `Parser.Settled`: The token ahead is no number.
* `Parser.outcome`: How one of several runs ends.

## Theorems

* `Parser.runs_eq_map_outcome`: Repeated runs give the outcomes in order.
* `Parser.peek_peek`: Looking twice shows the same token.
* `Parser.unread_peek`, `Parser.unread_next`: Looking uses up nothing, consuming one
  token.
* `Parser.unread_runFrom`: A run gets no tokens back.
* `Parser.unread_run`: A run that finds a number uses up tokens.
* `Parser.Settled.run`: A run of a settled parser.
* `Parser.kind_of_ok`, `Parser.settled_of_ok`: A run that succeeds settles the parser.
* `Parser.settled_of_unread`: So does one that uses up nothing.
* `Parser.Settled.peek_run`, `Parser.Settled.peek_after`: What a settled parser has
  ahead.
* `Parser.Settled.after`, `Parser.Settled.outcome`: A settled parser stays what it is,
  and all its runs end alike.
* `Parser.settled_after`: A parser settles within as many runs as it has tokens.
* `Parser.after_add`, `Parser.outcome_of_settled`: The runs behind the one that settles.
* `Parser.peek_mem`: Where the token comes from that is complained about.
* `Parser.runs_settle`: The outcomes of all runs.
-/

namespace BitLogic

namespace Parser

/-- The number of tokens that can still be consumed. -/
def unread (p : Parser) : Nat := p.pending.countP fun t => t.kind ≠ .eof

/-- The token ahead is not the number that a run begins with. -/
def Settled (p : Parser) : Prop := p.peek.1.kind ≠ .number

/-- How a run ends that comes after `n` others. -/
def outcome (p : Parser) (n : Nat) : Except Stop Program := (p.after n).run.1

/-- Runs that are made one after the other have the outcomes of the runs, in order. -/
theorem runs_eq_map_outcome (m : Nat) : ∀ p : Parser,
    p.runs m = (List.range m).map p.outcome := by
  induction m with
  | zero => intro p; rfl
  | succ m ih =>
      intro p
      have hfirst : p.runs (m + 1) = p.run.1 :: p.run.2.runs m := rfl
      rw [hfirst, ih p.run.2, List.range_succ_eq_map, List.map_cons, List.map_map]
      rfl

/-! ## One run -/

/-- Looking ahead changes nothing that can be seen by looking again. -/
@[simp]
theorem peek_peek (p : Parser) : p.peek.2.peek = p.peek := by
  cases hpend : p.pending with
  | nil => rw [peek_of_exhausted p hpend]; rfl
  | cons t ts => rw [peek_of_pending p t ts hpend]; rfl

@[simp]
theorem unread_peek (p : Parser) : p.peek.2.unread = p.unread := by
  cases hpend : p.pending with
  | nil =>
      -- The `eof` that is made up does not count.
      rw [peek_of_exhausted p hpend, unread, unread, hpend]
      rfl
  | cons t ts =>
      rw [peek_of_pending p t ts hpend, unread, unread, hpend]
      rfl

/-- Consuming uses up one token, unless that is an `eof`. -/
theorem unread_next (p : Parser) (h : p.peek.1.kind ≠ .eof) : p.next.unread + 1 = p.unread := by
  cases hpend : p.pending with
  | nil =>
      rw [peek_of_exhausted p hpend] at h
      exact absurd rfl h
  | cons t ts =>
      rw [peek_of_pending p t ts hpend] at h
      have hnext : p.next.pending = ts := by
        rw [next_of_pending p t ts hpend h]
        rfl
      rw [unread, unread, hnext, hpend, List.countP_cons]
      simp only [ne_eq] at h
      simp only [ne_eq, h, not_false_eq_true, decide_true, if_true]

/-- Whatever a run does, it does not get tokens back. -/
theorem unread_runFrom (p : Parser) (ph : Phase) : (p.runFrom ph).2.unread ≤ p.unread := by
  -- Along the run: it stops and looks, stops and has consumed, or consumes and goes on.
  fun_induction runFrom p ph with
  | case1 p ph htake => exact Nat.le_of_eq (unread_peek p)
  | case2 p ph stop htake =>
      have hnext := unread_next p (ne_eof_of_take? _ ph _ _ htake)
      simp only
      omega
  | case3 p ph later htake ih =>
      have hnext := unread_next p (ne_eof_of_take? _ ph _ _ htake)
      omega

/-- A run that finds a number consumes it, also if it fails then. -/
theorem unread_run (p : Parser) (h : p.peek.1.kind = .number) : p.run.2.unread < p.unread := by
  have hnext := unread_next p (by rw [h]; decide)
  have htake : take? p.source .count p.peek.1 = some (takeCount p.source p.peek.1) := by
    rw [take?, if_pos h]
  rw [run, runFrom_eq, htake]
  -- The number is gone in either case; a run that goes on uses up no less.
  cases takeCount p.source p.peek.1 with
  | error stop =>
      simp only
      omega
  | ok later =>
      have hrest := unread_runFrom p.next later
      simp only
      omega

/-- A run of a settled parser complains about the token ahead and leaves it there. -/
theorem Settled.run {p : Parser} (h : p.Settled) :
    p.run = (.error (.fault ⟨.token .number p.peek.1.kind, p.peek.1.span⟩), p.peek.2) := by
  have htake : take? p.source .count p.peek.1 = none := by rw [take?, if_neg h]
  rw [Parser.run, runFrom_eq, htake]
  rfl

/-- A run that succeeds has an `eof` ahead. -/
theorem kind_of_ok (p : Parser) (ph : Phase) (a : Program) (h : (p.runFrom ph).1 = .ok a) :
    (p.runFrom ph).2.peek.1.kind = .eof := by
  fun_induction runFrom p ph with
  | case1 p ph htake =>
      rw [peek_peek]
      -- The run has stopped at a refused token, and only an `eof` is refused with success.
      rcases refuse_cases ph p.peek.1 with ⟨b, -, heof⟩ | ⟨c, -, hfault⟩
      · exact heof
      · rw [hfault] at h
        simp only [reduceCtorEq] at h
  | case2 p ph stop htake => simp only [reduceCtorEq] at h
  | case3 p ph later htake ih => exact ih h

theorem settled_of_ok (p : Parser) (a : Program) (h : p.run.1 = .ok a) : p.run.2.Settled := by
  rw [Settled, Parser.run, kind_of_ok p .count a h]
  decide

/-- A run that uses up nothing has found no number. -/
theorem settled_of_unread (p : Parser) (h : p.run.2.unread = p.unread) : p.Settled := by
  intro hnumber
  have hless := unread_run p hnumber
  omega

/-! ## Many runs -/

theorem Settled.peek_run {p : Parser} (h : p.Settled) : p.run.2.peek = p.peek := by
  rw [h.run]
  exact peek_peek p

/-- A settled parser has the same token ahead after any number of runs. -/
theorem Settled.peek_after (n : Nat) : ∀ {p : Parser}, p.Settled → (p.after n).peek = p.peek := by
  induction n with
  | zero => intro p _; rfl
  | succ n ih =>
      intro p h
      have hrun : p.run.2.Settled := by
        rw [Settled, h.peek_run]
        exact h
      rw [after, ih hrun, h.peek_run]

theorem Settled.after {p : Parser} (h : p.Settled) (n : Nat) : (p.after n).Settled := by
  rw [Settled, Settled.peek_after n h]
  exact h

/-- All runs of a settled parser end alike, at the token ahead. -/
theorem Settled.outcome {p : Parser} (h : p.Settled) (n : Nat) :
    p.outcome n = .error (.fault ⟨.token .number p.peek.1.kind, p.peek.1.span⟩) := by
  rw [Parser.outcome, (h.after n).run, Settled.peek_after n h]

/-- A parser settles within as many runs as it has tokens, by induction on these. A run
    that does not find it settled leaves it with fewer. -/
theorem settled_after (n : Nat) : ∀ p : Parser, p.unread ≤ n → (p.after n).Settled := by
  induction n with
  | zero =>
      intro p hn hnumber
      have hless : p.run.2.unread < p.unread := unread_run p hnumber
      omega
  | succ n ih =>
      intro p hn
      -- A number ahead is used up by the next run, and anything else settles.
      by_cases hnumber : p.peek.1.kind = .number
      · have hless := unread_run p hnumber
        exact ih p.run.2 (by omega)
      · have hsettled : p.Settled := hnumber
        exact hsettled.after (n + 1)

theorem after_add (m n : Nat) : ∀ p : Parser, p.after (m + n) = (p.after m).after n := by
  induction m with
  | zero => intro p; rw [Nat.zero_add]; rfl
  | succ m ih =>
      intro p
      rw [Nat.succ_add]
      exact ih p.run.2

/-- The outcomes behind a moment at which a parser is settled. -/
theorem outcome_of_settled (p : Parser) (i j : Nat) (hij : i ≤ j) (h : (p.after i).Settled) :
    (p.after j).peek.1 = (p.after i).peek.1 ∧ p.outcome j =
      .error (.fault ⟨.token .number (p.after i).peek.1.kind, (p.after i).peek.1.span⟩) := by
  have hj : p.after j = (p.after i).after (j - i) := by
    rw [← after_add]
    congr 1
    omega
  refine ⟨by rw [hj, Settled.peek_after (j - i) h], ?_⟩
  rw [outcome, hj]
  exact h.outcome (j - i)

/-- The token ahead of a parser is one of its stream, or the `eof` that is implied. -/
theorem peek_mem (src : Text) (ts : List Token) (i : Nat) :
    ((ofTokens src ts).after i).peek.1 ∈ ts ∨
      ((ofTokens src ts).after i).peek.1 = .endAt src.length := by
  rcases leftAfter_consumes src ts i with ⟨consumed, hts, -⟩
  rcases after_leftWith src ts i with ⟨hsrc, hpend⟩
  -- What is ahead is the first token of those that are left, or the `eof` that is implied.
  cases hleft : leftAfter src ts i with
  | nil =>
      right
      rw [hleft] at hpend
      rcases hpend with hpend | ⟨-, hpend⟩
      · rw [peek_of_exhausted _ hpend, hsrc]
      · rw [peek_of_pending _ _ _ hpend]
  | cons t us =>
      left
      rw [hleft] at hpend hts
      rcases hpend with hpend | ⟨hnil, -⟩
      · rw [peek_of_pending _ t us hpend, hts]
        exact List.mem_append_right consumed List.mem_cons_self
      · exact absurd hnil (List.cons_ne_nil t us)

/-- Repeated runs of one parser settle. At most one of them succeeds. Behind a run that
    succeeds or that consumes nothing, all runs end with the complaint that one and the
    same token is no number. A stream of `n` tokens settles its parser within `n` runs. -/
theorem runs_settle (src : Text) (ts : List Token) :
    (∀ m, (ofTokens src ts).runs m = (List.range m).map (ofTokens src ts).outcome) ∧
    (∀ i j a b, (ofTokens src ts).outcome i = .ok a → (ofTokens src ts).outcome j = .ok b →
      i = j) ∧
    (∀ i, ((∃ a, (ofTokens src ts).outcome i = .ok a) ∨
        ((ofTokens src ts).after (i + 1)).unread = ((ofTokens src ts).after i).unread) →
      ∃ t, (t ∈ ts ∨ t = .endAt src.length) ∧ t.kind ≠ .number ∧ ∀ j, i < j →
        ((ofTokens src ts).after j).peek.1 = t ∧
        (ofTokens src ts).outcome j = .error (.fault ⟨.token .number t.kind, t.span⟩)) ∧
    ∀ i, ts.length ≤ i → (ofTokens src ts).outcome i = (ofTokens src ts).outcome ts.length := by
  generalize hp : ofTokens src ts = p
  -- A success settles the parser, so behind it there is none.
  have hok : ∀ i a, p.outcome i = .ok a → (p.after (i + 1)).Settled := by
    intro i a h
    rw [after_succ]
    exact settled_of_ok (p.after i) a h
  have honce : ∀ i j a b, p.outcome i = .ok a → p.outcome j = .ok b → ¬ i < j := by
    intro i j a b hi hj hij
    rw [(outcome_of_settled p (i + 1) j hij (hok i a hi)).2] at hj
    simp only [reduceCtorEq] at hj
  refine ⟨fun m => runs_eq_map_outcome m p, fun i j a b hi hj => ?_, fun i h => ?_, fun i h => ?_⟩
  · have hij := honce i j a b hi hj
    have hji := honce j i b a hj hi
    omega
  · have hsettled : (p.after (i + 1)).Settled := by
      rcases h with ⟨a, ha⟩ | hunread
      · exact hok i a ha
      · rw [after_succ] at hunread ⊢
        exact (settled_of_unread _ hunread).after 1
    refine ⟨(p.after (i + 1)).peek.1, ?_, hsettled, fun j hij => ?_⟩
    · rw [← hp]
      exact peek_mem src ts (i + 1)
    · exact outcome_of_settled p (i + 1) j hij hsettled
  · have hfew : p.unread ≤ ts.length := by
      rw [← hp]
      exact List.countP_le_length
    have hsettled := settled_after ts.length p hfew
    rw [(outcome_of_settled p _ i h hsettled).2,
      (outcome_of_settled p _ _ (Nat.le_refl _) hsettled).2]

end Parser

end BitLogic
