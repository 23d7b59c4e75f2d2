import BitLogic.Proofs.Lexing

/-!
# Draining a Lexer

A lexer can be asked for one token or for all that are left, and the two can be mixed in any
order. Whatever the order, the tokens that come out are the tokens of the source, from the
first on and none of them twice.

A request moves the lexer to some place behind a token, past blanks that nobody sees. What
is left there is not to be read off the place. It is said by `run`: the tokens that a lexer
would still give, if it were asked for all of them. This is the invariant. A request takes
its answer from the front of these tokens and leaves the others (`toList_answer`), so the
answers to any requests and what is left behind them make up what there was
(`toList_answers`).

How much has been taken depends on the requests alone. A single `run` takes everything, and
without one every `next` takes one token as long as there is one (`toList_answers_eq`). A
lexer with nothing left has announced the end of its source and stays where it is, so all
further requests come back empty (`answers_of_spent`).

## Main definitions

* `Lexer.Request`, `Lexer.Answer`: What a lexer can be asked and what it answers.
* `Lexer.answer`: The answer to a request, and the lexer behind it.
* `Lexer.answers`, `Lexer.after`: The answers to several requests, and the lexer behind them.

## Theorems

* `Lexer.run_eq_nil_iff`: A lexer has nothing left when it has no next token.
* `Lexer.after_run_none`, `Lexer.after_run_eq`: The lexer behind all tokens, step by
  step.
* `Lexer.next?_run`, `Lexer.run_run`: Nothing is left behind all tokens.
* `Lexer.toList_answer`, `Lexer.toList_answers`: What requests take and what they leave.
* `Lexer.toList_answers_eq`: How much requests take.
* `Lexer.answers_of_spent`: Requests on a lexer with nothing left.
* `Lexer.answers_append`: Requests behind others.
* `Lexer.toList_nothing`: Empty answers have no tokens.
* `countP_eof_lex`: A source has one `eof`.
* `lexer_drains_once`: Any way of draining a lexer gives the tokens of its source.
* `lexer_drains_once_roomy`: A source with blanks around its tokens.
-/

namespace BitLogic

namespace Lexer

/-- A request for the next token, or for all that are left. -/
inductive Request where
  | next
  | run
  deriving Repr, DecidableEq

/-- The answer to a request for the next token is a token or that there is none. The answer to
    a request for all of them is a list. -/
inductive Answer where
  | next (token : Option Token)
  | run (tokens : List Token)
  deriving Repr, DecidableEq

/-- The tokens of an answer. -/
def Answer.toList : Answer → List Token
  | .next token => token.toList
  | .run tokens => tokens

/-- The answer to a request when there is nothing left. -/
def Request.nothing : Request → Answer
  | .next => .next none
  | .run => .run []

/-- The answer to a request, and the lexer behind it. -/
def answer (l : Lexer) : Request → Answer × Lexer
  | .next =>
    match l.next? with
    | some (t, l') => (.next (some t), l')
    | none => (.next none, l)
  | .run => (.run l.run.1, l.run.2)

/-- The answers to requests on one lexer, in the order of the requests. -/
def answers (l : Lexer) : List Request → List Answer
  | [] => []
  | r :: rs => (l.answer r).1 :: (l.answer r).2.answers rs

/-- The lexer behind requests. -/
def after (l : Lexer) : List Request → Lexer
  | [] => l
  | r :: rs => (l.answer r).2.after rs

/-! ## The end of a source -/

theorem run_eq_nil_iff (l : Lexer) : l.run.1 = [] ↔ l.next? = none := by
  constructor
  · intro hnil
    cases hnext : l.next? with
    | none => rfl
    | some read =>
        rw [run_eq l read.2 read.1 hnext] at hnil
        simp only [reduceCtorEq] at hnil
  · exact run_none l

theorem after_run_none (l : Lexer) (h : l.next? = none) : l.run.2 = l := by
  rw [run]
  split
  · rfl
  · next t l' hsome => rw [h] at hsome; simp only [reduceCtorEq] at hsome

/-- The lexer behind all tokens is that behind the others, once the first has been read. -/
theorem after_run_eq (l l' : Lexer) (t : Token) (h : l.next? = some (t, l')) :
    l.run.2 = l'.run.2 := by
  rw [run]
  split
  · next hnone => rw [h] at hnone; simp only [reduceCtorEq] at hnone
  · next u m hsome =>
    rw [h, Option.some.injEq, Prod.mk.injEq] at hsome
    rw [hsome.2]

/-- The lexer behind all tokens has no next one, by induction on what is left. -/
theorem next?_run (l : Lexer) : l.run.2.next? = none := by
  induction hn : l.left using Nat.strongRecOn generalizing l with
  | _ n ih =>
      cases hnext : l.next? with
      | none => rw [after_run_none l hnext, hnext]
      | some read =>
          rw [after_run_eq l read.2 read.1 hnext]
          exact ih read.2.left (hn ▸ left_next? hnext) read.2 rfl

/-- Nothing is left behind all tokens. -/
@[simp]
theorem run_run (l : Lexer) : l.run.2.run.1 = [] :=
  run_none _ (next?_run l)

/-! ## What requests take and leave -/

/-- A request takes its answer from the tokens that are left. -/
theorem toList_answer (l : Lexer) (r : Request) :
    (l.answer r).1.toList ++ (l.answer r).2.run.1 = l.run.1 := by
  cases r with
  | run => rw [answer, Answer.toList, run_run, List.append_nil]
  | next =>
      rw [answer]
      cases hnext : l.next? with
      | none => rfl
      | some read =>
          rw [run_eq l read.2 read.1 hnext]
          rfl

/-- The answers to requests and the tokens that are left behind them are the tokens that were
    left before. -/
theorem toList_answers (rs : List Request) : ∀ l : Lexer,
    (l.answers rs).flatMap Answer.toList ++ (l.after rs).run.1 = l.run.1 := by
  induction rs with
  | nil => intro l; rfl
  | cons r rs ih =>
      intro l
      rw [answers, after, List.flatMap_cons, List.append_assoc, ih, toList_answer]

/-- A request for all tokens takes all that are left. Without one, every request takes the next
    token, as long as there is one. -/
theorem toList_answers_eq (rs : List Request) : ∀ l : Lexer,
    (l.answers rs).flatMap Answer.toList =
      if .run ∈ rs then l.run.1 else l.run.1.take (rs.count .next) := by
  -- Along the requests, on any lexer, since each request is made on the one that the others have
  -- left.
  induction rs with
  | nil =>
      intro l
      rw [if_neg List.not_mem_nil, List.count_nil, List.take_zero]
      rfl
  | cons r rs ih =>
      intro l
      rw [answers, List.flatMap_cons, ih]
      cases r with
      | run =>
          -- The lexer behind the answer has nothing left to give.
          rw [if_pos List.mem_cons_self, answer, Answer.toList, run_run, List.take_nil, ite_self,
            List.append_nil]
      | next =>
          have hmem : .run ∈ Request.next :: rs ↔ .run ∈ rs := by
            rw [List.mem_cons]
            simp only [reduceCtorEq, false_or]
          rw [answer, List.count_cons_self]
          simp only [hmem]
          cases hnext : l.next? with
          -- There is no token to take, now or for any later request.
          | none =>
              simp only [run_none l hnext, List.take_nil, ite_self]
              rfl
          | some read =>
              rw [run_eq l read.2 read.1 hnext, List.take_succ_cons]
              by_cases hrun : Request.run ∈ rs
              · simp only [if_pos hrun]
                rfl
              · simp only [if_neg hrun]
                rfl

/-- Requests on a lexer with nothing left come back empty, and leave it what it is. -/
theorem answers_of_spent (rs : List Request) (l : Lexer) (h : l.run.1 = []) :
    l.answers rs = rs.map Request.nothing := by
  have hnone := (run_eq_nil_iff l).mp h
  -- No request moves the lexer, so the next one meets it as it was.
  have hanswer : ∀ r : Request, l.answer r = (r.nothing, l) := by
    intro r
    cases r with
    | next => rw [answer, hnone, Request.nothing]
    | run => rw [answer, h, after_run_none l hnone, Request.nothing]
  induction rs with
  | nil => rfl
  | cons r rs ih => rw [answers, hanswer, ih, List.map_cons]

/-- Requests behind others are made on the lexer that those have left. -/
theorem answers_append (rs ss : List Request) : ∀ l : Lexer,
    l.answers (rs ++ ss) = l.answers rs ++ (l.after rs).answers ss := by
  induction rs with
  | nil => intro l; rfl
  | cons r rs ih =>
      intro l
      rw [List.cons_append, answers, ih, answers, after, List.cons_append]

@[simp]
theorem toList_nothing (rs : List Request) :
    (rs.map Request.nothing).flatMap Answer.toList = [] := by
  rw [List.flatMap_eq_nil_iff, List.forall_mem_map]
  intro r _
  cases r <;> rfl

end Lexer

/-- The tokens of a source have one `eof` among them. -/
theorem countP_eof_lex (src : Text) : (lex src).countP (fun t => t.kind = .eof) = 1 := by
  rcases lex_ends src with ⟨ts, hts, hne⟩
  have hnone : ts.countP (fun t => decide (t.kind = .eof)) = 0 := by
    rw [List.countP_eq_zero]
    intro t ht
    rw [decide_eq_true_eq]
    exact hne t ht
  rw [hts, List.countP_append, hnone]
  rfl

/-- Any way of draining a lexer gives the tokens of its source. The answers to any requests
    are the first of these tokens, in order. They are all of them as soon as there was a
    request for all, or as many requests for one as there are tokens. From then on every
    request comes back empty, so the `eof` has been given once and is not given again. -/
theorem lexer_drains_once (src : Text) (requests : List Lexer.Request) :
    ((Lexer.ofSource src).answers requests).flatMap Lexer.Answer.toList <+: lex src ∧
    (.run ∈ requests ∨ (lex src).length ≤ requests.count .next →
      ((Lexer.ofSource src).answers requests).flatMap Lexer.Answer.toList = lex src ∧
      ∀ more : List Lexer.Request,
        (Lexer.ofSource src).answers (requests ++ more) =
          (Lexer.ofSource src).answers requests ++ more.map Lexer.Request.nothing ∧
        (((Lexer.ofSource src).answers (requests ++ more)).flatMap Lexer.Answer.toList).countP
          (fun t => t.kind = .eof) = 1) := by
  have htaken := Lexer.toList_answers requests (Lexer.ofSource src)
  refine ⟨⟨_, htaken⟩, fun henough => ?_⟩
  have hall : ((Lexer.ofSource src).answers requests).flatMap Lexer.Answer.toList = lex src := by
    rw [Lexer.toList_answers_eq]
    rcases henough with hrun | hcount
    · rw [if_pos hrun]
      rfl
    · rw [← lex, List.take_of_length_le hcount, ite_self]
  -- The answers are all there was, so nothing is left behind them.
  have hspent : ((Lexer.ofSource src).after requests).run.1 = [] := by
    rw [hall] at htaken
    exact List.append_right_eq_self.mp htaken
  refine ⟨hall, fun more => ?_⟩
  have hmore : (Lexer.ofSource src).answers (requests ++ more) =
      (Lexer.ofSource src).answers requests ++ more.map Lexer.Request.nothing := by
    rw [Lexer.answers_append, Lexer.answers_of_spent more _ hspent]
  refine ⟨hmore, ?_⟩
  rw [hmore, List.flatMap_append, hall, Lexer.toList_nothing, List.append_nil, countP_eof_lex]

/-- Two tokens with blanks around both of them. -/
def roomy : Text := Text.ofString " A  ("

/-- Three requests for one token drain it, the last of them past the end. -/
theorem lexer_drains_once_roomy :
    (lex roomy).length ≤ [Lexer.Request.next, .next, .next].count .next ∧
    ((Lexer.ofSource roomy).answers [.next, .next, .next]).flatMap Lexer.Answer.toList =
      lex roomy ∧
    (Lexer.ofSource roomy).answers [.next, .next, .next, .run, .next] =
      (Lexer.ofSource roomy).answers [.next, .next, .next] ++ [.run [], .next none] := by
  have hlen : (lex roomy).length ≤ [Lexer.Request.next, .next, .next].count .next := by
    decide +kernel
  have hdrained := (lexer_drains_once roomy [.next, .next, .next]).2 (Or.inr hlen)
  exact ⟨hlen, hdrained.1, (hdrained.2 [.run, .next]).1⟩

end BitLogic
