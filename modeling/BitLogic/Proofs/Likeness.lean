import BitLogic.IR.Printer
import BitLogic.Proofs.Simulate
import Mathlib.Data.List.Forall2

/-!
# Programs That Differ in Their Spans

Two programs with the same names in the same places of the tree, but with spans of
their own. Spans go into the faults that are reported and should go nowhere else: the
programs have the same value and the same text, or fail for the same cause.

Which span of the one belongs to which span of the other is left open. The relation `R`
says it, and everything here holds for any `R`. Only a check puts a condition on it.
A check compares spans, because it drops a fault that repeats an earlier one, so `R`
must not identify on the one side what it tells apart on the other (`report_like`).

Outcomes are compared by `Alike`, which is for values that correspond or for faults that
do. It has no case for a breach: outcomes that are alike have no breach in them.

## Main definitions

* `Fault.Like`: The same cause at corresponding places.
* `Alike`: Corresponding values or corresponding faults.
* `Expr.Like`: The same tree with corresponding spans.

## Theorems

* `Alike.bind`, `Alike.map`, `Alike.mono`: Computations that are alike at each step are
  alike.
* `Alike.and_left`: What is known of one side may be added.
* `Expr.Like.induction`: Induction over two trees at once.
* `Expr.Like.imp`: Places may be compared more loosely.
* `Builtin.resolve_like`: A call means the same function or has the same fault.
* `Expr.evalAll_like`, `Expr.eval_like`, `Program.eval_like`: The value.
* `Expr.nodes_like`: The nodes correspond.
* `Symbols.problem?_like`, `Symbols.any_like`, `Symbols.report_like`: What is found at a
  node, and whether it is reported.
* `Symbols.visit_like`, `Program.check_like`: The list of faults.
* `IR.outcome_bind`: What comes of two lowerings one after the other.
* `IR.likeLowering_pure`, `IR.likeLowering_bind`, `IR.likeLowering_chain`,
  `IR.likeLowering_emit`: Lowerings that are alike step by step.
* `IR.lowerAll_like`, `IR.length_of_lowerAll`, `IR.lower_like`: Lowering corresponding
  trees.
* `Program.compile_like`: The text.
-/

namespace BitLogic

section

variable (R : Span → Span → Prop)

/-- The same cause, and hence the same category and wording, at corresponding places. -/
def Fault.Like (f g : Fault) : Prop := f.cause = g.cause ∧ R f.span g.span

/-- Two values that correspond, or two faults that do. -/
inductive Alike {α : Type} (same : α → α → Prop) : Except Stop α → Except Stop α → Prop
  | ok (a b : α) (h : same a b) : Alike same (.ok a) (.ok b)
  | fault (f g : Fault) (h : f.Like R g) : Alike same (.error (.fault f)) (.error (.fault g))

/-- The same name at corresponding places. -/
def Ident.Like (i j : Ident) : Prop := i.name = j.name ∧ R i.span j.span

/-- The same tree of variables and calls with the same names and corresponding spans. -/
inductive Expr.Like : Expr → Expr → Prop
  | var (i j : Ident) (s s' : Span) (hi : i.Like R j) (hs : R s s') :
      Like (.var i s) (.var j s')
  | call (i j : Ident) (args args' : List Expr) (s s' : Span) (hi : i.Like R j) (hs : R s s')
      (hargs : List.Forall₂ Like args args') : Like (.call i args s) (.call j args' s')

/-- The same bits, and corresponding trees. -/
def Program.Like (p q : Program) : Prop := p.args = q.args ∧ p.expr.Like R q.expr

end

variable {R : Span → Span → Prop}

namespace Alike

/-- Computations that are alike at each step are alike. A fault ends both at that step. -/
theorem bind {α β : Type} {same : α → α → Prop} {same' : β → β → Prop} {x y : Except Stop α}
    {f g : α → Except Stop β} (h : Alike R same x y)
    (hfg : ∀ a b, same a b → Alike R same' (f a) (g b)) :
    Alike R same' (x >>= f) (y >>= g) := by
  cases h with
  | ok a b hab => exact hfg a b hab
  | fault f g hlike => exact .fault f g hlike

theorem map {α β : Type} {x y : Except Stop α} (f : α → β) (h : Alike R Eq x y) :
    Alike R Eq (x.map f) (y.map f) := by
  cases h with
  | ok a b hab => exact .ok _ _ (congrArg f hab)
  | fault f g hlike => exact .fault f g hlike

/-- Places may be compared more loosely, and so may values. -/
theorem mono {R' : Span → Span → Prop} {α : Type} {same same' : α → α → Prop}
    {x y : Except Stop α} (h : Alike R same x y) (hR : ∀ s s', R s s' → R' s s')
    (hsame : ∀ a b, same a b → same' a b) : Alike R' same' x y := by
  cases h with
  | ok a b hab => exact .ok a b (hsame a b hab)
  | fault f g hlike => exact .fault f g ⟨hlike.1, hR _ _ hlike.2⟩

/-- What is known of the value of one side holds of the value on both, where the two are
    equal. -/
theorem and_left {α : Type} {same : α → α → Prop} {x y : Except Stop α} {P : α → Prop}
    (h : Alike R same x y) (hP : ∀ a, x = .ok a → P a) :
    Alike R (fun a b => same a b ∧ P a) x y := by
  cases h with
  | ok a b hab => exact .ok a b ⟨hab, hP a rfl⟩
  | fault f g hlike => exact .fault f g hlike

end Alike

/-- Induction over two trees at once, with the hypothesis for every pair of arguments. -/
@[elab_as_elim]
theorem Expr.Like.induction {P : ∀ e e' : Expr, e.Like R e' → Prop}
    (var : ∀ i j s s' hi hs, P (.var i s) (.var j s') (.var i j s s' hi hs))
    (call : ∀ i j args args' s s' hi hs hargs,
      List.Forall₂ (fun a b => ∀ hab, P a b hab) args args' →
      P (.call i args s) (.call j args' s') (.call i j args args' s s' hi hs hargs))
    (e e' : Expr) (h : e.Like R e') : P e e' h := by
  -- Induction is on the first tree; the second has the same shape, so each of its cases is the one
  -- that is known.
  induction e using Expr.induction_args generalizing e' with
  | var i s =>
      cases h with
      | var _ j _ s' hi hs => exact var i j s s' hi hs
  | call i args s ih =>
      cases h with
      | call _ j _ args' _ s' hi hs hargs =>
          refine call i j args args' s s' hi hs hargs ?_
          exact ((List.forall₂_and_left args args').mpr ⟨ih, hargs⟩).imp fun a b h => h.1 b
  | blank s => cases h

/-- Trees that correspond do so where places are compared more loosely. -/
theorem Expr.Like.imp {R' : Span → Span → Prop} {e e' : Expr} (h : e.Like R e')
    (hR : ∀ s s', R s s' → R' s s') : e.Like R' e' := by
  induction e, e', h using Expr.Like.induction with
  | var i j s s' hi hs => exact .var i j s s' ⟨hi.1, hR _ _ hi.2⟩ (hR _ _ hs)
  | call i j args args' s s' hi hs hargs ih =>
      exact .call i j args args' s s' ⟨hi.1, hR _ _ hi.2⟩ (hR _ _ hs)
        (List.Forall₂.mp (fun _ _ h => h) ih hargs)

/-- Calls of the same name with as many arguments mean the same function or have the
    same fault. -/
theorem Builtin.resolve_like {i j : Ident} {s s' : Span} (n : Nat) (hi : i.Like R j)
    (hs : R s s') :
    (∃ f, resolve i n s = .ok f ∧ resolve j n s' = .ok f) ∨
      ∃ f g, Fault.Like R f g ∧ resolve i n s = .error f ∧ resolve j n s' = .error g := by
  -- Only the span of the call goes into the fault, and the cause does not know it.
  have hfault : ∀ c, Fault.Like R ⟨c, s⟩ ⟨c, s'⟩ := fun _ => ⟨rfl, hs⟩
  unfold resolve
  rw [hi.1]
  cases ofName? j.name with
  | none => exact Or.inr ⟨_, _, hfault _, rfl, rfl⟩
  | some f =>
      cases harity : f.arity? with
      | none => exact Or.inl ⟨f, by simp only [harity], by simp only [harity]⟩
      | some m =>
          simp only [harity]
          by_cases hm : m = n
          · rw [if_pos hm, if_pos hm]
            exact Or.inl ⟨f, rfl, rfl⟩
          · rw [if_neg hm, if_neg hm]
            exact Or.inr ⟨_, _, hfault _, rfl, rfl⟩

/-! ## Values -/

/-- Arguments that are alike one by one are alike as a list. -/
theorem Expr.evalAll_like (env : Env) (es es' : List Expr)
    (h : List.Forall₂ (fun e e' => Alike R Eq (e.eval env) (e'.eval env)) es es') :
    Alike R Eq (evalAll env es) (evalAll env es') := by
  induction h with
  | nil => exact .ok _ _ rfl
  | @cons e e' es es' he _ ih =>
      rw [evalAll_cons, evalAll_cons]
      -- The head decides on both sides: a fault ends the list, and a value goes before the rest.
      generalize e.eval env = x, e'.eval env = y at he
      cases he with
      | ok b b' hb =>
          subst hb
          exact ih.map (b :: ·)
      | fault f g hlike => exact .fault f g hlike

/-- Corresponding trees have the same value, or faults that correspond. -/
theorem Expr.eval_like (env : Env) (e e' : Expr) (h : e.Like R e') :
    Alike R Eq (e.eval env) (e'.eval env) := by
  induction e, e', h using Expr.Like.induction with
  | var i j s s' hi hs =>
      rw [eval_var, eval_var, hi.1]
      cases env.get? j.name with
      | none => exact .fault _ _ ⟨rfl, hi.2⟩
      | some b => exact .ok b b rfl
  | call i j args args' s s' hi hs hargs ih =>
      have hall := evalAll_like env args args' (List.Forall₂.mp (fun _ _ h => h) ih hargs)
      rcases Builtin.resolve_like args.length hi hs with ⟨f, hf, hf'⟩ | ⟨f, g, hlike, hf, hg⟩
      · -- The function is given as many values as it takes, so it does not break off.
        rw [eval_call, eval_call, ← hargs.length_eq, hf, hf']
        refine (hall.and_left (length_of_evalAll env args)).bind ?_
        rintro bs _ ⟨rfl, hlen⟩
        have harity := (Builtin.arity_of_resolve i args.length s f hf).2
        rw [← hlen] at harity
        rcases f.exists_apply bs harity with ⟨b, hb⟩
        rw [hb]
        exact .ok b b rfl
      · rw [eval_call, eval_call, ← hargs.length_eq, hf, hg]
        exact .fault f g hlike

/-- Corresponding programs have the same value, or faults that correspond. -/
theorem Program.eval_like (p q : Program) (h : p.Like R q) (hargs : p.args.length ≤ maxArgs) :
    Alike R Eq p.eval q.eval := by
  have henv := Env.ofArgs_eq p.args hargs
  have henv' : Env.ofArgs q.args = .ok ((varNames p.args.length).zip p.args) := by
    rw [← h.1, henv]
  rw [p.eval_of_ofArgs _ henv, q.eval_of_ofArgs _ henv']
  exact Expr.eval_like _ _ _ h.2

/-! ## Lists of faults -/

/-- The nodes of corresponding trees correspond, in order. -/
theorem Expr.nodes_like (e e' : Expr) (h : e.Like R e') :
    List.Forall₂ (Expr.Like R) e.nodes e'.nodes := by
  induction e, e', h using Expr.Like.induction with
  | var i j s s' hi hs => exact .cons (.var i j s s' hi hs) .nil
  | call i j args args' s s' hi hs hargs ih =>
      rw [nodes_call, nodes_call]
      exact .cons (.call i j args args' s s' hi hs hargs)
        (List.rel_flatMap (List.Forall₂.mp (fun _ _ h => h) ih hargs) fun _ _ h => h)

namespace Symbols

/-- The same names are bound, and the faults found so far correspond. -/
def Like (R : Span → Span → Prop) (s s' : Symbols) : Prop :=
  s.bindings = s'.bindings ∧ List.Forall₂ (Fault.Like R) s.problems s'.problems

/-- Corresponding nodes have corresponding problems, or none. -/
theorem problem?_like (s s' : Symbols) (e e' : Expr) (hs : s.Like R s') (h : e.Like R e') :
    Option.Rel (Fault.Like R) (s.problem? e) (s'.problem? e') := by
  cases h with
  | var i j t t' hi ht =>
      rw [problem?, problem?, hi.1, hs.1]
      by_cases hbound : (s'.bindings.get? j.name).isSome = true
      · rw [if_pos hbound, if_pos hbound]
        exact .none
      · rw [if_neg hbound, if_neg hbound]
        exact .some ⟨rfl, hi.2⟩
  | call i j args args' t t' hi ht hargs =>
      rw [problem?, problem?, ← hargs.length_eq]
      rcases Builtin.resolve_like args.length hi ht with ⟨f, hf, hf'⟩ | ⟨f, g, hlike, hf, hg⟩
      · rw [hf, hf']
        exact .none
      · rw [hf, hg]
        exact .some hlike

/-- A fault repeats an earlier one on both sides or on neither. -/
theorem any_like (hR : ∀ s s' t t', R s s' → R t t' → (s = t ↔ s' = t')) (f f' : Fault)
    (hf : f.Like R f') (gs gs' : List Fault) (hgs : List.Forall₂ (Fault.Like R) gs gs') :
    gs.any (fun g => g.span == f.span && g.message == f.message) =
      gs'.any fun g => g.span == f'.span && g.message == f'.message := by
  induction hgs with
  | nil => rfl
  | @cons g g' gs gs' hg _ ih =>
      -- Spans are equal on one side exactly where they are on the other, which is what is asked of
      -- `R`.
      have hspan : (g.span == f.span) = (g'.span == f'.span) := by
        rw [Bool.eq_iff_iff, beq_iff_eq, beq_iff_eq]
        exact hR _ _ _ _ hg.2 hf.2
      rw [List.any_cons, List.any_cons, ih, hspan, Fault.message, Fault.message, Fault.message,
        Fault.message, hg.1, hf.1]

/-- Corresponding faults are reported on both sides or on neither. This is where spans are
    compared with each other. -/
theorem report_like (hR : ∀ s s' t t', R s s' → R t t' → (s = t ↔ s' = t')) (s s' : Symbols)
    (f f' : Fault) (hs : s.Like R s') (hf : f.Like R f') : (s.report f).Like R (s'.report f') := by
  unfold report
  rw [any_like hR f f' hf _ _ hs.2]
  split
  · exact hs
  · exact ⟨hs.1, List.rel_append hs.2 (.cons hf .nil)⟩

theorem visit_like (hR : ∀ s s' t t', R s s' → R t t' → (s = t ↔ s' = t')) (s s' : Symbols)
    (v v' : Visit) (hs : s.Like R s') (hv : v.node.Like R v'.node) :
    (s.visit v).Like R (s'.visit v') := by
  have hproblem := problem?_like s s' _ _ hs hv
  unfold visit
  generalize s.problem? v.node = x, s'.problem? v'.node = y at hproblem
  cases hproblem with
  | none => exact hs
  | some hf => exact report_like hR s s' _ _ hs hf

end Symbols

/-- Corresponding programs are checked with corresponding faults, in order. -/
theorem Program.check_like (hR : ∀ s s' t t', R s s' → R t t' → (s = t ↔ s' = t'))
    (p q : Program) (h : p.Like R q) (hargs : p.args.length ≤ maxArgs) :
    ∃ fs gs, p.check = .ok fs ∧ q.check = .ok gs ∧ List.Forall₂ (Fault.Like R) fs gs := by
  have henv := Env.ofArgs_eq p.args hargs
  refine ⟨_, _, by rw [check, Symbols.ofArgs, henv]; rfl,
    by rw [check, Symbols.ofArgs, ← h.1, henv]; rfl, ?_⟩
  -- The walks meet corresponding nodes, one after the other.
  have hvisits : List.Forall₂ (fun v v' : Visit => v.node.Like R v'.node)
      p.expr.visits q.expr.visits := by
    have hnodes := Expr.nodes_like _ _ h.2
    rw [Expr.nodes, Expr.nodes, List.forall₂_map_left_iff, List.forall₂_map_right_iff] at hnodes
    exact hnodes
  have hstart : Symbols.Like R ⟨(varNames p.args.length).zip p.args, []⟩
      ⟨(varNames p.args.length).zip p.args, []⟩ := ⟨rfl, .nil⟩
  exact (List.rel_foldl (fun s s' hs v v' hv => Symbols.visit_like hR s s' v v' hs hv)
    hstart hvisits).2

/-! ## Texts of modules -/

namespace IR

/-- What comes of two lowerings one after the other, without the block that a fault leaves.
    -/
theorem outcome_bind {α β : Type} (x : Lowering α) (f : α → Lowering β) (body : Array Instr) :
    outcome ((x >>= f) body) = outcome (x body) >>= fun r => outcome (f r.1 r.2) := by
  rw [show (x >>= f) body = EStateM.bind x f body from rfl, EStateM.bind]
  cases x body <;> rfl

/-- Lowerings return the same and build the same block, or stop at corresponding
    faults. -/
def LikeLowering (R : Span → Span → Prop) {α : Type} (x y : Lowering α) : Prop :=
  ∀ body, Alike R Eq (outcome (x body)) (outcome (y body))

theorem likeLowering_pure {α : Type} (a : α) : LikeLowering R (pure a) (pure a) :=
  fun _ => .ok _ _ rfl

/-- Lowerings may be put together, and what the second one is given may be relied on to be
    something that the first one returns. -/
theorem likeLowering_bind {α β : Type} {x y : Lowering α} {f g : α → Lowering β}
    (h : LikeLowering R x y)
    (hfg : ∀ a, (∃ body body', x.run body = .ok a body') → LikeLowering R (f a) (g a)) :
    LikeLowering R (x >>= f) (y >>= g) := by
  intro body
  rw [outcome_bind, outcome_bind]
  refine ((h body).and_left (P := fun r => x.run body = .ok r.1 r.2) ?_).bind ?_
  · intro r hr
    cases hrun : x.run body with
    | error stop body' =>
        rw [show x body = .error stop body' from hrun, outcome] at hr
        simp only [reduceCtorEq] at hr
    | ok a body' =>
        rw [show x body = .ok a body' from hrun, outcome, Except.ok.injEq] at hr
        rw [← hr]
  · rintro ⟨a, body'⟩ _ ⟨rfl, hrun⟩
    exact hfg a ⟨body, body', hrun⟩ body'

/-- The instructions of a function do not stop at faults. -/
theorem likeLowering_chain (op : Op) (unit : Bool) (xs : List Operand) :
    LikeLowering R (chain op unit xs) (chain op unit xs) := by
  cases xs with
  | nil => exact likeLowering_pure _
  | cons x xs =>
      rw [chain]
      -- Along the operands, from any that the chain has come to.
      induction xs generalizing x with
      | nil => exact likeLowering_pure _
      | cons y xs ih =>
          rw [List.foldlM_cons]
          exact likeLowering_bind (fun _ => .ok _ _ rfl) fun z _ => ih z

/-- The instructions of a function are the same on both sides, and there is no stop among
    them if it has the arguments that it takes. -/
theorem likeLowering_emit (f : Builtin) (xs : List Operand)
    (h : ∀ m, f.arity? = some m → m = xs.length) : LikeLowering R (emit f xs) (emit f xs) := by
  cases f with
  | not =>
      rcases List.length_eq_one_iff.mp (h 1 rfl).symm with ⟨x, rfl⟩
      exact fun _ => .ok _ _ rfl
  | and => exact likeLowering_chain _ _ xs
  | or => exact likeLowering_chain _ _ xs

theorem lowerAll_like (vs : Values) (es es' : List Expr)
    (h : List.Forall₂ (fun e e' => LikeLowering R (lower vs e) (lower vs e')) es es') :
    LikeLowering R (lowerAll vs es) (lowerAll vs es') := by
  induction h with
  | nil => exact likeLowering_pure _
  | cons he _ ih =>
      rw [lowerAll, lowerAll]
      exact likeLowering_bind he fun _ _ => likeLowering_bind ih fun _ _ => likeLowering_pure _

/-- Arguments are lowered to one operand each. -/
theorem length_of_lowerAll (vs : Values) (es : List Expr) : ∀ (body body' : Array Instr)
    (xs : List Operand), (lowerAll vs es).run body = .ok xs body' → xs.length = es.length := by
  induction es with
  | nil =>
      intro body body' xs h
      rw [lowerAll, EStateM.run_pure, EStateM.Result.ok.injEq] at h
      rw [← h.1]
      rfl
  | cons e es ih =>
      intro body body' xs h
      rw [lowerAll, EStateM.run_bind] at h
      cases hhead : (lower vs e).run body with
      | error stop body₁ =>
          rw [hhead] at h
          simp only [reduceCtorEq] at h
      | ok x body₁ =>
          rw [hhead] at h
          simp only [EStateM.run_bind] at h
          cases htail : (lowerAll vs es).run body₁ with
          | error stop body₂ =>
              rw [htail] at h
              simp only [reduceCtorEq] at h
          | ok ys body₂ =>
              rw [htail] at h
              simp only [EStateM.run_pure, EStateM.Result.ok.injEq] at h
              rw [← h.1, List.length_cons, List.length_cons, ih body₁ body₂ ys htail]

/-- Corresponding trees are lowered to the same operand and the same block, or stop at
    corresponding faults. -/
theorem lower_like (vs : Values) (e e' : Expr) (h : e.Like R e') :
    LikeLowering R (lower vs e) (lower vs e') := by
  induction e, e', h using Expr.Like.induction with
  | var i j s s' hi hs =>
      rw [lower, lower, hi.1]
      cases vs.get? j.name with
      | none => exact fun _ => .fault _ _ ⟨rfl, hi.2⟩
      | some x => exact likeLowering_pure x
  | call i j args args' s s' hi hs hargs ih =>
      have hall := lowerAll_like vs args args' (List.Forall₂.mp (fun _ _ h => h) ih hargs)
      rw [lower, lower, ← hargs.length_eq]
      rcases Builtin.resolve_like args.length hi hs with ⟨f, hf, hf'⟩ | ⟨f, g, hlike, hf, hg⟩
      · rw [hf, hf']
        refine likeLowering_bind hall ?_
        rintro xs ⟨body, body', hrun⟩
        -- There is one operand per argument, and the function takes as many.
        refine likeLowering_emit f xs ?_
        rw [length_of_lowerAll vs args body body' xs hrun]
        exact (Builtin.arity_of_resolve i args.length s f hf).2
      · rw [hf, hg]
        exact fun _ => .fault f g hlike

end IR

/-- Corresponding programs have the same text, or faults that correspond. -/
theorem Program.compile_like (p q : Program) (h : p.Like R q) :
    Alike R Eq p.compile q.compile := by
  rw [compile_eq, compile_eq, ← h.1]
  refine (IR.lower_like _ _ _ h.2 #[]).bind ?_
  rintro r _ rfl
  -- Both functions are finished, so they have a text.
  exact .ok _ _ rfl

end BitLogic
