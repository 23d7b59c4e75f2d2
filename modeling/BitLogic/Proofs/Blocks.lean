import BitLogic.Proofs.Simulate
import Mathlib.Algebra.GroupWithZero.Nat

/-!
# Blocks in Order

What the block of a lowered program looks like, apart from what it computes. Every
instruction works on constants, on parameters of its function and on results of instructions
before it, and how many instructions there are can be read off the expression.

An argument of a call may be lowered to many instructions or to none, and the operand that
it leaves may be a constant, a parameter or the result of an instruction far back. The
operands of the earlier arguments have to wait until the later ones are lowered. They can,
because an operand that is usable at one position is usable at every later one
(`Operand.Usable.mono`). `Appends` is the statement about a lowering action that this
makes compose: if it succeeds it has appended so many instructions, the block is in order
still, and the answer is usable behind it.

A call of `n` arguments appends instructions of its own only to combine them. A negation
takes one, and a conjunction or disjunction one less than there are arguments, which is
none for a single argument and none for no argument at all. The instructions of an
expression are those of all its nodes.

## Main definitions

* `IR.Operand.Usable`: An operand can be used at a position of a block.
* `IR.Sequenced`: Every instruction of a block uses what is there before it.
* `IR.Appends`: What an action appends if it succeeds.
* `IR.Costs`: What lowering an expression appends.
* `Builtin.cost`: The instructions that combine the arguments of a function.
* `Expr.ownCost`: The instructions of a node without those of its arguments.
* `Expr.cost`: The instructions of an expression.

## Theorems

* `Expr.ownCost_call`, `Expr.cost_call`: The cost of a call.
* `IR.Operand.Usable.mono`: What can be used once can be used ever after.
* `IR.sequenced_push`: A block in order, one instruction longer.
* `IR.appends_pure`, `IR.appends_throw`, `IR.appends_bind`, `IR.appends_push`: Actions
  step by step.
* `IR.appends_foldlM`, `IR.appends_chain`: A chain of operands.
* `IR.appends_emit`: The instructions of a function.
* `IR.lowerAll_appends`: The instructions of arguments.
* `IR.lower_appends`: The instructions of an expression.
* `Program.compile_eq_ok`: The block of a program that is compiled.
-/

namespace BitLogic

/-- The instructions that a function takes to combine a number of arguments. -/
def Builtin.cost : Builtin → Nat → Nat
  | .not, _ => 1
  | .and, n => n - 1
  | .or, n => n - 1

namespace Expr

/-- The instructions of a node itself: one for a negation, one less than there are
    arguments for a conjunction or disjunction, none for anything else. -/
def ownCost : Expr → Nat
  | .call id args _ =>
    if id.name = Text.ofString "not" then 1
    else if id.name = Text.ofString "and" ∨ id.name = Text.ofString "or" then args.length - 1
    else 0
  | _ => 0

/-- The instructions of an expression: those of all its nodes. -/
def cost (e : Expr) : Nat := (e.nodes.map ownCost).sum

theorem ownCost_call (id : Ident) (args : List Expr) (s : Span) (f : Builtin)
    (h : id.name = f.name) : ownCost (.call id args s) = f.cost args.length := by
  rw [ownCost, h]
  cases f with
  | not =>
      have hnot : Builtin.not.name = Text.ofString "not" := rfl
      rw [if_pos hnot, Builtin.cost]
  | and =>
      have hnot : Builtin.and.name ≠ Text.ofString "not" := by decide
      have hand : Builtin.and.name = Text.ofString "and" := rfl
      rw [if_neg hnot, if_pos (Or.inl hand), Builtin.cost]
  | or =>
      have hnot : Builtin.or.name ≠ Text.ofString "not" := by decide
      have hor : Builtin.or.name = Text.ofString "or" := rfl
      rw [if_neg hnot, if_pos (Or.inr hor), Builtin.cost]

/-- The cost of a call is its own and that of its arguments. -/
theorem cost_call (id : Ident) (args : List Expr) (s : Span) (f : Builtin)
    (h : id.name = f.name) :
    cost (.call id args s) = (args.map cost).sum + f.cost args.length := by
  have hargs : ((args.flatMap nodes).map ownCost).sum = (args.map cost).sum := by
    induction args with
    | nil => rfl
    | cons a args ih =>
        simp only [List.flatMap_cons, List.map_append, List.sum_append, ih, List.map_cons,
          List.sum_cons, cost]
  rw [cost, nodes_call, List.map_cons, List.sum_cons, ownCost_call id args s f h, hargs]
  exact Nat.add_comm _ _

end Expr

namespace IR

/-- The operand can be used at position `k` of a block: it is a constant, a parameter of
    the function, or the result of an instruction before that position. -/
def Operand.Usable (params : List Text) (k : Nat) : Operand → Prop
  | .const _ => True
  | .param name => name ∈ params
  | .result i => i < k

/-- What can be used at a position can be used at every later one. -/
theorem Operand.Usable.mono {params : List Text} {k m : Nat} {x : Operand}
    (h : x.Usable params k) (hle : k ≤ m) : x.Usable params m := by
  cases x with
  | const b => trivial
  | param name => exact h
  | result i => exact Nat.lt_of_lt_of_le h hle

/-- Every instruction of the block works on what can be used at its position. -/
def Sequenced (params : List Text) (body : Array Instr) : Prop :=
  ∀ (k : Nat) (i : Instr), body[k]? = some i → i.lhs.Usable params k ∧ i.rhs.Usable params k

theorem sequenced_push (params : List Text) (body : Array Instr) (i : Instr)
    (h : Sequenced params body) (hl : i.lhs.Usable params body.size)
    (hr : i.rhs.Usable params body.size) : Sequenced params (body.push i) := by
  intro k j hj
  rw [Array.getElem?_push] at hj
  -- The position is that of the new instruction, or one of those before it.
  by_cases hk : k = body.size
  · rw [if_pos hk, Option.some.injEq] at hj
    rw [← hj, hk]
    exact ⟨hl, hr⟩
  · rw [if_neg hk] at hj
    exact h k j hj

/-- What an action appends to a block if it succeeds: so many instructions, behind which
    the block is in order and `post` holds of the answer and the size of the block. -/
def Appends {α : Type} (params : List Text) (body : Array Instr) (m : Lowering α) (count : Nat)
    (post : α → Nat → Prop) : Prop :=
  ∀ x body', m.run body = .ok x body' →
    Sequenced params body' ∧ body'.size = body.size + count ∧ post x body'.size

section

variable {α β : Type} {params : List Text} {body : Array Instr} {count count' : Nat}
variable {post : α → Nat → Prop}

theorem appends_pure (x : α) (h : Sequenced params body) (hx : post x body.size) :
    Appends params body (pure x) 0 post := by
  intro y body' hrun
  rw [EStateM.run_pure, EStateM.Result.ok.injEq] at hrun
  rw [← hrun.1, ← hrun.2]
  exact ⟨h, rfl, hx⟩

/-- An action that stops appends whatever is asked for, since it never succeeds. -/
theorem appends_throw (stop : Stop) :
    Appends params body (throw stop : Lowering α) count post := by
  intro x body' hrun
  have hthrow : (throw stop : Lowering α).run body = .error stop body := rfl
  rw [hthrow] at hrun
  simp only [reduceCtorEq] at hrun

/-- Actions may be put together, and the second one starts where the first one ends. -/
theorem appends_bind (m : Lowering α) (k : α → Lowering β) {post' : β → Nat → Prop}
    (hm : Appends params body m count post)
    (hk : ∀ x body', Sequenced params body' → body'.size = body.size + count →
      post x body'.size → Appends params body' (k x) count' post') :
    Appends params body (m >>= k) (count + count') post' := by
  intro y body'' hrun
  rw [EStateM.run_bind] at hrun
  cases hfirst : m.run body with
  | error stop body' =>
      rw [hfirst] at hrun
      simp only [reduceCtorEq] at hrun
  | ok x body' =>
      rw [hfirst] at hrun
      rcases hm x body' hfirst with ⟨hseq, hsize, hpost⟩
      rcases hk x body' hseq hsize hpost y body'' hrun with ⟨hseq', hsize', hpost'⟩
      exact ⟨hseq', by omega, hpost'⟩

/-- An appended instruction is in order if its operands can be used where the block ends,
    and its result can be used behind it. -/
theorem appends_push (op : Op) (x y : Operand) (h : Sequenced params body)
    (hx : x.Usable params body.size) (hy : y.Usable params body.size) :
    Appends params body (push ⟨op, x, y⟩) 1 fun z n => z.Usable params n := by
  intro z body' hrun
  have hpush : (push ⟨op, x, y⟩).run body = .ok (.result body.size) (body.push ⟨op, x, y⟩) := rfl
  rw [hpush, EStateM.Result.ok.injEq] at hrun
  rw [← hrun.1, ← hrun.2]
  refine ⟨sequenced_push params body _ h hx hy, Array.size_push _, ?_⟩
  rw [Array.size_push]
  exact Nat.lt_succ_self body.size

/-- A chain from an operand on takes one instruction for each operand behind it. -/
theorem appends_foldlM (op : Op) (xs : List Operand) : ∀ (body : Array Instr) (acc : Operand),
    Sequenced params body → acc.Usable params body.size →
      (∀ x ∈ xs, x.Usable params body.size) →
      Appends params body (xs.foldlM (fun acc y => push ⟨op, acc, y⟩) acc) xs.length
        fun z n => z.Usable params n := by
  -- Along the operands, from any block and any operand in front, since each step appends one.
  induction xs with
  | nil => intro body acc h hacc _; exact appends_pure acc h hacc
  | cons x xs ih =>
      intro body acc h hacc hxs
      rw [List.forall_mem_cons] at hxs
      rw [List.foldlM_cons, List.length_cons, Nat.add_comm]
      refine appends_bind _ _ (appends_push op acc x h hacc hxs.1) ?_
      intro z body' hseq hsize hz
      -- The operands still to come could be used before, and can be used now.
      exact ih body' z hseq hz fun y hy => (hxs.2 y hy).mono (by omega)

theorem appends_chain (op : Op) (unit : Bool) (xs : List Operand) (h : Sequenced params body)
    (hxs : ∀ x ∈ xs, x.Usable params body.size) :
    Appends params body (chain op unit xs) (xs.length - 1) fun z n => z.Usable params n := by
  cases xs with
  | nil => exact appends_pure _ h trivial
  | cons x xs =>
      rw [List.forall_mem_cons] at hxs
      exact appends_foldlM op xs body x h hxs.1 hxs.2

/-- A function takes its instructions, unless it breaks off. -/
theorem appends_emit (f : Builtin) (xs : List Operand) (h : Sequenced params body)
    (hxs : ∀ x ∈ xs, x.Usable params body.size) :
    Appends params body (emit f xs) (f.cost xs.length) fun z n => z.Usable params n := by
  cases f with
  | not =>
      cases xs with
      -- A negation of nothing breaks off.
      | nil => exact appends_throw _
      | cons x xs => exact appends_push .xor x _ h (hxs x List.mem_cons_self) trivial
  | and => exact appends_chain .and true xs h hxs
  | or => exact appends_chain .or false xs h hxs

end

/-- Lowering an expression appends its instructions, wherever the block has got to. -/
def Costs (params : List Text) (vs : Values) (e : Expr) : Prop :=
  ∀ body : Array Instr, Sequenced params body →
    Appends params body (lower vs e) e.cost fun x n => x.Usable params n

/-- Lowering arguments appends the instructions of them all, and every operand is usable at
    the end. -/
theorem lowerAll_appends (params : List Text) (vs : Values) (es : List Expr) :
    ∀ body : Array Instr, (∀ e ∈ es, Costs params vs e) → Sequenced params body →
      Appends params body (lowerAll vs es) (es.map Expr.cost).sum
        fun xs n => xs.length = es.length ∧ ∀ x ∈ xs, x.Usable params n := by
  induction es with
  | nil =>
      intro body _ h
      exact appends_pure [] h ⟨rfl, List.forall_mem_nil _⟩
  | cons e es ih =>
      intro body hall h
      rw [lowerAll, List.map_cons, List.sum_cons]
      refine appends_bind _ _ (hall e List.mem_cons_self body h) ?_
      intro x body₁ hseq₁ _ hx
      have htail := ih body₁ (fun a ha => hall a (List.mem_cons_of_mem e ha)) hseq₁
      rw [← Nat.add_zero (es.map Expr.cost).sum]
      refine appends_bind _ _ htail ?_
      rintro xs body₂ hseq₂ hsize₂ ⟨hlen, hxs⟩
      -- The first operand has waited while the others were lowered.
      refine appends_pure _ hseq₂ ⟨by rw [List.length_cons, List.length_cons, hlen], ?_⟩
      exact List.forall_mem_cons.mpr ⟨hx.mono (by omega), hxs⟩

/-- Lowering appends the instructions of an expression, by induction on it. Nothing is
    asked of the names but that they stand for operands that can be used anywhere. -/
theorem lower_appends (params : List Text) (vs : Values)
    (hvs : ∀ name x, vs.get? name = some x → x.Usable params 0) (e : Expr) :
    Costs params vs e := by
  induction e using Expr.induction_args with
  | var id s =>
      intro body h
      rw [lower]
      cases hget : vs.get? id.name with
      -- A name that is not bound stops lowering, so there is nothing to count.
      | none => exact appends_throw _
      | some x => exact appends_pure x h ((hvs id.name x hget).mono (Nat.zero_le _))
  | blank s =>
      intro body _
      exact appends_throw _
  | call id args s ih =>
      intro body h
      rw [lower]
      rcases Builtin.resolve_cases id args.length s with
        ⟨f, hf, -, hres⟩ | ⟨-, hres⟩ | ⟨f, m, -, -, -, hres⟩
      · rw [hres, Expr.cost_call id args s f hf]
        refine appends_bind _ _ (lowerAll_appends params vs args body ih h) ?_
        rintro xs body' hseq - ⟨hlen, hxs⟩
        rw [← hlen]
        exact appends_emit f xs hseq hxs
      · rw [hres]
        exact appends_throw _
      · rw [hres]
        exact appends_throw _

end IR

/-- A program that is compiled has a block in order, with the instructions of its
    expression and a final operand that can be used behind them. -/
theorem Program.compile_eq_ok (p : Program) (text : Text) (h : p.compile = .ok text) :
    ∃ body ret, IR.moduleText [.eval (varNames p.args.length) body (some ret), .main p.args] =
        .ok text ∧
      IR.Sequenced (varNames p.args.length) body ∧ body.size = p.expr.cost ∧
      ret.Usable (varNames p.args.length) body.size := by
  rw [compile_eq] at h
  -- A fresh table binds the parameters and nothing else, and they can be used from the start.
  have hnames : ∀ name x,
      (IR.Builder.bind IR.Builder.empty.values (varNames p.args.length)).get? name = some x →
        x.Usable (varNames p.args.length) 0 := by
    intro name x hx
    rw [IR.get?_bind] at hx
    by_cases hmem : name ∈ varNames p.args.length
    · rw [if_pos hmem, Option.some.injEq] at hx
      rw [← hx]
      exact hmem
    · rw [if_neg hmem] at hx
      simp only [IR.Builder.empty, IR.Values.get?, List.lookup_nil, reduceCtorEq] at hx
  have hempty : IR.Sequenced (varNames p.args.length) #[] := by
    intro k i hi
    simp only [Array.getElem?_empty, reduceCtorEq] at hi
  cases hrun : (IR.lower (IR.Builder.bind IR.Builder.empty.values (varNames p.args.length))
      p.expr).run #[] with
  | error stop body =>
      rw [hrun] at h
      simp only [IR.outcome, bind, Except.bind, reduceCtorEq] at h
  | ok x body =>
      rcases IR.lower_appends _ _ hnames p.expr #[] hempty x body hrun with ⟨hseq, hsize, hx⟩
      rw [Array.size_empty, Nat.zero_add] at hsize
      -- The function is finished, so the module has a text.
      have htext : ∃ t, IR.moduleText
          [.eval (varNames p.args.length) body (some x), .main p.args] = .ok t := ⟨_, rfl⟩
      rcases htext with ⟨t, ht⟩
      rw [hrun] at h
      simp only [IR.outcome, bind, Except.bind, ht, Except.ok.injEq] at h
      exact ⟨body, x, h ▸ ht, hseq, hsize, hx⟩

end BitLogic
