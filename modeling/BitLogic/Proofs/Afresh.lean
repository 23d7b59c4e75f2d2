import BitLogic.Proofs.Agreement
import BitLogic.Proofs.Meaning
import BitLogic.Proofs.Reuse

/-!
# A Used Builder Lowers Afresh

A builder is not reset between programs. The names of earlier programs stay bound, and a
program that lowering has stopped at leaves an unfinished function behind. None of this
matters to a program that has a value. It is lowered to the functions that a fresh builder
makes of it, behind the functions that are there, and those stay as they are.

Lowering consults the table of names only at variables, so two tables that agree on the
variables of an expression are the same to it (`lower_congr`). An expression that has a
value in an environment has only variables that the environment binds (`bound_of_eval`),
and these are the parameters of its own program. The parameters are bound before anything
is lowered, and the last binding of a name is the one that counts. That is why nothing has
to be known about the table: it may bind a name to the parameter of an earlier function, to
a result of one, or to anything else. The statements here are about builders with
arbitrary tables, and with that about every history.

Building appends to the functions of a builder, whether lowering stops or not
(`isPrefix_build`). Any number of programs therefore leave the functions before them alone
(`isPrefix_after`), those of a program that succeeded among them.

## Main definitions

* `IR.Agree`: Tables that are the same to an expression.

## Theorems

* `Expr.exists_eval_of_evalAll`: Each of several arguments with values has a value.
* `Expr.bound_of_eval`: The variables of an expression that has a value are bound.
* `Program.length_args_of_eval`: A program with a value has not too many bits.
* `IR.lowerAll_congr`, `IR.lower_congr`: Lowering looks up the variables and nothing
  else.
* `IR.lower_bind_of_eval`: The table of a builder has no say in how a program with a
  value is lowered.
* `IR.isPrefix_build`, `IR.isPrefix_after`: Functions stay as they are.
* `IR.after_append`: A history with a program in it.
* `IR.build_of_lower`: What a builder makes of a program that is lowered.
* `IR.build_after_appends_fresh`: What a used builder makes of a program with a value.
* `IR.build_after_appends_fresh_misled`: A builder whose table is wrong.
-/

namespace BitLogic

/-- Arguments that have values together have a value each. -/
theorem Expr.exists_eval_of_evalAll (env : Env) (es : List Expr) : ∀ bs : List Bool,
    evalAll env es = .ok bs → ∀ e ∈ es, ∃ b, e.eval env = .ok b := by
  induction es with
  | nil => intro bs _; exact List.forall_mem_nil _
  | cons e es ih =>
      intro bs h
      rw [evalAll_eq_ok_iff, List.forall₂_cons_left_iff] at h
      rcases h with ⟨c, cs, hc, hcs, -⟩
      have htail := ih cs ((evalAll_eq_ok_iff env es cs).mpr hcs)
      exact List.forall_mem_cons.mpr ⟨⟨c, hc⟩, htail⟩

/-- The variables of an expression that has a value are bound, by induction on the
    expression. -/
theorem Expr.bound_of_eval (env : Env) (e : Expr) : ∀ b : Bool, e.eval env = .ok b →
    ∀ id s, Expr.var id s ∈ e.nodes → (env.get? id.name).isSome = true := by
  induction e using Expr.induction_args with
  | var id s =>
      intro b h id' s' hmem
      simp only [nodes_var, List.mem_singleton, var.injEq] at hmem
      rw [hmem.1]
      rw [eval_var] at h
      -- A name that is not bound would have stopped evaluation.
      cases hget : env.get? id.name with
      | some c => rfl
      | none =>
          rw [hget] at h
          simp only [reduceCtorEq] at h
  | blank s =>
      intro b h
      simp only [eval_blank, reduceCtorEq] at h
  | call id args s ih =>
      intro b h id' s' hmem
      rcases (eval_call_eq_ok_iff env id args s b).mp h with ⟨f, bs, -, -, hall, -⟩
      rw [nodes_call, List.mem_cons] at hmem
      -- A variable below a call is below one of its arguments, which has a value too.
      rcases hmem with hself | hmem
      · simp only [reduceCtorEq] at hself
      rcases List.mem_flatMap.mp hmem with ⟨a, ha, hmem⟩
      rcases exists_eval_of_evalAll env args bs hall a ha with ⟨c, hc⟩
      exact ih a ha c hc id' s' hmem

/-- A program that has a value declares no more bits than there are letters. -/
theorem Program.length_args_of_eval (p : Program) (r : Bool) (h : p.eval = .ok r) :
    p.args.length ≤ maxArgs := by
  by_contra hmany
  rw [Program.eval, Program.verdict, Env.ofArgs, if_pos (by omega)] at h
  simp only [bind, Except.bind, Except.map, Stop.settle, reduceCtorEq] at h

namespace IR

/-- The tables agree on the variables of an expression. -/
def Agree (vs ws : Values) (e : Expr) : Prop :=
  ∀ id s, Expr.var id s ∈ e.nodes → vs.get? id.name = ws.get? id.name

theorem lowerAll_congr (vs ws : Values) (es : List Expr)
    (h : ∀ e ∈ es, lower vs e = lower ws e) : lowerAll vs es = lowerAll ws es := by
  induction es with
  | nil => rfl
  | cons e es ih =>
      have htail := ih fun a ha => h a (List.mem_cons_of_mem e ha)
      rw [lowerAll, lowerAll, h e List.mem_cons_self, htail]

/-- Lowering looks up the variables of an expression and nothing else. -/
theorem lower_congr (vs ws : Values) (e : Expr) : Agree vs ws e → lower vs e = lower ws e := by
  induction e using Expr.induction_args with
  | var id s =>
      intro h
      have hvar : vs.get? id.name = ws.get? id.name :=
        h id s (by simp)
      rw [lower, lower, hvar]
  | blank s => intro _; rfl
  | call id args s ih =>
      intro h
      -- The variables of an argument are variables of the call.
      have hargs : lowerAll vs args = lowerAll ws args := by
        refine lowerAll_congr vs ws args fun a ha => ih a ha fun id' s' hmem => h id' s' ?_
        simp only [Expr.nodes_call, List.mem_cons, List.mem_flatMap]
        exact Or.inr ⟨a, ha, hmem⟩
      rw [lower, lower, hargs]

/-- The table of a builder has no say in how a program with a value is lowered: the
    variables of the program are its own parameters, and these have just been bound. -/
theorem lower_bind_of_eval (vs ws : Values) (p : Program) (r : Bool) (h : p.eval = .ok r) :
    lower (Builder.bind vs (varNames p.args.length)) p.expr =
      lower (Builder.bind ws (varNames p.args.length)) p.expr := by
  have heval : p.expr.eval ((varNames p.args.length).zip p.args) = .ok r := by
    rw [← p.eval_eq (p.length_args_of_eval r h)]
    exact h
  refine lower_congr _ _ p.expr fun id s hmem => ?_
  -- A name that the bits are bound to is one of the parameters.
  have hbound := Expr.bound_of_eval _ p.expr r heval id s hmem
  rw [Env.isSome_get?_zip id.name _ p.args (length_varNames _), decide_eq_true_eq] at hbound
  rw [get?_bind, get?_bind, if_pos hbound, if_pos hbound]

/-! ## Functions that are there -/

/-- Building appends to the functions of a builder, whether lowering stops or not. -/
theorem isPrefix_build (b : Builder) (p : Program) : b.funcs <+: (b.build p).2.funcs := by
  rw [Builder.build]
  cases (lower (Builder.bind b.values (varNames p.args.length)) p.expr).run #[] with
  | ok x body => exact List.prefix_append _ _
  | error stop body => exact List.prefix_append _ _

/-- Any number of programs leave the functions before them alone. -/
theorem isPrefix_after (history : List Program) : ∀ b : Builder,
    b.funcs <+: (b.after history).funcs := by
  induction history with
  | nil => intro b; exact List.prefix_refl _
  | cons p history ih => intro b; exact (isPrefix_build b p).trans (ih (b.build p).2)

theorem after_append (b : Builder) (history : List Program) (p : Program)
    (later : List Program) :
    b.after (history ++ p :: later) = ((b.after history).build p).2.after later := by
  rw [Builder.after, List.foldl_append, List.foldl_cons]
  rfl

/-- What a builder makes of a program, by what lowering comes to. -/
theorem build_of_lower (b : Builder) (p : Program) (x : Operand) (body : Array Instr)
    (h : (lower (Builder.bind b.values (varNames p.args.length)) p.expr).run #[] = .ok x body) :
    b.build p = (none, ⟨b.funcs ++ [.eval (varNames p.args.length) body (some x), .main p.args],
      Builder.bind b.values (varNames p.args.length)⟩) := by
  rw [Builder.build, h]

/-- A program that has a value is lowered by a used builder as by a fresh one. The builder
    may have started with any functions and any table of names, and may have been given any
    programs since, at which it has stopped or not. Its functions stay as they are and the
    two functions of the program come behind them, where later programs leave them. -/
theorem build_after_appends_fresh (b : Builder) (history : List Program) (p : Program)
    (r : Bool) (h : p.eval = .ok r) :
    ∃ body ret,
      Builder.empty.build p = (none, ⟨[.eval (varNames p.args.length) body (some ret),
        .main p.args], Builder.bind [] (varNames p.args.length)⟩) ∧
      ((b.after history).build p).1 = none ∧
      ((b.after history).build p).2.funcs = (b.after history).funcs ++
        [.eval (varNames p.args.length) body (some ret), .main p.args] ∧
      ∀ later, ((b.after history).build p).2.funcs <+:
        (b.after (history ++ p :: later)).funcs := by
  have hnone := (p.build_empty_iff (p.length_args_of_eval r h)).1.mpr ⟨r, h⟩
  have hsame := lower_bind_of_eval (b.after history).values Builder.empty.values p r h
  cases hrun : (lower (Builder.bind Builder.empty.values (varNames p.args.length)) p.expr).run
      #[] with
  | error stop body =>
      -- A fresh builder does not stop at a program that has a value.
      rw [Builder.build, hrun] at hnone
      simp only [reduceCtorEq] at hnone
  | ok x body =>
      have hfresh := build_of_lower Builder.empty p x body hrun
      -- Lowering is the same computation for both builders.
      rw [← hsame] at hrun
      have hused := build_of_lower (b.after history) p x body hrun
      refine ⟨body, x, hfresh, by rw [hused], by rw [hused], fun later => ?_⟩
      rw [after_append]
      exact isPrefix_after later _

/-- A builder with an unfinished function and a table that is wrong about both letters. -/
def misled : Builder :=
  ⟨[.eval [[65]] #[] none], [([65], .result 7), ([66], .const true)]⟩

theorem build_after_appends_fresh_misled :
    nested.eval = .ok true ∧ (misled.build Program.faulty).1.isSome = true ∧
    ∃ body ret,
      Builder.empty.build nested = (none, ⟨[.eval (varNames 2) body (some ret),
        .main [true, false]], Builder.bind [] (varNames 2)⟩) ∧
      ((misled.after [Program.faulty, declaring]).build nested).1 = none ∧
      ((misled.after [Program.faulty, declaring]).build nested).2.funcs =
        (misled.after [Program.faulty, declaring]).funcs ++
          [.eval (varNames 2) body (some ret), .main [true, false]] ∧
      ∀ later, ((misled.after [Program.faulty, declaring]).build nested).2.funcs <+:
        (misled.after ([Program.faulty, declaring] ++ nested :: later)).funcs :=
  ⟨rfl, rfl, build_after_appends_fresh misled [Program.faulty, declaring] nested true rfl⟩

end IR

end BitLogic
