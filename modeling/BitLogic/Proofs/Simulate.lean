import BitLogic.Eval
import BitLogic.IR.Printer
import BitLogic.Proofs.Faults
import BitLogic.Proofs.Machine

/-!
# Lowering Simulates Evaluation

A program that is lowered and then executed gives the value that evaluation gives,
for the declared bits and for any others.

Both sides recurse over the expression, but they meet in different shapes. An
evaluator returns a bit for every subexpression. Lowering returns an operand, whose
bit is known only once the block has been executed, and the instructions of a nested
call end up between those of its neighbours. `lower_emits` is the invariant that
carries the comparison. It holds at every block that has results already, and says
that lowering an expression there returns an operand worth the value of the
expression, or stops for the reason that evaluation stops for.

The same statement settles both halves of what is wanted from lowering. The first
half is about programs that are lowered: they compute what they should. The second
is about the others: they fail in the way evaluation does. A builder that is not
fresh is covered as well, as long as its names are those of the environment.

## Main definitions

* `IR.Binds`: Names stand for the parameters of their name, as far as an environment
  binds them.
* `IR.Follows`: Lowering an expression does what evaluating it does.
* `IR.outcome`: What a lowering returns, without the block it leaves behind a fault.

## Theorems

* `IR.lowerAll_emits`: Lowering a list of arguments simulates evaluating it.
* `IR.lower_emits`: Lowering an expression simulates evaluating it.
* `IR.Values.get?_set`, `IR.get?_bind`: Which names are bound behind a list of
  parameters.
* `IR.binds_zip`: A fresh builder binds the names of its program.
* `IR.build_empty`: What a fresh builder makes of a program.
* `IR.call_eval_and_exitCode`: A lowered program computes its value.
* `IR.call_eval_and_exitCode_nested`: A program with a call in a call.
* `Program.compile_eq`: The text of a program.
-/

namespace BitLogic

namespace IR

/-- A name stands for the parameter of that name if the environment binds it, and for
    nothing otherwise. -/
def Binds (vs : Values) (env : Env) : Prop :=
  ∀ name, vs.get? name = (env.get? name).map fun _ => .param name

/-- Lowering an expression at a block with results `rs` returns an operand worth the
    value of the expression, or stops where evaluation does. -/
def Follows (vs : Values) (env : Env) (e : Expr) : Prop :=
  ∀ (body : Array Instr) (rs : List Bool), Computes env body rs →
    Emits env body rs (lower vs e)
      (fun x rs' => ∃ b, e.eval env = .ok b ∧ x.value? env rs' = some b)
      (fun stop => e.eval env = .error stop)

/-- Arguments are lowered from left to right, and the operands of the earlier ones
    outlive the instructions of the later ones. -/
theorem lowerAll_emits (vs : Values) (env : Env) (es : List Expr) :
    ∀ (body : Array Instr) (rs : List Bool), (∀ e ∈ es, Follows vs env e) →
      Computes env body rs →
      Emits env body rs (lowerAll vs es)
        (fun xs rs' => ∃ bs, Expr.evalAll env es = .ok bs ∧
          List.Forall₂ (fun x b => x.value? env rs' = some b) xs bs)
        (fun stop => Expr.evalAll env es = .error stop) := by
  induction es with
  | nil =>
      intro body rs _ h
      exact emits_pure [] h ⟨[], rfl, .nil⟩
  | cons e es ih =>
      intro body rs hall h
      rw [lowerAll, Expr.evalAll_cons]
      refine emits_bind _ _ (emits_mono _ (hall e List.mem_cons_self body rs h)
        (fun _ _ _ hx => hx) fun stop hs => by rw [hs]) ?_
      -- The head has a value. Its operand is needed again behind the tail.
      rintro x body₁ rs₁ - hc₁ ⟨b, hb, hx⟩
      have htail := ih body₁ rs₁ (fun a ha => hall a (List.mem_cons_of_mem e ha)) hc₁
      rw [hb]
      refine emits_bind _ _ (emits_mono _ htail (fun _ _ _ hxs => hxs)
        fun stop hs => by rw [hs]; rfl) ?_
      rintro xs body₂ rs₂ hle hc₂ ⟨bs, hbs, hxs⟩
      refine emits_pure _ hc₂ ⟨b :: bs, by rw [hbs]; rfl, ?_⟩
      exact .cons (x.value?_of_isPrefix env rs₁ rs₂ hle b hx) hxs

/-- Lowering an expression simulates evaluating it, by induction on the expression.
    The block and its results are arbitrary, since an argument is lowered behind
    whatever its neighbours have left there. -/
theorem lower_emits (vs : Values) (env : Env) (hvs : Binds vs env) (e : Expr) :
    Follows vs env e := by
  induction e using Expr.induction_args with
  | var id s =>
      intro body rs h
      rw [lower, Expr.eval_var, hvs id.name]
      -- A name that is bound stands for its parameter, which holds the bit it is bound to.
      cases hget : env.get? id.name with
      | none => exact emits_throw _ rfl
      | some b => exact emits_pure _ h ⟨b, rfl, hget⟩
  | blank s =>
      intro body rs _
      exact emits_throw _ rfl
  | call id args s ih =>
      intro body rs h
      rw [lower, Expr.eval_call]
      cases Builtin.resolve id args.length s with
      | error f => exact emits_throw _ rfl
      | ok f =>
          -- The function is known before the arguments are lowered, as it is before they are
          -- evaluated.
          have hargs := lowerAll_emits vs env args body rs ih h
          refine emits_bind _ _ (emits_mono _ hargs (fun _ _ _ hxs => hxs)
            fun stop hs => by rw [hs]; rfl) ?_
          rintro xs body' rs' - hc ⟨bs, hbs, hxs⟩
          rw [hbs]
          refine emits_mono _ (emits_emit f xs bs hc hxs) ?_ ?_
          · rintro x rs'' - ⟨b, hb, hx⟩
            refine ⟨b, ?_, hx⟩
            simp only [bind, Except.bind, hb]
            rfl
          · rintro stop ⟨b, hb, rfl⟩
            simp only [bind, Except.bind, hb]
            rfl

namespace Values

/-- A name that is set stands for what it was set to, and the others for what they stood
    for. -/
@[simp]
theorem get?_set (vs : Values) (name name' : Text) (x : Operand) :
    (vs.set name x).get? name' = if name' = name then some x else vs.get? name' := by
  unfold set get?
  by_cases h : name' = name
  · rw [if_pos h, h, List.lookup_cons_self]
  · rw [if_neg h, List.lookup_cons_of_ne _ _ _ _ h, List.lookup_eraseP vs name' name h]

end Values

/-- Behind a list of parameters, its names stand for them and the other names for what
    they stood for. -/
@[simp]
theorem get?_bind (params : List Text) (name : Text) : ∀ vs : Values,
    (Builder.bind vs params).get? name =
      if name ∈ params then some (.param name) else vs.get? name := by
  induction params with
  | nil => intro vs; rfl
  | cons p params ih =>
      intro vs
      have hstep := ih (vs.set p (.param p))
      rw [Builder.bind, List.foldl_cons]
      rw [Builder.bind] at hstep
      rw [hstep, Values.get?_set]
      -- A name that occurs again further on is bound there.
      by_cases hmem : name ∈ params
      · rw [if_pos hmem, if_pos (List.mem_cons_of_mem p hmem)]
      · rw [if_neg hmem]
        by_cases hp : name = p
        · rw [if_pos hp, if_pos (by rw [hp]; exact List.mem_cons_self), hp]
        · rw [if_neg hp, if_neg (by simp only [List.mem_cons, not_or]; exact ⟨hp, hmem⟩)]

/-- A fresh builder binds the names of its program and no others, to whatever bits the
    parameters are set. -/
theorem binds_zip (names : List Text) (bits : List Bool) (hlen : names.length = bits.length) :
    Binds (Builder.bind [] names) (names.zip bits) := by
  intro name
  have hdom := Env.isSome_get?_zip name names bits hlen
  rw [get?_bind]
  -- A name of the program has a bit beside it, and any other name has none.
  by_cases hmem : name ∈ names
  · rw [if_pos hmem]
    rw [decide_eq_true hmem, Option.isSome_iff_exists] at hdom
    rcases hdom with ⟨b, hb⟩
    rw [hb]
    rfl
  · rw [if_neg hmem]
    rw [decide_eq_false hmem, Option.isSome_eq_false_iff, Option.isNone_iff_eq_none] at hdom
    rw [hdom]
    rfl

/-- What a fresh builder makes of a program: either two functions of which the first
    computes the value of the program at any bits, or the one reason for which
    evaluation stops at any bits. -/
theorem build_empty (p : Program) (hargs : p.args.length ≤ maxArgs) :
    (∃ body ret, Builder.empty.build p =
        (none, ⟨[.eval (varNames p.args.length) body (some ret), .main p.args],
          Builder.bind [] (varNames p.args.length)⟩) ∧
      ∀ bits : List Bool, bits.length = p.args.length →
        ∃ r, (⟨bits, p.expr⟩ : Program).eval = .ok r ∧
          (Func.eval (varNames p.args.length) body (some ret)).call? bits = some r) ∨
    ∃ stop, (Builder.empty.build p).1 = some stop ∧
      ∀ bits : List Bool, bits.length = p.args.length →
        (⟨bits, p.expr⟩ : Program).eval = .error stop := by
  have hnames : ∀ bits : List Bool, bits.length = p.args.length →
      (varNames p.args.length).length = bits.length := fun bits hlen => by
    rw [length_varNames, hlen]
  -- Lowering runs once and without the bits. The same run is compared with evaluation
  -- at each choice of them.
  have hsim := fun bits hlen =>
    lower_emits _ _ (binds_zip _ bits (hnames bits hlen)) p.expr #[] [] (computes_empty _)
  unfold Emits at hsim
  rw [Builder.build, Builder.empty]
  cases hrun : (lower (Builder.bind [] (varNames p.args.length)) p.expr).run #[] with
  | ok x body =>
      refine Or.inl ⟨body, x, rfl, fun bits hlen => ?_⟩
      have hbits := hsim bits hlen
      rw [hrun] at hbits
      rcases hbits with ⟨rs, -, hc, r, hr, hx⟩
      refine ⟨r, by rw [p.eval_withArgs bits hlen hargs, hr], ?_⟩
      -- The body was executed at these very bits.
      rw [Func.call?, if_pos (hnames bits hlen), hc]
      exact hx
  | error stop body =>
      refine Or.inr ⟨stop, rfl, fun bits hlen => ?_⟩
      have hbits := hsim bits hlen
      rw [hrun] at hbits
      rw [p.eval_withArgs bits hlen hargs, hbits]

/-- A lowered program computes its value. The function `eval` returns what evaluation
    returns for every choice of bits, and `main` passes on the declared ones. -/
theorem call_eval_and_exitCode (p : Program) (b : Builder) (hargs : p.args.length ≤ maxArgs)
    (hb : Builder.empty.build p = (none, b)) :
    ∃ body ret, b.funcs = [.eval (varNames p.args.length) body (some ret), .main p.args] ∧
      (∀ bits : List Bool, bits.length = p.args.length →
        ∃ r, (⟨bits, p.expr⟩ : Program).eval = .ok r ∧
          (Func.eval (varNames p.args.length) body (some ret)).call? bits = some r) ∧
      ∃ r, p.eval = .ok r ∧ exitCode? b.funcs = some (if r then 1 else 0) := by
  rcases build_empty p hargs with ⟨body, ret, hbuild, hbits⟩ | ⟨stop, hstop, -⟩
  · rw [hb, Prod.mk.injEq] at hbuild
    rw [hbuild.2]
    refine ⟨body, ret, rfl, hbits, ?_⟩
    -- The bits that `main` passes on are one choice among all.
    rcases hbits p.args rfl with ⟨r, hr, hcall⟩
    refine ⟨r, hr, ?_⟩
    rw [exitCode?, hcall]
    cases r <;> rfl
  · rw [hb] at hstop
    simp only [reduceCtorEq] at hstop

/-- The program that negates `and(A, or(B), and())`, nesting calls of no, one and
    several arguments. -/
def nested : Program :=
  let name (s : String) : Ident := ⟨Text.ofString s, ⟨0, 0⟩⟩
  ⟨[true, false], .call (name "not") [.call (name "and") [.var (name "A") ⟨0, 0⟩,
    .call (name "or") [.var (name "B") ⟨0, 0⟩] ⟨0, 0⟩, .call (name "and") [] ⟨0, 0⟩] ⟨0, 0⟩]
    ⟨0, 0⟩⟩

theorem call_eval_and_exitCode_nested :
    nested.args.length ≤ maxArgs ∧ (Builder.empty.build nested).1 = none ∧
    ∃ body ret, (Builder.empty.build nested).2.funcs =
        [.eval (varNames 2) body (some ret), .main [true, false]] ∧
      (∀ bits : List Bool, bits.length = 2 →
        ∃ r, (⟨bits, nested.expr⟩ : Program).eval = .ok r ∧
          (Func.eval (varNames 2) body (some ret)).call? bits = some r) ∧
      ∃ r, nested.eval = .ok r ∧
        exitCode? (Builder.empty.build nested).2.funcs = some (if r then 1 else 0) :=
  ⟨by decide, rfl, call_eval_and_exitCode nested _ (by decide) rfl⟩

end IR

/-! ## Texts -/

/-- What a lowering returns and the block it has built. A block behind a fault is never
    used. -/
def IR.outcome {α : Type} : EStateM.Result Stop (Array IR.Instr) α →
    Except Stop (α × Array IR.Instr)
  | .ok a body => .ok (a, body)
  | .error stop _ => .error stop

/-- The text of a program, by what its lowering comes to. -/
theorem Program.compile_eq (p : Program) : p.compile =
    IR.outcome ((IR.lower (IR.Builder.bind IR.Builder.empty.values (varNames p.args.length))
      p.expr).run #[]) >>= fun r =>
        match IR.moduleText [.eval (varNames p.args.length) r.2 (some r.1), .main p.args] with
        | .error b => .error (.breach b)
        | .ok t => .ok t := by
  rw [compile, IR.ofProgram, IR.Builder.build]
  cases (IR.lower (IR.Builder.bind IR.Builder.empty.values (varNames p.args.length))
    p.expr).run #[] <;> rfl

end BitLogic
