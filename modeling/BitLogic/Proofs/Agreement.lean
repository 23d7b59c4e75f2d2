import BitLogic.Proofs.Simulate

/-!
# Evaluating, Checking and Lowering Agree

Three traversals of an expression decide whether a program is in order, and none of
them knows of the others. Evaluation leaves at the first fault, a check visits every
node and collects, and lowering emits instructions on the way. They agree
nevertheless: a check finds nothing exactly when evaluation yields a value and
exactly when lowering succeeds, and otherwise the other two stop at what the check
lists first.

Each of the three has been compared with something simpler already. Evaluation and
checking were compared with the list of faults, and lowering with evaluation, so what
is left is to put the comparisons together. That the bits have no say comes from the
walk: at a node it asks only whether a name is bound, and how many bits there are
settles that.

## Theorems

* `Symbols.foldl_visit_congr`: A walk asks only which names are bound.
* `Program.isSome_get?_withArgs`: How many bits there are settles which names are bound.
* `Program.check_withArgs`: Other bits have the same problems.
* `Program.eval_error_iff_head?`: Evaluation stops at the first problem.
* `Program.eval_ok_iff_nil`: There is a value when there is no problem.
* `Program.build_empty_iff`: Lowering stops where evaluation does.
* `Program.build_withArgs`: Lowering does not look at the bits.
* `Program.check_eval_build_agree`: The three agree on every program.
* `Program.check_eval_build_agree_faulty`: A program with several problems.
-/

namespace BitLogic

/-- Environments with the same names are the same to a walk that collects faults. -/
theorem Symbols.foldl_visit_congr (env env' : Env)
    (h : ∀ name, (env.get? name).isSome = (env'.get? name).isSome) (vs : List Visit) :
    ∀ problems : List Fault, (vs.foldl visit ⟨env, problems⟩).problems =
      (vs.foldl visit ⟨env', problems⟩).problems := by
  induction vs with
  | nil => intro problems; rfl
  | cons v vs ih =>
      intro problems
      -- At a node only the names that are bound are asked for, and they are the same.
      have hnode : problem? ⟨env, problems⟩ v.node = problem? ⟨env', problems⟩ v.node := by
        rw [problem?_bindings, problem?_bindings ⟨env', problems⟩]
        exact Expr.problem?_congr env env' h v.node
      rw [List.foldl_cons, List.foldl_cons, visit, visit, hnode]
      cases problem? ⟨env', problems⟩ v.node with
      | none => exact ih problems
      | some f =>
          -- Whether it is a repetition depends on the problems, and these are the same.
          simp only [report]
          split
          · exact ih problems
          · exact ih (problems ++ [f])

namespace Program

/-- How many bits there are settles which names are bound. -/
theorem isSome_get?_withArgs (p : Program) (bits : List Bool)
    (hlen : bits.length = p.args.length) (name : Text) :
    (Env.get? ((varNames p.args.length).zip bits) name).isSome =
      (Env.get? ((varNames p.args.length).zip p.args) name).isSome := by
  rw [Env.isSome_get?_zip name _ bits (by simp [hlen]), Env.isSome_get?_zip name _ p.args (by simp)]

/-- A check reports the same problems at other bits. -/
theorem check_withArgs (p : Program) (bits : List Bool) (hlen : bits.length = p.args.length)
    (hargs : p.args.length ≤ maxArgs) : (⟨bits, p.expr⟩ : Program).check = p.check := by
  rw [check, check, Symbols.ofArgs, Symbols.ofArgs, Env.ofArgs_eq p.args hargs,
    Env.ofArgs_eq bits (by omega), hlen]
  simp only [Except.map, Except.ok.injEq]
  -- Both checks walk over the same tree with the same names bound.
  exact Symbols.foldl_visit_congr _ _ (isSome_get?_withArgs p bits hlen) _ []

/-- Evaluation stops at the problem that a check lists first. -/
theorem eval_error_iff_head? (p : Program) (hargs : p.args.length ≤ maxArgs)
    (hsolid : p.expr.Solid) (problems : List Fault) (hcheck : p.check = .ok problems)
    (stop : Stop) : p.eval = .error stop ↔ problems.head?.map Stop.fault = some stop := by
  have henv := Env.ofArgs_eq p.args hargs
  rcases p.check_eq _ henv with ⟨problems', hcheck', hhead⟩
  rw [hcheck, Except.ok.injEq] at hcheck'
  rw [hcheck', hhead, p.eval_error_iff_first hargs hsolid stop]

/-- A check finds nothing exactly when there is a value. -/
theorem eval_ok_iff_nil (p : Program) (hargs : p.args.length ≤ maxArgs)
    (hsolid : p.expr.Solid) (problems : List Fault) (hcheck : p.check = .ok problems) :
    problems = [] ↔ ∃ b, p.eval = .ok b := by
  have henv := Env.ofArgs_eq p.args hargs
  rcases p.check_eq _ henv with ⟨problems', hcheck', hhead⟩
  rw [hcheck, Except.ok.injEq] at hcheck'
  -- The problems and the faults begin with the same one, or there are none.
  rw [← List.head?_eq_none_iff, hcheck', hhead, List.head?_eq_none_iff,
    ← Expr.exists_eval_iff_faults_nil _ p.expr hsolid, p.eval_eq hargs]

/-- A fresh builder stops where evaluation does and for the same reason, and succeeds
    where evaluation yields a value. -/
theorem build_empty_iff (p : Program) (hargs : p.args.length ≤ maxArgs) :
    ((IR.Builder.empty.build p).1 = none ↔ ∃ b, p.eval = .ok b) ∧
      ∀ stop, (IR.Builder.empty.build p).1 = some stop ↔ p.eval = .error stop := by
  rcases IR.build_empty p hargs with ⟨body, ret, hbuild, hbits⟩ | ⟨stop', hstop, hbits⟩
  · rcases hbits p.args rfl with ⟨r, hr, -⟩
    have hr : p.eval = .ok r := hr
    rw [hbuild, hr]
    exact ⟨by simp only [Except.ok.injEq, exists_eq'], fun stop => by simp only [reduceCtorEq]⟩
  · -- The declared bits are one choice among all, and lowering has stopped for all of them.
    have hr : p.eval = .error stop' := hbits p.args rfl
    rw [hstop, hr]
    refine ⟨by simp only [reduceCtorEq, exists_const], fun stop => ?_⟩
    rw [Option.some.injEq, Except.error.injEq]

/-- Lowering never looks at the bits, only at how many there are. -/
theorem build_withArgs (p : Program) (b : IR.Builder) (bits : List Bool)
    (hlen : bits.length = p.args.length) :
    (b.build ⟨bits, p.expr⟩).1 = (b.build p).1 := by
  rw [IR.Builder.build, IR.Builder.build, hlen]
  cases (IR.lower (IR.Builder.bind b.values (varNames p.args.length)) p.expr).run #[] <;> rfl

/-- A program has no problems exactly when it has a value and exactly when it can be
    lowered. Otherwise evaluation and lowering stop at the first problem, and neither
    that nor the list of problems changes with the bits. -/
theorem check_eval_build_agree (p : Program) (hargs : p.args.length ≤ maxArgs)
    (hsolid : p.expr.Solid) :
    ∃ problems, p.check = .ok problems ∧
      (problems = [] ↔ ∃ b, p.eval = .ok b) ∧
      (problems = [] ↔ (IR.Builder.empty.build p).1 = none) ∧
      (∀ stop, p.eval = .error stop ↔ ∃ f, problems.head? = some f ∧ .fault f = stop) ∧
      (∀ stop, (IR.Builder.empty.build p).1 = some stop ↔
        ∃ f, problems.head? = some f ∧ .fault f = stop) ∧
      ∀ bits : List Bool, bits.length = p.args.length →
        (⟨bits, p.expr⟩ : Program).check = .ok problems ∧
        (IR.Builder.empty.build ⟨bits, p.expr⟩).1 = (IR.Builder.empty.build p).1 ∧
        ∀ stop, (⟨bits, p.expr⟩ : Program).eval = .error stop ↔ p.eval = .error stop := by
  rcases p.check_eq _ (Env.ofArgs_eq p.args hargs) with ⟨problems, hcheck, -⟩
  have hnil := p.eval_ok_iff_nil hargs hsolid problems hcheck
  have heval := p.eval_error_iff_head? hargs hsolid problems hcheck
  rcases p.build_empty_iff hargs with ⟨hbuilt, hstop⟩
  refine ⟨problems, hcheck, hnil, hnil.trans hbuilt.symm, ?_, ?_, ?_⟩
  · exact fun stop => (heval stop).trans Option.map_eq_some_iff
  · exact fun stop => (hstop stop).trans ((heval stop).trans Option.map_eq_some_iff)
  · intro bits hlen
    have hcheck' := (p.check_withArgs bits hlen hargs).trans hcheck
    have hargs' : bits.length ≤ maxArgs := by omega
    refine ⟨hcheck', p.build_withArgs _ bits hlen, fun stop => ?_⟩
    -- The problems at the other bits are the same list, so its head is too.
    exact (eval_error_iff_head? ⟨bits, p.expr⟩ hargs' hsolid problems hcheck' stop).trans
      (heval stop).symm

theorem check_eval_build_agree_faulty :
    faulty.args.length ≤ maxArgs ∧ faulty.expr.Solid ∧
    ∃ problems, faulty.check = .ok problems ∧
      (problems = [] ↔ ∃ b, faulty.eval = .ok b) ∧
      (problems = [] ↔ (IR.Builder.empty.build faulty).1 = none) ∧
      (∀ stop, faulty.eval = .error stop ↔ ∃ f, problems.head? = some f ∧ .fault f = stop) ∧
      (∀ stop, (IR.Builder.empty.build faulty).1 = some stop ↔
        ∃ f, problems.head? = some f ∧ .fault f = stop) ∧
      ∀ bits : List Bool, bits.length = faulty.args.length →
        (⟨bits, faulty.expr⟩ : Program).check = .ok problems ∧
        (IR.Builder.empty.build ⟨bits, faulty.expr⟩).1 = (IR.Builder.empty.build faulty).1 ∧
        ∀ stop, (⟨bits, faulty.expr⟩ : Program).eval = .error stop ↔ faulty.eval = .error stop :=
  ⟨by decide, solid_faulty, check_eval_build_agree faulty (by decide) solid_faulty⟩

end Program

end BitLogic
