import BitLogic.Proofs.Simulate

/-!
# Names That Outlive Their Program

A builder keeps the names of every program that it has lowered, also of those at which
it has stopped. A later program that declares fewer bits can therefore use a letter that
it has not declared itself: lowering finds a parameter of an earlier function, where
evaluation finds nothing.

How far this goes can be said exactly. After any history the names bound are the letters
of the program that declared the most bits (`hasLetters_after`), so lowering does what
evaluation does in an environment of that many letters. A larger environment has fewer
faults, and the ones that are missing are complaints about its letters
(`faults_extend`). Evaluation stops at the first fault, and a reused builder stops at the
first one that is not such a complaint. The two agree on a program if and only if these
are the same fault.

## Main definitions

* `Fault.concerns`: The fault is about one of the given names not being defined.
* `IR.Builder.after`: A builder after a list of programs.
* `IR.widest`: The largest number of bits that a list of programs declares.
* `IR.HasLetters`: The names bound are the first letters.

## Theorems

* `Fault.concerns_undefinedVariable`, `Fault.concerns_iff`: Which faults are about a
  name.
* `Expr.concerns_resolve`: The fault of a call is not.
* `Expr.problem?_extend`, `Expr.faults_extend`: The faults in a larger environment.
* `IR.build_iff_eval`: Lowering does what evaluation does where the same names are
  bound.
* `IR.mem_varNames_max`: The letters of two programs are those of the wider one.
* `IR.hasLetters_bind`, `IR.hasLetters_build`: What a program leaves bound.
* `IR.hasLetters_foldl`, `IR.hasLetters_after`: The names bound after a list of
  programs.
* `IR.binds_of_hasLetters`: They are those of an environment.
* `IR.build_after_eq_find?`: What a reused builder stops at.
* `IR.same_stops_iff`: Two first faults that make for the same stops are the same.
* `IR.build_after_agrees_iff`: When a reused builder agrees with evaluation.
* `IR.solid_borrowing`, `IR.build_after_agrees_iff_borrowing`,
  `IR.build_after_borrowing`: A program that uses a letter of the program before it.
-/

namespace BitLogic

/-- The fault is about one of the names not being defined. -/
def Fault.concerns (names : List Text) (f : Fault) : Bool :=
  match f.cause with
  | .undefinedVariable name => names.contains name
  | _ => false

@[simp]
theorem Fault.concerns_undefinedVariable (names : List Text) (name : Text) (s : Span) :
    Fault.concerns names ⟨.undefinedVariable name, s⟩ = names.contains name := rfl

/-- A fault is about one of the names if it says of one that it is not defined. -/
theorem Fault.concerns_iff (names : List Text) (f : Fault) : f.concerns names = true ↔
    ∃ name, f.cause = .undefinedVariable name ∧ name ∈ names := by
  rcases f with ⟨cause, s⟩
  cases cause with
  | undefinedVariable name =>
      rw [concerns_undefinedVariable, List.contains_iff_mem]
      simp only [Cause.undefinedVariable.injEq, exists_eq_left']
  | _ => simp only [concerns, Bool.false_eq_true, reduceCtorEq, false_and, exists_const]

namespace Expr

/-- The fault of a call is never about a variable. -/
theorem concerns_resolve (names : List Text) (id : Ident) (count : Nat) (s : Span) (f : Fault)
    (h : Builtin.resolve id count s = .error f) : f.concerns names = false := by
  -- A call is at fault for its name or for the number of its arguments.
  unfold Builtin.resolve at h
  split at h
  · rw [← Except.error.inj h]
    rfl
  · split at h
    · simp only [reduceCtorEq] at h
    · split at h
      · simp only [reduceCtorEq] at h
      · rw [← Except.error.inj h]
        rfl

section

variable (env env' : Env) (names : List Text)
variable (hdom : ∀ name, (env'.get? name).isSome = ((env.get? name).isSome || names.contains name))

include hdom in
/-- A node has the problem that it had, unless that was about an added name. -/
theorem problem?_extend (e : Expr) : Symbols.problem? ⟨env', []⟩ e =
    (Symbols.problem? ⟨env, []⟩ e).filter fun f => !f.concerns names := by
  cases e with
  | blank s => rfl
  | var id s =>
      rw [Symbols.problem?, Symbols.problem?, hdom id.name]
      by_cases hbound : (env.get? id.name).isSome = true
      · rw [if_pos hbound, if_pos (by rw [hbound]; rfl)]
        rfl
      · -- The larger environment binds the name exactly if it is among the names.
        rw [if_neg hbound]
        rw [Bool.not_eq_true] at hbound
        rw [hbound, Bool.false_or, Option.filter_some, Fault.concerns_undefinedVariable]
        cases names.contains id.name <;> rfl
  | call id args s =>
      rw [Symbols.problem?, Symbols.problem?]
      cases hres : Builtin.resolve id args.length s with
      | ok f => rfl
      | error f =>
          rw [Option.filter_some, concerns_resolve names id _ s f hres]
          rfl

include hdom in
/-- A larger environment mends the complaints about the names that it adds, and nothing
    else. -/
theorem faults_extend (e : Expr) :
    e.faults env' = (e.faults env).filter fun f => !f.concerns names := by
  rw [faults, faults, List.filter_filterMap]
  exact List.filterMap_congr fun n _ => problem?_extend env env' names hdom n

end

end Expr

namespace IR

/-- Lowering stops where evaluation does, and for the same reason, if the names bound are
    those of the environment. -/
theorem build_iff_eval (b : Builder) (p : Program) (env : Env)
    (h : Binds (Builder.bind b.values (varNames p.args.length)) env) (stop : Stop) :
    (b.build p).1 = some stop ↔ p.expr.eval env = .error stop := by
  -- Lowering is compared with evaluation at a block that is still empty.
  have hsim := lower_emits _ env h p.expr #[] [] (computes_empty env)
  unfold Emits at hsim
  rw [Builder.build]
  cases hrun : (lower (Builder.bind b.values (varNames p.args.length)) p.expr).run #[] with
  | ok x body =>
      rw [hrun] at hsim
      rcases hsim with ⟨-, -, -, r, hr, -⟩
      rw [hr]
      simp only [reduceCtorEq]
  | error stop' body =>
      rw [hrun] at hsim
      rw [hsim, Except.error.injEq, Option.some.injEq]

/-- The builder after a list of programs, whether it has stopped at them or not. -/
def Builder.after (b : Builder) (history : List Program) : Builder :=
  history.foldl (fun b p => (b.build p).2) b

/-- The largest number of bits that one of the programs declares. -/
def widest (history : List Program) : Nat :=
  history.foldl (fun n p => max n p.args.length) 0

theorem mem_varNames_max (name : Text) (m n : Nat) :
    name ∈ varNames (max m n) ↔ name ∈ varNames m ∨ name ∈ varNames n := by
  simp only [varNames, List.mem_map, List.mem_range]
  constructor
  · rintro ⟨i, hi, rfl⟩
    by_cases hm : i < m
    · exact Or.inl ⟨i, hm, rfl⟩
    · exact Or.inr ⟨i, by omega, rfl⟩
  · rintro (⟨i, hi, rfl⟩ | ⟨i, hi, rfl⟩)
    · exact ⟨i, by omega, rfl⟩
    · exact ⟨i, by omega, rfl⟩

/-- The names bound are the first `n` letters, each for the parameter of its name. -/
def HasLetters (vs : Values) (n : Nat) : Prop :=
  ∀ name, vs.get? name = if name ∈ varNames n then some (.param name) else none

/-- Binding letters again leaves the larger number of them bound. -/
theorem hasLetters_bind (vs : Values) (m n : Nat) (h : HasLetters vs m) :
    HasLetters (Builder.bind vs (varNames n)) (max m n) := by
  intro name
  rw [get?_bind, h name]
  by_cases hn : name ∈ varNames n
  · rw [if_pos hn, if_pos ((mem_varNames_max name m n).mpr (Or.inr hn))]
  · rw [if_neg hn]
    by_cases hm : name ∈ varNames m
    · rw [if_pos hm, if_pos ((mem_varNames_max name m n).mpr (Or.inl hm))]
    · rw [if_neg hm, if_neg]
      rw [mem_varNames_max, not_or]
      exact ⟨hm, hn⟩

/-- A program leaves its letters bound, also when lowering stops at it. -/
theorem hasLetters_build (b : Builder) (p : Program) (n : Nat) (h : HasLetters b.values n) :
    HasLetters (b.build p).2.values (max n p.args.length) := by
  have hvalues : (b.build p).2.values = Builder.bind b.values (varNames p.args.length) := by
    rw [Builder.build]
    cases (lower (Builder.bind b.values (varNames p.args.length)) p.expr).run #[] <;> rfl
  rw [hvalues]
  exact hasLetters_bind b.values n _ h

theorem hasLetters_foldl (history : List Program) : ∀ (b : Builder) (n : Nat),
    HasLetters b.values n → HasLetters (b.after history).values
      (history.foldl (fun n p => max n p.args.length) n) := by
  -- Along the programs; the builder and the number of letters so far change with each.
  induction history with
  | nil => intro b n h; exact h
  | cons p history ih =>
      intro b n h
      exact ih (b.build p).2 _ (hasLetters_build b p n h)

/-- After a list of programs the letters of the widest of them are bound. -/
theorem hasLetters_after (history : List Program) :
    HasLetters (Builder.empty.after history).values (widest history) :=
  hasLetters_foldl history Builder.empty 0 fun _ => rfl

/-- Letters that are bound are those of an environment with as many bits. -/
theorem binds_of_hasLetters (vs : Values) (n : Nat) (bits : List Bool) (hlen : n = bits.length)
    (h : HasLetters vs n) : Binds vs ((varNames n).zip bits) := by
  intro name
  have hfresh := binds_zip (varNames n) bits (by simp [hlen]) name
  rw [get?_bind] at hfresh
  rw [h name, ← hfresh]
  rfl

/-- A reused builder stops at the first fault that is not about a letter of an earlier
    program. -/
theorem build_after_eq_find? (history : List Program) (p : Program) (hsolid : p.expr.Solid) :
    ((Builder.empty.after history).build p).1 =
      ((p.expr.faults ((varNames p.args.length).zip p.args)).find? fun f =>
        !f.concerns (varNames (widest history))).map Stop.fault := by
  have hletters := hasLetters_bind _ _ p.args.length (hasLetters_after history)
  generalize hm : max (widest history) p.args.length = m at hletters
  -- Any bits will do for the letters that are bound, since faults do not depend on them.
  have hbinds := binds_of_hasLetters _ m (List.replicate m false)
    (List.length_replicate ..).symm hletters
  have hdom : ∀ name, (Env.get? ((varNames m).zip (List.replicate m false)) name).isSome =
      ((Env.get? ((varNames p.args.length).zip p.args) name).isSome ||
        (varNames (widest history)).contains name) := by
    intro name
    rw [Env.isSome_get?_zip name _ _ (by simp),
      Env.isSome_get?_zip name _ _ (by simp), ← hm, List.contains_eq_mem,
      ← Bool.decide_or]
    exact decide_eq_decide.mpr ((mem_varNames_max name _ _).trans or_comm)
  refine Option.ext fun stop => ?_
  rw [build_iff_eval _ p _ hbinds stop, Expr.eval_error_iff _ p.expr hsolid stop,
    Expr.faults_extend _ _ _ hdom, List.head?_filter]

/-- Two first faults that make for the same stops are the same. -/
theorem same_stops_iff (x y : Option Fault) :
    (∀ stop, x.map Stop.fault = some stop ↔ y.map Stop.fault = some stop) ↔ x = y := by
  constructor
  · intro h
    exact Option.map_injective (fun f g hfg => Stop.fault.inj hfg) (Option.ext h)
  · rintro rfl stop
    rfl

/-- A reused builder and an evaluation agree on a program, in whether and at what they
    stop, exactly if evaluation does not stop at a letter that an earlier program has
    declared. In any case the builder stops at the first fault that is not about such a
    letter. -/
theorem build_after_agrees_iff (history : List Program) (p : Program)
    (hargs : p.args.length ≤ maxArgs) (hsolid : p.expr.Solid) :
    ((Builder.empty.after history).build p).1 =
      ((p.expr.faults ((varNames p.args.length).zip p.args)).find? fun f =>
        !f.concerns (varNames (widest history))).map Stop.fault ∧
    ((∀ stop, ((Builder.empty.after history).build p).1 = some stop ↔ p.eval = .error stop) ↔
      ∀ name s, p.eval = .error (.fault ⟨.undefinedVariable name, s⟩) →
        name ∉ varNames (widest history)) := by
  have hbuild := build_after_eq_find? history p hsolid
  have heval := p.eval_error_iff_first hargs hsolid
  refine ⟨hbuild, ?_⟩
  generalize p.expr.faults ((varNames p.args.length).zip p.args) = faults at hbuild heval
  -- To agree is to have the same first fault, on the one side after some have been left out.
  simp only [hbuild, heval]
  rw [same_stops_iff, List.find?_eq_head?_iff]
  constructor
  · intro h name s hev hmem
    rw [Option.map_eq_some_iff] at hev
    rcases hev with ⟨f, hf, hstop⟩
    rw [Stop.fault.injEq] at hstop
    have hnot := h f hf
    rw [Bool.not_eq_true', ← Bool.not_eq_true, Fault.concerns_iff] at hnot
    exact hnot ⟨name, by rw [hstop], hmem⟩
  · -- The first fault is where evaluation stops, so it is not about a letter left behind.
    intro h f hf
    rw [Bool.not_eq_true', ← Bool.not_eq_true, Fault.concerns_iff]
    rintro ⟨name, hcause, hmem⟩
    refine h name f.span ?_ hmem
    rw [hf, ← hcause]
    rfl

/-- The program `A` with one bit. -/
def declaring : Program := ⟨[true], .var ⟨[65], ⟨4, 5⟩⟩ ⟨4, 5⟩⟩

/-- The program `not(A)` without any bit. -/
def borrowing : Program :=
  ⟨[], .call ⟨Text.ofString "not", ⟨2, 5⟩⟩ [.var ⟨[65], ⟨6, 7⟩⟩ ⟨6, 7⟩] ⟨2, 8⟩⟩

theorem solid_borrowing : borrowing.expr.Solid := by
  refine .call _ _ _ ?_
  rw [List.forall_mem_singleton]
  exact .var _ _

theorem build_after_agrees_iff_borrowing :
    borrowing.args.length ≤ maxArgs ∧ borrowing.expr.Solid ∧
    ((Builder.empty.after [declaring]).build borrowing).1 =
      ((borrowing.expr.faults ((varNames 0).zip [])).find? fun f =>
        !f.concerns (varNames (widest [declaring]))).map Stop.fault ∧
    ((∀ stop, ((Builder.empty.after [declaring]).build borrowing).1 = some stop ↔
        borrowing.eval = .error stop) ↔
      ∀ name s, borrowing.eval = .error (.fault ⟨.undefinedVariable name, s⟩) →
        name ∉ varNames (widest [declaring])) :=
  ⟨by decide, solid_borrowing,
    build_after_agrees_iff [declaring] borrowing (by decide) solid_borrowing⟩

/-- Lowering `1 1 A` and then `0 not(A)` with one builder succeeds, although the second
    program has no value: its letter is not defined. -/
theorem build_after_borrowing :
    parse (Text.ofString "1 1 A") = .ok declaring ∧
    parse (Text.ofString "0 not(A)") = .ok borrowing ∧
    ((Builder.empty.after [declaring]).build borrowing).1 = none ∧
    borrowing.eval = .error (.fault ⟨.undefinedVariable [65], ⟨6, 7⟩⟩) :=
  ⟨by with_unfolding_all rfl, by with_unfolding_all rfl, rfl, rfl⟩

end IR

end BitLogic
