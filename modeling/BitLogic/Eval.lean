import BitLogic.Builtin
import BitLogic.Env
import BitLogic.Expr.Parser

/-!
# Evaluation

An expression has a value in an environment, or it stops at its first fault. A call
looks at its name and at the number of its arguments before it evaluates any of
them; then it evaluates all of them from left to right, also when the value is
already decided. Which fault is met therefore does not depend on the bits.

What evaluation returns is a verdict: a value, and beside it the fault that it stopped
at if there is one. A verdict has a value also where it has a fault, and every return
says which value that is. Most callers look at the fault first and at the value only
if there is none. For them `eval` is the same verdict as an outcome, which has no
value beside a fault.

## Main definitions

* `Verdict`: A value and, if evaluation stopped, the fault.
* `Expr.verdict`, `Program.verdict`: What evaluation returns.
* `Expr.eval`, `Program.eval`: The same as an outcome.
* `evaluate`: The value of the program that a source spells.

## Theorems

* `Expr.eval_var`, `Expr.eval_call`, `Expr.eval_blank`: The value of an expression by its
  parts.
* `Expr.evalAll_nil`, `Expr.evalAll_cons`: The values of arguments from left to right.
* `Program.eval_of_ofArgs`: The value of a program is that of its expression.
-/

namespace BitLogic

/-- What evaluation returns: a value, and the fault that it stopped at if there is
    one. -/
structure Verdict where
  value : Bool
  fault? : Option Fault
  deriving Repr, DecidableEq, Inhabited

/-- The value unless there is a fault. -/
def Verdict.answer : Verdict → Except Fault Bool
  | ⟨_, some f⟩ => .error f
  | ⟨b, none⟩ => .ok b

/-- An answer as an outcome, which ends at a fault or at a breach alike. -/
def Stop.settle {α : Type} : Except Breach (Except Fault α) → Except Stop α
  | .error b => .error (.breach b)
  | .ok (.error f) => .error (.fault f)
  | .ok (.ok a) => .ok a

namespace Expr

mutual

/-- What evaluating an expression in an environment returns. -/
def verdict (env : Env) : Expr → Except Breach Verdict
  | .var id _ =>
    match env.get? id.name with
    | none => .ok ⟨false, some ⟨.undefinedVariable id.name, id.span⟩⟩
    | some b => .ok ⟨b, none⟩
  | .call id args s =>
    match Builtin.resolve id args.length s with
    | .error f => .ok ⟨false, some f⟩
    | .ok f =>
      match verdicts env args with
      | .error b => .error b
      | .ok (.error fault) => .ok ⟨false, some fault⟩
      | .ok (.ok bs) => (f.apply bs).map fun b => ⟨b, none⟩
  | .blank _ => .error .blankExpr

/-- The values of expressions from left to right, or the fault of the first one that
    returns a fault. -/
def verdicts (env : Env) : List Expr → Except Breach (Except Fault (List Bool))
  | [] => .ok (.ok [])
  | e :: es =>
    match e.verdict env with
    | .error b => .error b
    | .ok ⟨_, some f⟩ => .ok (.error f)
    | .ok ⟨b, none⟩ => (verdicts env es).map fun rest => rest.map (b :: ·)

end

/-- The value of an expression in an environment, or its first fault. -/
def eval (env : Env) (e : Expr) : Except Stop Bool :=
  Stop.settle ((e.verdict env).map Verdict.answer)

/-- The values of expressions from left to right, or their first fault. -/
def evalAll (env : Env) (es : List Expr) : Except Stop (List Bool) := Stop.settle (verdicts env es)

/-- A variable has the value that the environment binds it to. -/
@[simp]
theorem eval_var (env : Env) (id : Ident) (s : Span) : (var id s).eval env =
    match env.get? id.name with
    | some b => .ok b
    | none => .error (.fault ⟨.undefinedVariable id.name, id.span⟩) := by
  rw [eval, verdict]
  cases env.get? id.name <;> rfl

/-- A call stops at its own fault first, then at that of an argument, and has the value of
    its function otherwise. -/
@[simp]
theorem eval_call (env : Env) (id : Ident) (args : List Expr) (s : Span) :
    (call id args s).eval env =
      match Builtin.resolve id args.length s with
      | .error f => .error (.fault f)
      | .ok f => evalAll env args >>= fun bs => (f.apply bs).mapError Stop.breach := by
  rw [eval, verdict, evalAll]
  cases Builtin.resolve id args.length s with
  | error f => rfl
  | ok f =>
      -- The arguments break off, return a fault, or have values for the function.
      rcases verdicts env args with b | fault | bs
      · rfl
      · rfl
      · simp only [Stop.settle, bind, Except.bind]
        cases f.apply bs <;> rfl

@[simp]
theorem eval_blank (env : Env) (s : Span) : (blank s).eval env = .error (.breach .blankExpr) := rfl

@[simp]
theorem evalAll_nil (env : Env) : evalAll env [] = .ok [] := rfl

@[simp]
theorem evalAll_cons (env : Env) (e : Expr) (es : List Expr) : evalAll env (e :: es) =
    match e.eval env with
    | .error stop => .error stop
    | .ok b => (evalAll env es).map (b :: ·) := by
  rw [evalAll, verdicts, eval, evalAll]
  rcases e.verdict env with b | ⟨b, f | f⟩
  · rfl
  · -- The head has a value, and the rest decides.
    simp only [Except.map, Verdict.answer, Stop.settle]
    rcases verdicts env es with b | f | bs <;> rfl
  · rfl

end Expr

namespace Program

/-- What evaluating a program returns. -/
def verdict (p : Program) : Except Breach Verdict := Env.ofArgs p.args >>= p.expr.verdict

/-- The value of a program. -/
def eval (p : Program) : Except Stop Bool := Stop.settle (p.verdict.map Verdict.answer)

/-- The value of a program is that of its expression at the declared bits. -/
theorem eval_of_ofArgs (p : Program) (env : Env) (h : Env.ofArgs p.args = .ok env) :
    p.eval = p.expr.eval env := by
  rw [eval, verdict, h]
  rfl

end Program

/-- The value of the program that a source spells. -/
def evaluate (src : Text) : Except Stop Bool := parse src >>= Program.eval

end BitLogic
