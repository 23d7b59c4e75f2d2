import BitLogic.IR.Basic
import BitLogic.Expr.Parser

/-!
# Lowering

A builder gathers the functions of a module. Each program adds its `eval` and its
`main`; one that is faulty adds an unfinished `eval` only. The names bound for one
program stay bound for the next, so that a program may see parameters of functions
lowered before it.

A call is lowered after its arguments: a negation is an exclusive or with true, and
a conjunction or disjunction of several values is a chain of instructions from left
to right, one less than there are values. A single value is its own conjunction, and
no value at all is a constant.

## Main definitions

* `IR.Lowering`: An action that appends instructions and may stop at a fault, the
  instructions so far being kept.
* `IR.emit`: The instructions of a function applied to operands.
* `IR.lower`: The instructions of an expression.
* `IR.Builder`, `IR.Builder.build`: The functions and names so far, and one more
  program.
-/

namespace BitLogic

namespace IR

/-- An action on the block under construction. A fault keeps the instructions
    appended before it. -/
abbrev Lowering := EStateM Stop (Array Instr)

/-- One more instruction; its operand is the position that it gets. -/
def push (i : Instr) : Lowering Operand := do
  let body ← get
  set (body.push i)
  return .result body.size

/-- A chain of one operation from left to right, or the constant `unit` when there
    is nothing to combine. -/
def chain (op : Op) (unit : Bool) : List Operand → Lowering Operand
  | [] => return .const unit
  | x :: xs => xs.foldlM (fun acc y => push ⟨op, acc, y⟩) x

/-- The instructions of a function applied to operands. A negation of no operand is out
    of range. -/
def emit : Builtin → List Operand → Lowering Operand
  | .not, [] => throw (.breach .outOfRange)
  | .not, x :: _ => push ⟨.xor, x, .const true⟩
  | .and, xs => chain .and true xs
  | .or, xs => chain .or false xs

mutual

/-- The instructions of an expression and the operand that holds its value. -/
def lower (vs : Values) : Expr → Lowering Operand
  | .var id _ =>
    match vs.get? id.name with
    | some x => return x
    | none => throw (.fault ⟨.undefinedVariable id.name, id.span⟩)
  | .call id args s =>
    match Builtin.resolve id args.length s with
    | .error f => throw (.fault f)
    | .ok f => do
      let xs ← lowerAll vs args
      emit f xs
  | .blank _ => throw (.breach .blankExpr)

/-- The instructions of expressions from left to right. -/
def lowerAll (vs : Values) : List Expr → Lowering (List Operand)
  | [] => return []
  | e :: es => do
    let x ← lower vs e
    let xs ← lowerAll vs es
    return x :: xs

end

/-- The functions of a module so far, in order, and the names bound so far. -/
structure Builder where
  funcs : List Func
  values : Values
  deriving Repr, Inhabited

namespace Builder

/-- A module without functions. -/
def empty : Builder := ⟨[], []⟩

/-- The names bound when a program with these parameters is lowered. -/
def bind (vs : Values) (params : List Text) : Values :=
  params.foldl (fun vs p => vs.set p (.param p)) vs

/-- The module after one more program, and the fault that the program stopped at if
    there is one. -/
def build (b : Builder) (p : Program) : Option Stop × Builder :=
  let params := varNames p.args.length
  let values := bind b.values params
  match (lower values p.expr).run #[] with
  | .ok x body => (none, ⟨b.funcs ++ [.eval params body (some x), .main p.args], values⟩)
  | .error stop body => (some stop, ⟨b.funcs ++ [.eval params body none], values⟩)

end Builder

end IR

end BitLogic
