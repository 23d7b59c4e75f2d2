import BitLogic.Builtin
import BitLogic.Env
import BitLogic.Expr.Parser

/-!
# Checking

Checking a program finds all its faults without evaluating it. Every node is
visited, a node before its arguments, also the arguments of a call that is faulty
itself, and each fault is reported once: a fault with the place and the wording of
an earlier one adds nothing.

## Main definitions

* `Symbols`: The names that a program may use and the faults found so far.
* `Symbols.report`: One more fault, unless it has been reported before.
* `Symbols.problem?`: The fault of a single node.
* `Program.check`: The faults of a program.
* `check`: The faults of the program that a source spells.
-/

namespace BitLogic

/-- The names that a program may use and the faults found so far. -/
structure Symbols where
  bindings : Env
  problems : List Fault
  deriving Repr, Inhabited

namespace Symbols

/-- The names for a program with the given bits, before anything is found. -/
def ofArgs (args : List Bool) : Except Breach Symbols :=
  (Env.ofArgs args).map fun env => ⟨env, []⟩

/-- One more fault, unless one with its place and wording has been reported. -/
def report (s : Symbols) (f : Fault) : Symbols :=
  if s.problems.any fun g => g.span == f.span && g.message == f.message then s
  else { s with problems := s.problems ++ [f] }

/-- The fault of a single node, its arguments apart. -/
def problem? (s : Symbols) : Expr → Option Fault
  | .var id _ =>
    if (s.bindings.get? id.name).isSome then none
    else some ⟨.undefinedVariable id.name, id.span⟩
  | .call id args span =>
    match Builtin.resolve id args.length span with
    | .error f => some f
    | .ok _ => none
  | .blank _ => none

/-- The faults after one more node. -/
def visit (s : Symbols) (v : Visit) : Symbols :=
  match s.problem? v.node with
  | some f => s.report f
  | none => s

end Symbols

/-- The faults of a program, in the order of its nodes. -/
def Program.check (p : Program) : Except Breach (List Fault) :=
  (Symbols.ofArgs p.args).map fun s => (p.expr.visits.foldl Symbols.visit s).problems

/-- The faults of the program that a source spells. -/
def check (src : Text) : Except Stop (List Fault) := do
  let p ← parse src
  match p.check with
  | .error b => .error (.breach b)
  | .ok problems => .ok problems

end BitLogic
