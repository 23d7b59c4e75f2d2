import BitLogic.Span

/-!
# Expressions

An expression is a variable or a call with arguments. Each node knows its span and
the span of the name in it, which is a part of it. Expressions built by hand may
hold blank nodes, which are neither; a source never gives one.

Walking an expression visits a node before its arguments and these in order, and
leaves out the arguments of a node that it is told not to enter.

## Main definitions

* `Ident`: A name at a place.
* `Expr`: Variables, calls and blank nodes.
* `Expr.children`: The arguments of a node.
* `Expr.walk`: The visits to the nodes of an expression.
* `Program`: The declared bits and an expression over them.

## Theorems

* `Expr.induction_args`: Induction with the hypothesis for every argument.
-/

namespace BitLogic

/-- A name at a place in the source. -/
structure Ident where
  name : Text
  span : Span
  deriving Repr, DecidableEq, Inhabited

/-- A variable, a call, or a node that is neither. -/
inductive Expr where
  | var (ident : Ident) (span : Span)
  | call (ident : Ident) (args : List Expr) (span : Span)
  | blank (span : Span)
  deriving Repr, Inhabited

/-- A node met at some depth below the root. -/
structure Visit where
  node : Expr
  depth : Nat
  deriving Repr, Inhabited

namespace Expr

/-- The span of a node. -/
def span : Expr → Span
  | .var _ s => s
  | .call _ _ s => s
  | .blank s => s

/-- Induction over an expression with the hypothesis for every argument of a call. The
    generated principle has a second motive for lists of arguments, which no
    statement about expressions wants to spell out. -/
@[elab_as_elim]
theorem induction_args {P : Expr → Prop} (var : ∀ id s, P (.var id s))
    (call : ∀ id args s, (∀ a ∈ args, P a) → P (.call id args s))
    (blank : ∀ s, P (.blank s)) : ∀ e, P e
  | .var id s => var id s
  | .call id args s => call id args s fun a _ => induction_args var call blank a
  | .blank s => blank s

/-- The arguments of a node, in the order of evaluation. -/
def children : Expr → List Expr
  | .call _ args _ => args
  | _ => []

mutual

/-- The visits to a node at depth `d` and to the nodes below it. The arguments of a
    node that is not entered are left out. -/
def walk (enter : Expr → Nat → Bool) (d : Nat) : Expr → List Visit
  | .var id s => [⟨.var id s, d⟩]
  | .blank s => [⟨.blank s, d⟩]
  | .call id args s =>
    ⟨.call id args s, d⟩ ::
      (if enter (.call id args s) d then walkAll enter (d + 1) args else [])

/-- The visits to a list of neighbours at depth `d` and to the nodes below them. -/
def walkAll (enter : Expr → Nat → Bool) (d : Nat) : List Expr → List Visit
  | [] => []
  | e :: es => walk enter d e ++ walkAll enter d es

end

/-- The visits to every node, a node before its arguments. -/
def visits (e : Expr) : List Visit := e.walk (fun _ _ => true) 0

end Expr

/-- The declared bits, bound to the letters from A on, and an expression over
    them. -/
structure Program where
  args : List Bool
  expr : Expr
  deriving Repr, Inhabited

end BitLogic
