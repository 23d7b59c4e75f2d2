import BitLogic.Expr
import BitLogic.Fault

/-!
# Functions

The functions that a program can call. There are three of them: negation of one
value, and conjunction and disjunction of any number of values.

A call is checked before its arguments are looked at: first the name, then the
number of arguments. A function relies on that check. A negation takes the first of
its values, and breaks off if it is given none.

## Main definitions

* `Builtin`: The functions.
* `Builtin.ofName?`, `Builtin.arity?`: A function by its name, and the number of
  arguments that it insists on.
* `Builtin.apply`: The value of a function.
* `Builtin.resolve`: The function that a call means, or the fault in the call.
-/

namespace BitLogic

/-- The functions that a program can call. -/
inductive Builtin where
  | not
  | and
  | or
  deriving Repr, DecidableEq, Inhabited

namespace Builtin

/-- All functions, by name in ascending order. -/
def all : List Builtin := [.and, .not, .or]

/-- The name of a function. -/
def name : Builtin → Text
  | .not => Text.ofString "not"
  | .and => Text.ofString "and"
  | .or => Text.ofString "or"

/-- The function of a name. -/
def ofName? (t : Text) : Option Builtin := all.find? fun f => f.name == t

/-- The number of arguments that a function insists on. -/
def arity? : Builtin → Option Nat
  | .not => some 1
  | .and => none
  | .or => none

/-- The value of a function. Without arguments a conjunction is true, a disjunction
    false, and a negation out of range. -/
def apply : Builtin → List Bool → Except Breach Bool
  | .not, [] => .error .outOfRange
  | .not, b :: _ => .ok !b
  | .and, bs => .ok (bs.foldl (· && ·) true)
  | .or, bs => .ok (bs.foldl (· || ·) false)

/-- The function that a call with `count` arguments means, or the fault in it. -/
def resolve (ident : Ident) (count : Nat) (span : Span) : Except Fault Builtin :=
  match ofName? ident.name with
  | none => .error ⟨.undefinedFunction ident.name, span⟩
  | some f =>
    match f.arity? with
    | none => .ok f
    | some n => if n = count then .ok f else .error ⟨.arity f.name n count, span⟩

end Builtin

end BitLogic
