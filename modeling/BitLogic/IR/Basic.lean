import BitLogic.Builtin
import BitLogic.Env

/-!
# Modules of instructions

A program is lowered to two functions. `eval` takes one bit per declared bit and
computes the expression in a single block of and, or and exclusive or; an operand is
a constant, a parameter, or the result of an earlier instruction, which is known by
its position in the block. `main` calls `eval` with the declared bits and returns
the result as a number.

A function whose block has no final `ret` yet is unfinished. Such a function is left
behind when lowering stops at a fault, and a module that holds one cannot be
printed.

## Main definitions

* `IR.Operand`, `IR.Instr`: What instructions work on, and the instructions.
* `IR.Func`: The two kinds of functions.
* `IR.Values`: Operands by name.
-/

namespace BitLogic

namespace IR

/-- What an instruction works on: a bit, a parameter, or the result of the
    instruction at a position of the block. -/
inductive Operand where
  | const (bit : Bool)
  | param (name : Text)
  | result (index : Nat)
  deriving Repr, DecidableEq, Inhabited

/-- The operations on bits. -/
inductive Op where
  | and
  | or
  | xor
  deriving Repr, DecidableEq, Inhabited

/-- An operation on two operands. -/
structure Instr where
  op : Op
  lhs : Operand
  rhs : Operand
  deriving Repr, DecidableEq, Inhabited

/-- The function that computes an expression, `ret` being absent while it is
    unfinished, or the function that calls the one before it with given bits. -/
inductive Func where
  | eval (params : List Text) (body : Array Instr) (ret : Option Operand)
  | main (bits : List Bool)
  deriving Repr, DecidableEq, Inhabited

/-- Operands by name. -/
abbrev Values := List (Text × Operand)

namespace Values

/-- The operand of a name. -/
def get? (vs : Values) (name : Text) : Option Operand := vs.lookup name

/-- A name bound to an operand, whatever it was bound to before. -/
def set (vs : Values) (name : Text) (x : Operand) : Values := (name, x) :: vs.eraseP (·.1 == name)

end Values

end IR

end BitLogic
