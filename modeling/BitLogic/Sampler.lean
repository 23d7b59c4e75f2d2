import BitLogic.Eval

/-!
# Random programs

Random programs that are well formed by construction. The draws come from outside
as a sequence of numbers, each reduced to the range that is asked for, so that every
run of a random source is covered by some sequence.

An expression is given a budget of calls. With nothing left it is a variable; else
it is a variable one time in three, and otherwise a call, which costs one and shares
the rest among its arguments from left to right. What a piece of text leaves of its
budget is part of what it is, and never more than the budget: so an argument has less
to spend than its call had, and writing comes to an end.

## Main definitions

* `Sampler.Draws`: The numbers still to be drawn.
* `Sampler.bits`: Random bits with spaces between them.
* `Sampler.Written`: A piece of text and the budget that is left.
* `Sampler.expr`, `Sampler.arguments`: A random expression, and the arguments of a
  random call.
* `Sampler.program`: A random program.
* `Sampler.Survey`: What holds of a number of random programs.
-/

namespace BitLogic

namespace Sampler

/-- A sequence of numbers and how many of them have been used. -/
structure Draws where
  source : Nat → Nat
  used : Nat

/-- The next number below `n`; there is none below zero or less. -/
def Draws.below (d : Draws) (n : Int) : Except Breach (Nat × Draws) :=
  if n ≤ 0 then .error .emptyChoice
  else .ok (d.source d.used % n.toNat, { d with used := d.used + 1 })

/-- A sequence of well-spread numbers that is determined by its seed. -/
def Draws.ofSeed (seed : Nat) : Draws :=
  { source := fun i =>
      let x : UInt64 := UInt64.ofNat (seed + i + 1) * 0x9E3779B97F4A7C15
      let x := (x ^^^ (x >>> 30)) * 0xBF58476D1CE4E5B9
      let x := (x ^^^ (x >>> 27)) * 0x94D049BB133111EB
      (x ^^^ (x >>> 31)).toNat
    used := 0 }

/-- Random bits, one by one. -/
def bitList (d : Draws) : Nat → Except Breach (List Text × Draws)
  | 0 => .ok ([], d)
  | n + 1 => do
    let (b, d) ← d.below 2
    let (bs, d) ← bitList d n
    return (Text.ofNat b :: bs, d)

/-- A number of random bits with spaces between them. -/
def bits (d : Draws) (n : Int) : Except Breach (Text × Draws) :=
  if n < 0 then .error .outOfRange
  else (bitList d n.toNat).map fun (bs, d) => (Text.joinWith [Text.space] bs, d)

/-- A piece of text, what is left of the budget that it was written on, and the draws
    behind it. -/
structure Written (limit : Int) where
  text : Text
  budget : Int
  draws : Draws
  within : budget ≤ limit

/-- One of the first `vars` variables. It costs nothing. -/
def leaf (budget vars : Int) (d : Draws) : Except Breach (Written budget) := do
  let (i, d) ← d.below vars
  return ⟨[UInt8.ofNat (65 + i)], budget, d, Int.le_refl budget⟩

/-- The functions in the order in which they are drawn. -/
def functionAt (i : Nat) : Builtin :=
  match i with
  | 0 => .not
  | 1 => .and
  | _ => .or

/-- A random function, and the number of arguments that it is called with. -/
def head (d : Draws) : Except Breach (Builtin × Nat × Draws) := do
  let (i, d) ← d.below 3
  match (functionAt i).arity? with
  | some n => return (functionAt i, n, d)
  | none =>
    let (n, d) ← d.below 4
    return (functionAt i, n, d)

mutual

/-- A random expression of at most `budget` calls over the first `vars` variables. -/
def expr (budget vars : Int) (d : Draws) : Except Breach (Written budget) :=
  if _h : budget ≤ 0 then leaf budget vars d
  else do
    let (coin, d) ← d.below 3
    if coin = 0 then leaf budget vars d
    else
      let (f, n, d) ← head d
      let args ← arguments (budget - 1) vars d n
      return ⟨f.name ++ Text.ofString "(" ++ args.text ++ Text.ofString ")", args.budget,
        args.draws, Int.le_trans args.within (Int.sub_le_self budget (by decide))⟩
termination_by (budget.toNat, 0)
decreasing_by exact Prod.Lex.left _ _ (by omega)

/-- Arguments with commas between them, each written on what the arguments before it
    have left. -/
def arguments (budget vars : Int) (d : Draws) : Nat → Except Breach (Written budget)
  | 0 => .ok ⟨[], budget, d, Int.le_refl budget⟩
  | 1 => expr budget vars d
  | n + 2 => do
    let first ← expr budget vars d
    let others ← arguments first.budget vars first.draws (n + 1)
    return ⟨first.text ++ Text.ofString ", " ++ others.text, others.budget, others.draws,
      Int.le_trans others.within first.within⟩
termination_by n => (budget.toNat, n)
decreasing_by
  · exact Prod.Lex.right _ (by omega)
  · exact Prod.Lex.right _ (by omega)
  · have hle := Int.toNat_le_toNat first.within
    rcases Nat.lt_or_eq_of_le hle with hlt | heq
    · exact Prod.Lex.left _ _ hlt
    · rw [heq]
      exact Prod.Lex.right _ (by omega)

end

/-- A random program that declares `vars` bits. -/
def program (size vars : Int) (d : Draws) : Except Breach (Text × Draws) :=
  if vars = 0 then .ok (Text.ofString "0 and()", d)
  else do
    let (bs, d) ← bits d vars
    let e ← expr size vars d
    return (Text.ofInt vars ++ [Text.space] ++ bs ++ [Text.space] ++ e.text, e.draws)

/-- What can be drawn. -/
inductive Subject where
  | bits
  | expr
  | program
  deriving Repr, DecidableEq

/-- A draw, and the program that it is judged by. Bits are declared under a constant
    expression, and an expression is put under bits that are all set. -/
structure Sample where
  text : Text
  source : Text

/-- One draw. -/
def Subject.sample (s : Subject) (size vars : Int) (d : Draws) :
    Except Breach (Sample × Draws) :=
  match s with
  | .bits => do
    let (t, d) ← Sampler.bits d size
    return (⟨t, Text.ofInt size ++ [Text.space] ++ t ++ Text.ofString " and()"⟩, d)
  | .expr => do
    let e ← Sampler.expr size vars d
    let ones := Text.times vars.toNat (Text.ofString " 1")
    return (⟨e.text, Text.ofInt vars ++ ones ++ [Text.space] ++ e.text⟩, e.draws)
  | .program => do
    let (t, d) ← Sampler.program size vars d
    return (⟨t, t⟩, d)

/-- The node is a call. -/
def isCall : Expr → Bool
  | .call _ _ _ => true
  | _ => false

/-- The number of calls in an expression. -/
def callCount (e : Expr) : Nat := e.visits.countP fun v => isCall v.node

/-- What holds of a number of draws: how many bits their programs declare, whether
    all of them have a value, whether none has more calls than allowed, and the last
    text drawn. -/
structure Survey where
  args : Nat
  evaluates : Bool
  withinSize : Bool
  text : Text

/-- A survey with one more draw. The size of an expression is not at issue where bits
    are drawn or no variables are declared. -/
def Survey.add (v : Survey) (s : Subject) (size vars : Int) (x : Sample) : Survey :=
  match parse x.source with
  | .error _ => { v with evaluates := false, text := x.text }
  | .ok p =>
    { args := p.args.length
      evaluates := v.evaluates && p.eval.toBool
      withinSize := v.withinSize &&
        (s == .bits || vars == 0 || decide ((callCount p.expr : Int) ≤ max size 0))
      text := x.text }

/-- The survey of a number of draws. -/
def survey (s : Subject) (size vars : Int) : Nat → Draws → Survey → Except Breach Survey
  | 0, _, v => .ok v
  | n + 1, d, v => do
    let (x, d) ← s.sample size vars d
    survey s size vars n d (v.add s size vars x)

/-- The survey of no draws at all. -/
def Survey.start : Survey := ⟨0, true, true, []⟩

/-- The text of a draw where chance has no part in it. -/
def Subject.certain? (s : Subject) (size vars : Int) (v : Survey) : Option Text :=
  match s with
  | .bits => none
  | .expr => if size ≤ 0 ∧ vars = 1 then some v.text else none
  | .program => if vars = 0 then some v.text else none

end Sampler

end BitLogic
