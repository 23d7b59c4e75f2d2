import BitLogic.Token

/-!
# Faults, breaches and failures

A fault is something wrong with a program, at a place in its source. Its cause says
what is wrong, and the wording follows from the cause.

A breach is something wrong with the caller instead: a program built by hand that no
source could give, or a module that is printed before it is finished. It has no
place in a source.

A failure is what the outer layers hand on: a fault, a plain text, or either of them
with context around it.

## Main definitions

* `Cause`, `Cause.message`, `Cause.category`: What is wrong, in words, and what sort
  of thing that is.
* `Fault`: A cause at a place.
* `Breach`: A broken promise of the caller.
* `Stop`: Why a computation ended without a value.
* `Failure`, `Failure.text`, `Failure.fault?`: Anything that can be reported, in
  words, and the fault inside it.
-/

namespace BitLogic

/-- How many bits a program can declare: one per capital letter. -/
def maxArgs : Nat := 26

namespace Cause

/-- The sorts of causes. -/
inductive Category where
  | unknown
  | argLimit
  | bit
  | token
  | number
  | trailing
  | undefinedVariable
  | arity
  | undefinedFunction
  deriving Repr, DecidableEq, Inhabited

end Cause

/-- What is wrong with a program. -/
inductive Cause where
  | argLimit
  | missingBit (got : Token.Kind)
  | badBit
  | token (wanted got : Token.Kind)
  | tokenAmong (wanted : List Token.Kind) (got : Token.Kind)
  | number
  | trailing (got : Token.Kind)
  | undefinedVariable (name : Text)
  | arity (name : Text) (wanted got : Nat)
  | undefinedFunction (name : Text)
  | other (category : Cause.Category) (message : Text)
  deriving Repr, DecidableEq, Inhabited

namespace Cause

/-- The sort of a cause. -/
def category : Cause → Category
  | .argLimit => .argLimit
  | .missingBit _ => .bit
  | .badBit => .bit
  | .token _ _ => .token
  | .tokenAmong _ _ => .token
  | .number => .number
  | .trailing _ => .trailing
  | .undefinedVariable _ => .undefinedVariable
  | .arity _ _ _ => .arity
  | .undefinedFunction _ => .undefinedFunction
  | .other category _ => category

/-- A text between backquotes. -/
def ticked (t : Text) : Text := [96] ++ t ++ [96]

/-- What was wanted and what stood there instead. -/
def mismatch (wanted : Text) (got : Token.Kind) : Text :=
  Text.ofString "expected token of kind " ++ wanted ++ Text.ofString ", instead got " ++
    ticked got.text

/-- The wording of a cause. -/
def message : Cause → Text
  | .argLimit =>
    Text.ofString "can't declare more than " ++ Text.ofNat maxArgs ++ Text.ofString " params"
  | .missingBit got =>
    Text.ofString "expected next bit, instead got token of kind " ++ ticked got.text
  | .badBit => Text.ofString "invalid bit, must be `0` or `1`"
  | .token wanted got => mismatch (ticked wanted.name) got
  | .tokenAmong wanted got =>
    let names := Text.joinWith (Text.ofString ", ") (wanted.map Token.Kind.name)
    mismatch (Text.ofString "in " ++ ticked (Text.ofString "[" ++ names ++ Text.ofString "]")) got
  | .number => Text.ofString "unparsable number"
  | .trailing got => mismatch (ticked Token.Kind.eof.name) got
  | .undefinedVariable name => ticked name ++ Text.ofString " is not defined"
  | .arity name wanted got =>
    if wanted = 1 then ticked name ++ Text.ofString " requires single argument"
    else ticked name ++ Text.ofString " requires " ++ Text.ofNat wanted ++
      Text.ofString " arguments, got " ++ Text.ofNat got
  | .undefinedFunction name => Text.ofString "cannot call undefined function " ++ ticked name
  | .other _ message => message

end Cause

/-- A cause at a place in the source. -/
structure Fault where
  cause : Cause
  span : Span
  deriving Repr, DecidableEq, Inhabited

/-- The wording of a fault. -/
def Fault.message (f : Fault) : Text := f.cause.message

/-- A broken promise of the caller. -/
inductive Breach where
  | tooManyArgs (count : Nat)
  | blankExpr
  | unfinishedBlock (soFar : Text)
  | outOfRange
  | emptyChoice
  deriving Repr, DecidableEq, Inhabited

/-- The wording of a breach; some have none. -/
def Breach.message? : Breach → Option Text
  | .tooManyArgs count =>
    some (Text.ofString "booleval: " ++ Text.ofNat count ++
      Text.ofString " arguments exceed the " ++
      Text.ofNat maxArgs ++ Text.ofString " addressable variables")
  | .blankExpr => some (Text.ofString "booleval: unexpected expression kind <nil>")
  | .unfinishedBlock soFar =>
    some (Text.ofString "missing terminator in basic block \"entry\".\ncurrent instructions:\n" ++
      soFar)
  | .outOfRange => none
  | .emptyChoice => some (Text.ofString "invalid argument to Intn")

/-- Why a computation ended without a value. -/
inductive Stop where
  | fault (fault : Fault)
  | breach (breach : Breach)
  deriving Repr, DecidableEq, Inhabited

/-- Anything that can be reported: a text, a fault, either of them in some context,
    or several at once. -/
inductive Failure where
  | plain (text : Text)
  | located (fault : Fault)
  | within (context : Text) (inner : Failure)
  | several (parts : List Failure)

namespace Failure

mutual

/-- A failure in words. Several failures stand on lines of their own. -/
def text : Failure → Text
  | .plain t => t
  | .located f => f.message
  | .within context inner => context ++ Text.ofString ": " ++ inner.text
  | .several parts => Text.joinWith [Text.lineFeed] (texts parts)

/-- Failures in words, one by one. -/
def texts : List Failure → List Text
  | [] => []
  | f :: fs => f.text :: texts fs

end

mutual

/-- The fault inside a failure: of several, the first that has one. -/
def fault? : Failure → Option Fault
  | .plain _ => none
  | .located f => some f
  | .within _ inner => inner.fault?
  | .several parts => firstFault? parts

/-- The first fault inside a list of failures. -/
def firstFault? : List Failure → Option Fault
  | [] => none
  | f :: fs => f.fault?.or (firstFault? fs)

end

end Failure

end BitLogic
