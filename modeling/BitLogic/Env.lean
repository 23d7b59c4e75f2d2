import BitLogic.Fault
import BitLogic.Text.Utf8

/-!
# Environments

The declared bits are bound to the capital letters in order, which is why a program
can declare no more than there are letters.

## Main definitions

* `Env`: Truth values by name.
* `varName`: The letter of a position.
* `Env.ofArgs`: The declared bits by letter.
* `Env.get?`: The value of a name.
-/

namespace BitLogic

/-- Truth values by name. -/
abbrev Env := List (Text × Bool)

/-- The character as many places after A as the index says. Places are counted in
    signed words of 32 bits; one that is no code point gives the replacement
    character. -/
def varName (i : Int) : Text :=
  let c := Int.bmod (65 + i) 4294967296
  if c < 0 then Utf8.encode Utf8.replacement else Utf8.encode c.toNat

/-- The names of the first `n` positions. -/
def varNames (n : Nat) : List Text := (List.range n).map fun (i : Nat) => varName i

namespace Env

/-- The declared bits by letter, if there are letters enough. -/
def ofArgs (args : List Bool) : Except Breach Env :=
  if maxArgs < args.length then .error (.tooManyArgs args.length)
  else .ok ((varNames args.length).zip args)

/-- The value of a name. -/
def get? (env : Env) (name : Text) : Option Bool := env.lookup name

end Env

end BitLogic
