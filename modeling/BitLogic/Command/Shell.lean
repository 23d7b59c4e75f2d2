import BitLogic.Command.Basic
import BitLogic.Command.Output

/-!
# Completion for shells

A shell completes words with a script that the program prints for it, and the script
asks the program for the choices at a word. What the scripts are, and what is answered to
them, is not settled here. A completer does both, and a run of the program takes it as
given.

## Main definitions

* `Shell`: The shells that there are scripts for.
* `Shell.find?`: The shell that arguments name, and the other arguments.
* `Completer`: What scripts are printed, and what is answered to them.
-/

namespace BitLogic

/-- The shells that there are scripts for. -/
inductive Shell where
  | bash
  | fish
  | powershell
  | zsh
  deriving Repr, DecidableEq, Inhabited

namespace Shell

/-- All shells, by name in ascending order. -/
def all : List Shell := [.bash, .fish, .powershell, .zsh]

/-- The name of a shell, which is also the word that names it. -/
def name : Shell → Text
  | .bash => Text.ofString "bash"
  | .fish => Text.ofString "fish"
  | .powershell => Text.ofString "powershell"
  | .zsh => Text.ofString "zsh"

/-- The script of a shell in one line. -/
def summary (s : Shell) : Text :=
  Text.ofString "Generate the autocompletion script for " ++ s.name

/-- A shell by its name. -/
def ofName? (t : Text) : Option Shell := all.find? (·.name == t)

/-- The shell that arguments name, and the other arguments. It is looked for as a command
    is. -/
def find? (args : List Text) : Option (Shell × List Text) := do
  let word ← Command.firstWord? args
  let shell ← ofName? word
  return (shell, Command.withoutWord word args)

end Shell

/-- What scripts are printed, and what is answered to them: the help text on the script of
    a shell, the script itself with the arguments behind the shell, and the choices for the
    arguments of a request. -/
structure Completer where
  about : Shell → Text
  script : Shell → List Text → Output
  choices : Bool → List Text → Output

/-- A completer that prints nothing. -/
def Completer.silent : Completer := ⟨fun _ => [], fun _ _ => {}, fun _ _ => {}⟩

instance : Inhabited Completer := ⟨.silent⟩

end BitLogic
