import BitLogic.Text.Basic

/-!
# Settings

What a user can set for the command line: the prompt, colour, how much is logged,
what is shown beside a result, and where the history of the prompt is kept. Each
setting has a name in settings files and takes either a text or a truth value.

## Main definitions

* `Settings`: The settings, with their defaults.
* `Settings.Field`: A setting by itself, and its name.
* `Settings.setText`, `Settings.setFlag`: The settings after one of them changed.
-/

namespace BitLogic

/-- The settings of the command line. -/
structure Settings where
  prompt : Text := Text.ofString ">>> "
  colour : Bool := true
  logLevel : Text := Text.ofString "warn"
  showTokens : Bool := false
  showTree : Bool := false
  historyFile : Text := []
  deriving Repr, DecidableEq, Inhabited

namespace Settings

/-- The settings that take a text. -/
inductive TextField where
  | prompt
  | logLevel
  | historyFile
  deriving Repr, DecidableEq, Inhabited

/-- The settings that take a truth value. -/
inductive FlagField where
  | colour
  | showTokens
  | showTree
  deriving Repr, DecidableEq, Inhabited

/-- A setting. -/
inductive Field where
  | text (f : TextField)
  | flag (f : FlagField)
  deriving Repr, DecidableEq, Inhabited

namespace Field

/-- The settings under their names in settings files. -/
def names : List (Text × Field) :=
  [(Text.ofString "prompt", .text .prompt),
    (Text.ofString "color", .flag .colour),
    (Text.ofString "log_level", .text .logLevel),
    (Text.ofString "show_tokens", .flag .showTokens),
    (Text.ofString "show_tree", .flag .showTree),
    (Text.ofString "history_file", .text .historyFile)]

end Field

/-- The settings after one of the texts changed. -/
def setText (s : Settings) (f : TextField) (t : Text) : Settings :=
  match f with
  | .prompt => { s with prompt := t }
  | .logLevel => { s with logLevel := t }
  | .historyFile => { s with historyFile := t }

/-- The settings after one of the truth values changed. -/
def setFlag (s : Settings) (f : FlagField) (b : Bool) : Settings :=
  match f with
  | .colour => { s with colour := b }
  | .showTokens => { s with showTokens := b }
  | .showTree => { s with showTree := b }

end Settings

end BitLogic
