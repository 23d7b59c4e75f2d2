import BitLogic.Files
import BitLogic.Settings.Toml
import BitLogic.Settings.Yaml
import BitLogic.Text.LowerCase
import BitLogic.Text.Quoted

/-!
# Settings files

A settings file is read on top of the defaults. Its extension, in whatever case, says
in which format it is written.

## Main definitions

* `Settings.Format`: The formats of settings files.
* `Settings.load`: The settings of a file.
-/

namespace BitLogic

namespace Settings

/-- The formats of settings files. -/
inductive Format where
  | toml
  | yaml
  deriving Repr, DecidableEq, Inhabited

/-- The format that an extension stands for. -/
def Format.ofExtension? (ext : Text) : Option Format :=
  if ext = Text.ofString ".toml" then some .toml
  else if ext = Text.ofString ".yaml" || ext = Text.ofString ".yml" then some .yaml
  else none

/-- Settings with those of a file in some format laid over them. -/
def Format.read? (f : Format) (s : Settings) (source : Text) : Option Settings :=
  match f with
  | .toml => s.ofToml? source
  | .yaml => s.ofYaml? source

/-- The settings of a file on top of the defaults. The file is read before its extension
    is looked at. -/
def load (files : Files) (path : Text) : Except Failure Settings := do
  let source ← (files.read path).mapError
    fun e => .within (Text.ofString "failed to read config file") e
  let ext := lowerCase (Files.extension path)
  match Format.ofExtension? ext with
  | none => throw (.plain (Text.ofString "unsupported config format " ++ Quoted.text ext))
  | some format =>
    match format.read? {} source with
    | some s => return s
    | none => throw (.plain (Text.ofString "failed to parse config file"))

end Settings

end BitLogic
