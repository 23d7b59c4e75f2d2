import BitLogic.Settings.Basic
import BitLogic.Toml.Table

/-!
# Settings in TOML

The top-level keys of a document that name a setting, in whatever case they are
written, change that setting. A setting only takes a value of its own kind. All other
keys are passed over.

## Main definitions

* `Settings.ofToml?`: Settings with those of a document laid over them.
-/

namespace BitLogic

namespace Settings

/-- The lower-case form of a code point as far as the names of settings need it: that
    of the ASCII letters and of the two other letters that fold to one. -/
def foldCode (c : Nat) : Nat :=
  if 65 ≤ c ∧ c ≤ 90 then c + 32
  else if c = 0x212A then 107
  else if c = 0x17F then 115
  else c

/-- A key without regard to case. -/
def foldKey (key : Text) : Text := Utf8.ofCodes ((Utf8.codes key).map foldCode)

/-- The settings after an entry of a document. -/
def setEntry? (s : Settings) (key : Text) (node : Toml.Node) : Option Settings :=
  match Field.names.lookup (foldKey key), node with
  | none, _ => some s
  | some (.text f), .text t => some (s.setText f t)
  | some (.flag f), .flag b => some (s.setFlag f b)
  | some _, _ => none

/-- The settings with those of a document laid over them; none if the document is
    malformed or gives a setting a value of another kind. -/
def ofToml? (s : Settings) (source : Text) : Option Settings := do
  (← Toml.read? source).foldlM (fun s (key, node) => s.setEntry? key node) s

end Settings

end BitLogic
