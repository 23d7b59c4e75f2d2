import BitLogic.Text.Basic

/-!
# The syntax of TOML

A document is a sequence of items: a key with its value, the head of a table, or the
head of one more element in an array of tables. Which tables the items make up, and
whether they agree, is the matter of `Toml.Table`.

Numbers and moments are checked when they are read and then forgotten, because no
setting is one.

## Main definitions

* `Toml.Path`: A key of one or more parts.
* `Toml.Value`: A value as it is written.
* `Toml.Item`: A line of a document.
-/

namespace BitLogic

namespace Toml

/-- A key of one or more parts, outermost part first. -/
abbrev Path := List Text

/-- A value as it is written. -/
inductive Value where
  | text (t : Text)
  | flag (b : Bool)
  | number
  | moment
  | array (items : List Value)
  | record (pairs : List (Path × Value))
  deriving Repr, Inhabited

/-- A line of a document, or several where a value takes them. -/
inductive Item where
  | pair (path : Path) (value : Value)
  | table (path : Path)
  | element (path : Path)
  deriving Repr, Inhabited

end Toml

end BitLogic
