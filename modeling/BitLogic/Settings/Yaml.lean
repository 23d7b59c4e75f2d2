import BitLogic.Settings.Basic
import BitLogic.Yaml.Kind

/-!
# Settings in YAML

The first document of a stream is a mapping, or there is none; its keys that name a
setting change that setting, and null leaves it alone. A text setting takes any scalar
as it is written. A truth value is one of the words of the standard, or one of the
older words for it where these are taken as texts. A merge key brings in the settings
of other mappings that the mapping itself does not have.

## Main definitions

* `Settings.flagOf?`: The truth value of a scalar.
* `Settings.setNode?`: The settings after one of them got a node.
* `Settings.ofMapping?`: The settings after the pairs of a mapping.
* `Settings.ofYaml?`: Settings with those of a stream laid over them.
-/

namespace BitLogic

namespace Settings

/-- The words that mean a truth value when a setting asks for one. -/
def flagWords : List (Text × Bool) :=
  (["y", "Y", "yes", "on"].map fun w => (Text.ofString w, true)) ++
    ["n", "N", "no", "off"].map fun w => (Text.ofString w, false)

/-- The truth value of a meaning. -/
def flagOf? : Yaml.Meaning → Option Bool
  | .flag b _ => some b
  | .text t => flagWords.lookup t
  | _ => none

/-- The settings after one of them got a meaning. -/
def setMeaning? (s : Settings) (m : Yaml.Meaning) : Field → Option Settings
  | .text f => some ((m.written?.map (s.setText f)).getD s)
  | .flag f => if m = .null then some s else (flagOf? m).map (s.setFlag f)

/-- The settings after one of them got a node: a scalar or the alias of one. -/
def setNode? (s : Settings) (field : Field) : Yaml.Node → Option Settings
  | .scalar tag plain cs => do s.setMeaning? (← Yaml.meaning? tag plain cs) field
  | .alias _ (some n) => s.setNode? field n
  | _ => none

/-- The text of a key, none inside if it is null. Keys have to be scalars. -/
def keyText? : Yaml.Node → Option (Option Text)
  | .scalar tag plain cs => (Yaml.meaning? tag plain cs).map Yaml.Meaning.written?
  | .alias _ (some n) => keyText? n
  | _ => none

/-- The key that brings in other mappings. -/
def isMerge : Yaml.Node → Bool
  | .scalar tag plain cs =>
    cs = ['<', '<'] &&
      if Yaml.isUnspecific tag then plain
      else Yaml.standardName? tag = some (Text.ofString "merge")
  | _ => false

/-- What tells two keys apart: their sort and their text. -/
def keyMark : Yaml.Node → Nat × List Char
  | .scalar _ _ cs => (0, cs)
  | .sequence _ => (1, [])
  | .mapping _ => (2, [])
  | .alias name _ => (3, name)

/-- No two keys of a mapping are alike. -/
def keysDiffer (pairs : List (Yaml.Node × Yaml.Node)) : Bool :=
  (pairs.map fun p => keyMark p.1).Nodup

/-- The keys of a mapping as texts. -/
def keyTexts (pairs : List (Yaml.Node × Yaml.Node)) : List Text :=
  pairs.filterMap fun p => (keyText? p.1).join

/-- No setting is named twice in a mapping, once by its name and once by an alias of
    it. -/
def fieldsDiffer (pairs : List (Yaml.Node × Yaml.Node)) : Bool :=
  ((keyTexts pairs).filter fun name => (Field.names.lookup name).isSome).Nodup

/-- The settings after the pairs of a mapping, the merge keys left aside. Where some
    keys are taken, they are passed over, and the keys of the mapping are taken too. -/
def setPairs? (s : Settings) (taken : Option (List Text)) :
    List (Yaml.Node × Yaml.Node) → Option (Settings × Option (List Text))
  | [] => some (s, taken)
  | (key, node) :: pairs =>
    if isMerge key then s.setPairs? taken pairs
    else do
      match ← keyText? key with
      | none => s.setPairs? taken pairs
      | some name =>
        if (taken.map (·.contains name)).getD false then s.setPairs? taken pairs
        else
          let s ← match Field.names.lookup name with
            | some field => s.setNode? field node
            | none => some s
          s.setPairs? (taken.map (name :: ·)) pairs

/-- The value of the merge key of a mapping. -/
def mergeOf? (pairs : List (Yaml.Node × Yaml.Node)) : Option Yaml.Node :=
  (pairs.find? fun p => isMerge p.1).map (·.2)

/-- The pairs of a mapping or of the alias of one. -/
def pairsOf? : Yaml.Node → Option (List (Yaml.Node × Yaml.Node))
  | .mapping pairs => some pairs
  | .alias _ (some (.mapping pairs)) => some pairs
  | _ => none

/-- The mappings that a merge key brings in: one, or several of which the first ones
    count most. -/
def mergedOf? (n : Yaml.Node) : Option (List (List (Yaml.Node × Yaml.Node))) :=
  match n with
  | .sequence items => items.mapM pairsOf?
  | _ => (pairsOf? n).map ([·])

/-- The settings after the pairs of a mapping and of those merged into it, in which keys
    that are taken may come again. The number of steps bounds how deep merges may
    nest. -/
def ofMapping? (steps : Nat) (s : Settings) (taken : Option (List Text))
    (pairs : List (Yaml.Node × Yaml.Node)) : Option (Settings × Option (List Text)) :=
  match steps with
  | 0 => none
  | steps + 1 => do
    guard (keysDiffer pairs && (taken.isSome || fieldsDiffer pairs))
    let (s, after) ← s.setPairs? taken pairs
    match mergeOf? pairs with
    | none => return (s, after)
    | some n =>
      let (s, merged) ← (← mergedOf? n).foldlM
        (fun (s, taken) pairs => ofMapping? steps s taken pairs)
        (s, some (after.getD (keyTexts pairs)))
      return (s, after.bind fun _ => merged)

/-- The settings with those of a stream laid over them; none if the stream is malformed
    or gives a setting a value that it cannot take. -/
def ofYaml? (s : Settings) (source : Text) : Option Settings := do
  match ← Yaml.read? source with
  | none => return s
  | some (.scalar tag plain cs) => if (← Yaml.meaning? tag plain cs) = .null then return s else none
  | some (.mapping pairs) => return (← ofMapping? source.length.succ s none pairs).1
  | some _ => none

end Settings

end BitLogic
