import BitLogic.Toml.Reader

/-!
# The tables of a TOML document

The items of a document, taken in order, build up one table. A table may come about
implicitly, as the parent of something that has been named, and may then be opened
explicitly once; a key that has a value may not be given another one. Keys in the
context of an array of tables belong to its last element.

Two rules are looser than they could be. A table that a key with several parts has
brought about may be opened afterwards, and so may the table of a record. The value
of an array may be replaced, because the elements of an array of records are put in
place while the array is still being read.

## Main definitions

* `Toml.Node`: What a key of a table leads to.
* `Toml.Build`: The table built so far, and what is implicit or an array in it.
* `Toml.Build.add?`: The effect of an item.
* `Toml.read?`: The table of a document.
-/

namespace BitLogic

namespace Toml

/-- What a key leads to. Only texts and truth values are kept as they are; `other`
    stands for numbers, moments and arrays. -/
inductive Node where
  | text (t : Text)
  | flag (b : Bool)
  | other
  | table (entries : List (Text × Node))
  | elements (tables : List (List (Text × Node)))
  deriving Repr, Inhabited

/-- The entries of a table in the order of their making. -/
abbrev Table := List (Text × Node)

namespace Table

/-- A key gets a node, in place of the one that it had. -/
def put (t : Table) (key : Text) (node : Node) : Table :=
  if t.any (·.1 == key) then t.map fun e => if e.1 == key then (key, node) else e
  else t ++ [(key, node)]

/-- The table in which the entries of a node are looked up: the node itself, or the
    last of its elements. -/
def ofNode? : Node → Option Table
  | .table entries => some entries
  | .elements ts => ts.getLast?
  | _ => none

/-- The node after its table has changed. -/
def intoNode : Node → Table → Node
  | .elements ts, t => .elements (ts.dropLast ++ [t])
  | _, t => .table t

/-- The table at the end of a path. -/
def find? (t : Table) : Path → Option Table
  | [] => some t
  | key :: path => (t.lookup key).bind ofNode? |>.bind (find? · path)

/-- The table at the end of a path changes. -/
def modify? (t : Table) (change : Table → Table) : Path → Option Table
  | [] => some (change t)
  | key :: path => do
    let node ← t.lookup key
    let inner ← modify? (← ofNode? node) change path
    return t.put key (intoNode node inner)

end Table

/-- The table built so far, the paths that exist only implicitly, and those whose
    value was an array when they were last given one. -/
structure Build where
  root : Table
  implicits : List Path
  arrays : List Path
  deriving Repr, Inhabited

namespace Build

/-- The path of a key in a context, as far as kinds of values are noted by it: an
    empty key counts for its context. -/
def notedPath (context : Path) (key : Text) : Path :=
  if !key.isEmpty then context ++ [key]
  else if context.isEmpty then [[]]
  else context

/-- Notes whether a key now holds an array. -/
def note (s : Build) (context : Path) (key : Text) (isArray : Bool) : Build :=
  let path := notedPath context key
  let arrays := s.arrays.filter (· ≠ path)
  { s with arrays := if isArray then path :: arrays else arrays }

/-- A path exists implicitly. -/
def imply (s : Build) (path : Path) : Build := { s with implicits := path :: s.implicits }

/-- A path no longer exists only implicitly. -/
def settle (s : Build) (path : Path) : Build :=
  { s with implicits := s.implicits.filter (· ≠ path) }

/-- A key gets a value in the table of a context. One that is there already is kept if
    it was implicit and replaced if it was an array. -/
def set? (s : Build) (context : Path) (key : Text) (node : Node) : Option Build := do
  let table ← s.root.find? context
  let path := context ++ [key]
  let write (s : Build) : Option Build := do
    return { s with root := ← s.root.modify? (·.put key node) context }
  if (table.lookup key).isNone then write s
  else if s.arrays.contains path then write (s.settle path)
  else if s.implicits.contains path then return s.settle path
  else none

/-- The parents of a path, brought about implicitly where they are missing. -/
def ensureParents? (s : Build) (done : Path) : Path → Option Build
  | [] => some s
  | [_] => some s
  | key :: path => do
    let table ← s.root.find? done
    let here := done ++ [key]
    let s : Build ← match table.lookup key with
      | some node => (Table.ofNode? node).map fun _ => s
      | none =>
        (s.root.modify? (·.put key (.table [])) done).map fun root => { s.imply here with root }
    s.ensureParents? here path

/-- One more element in the array of tables at the end of a path. -/
def addElement? (s : Build) (path : Path) : Option Build := do
  let context := path.dropLast
  let key := path.getLast?.getD []
  let table ← s.root.find? context
  let elements ← match table.lookup key with
    | none => some []
    | some (.elements ts) => some ts
    | some _ => none
  return { s with
    root := ← s.root.modify? (·.put key (.elements (elements ++ [[]]))) context }

/-- Opens the table at the end of a path, or one more element there. -/
def enter? (s : Build) (path : Path) (asElement : Bool) : Option Build := do
  let s ← s.ensureParents? [] path
  if asElement then s.addElement? path
  else s.set? path.dropLast (path.getLast?.getD []) (.table [])

/-- Opens the tables that the front parts of a key name, each implicitly. The result
    has the context of the last part. -/
def enterFront? (s : Build) (context : Path) : Path → Option (Build × Path)
  | [] => some (s, context)
  | key :: path => do
    let here := context ++ [key]
    let s ← (s.imply here).enter? here false
    s.enterFront? here path

/-- The table of a record, read on its own: its keys may share front parts. -/
def putPath? (t : Table) : Path → Node → Option Table
  | [], _ => some t
  | [key], node => some (t.put key node)
  | key :: path, node => do
    let inner ← match t.lookup key with
      | none => some []
      | some (.table entries) => some entries
      | some _ => none
    return t.put key (.table (← putPath? inner path node))

mutual

/-- The node of a value that a key is about to get in a context. The tables of records
    are put in place on the way. -/
def eval? (s : Build) (context : Path) (key : Text) (inArray : Bool) : Value → Option (Node × Build)
  | .text t => some (.text t, s)
  | .flag b => some (.flag b, s)
  | .number => some (.other, s)
  | .moment => some (.other, s)
  | .array items => do
    let s ← evalItems? (s.note context key true) context key items
    return (.other, s)
  | .record pairs => do
    let here := context ++ [key]
    let s ← (s.imply here).enter? here inArray
    let (table, s) ← evalPairs? s here [] pairs
    return (.table table, s)

/-- The values of an array. -/
def evalItems? (s : Build) (context : Path) (key : Text) : List Value → Option Build
  | [] => some s
  | v :: vs => do
    let (_, s) ← eval? s context key true v
    evalItems? s context key vs

/-- The pairs of a record, whose table so far is given. -/
def evalPairs? (s : Build) (context : Path) (table : Table) :
    List (Path × Value) → Option (Table × Build)
  | [] => some (table, s)
  | (path, v) :: ps => do
    let key := path.getLast?.getD []
    let (s, here) ← s.enterFront? context path.dropLast
    let (node, s) ← eval? s here key false v
    let s ← s.set? here key node
    let s := s.note here key (match v with | .array _ => true | _ => false)
    evalPairs? s context (← putPath? table path node) ps

end

/-- The effect of an item in a context, and the context behind it. -/
def add? (s : Build) (context : Path) : Item → Option (Build × Path)
  | .table path => do
    let s ← s.enter? path false
    return (s.note path [] false, path)
  | .element path => do
    let s ← s.enter? path true
    return (s.note path [] false, path)
  | .pair path v => do
    let key := path.getLast?.getD []
    let (s, here) ← s.enterFront? context path.dropLast
    let (node, s) ← s.eval? here key false v
    let s ← s.set? here key node
    return (s.note here key (match v with | .array _ => true | _ => false), context)

/-- The table of items in a context. -/
def addAll? (s : Build) (context : Path) : List Item → Option Table
  | [] => some s.root
  | item :: items => do
    let (s, context) ← s.add? context item
    s.addAll? context items

end Build

/-- The table of a document; none if the document is malformed. -/
def read? (source : Text) : Option Table := do
  Build.addAll? ⟨[], [], []⟩ [] (← items? source)

end Toml

end BitLogic
