import BitLogic.Yaml.Token

/-!
# The nodes of YAML

The tokens of the first document as a tree of nodes. An alias holds the node that its
anchor stood on; inside that very node the anchor is known but the node is not yet
there, so such an alias leads nowhere.

A stream may hold more documents, and these are not read. The tokens have to reach two
further than the end of the first document, unless the stream ends before: an error
right behind a document counts as one in it.

## Main definitions

* `Yaml.Node`: A scalar, a sequence, a mapping or an alias.
* `Yaml.Reader`: Reading nodes off a list of tokens.
* `Yaml.Reader.node`: The next node.
* `Yaml.read?`: The node of the first document of a stream.
-/

namespace BitLogic

namespace Yaml

/-- A node of a document. The tag of a scalar is empty if it has none; a `plain` scalar
    stood without quotes. -/
inductive Node where
  | scalar (tag : Text) (plain : Bool) (text : List Char)
  | sequence (items : List Node)
  | mapping (pairs : List (Node × Node))
  | alias (name : List Char) (target : Option Node)
  deriving Repr, Inhabited

namespace Node

/-- The node that stands where nothing was written. -/
def empty : Node := .scalar [] true []

end Node

/-- The tokens still to be read, the anchors met so far, and the declared handles of
    tags. -/
structure Source where
  tokens : List Token
  anchors : List (List Char × Option Node)
  handles : List (Text × Text)
  deriving Inhabited

/-- Reading that consumes tokens and may fail. -/
abbrev Reader := StateT Source Option

namespace Reader

/-- The next token, left in place. -/
def peek : Reader Token := do
  match (← get).tokens with
  | t :: _ => return t
  | [] => failure

/-- Passes over the next token. -/
def skip : Reader Unit := modify fun s => { s with tokens := s.tokens.tail }

/-- Passes over the next token if it is a given one. -/
def accept (t : Token) : Reader Bool := do
  if (← peek) = t then
    skip
    return true
  else return false

/-- Passes over a given token, which has to come next. -/
def expect (t : Token) : Reader Unit := do
  if !(← accept t) then failure

/-- The next token is one of some. -/
def peekIn (ts : List Token) : Reader Bool := return ts.contains (← peek)

/-- The anchor and the tag before a node, in either order. -/
structure Properties where
  anchor : Option (List Char)
  tag : Option Text
  deriving Repr, Inhabited

/-- The whole tag of a handle and what stands behind it. A handle has to be declared,
    and the whole tag may not be empty. -/
def expandTag (handle rest : Text) : Reader Text := do
  if handle.isEmpty then return rest
  match (← get).handles.lookup handle with
  | some start => if (start ++ rest).isEmpty then failure else return start ++ rest
  | none => failure

/-- An anchor, if one comes next. -/
def anchor? : Reader (Option (List Char)) := do
  match ← peek with
  | .anchor name =>
    skip
    return some name
  | _ => return none

/-- A tag, if one comes next. -/
def tag? : Reader (Option (Text × Text)) := do
  match ← peek with
  | .tag handle rest =>
    skip
    return some (handle, rest)
  | _ => return none

/-- The properties of the next node. -/
def properties : Reader Properties := do
  let first ← anchor?
  let tag ← tag?
  let second ← if first.isNone && tag.isSome then anchor? else pure none
  let anchor := first.or second
  match tag with
  | some (handle, rest) => return ⟨anchor, some (← expandTag handle rest)⟩
  | none => return ⟨anchor, none⟩

/-- The anchor is known from here on, but its node is not. -/
def announce (p : Properties) : Reader Unit := do
  match p.anchor with
  | some name => modify fun s => { s with anchors := (name, none) :: s.anchors }
  | none => return ()

/-- The node of an anchor is there. -/
def settle (p : Properties) (n : Node) : Reader Node := do
  match p.anchor with
  | some name => modify fun s => { s with anchors := (name, some n) :: s.anchors }
  | none => pure ()
  return n

/-- The alias of an anchor that has been met. -/
def resolveAlias (name : List Char) : Reader Node := do
  match (← get).anchors.lookup name with
  | some target => return .alias name target
  | none => failure

mutual

/-- The next node. Blocks are only nodes outside of flow collections, and a sequence
    without indentation of its own only stands in a mapping. -/
def node : Nat → Bool → Bool → Reader Node
  | 0, _, _ => failure
  | steps + 1, inBlock, unindented => do
    if let .alias name := ← peek then
      skip
      return ← resolveAlias name
    let p ← properties
    announce p
    let tag := p.tag.getD []
    match ← peek with
    | .scalar plain text =>
      skip
      settle p (.scalar tag plain text)
    | .flowSequence =>
      skip
      settle p (.sequence (← flowItems steps true))
    | .flowMapping =>
      skip
      settle p (.mapping (← flowPairs steps true))
    | t =>
      if unindented && t = .entry then
        settle p (.sequence (← unindentedItems steps))
      else if inBlock && t = .blockSequence then
        skip
        settle p (.sequence (← blockItems steps))
      else if inBlock && t = .blockMapping then
        skip
        settle p (.mapping (← blockPairs steps))
      else if p.anchor.isSome || !tag.isEmpty then
        settle p (.scalar tag true [])
      else failure
termination_by structural steps => steps

/-- The node of a block, or the empty one before any of some tokens. -/
def blockNode : Nat → Bool → List Token → Reader Node
  | 0, _, _ => failure
  | steps + 1, unindented, ends => do
    if ← peekIn ends then return .empty else node steps true unindented
termination_by structural steps => steps

/-- The node of a flow collection, or the empty one before any of some tokens. -/
def flowNode : Nat → List Token → Reader Node
  | 0, _ => failure
  | steps + 1, ends => do
    if ← peekIn ends then return .empty else node steps false false
termination_by structural steps => steps

/-- The rest of a block sequence. -/
def blockItems : Nat → Reader (List Node)
  | 0 => failure
  | steps + 1 => do
    if ← accept .entry then
      let n ← blockNode steps false [.entry, .blockEnd]
      return n :: (← blockItems steps)
    else
      expect .blockEnd
      return []
termination_by structural steps => steps

/-- The rest of a sequence at the indentation of the mapping around it. -/
def unindentedItems : Nat → Reader (List Node)
  | 0 => failure
  | steps + 1 => do
    if ← accept .entry then
      let n ← blockNode steps false [.entry, .key, .value, .blockEnd]
      return n :: (← unindentedItems steps)
    else return []
termination_by structural steps => steps

/-- The rest of a block mapping. A key may lack its value. -/
def blockPairs : Nat → Reader (List (Node × Node))
  | 0 => failure
  | steps + 1 => do
    if ← accept .key then
      let k ← blockNode steps true [.key, .value, .blockEnd]
      let v ←
        if ← accept .value then blockNode steps true [.key, .value, .blockEnd]
        else pure .empty
      return (k, v) :: (← blockPairs steps)
    else
      expect .blockEnd
      return []
termination_by structural steps => steps

/-- The rest of a flow sequence. A key in it makes a mapping of one pair. -/
def flowItems : Nat → Bool → Reader (List Node)
  | 0, _ => failure
  | steps + 1, isFirst => do
    if ← accept .flowSequenceEnd then return []
    if !isFirst then expect .comma
    if ← accept .key then
      let k ←
        if ← peekIn [.value, .comma, .flowSequenceEnd] then
          skip
          pure .empty
        else node steps false false
      let v ←
        if ← accept .value then flowNode steps [.comma, .flowSequenceEnd] else pure .empty
      return .mapping [(k, v)] :: (← flowItems steps false)
    if ← accept .flowSequenceEnd then return []
    let n ← node steps false false
    return n :: (← flowItems steps false)
termination_by structural steps => steps

/-- The rest of a flow mapping. A node without a mark is a key without a value. -/
def flowPairs : Nat → Bool → Reader (List (Node × Node))
  | 0, _ => failure
  | steps + 1, isFirst => do
    if ← accept .flowMappingEnd then return []
    if !isFirst then expect .comma
    if ← accept .key then
      let k ← flowNode steps [.value, .comma, .flowMappingEnd]
      let v ←
        if ← accept .value then flowNode steps [.comma, .flowMappingEnd] else pure .empty
      return (k, v) :: (← flowPairs steps false)
    if ← accept .flowMappingEnd then return []
    let k ← node steps false false
    return (k, .empty) :: (← flowPairs steps false)
termination_by structural steps => steps

end

/-- The directives before a document: at most one version, which has to be 1.1, and
    handles of tags, none of them twice. -/
def directives : Nat → Bool → Reader Unit
  | 0, _ => failure
  | steps + 1, versioned => do
    match ← peek with
    | .version major minor =>
      if versioned || major ≠ 1 || minor ≠ 1 then failure
      skip
      directives steps true
    | .handle name start =>
      if ((← get).handles.lookup name).isSome then failure
      modify fun s => { s with handles := s.handles ++ [(name, start)] }
      skip
      directives steps versioned
    | _ => return ()

/-- The handles of tags that need no declaration. -/
def defaultHandles : List (Text × Text) :=
  [(Text.ofString "!", Text.ofString "!"), (Text.ofString "!!", Text.ofString "tag:yaml.org,2002:")]

/-- The first document, if there is one. A mark before it is only needed behind
    directives. -/
def document (steps : Nat) : Reader (Option Node) := do
  if (← peek) = .streamEnd then return none
  let ahead := (← get).tokens.length
  directives steps false
  let declared := (← get).tokens.length < ahead
  modify fun s => { s with handles := s.handles ++ defaultHandles }
  let isMarked ← accept .documentStart
  if !isMarked && declared then failure
  match ← peek with
  | .version .. | .handle .. | .documentStart | .documentEnd | .streamEnd =>
    if isMarked then return some .empty else failure
  | _ => return some (← node steps true false)

end Reader

/-- The node of the first document of a stream: nothing at all is a correct answer for
    a stream without documents. -/
def read? (source : Text) : Option (Option Node) := do
  let tokens := Tokens.ofChars (← decode? source)
  let (root, rest) ←
    Reader.document (4 * tokens.list.length + 4) ⟨tokens.list, [], []⟩
  guard (tokens.complete || 3 ≤ rest.tokens.length)
  return root

end Yaml

end BitLogic
