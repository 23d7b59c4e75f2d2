import BitLogic.Text.Width

/-!
# Columns on a screen

How many columns a text takes when a terminal interprets it, so that escape
sequences (colours, titles, cursor moves) count for nothing. The text is read byte
by byte by the usual machine for control sequences; a byte that starts a longer
UTF-8 sequence instead hands over a whole cluster and brings the machine back to
its ground state, and every printable ASCII byte met in the ground state is one
column.

The width of a cluster is here the sum of its parts, except that a pictograph is
as wide as the variant selected for it, and a flag or a Hangul syllable as wide as
its first part.

## Main definitions

* `Screen.Mode`: The states of the control sequence machine.
* `Screen.next`: The next state on a byte.
* `Screen.clusterWidth`: The columns of one cluster.
* `Screen.width`: The columns of a text.
-/

namespace BitLogic

namespace Screen

/-- Where the reader of control sequences stands. -/
inductive Mode where
  | ground
  | escape
  | escapeIntermediate
  | csiEntry
  | csiParameter
  | csiIntermediate
  | dcsEntry
  | dcsParameter
  | dcsIntermediate
  | dcsString
  | oscString
  | otherString
  deriving Repr, DecidableEq

/-- The state after a byte that acts alike in every state but the strings: cancel,
    the eight-bit controls and escape. Other bytes are left to the state. -/
def anywhere? (b : UInt8) : Option Mode :=
  if b = 0x18 ∨ b = 0x1A then some .ground
  else if b = 0x1B then some .escape
  else if b < 0x80 then none
  else if b = 0x90 then some .dcsEntry
  else if b = 0x9B then some .csiEntry
  else if b = 0x9D then some .oscString
  else if b = 0x98 ∨ b = 0x9E ∨ b = 0x9F then some .otherString
  else some .ground

/-- The state after a byte below 128 that is neither cancel nor escape. -/
def within (m : Mode) (b : UInt8) : Mode :=
  let isControl := b < 0x20 ∨ b = 0x7F
  let isIntermediate := 0x20 ≤ b ∧ b ≤ 0x2F
  let isParameter := 0x30 ≤ b ∧ b ≤ 0x3F
  match m with
  | .ground => .ground
  | .escape =>
    if isControl then .escape
    else if isIntermediate then .escapeIntermediate
    else if b = 0x58 ∨ b = 0x5E ∨ b = 0x5F then .otherString
    else if b = 0x50 then .dcsEntry
    else if b = 0x5B then .csiEntry
    else if b = 0x5D then .oscString
    else .ground
  | .escapeIntermediate => if isControl ∨ isIntermediate then .escapeIntermediate else .ground
  | .csiEntry =>
    if isControl then .csiEntry
    else if isIntermediate then .csiIntermediate
    else if isParameter then .csiParameter
    else .ground
  | .csiParameter =>
    if isControl ∨ isParameter then .csiParameter
    else if isIntermediate then .csiIntermediate
    else .ground
  | .csiIntermediate => if isControl ∨ isIntermediate then .csiIntermediate else .ground
  | .dcsEntry =>
    if 0x08 ≤ b ∧ b ≤ 0x0D then .dcsString
    else if isControl then .dcsEntry
    else if isIntermediate then .dcsIntermediate
    else if isParameter then .dcsParameter
    else .dcsString
  | .dcsParameter =>
    if isControl ∨ isParameter then .dcsParameter
    else if isIntermediate then .dcsIntermediate
    else .dcsString
  | .dcsIntermediate => if isControl ∨ isIntermediate then .dcsIntermediate else .dcsString
  | .dcsString => .dcsString
  | .oscString => if b = 0x07 then .ground else .oscString
  | .otherString => .otherString

/-- The next state on a byte. The two kinds of string that may hold text of any
    encoding swallow the bytes above 127, the string terminator apart. -/
def next (m : Mode) (b : UInt8) : Mode :=
  if (m = .dcsString ∨ m = .oscString) ∧ 0x80 ≤ b ∧ b ≠ 0x9C then m
  else (anywhere? b).getD (within m b)

/-- A longer UTF-8 sequence may start with this byte, and the state lets it. -/
def startsCluster (m : Mode) (b : UInt8) : Bool :=
  0xC2 ≤ b && b ≤ 0xF4 && m ≠ .dcsString && m ≠ .oscString

/-- The columns of one code point as a part of a cluster. -/
def codeWidth (c : Nat) : Nat :=
  match Cluster.classOf c with
  | .control | .carriageReturn | .lineFeed | .extend | .joiner => 0
  | .regional => 2
  | .pictograph => if Width.emoji.has c then 2 else 1
  | _ =>
    if c = 0x2E3A then 3
    else if c = 0x2E3B then 4
    else if Width.wide.has c then 2
    else 1

/-- The columns of a pictograph after the selectors that follow it. -/
def selected (w : Nat) (c : Nat) : Nat :=
  if c = 0xFE0E then 1 else if c = 0xFE0F then 2 else w

/-- The columns of one cluster. -/
def clusterWidth : List Utf8.CodePoint → Nat
  | [] => 0
  | r :: rs =>
    let w := codeWidth r.code
    match Cluster.classOf r.code with
    | .pictograph => (rs.map Utf8.CodePoint.code).foldl selected w
    | .regional | .leading => w
    | _ => rs.foldl (fun n r => n + codeWidth r.code) w

/-- The columns of a text read from a given state. -/
def widthFrom (m : Mode) : Text → Nat
  | [] => 0
  | b :: rest =>
    if startsCluster m b then
      let cluster := Cluster.first b rest
      clusterWidth cluster + widthFrom .ground (rest.drop (Cluster.size cluster - 1))
    else
      let here := if m = .ground ∧ 0x20 ≤ b ∧ b ≤ 0x7E then 1 else 0
      here + widthFrom (next m b) rest
termination_by t => t.length
decreasing_by all_goals simp only [List.length_drop, List.length_cons]; omega

/-- The columns of a text on a screen. -/
def width (t : Text) : Nat := widthFrom .ground t

end Screen

end BitLogic
