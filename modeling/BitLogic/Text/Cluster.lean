import BitLogic.Text.Utf8
import BitLogic.Text.Cluster.Tables

/-!
# Grapheme clusters

What a reader takes for one character may be several code points: a letter and its
accents, a Hangul syllable spelt in parts, a flag made of two letters, a family of
emoji tied by joiners. The rules that cut a text into such clusters look at two
neighbours at a time and at a little memory of what came before, so they are a
machine with a handful of states.

A boundary between two code points is decided by the first rule that speaks about
them. A rule may name the state alone (a line end is always followed by a boundary)
or the class alone (a mark never has a boundary before it), and when one of each
kind applies the one that comes earlier in the standard's order wins.

## Main definitions

* `Cluster.Class`: The break class of a code point.
* `Cluster.State`: What the machine remembers of the cluster so far.
* `Cluster.step`: The next state, and whether a cluster ends before the class.
* `Cluster.first`: The first cluster of a text.
* `Cluster.split`: The clusters of a text.
-/

namespace BitLogic

namespace Cluster

/-- The break class of a code point. -/
inductive Class where
  | other
  | carriageReturn
  | lineFeed
  | control
  | extend
  | joiner
  | spacing
  | prepend
  | leading
  | vowel
  | trailing
  | openSyllable
  | closedSyllable
  | pictograph
  | regional
  deriving Repr, DecidableEq

/-- The class of a code point. A composed Hangul syllable without a trailing
    consonant comes every 28 code points in its block. -/
def classOf (c : Nat) : Class :=
  if c = 13 then .carriageReturn
  else if c = 10 then .lineFeed
  else if control.has c then .control
  else if c < 0xA9 then .other
  else if c = 0x200D then .joiner
  else if 0xAC00 ≤ c ∧ c ≤ 0xD7A3 then
    if (c - 0xAC00) % 28 = 0 then .openSyllable else .closedSyllable
  else if 0x1F1E6 ≤ c ∧ c ≤ 0x1F1FF then .regional
  else if pictograph.has c then .pictograph
  else if leading.has c then .leading
  else if vowel.has c then .vowel
  else if trailing.has c then .trailing
  else if prepend.has c then .prepend
  else if extend.has c then .extend
  else if spacing.has c then .spacing
  else .other

/-- What is remembered of the cluster so far. -/
inductive State where
  | plain
  | afterReturn
  | afterControl
  | leading
  | vowel
  | trailing
  | prepend
  | pictograph
  | joined
  | oddRegional
  | evenRegional
  deriving Repr, DecidableEq

/-- A rule that names both the state and the class: the next state, and whether a
    cluster ends here. -/
def bothRule? : State → Class → Option (State × Bool)
  | .afterReturn, .lineFeed => some (.afterControl, false)
  | .leading, .leading => some (.leading, false)
  | .leading, .vowel => some (.vowel, false)
  | .leading, .openSyllable => some (.vowel, false)
  | .leading, .closedSyllable => some (.trailing, false)
  | .vowel, .vowel => some (.vowel, false)
  | .vowel, .trailing => some (.trailing, false)
  | .trailing, .trailing => some (.trailing, false)
  | .pictograph, .extend => some (.pictograph, false)
  | .pictograph, .joiner => some (.joined, false)
  | .joined, .pictograph => some (.pictograph, false)
  | .oddRegional, .regional => some (.evenRegional, false)
  | .evenRegional, .regional => some (.oddRegional, true)
  | _, _ => none

/-- A rule that names the state alone: its place in the order, and whether a
    cluster ends here. -/
def stateRule? : State → Option (Nat × Bool)
  | .afterReturn => some (40, true)
  | .afterControl => some (40, true)
  | .prepend => some (92, false)
  | _ => none

/-- A rule that names the class alone: its place in the order, the next state, and
    whether a cluster ends here. -/
def classRule? : Class → Option (Nat × State × Bool)
  | .other => none
  | .carriageReturn => some (50, .afterReturn, true)
  | .lineFeed => some (50, .afterControl, true)
  | .control => some (50, .afterControl, true)
  | .extend => some (90, .plain, false)
  | .joiner => some (90, .plain, false)
  | .spacing => some (91, .plain, false)
  | .prepend => some (9990, .prepend, true)
  | .leading => some (9990, .leading, true)
  | .vowel => some (9990, .vowel, true)
  | .trailing => some (9990, .trailing, true)
  | .openSyllable => some (9990, .vowel, true)
  | .closedSyllable => some (9990, .trailing, true)
  | .pictograph => some (9990, .pictograph, true)
  | .regional => some (9990, .oddRegional, true)

/-- The next state, and whether a cluster ends before a code point of this
    class. -/
def step (s : State) (c : Class) : State × Bool :=
  match bothRule? s c with
  | some r => r
  | none =>
    match stateRule? s, classRule? c with
    | some (i, ends), some (j, next, classEnds) => (next, if i < j then ends else classEnds)
    | some (_, ends), none => (.plain, ends)
    | none, some (_, next, ends) => (next, ends)
    | none, none => (.plain, true)

/-- The code points that continue a cluster in state `s`. -/
def continuation (s : State) : Text → List Utf8.CodePoint
  | [] => []
  | b :: rest =>
    let r := Utf8.decode b rest
    let (next, ends) := step s (classOf r.code)
    if ends then [] else r :: continuation next (rest.drop (r.width - 1))
termination_by t => t.length
decreasing_by simp only [List.length_drop, List.length_cons]; omega

/-- The first cluster of a text that starts with the byte `b`. -/
def first (b : UInt8) (rest : Text) : List Utf8.CodePoint :=
  let r := Utf8.decode b rest
  r :: continuation (step .plain (classOf r.code)).1 (rest.drop (r.width - 1))

/-- The number of bytes of a cluster. -/
def size (rs : List Utf8.CodePoint) : Nat := rs.foldr (fun r n => r.width + n) 0

/-- The clusters of a text, in order. -/
def split : Text → List (List Utf8.CodePoint)
  | [] => []
  | b :: rest =>
    let cluster := first b rest
    cluster :: split (rest.drop (size cluster - 1))
termination_by t => t.length
decreasing_by simp only [List.length_drop, List.length_cons]; omega

end Cluster

end BitLogic
