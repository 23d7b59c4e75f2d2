import BitLogic.Text.Screen

/-!
# Coloured texts

Painting a text puts colour codes around each of its lines. A terminal that has no
colours gets none, but its text is laid out like any other: tabs become four
spaces, a carriage return before a line feed is dropped, and the lines of a text of
several lines are filled up with spaces to the width of the widest.

## Main definitions

* `Paint.Profile`: Whether the terminal has colours.
* `Paint.Colour`: The two colours in use.
* `Paint.apply`: A text laid out and coloured.
-/

namespace BitLogic

namespace Paint

/-- What the terminal can show. -/
inductive Profile where
  | plain
  | coloured
  deriving Repr, DecidableEq, Inhabited

/-- The colours in use, both from the bright half of the palette. -/
inductive Colour where
  | blue
  | red
  deriving Repr, DecidableEq

/-- The number that selects a colour as foreground. -/
def Colour.code : Colour → Text
  | .blue => Text.ofString "94"
  | .red => Text.ofString "91"

/-- One line in a colour. -/
def line (p : Profile) (c : Colour) (t : Text) : Text :=
  match p with
  | .plain => t
  | .coloured => [27, 91] ++ c.code ++ [109] ++ t ++ [27, 91, 48, 109]

/-- Every tab replaced by four spaces. -/
def expandTabs (t : Text) : Text :=
  t.flatMap fun b => if b = 9 then List.replicate 4 Text.space else [b]

/-- Every carriage return before a line feed dropped. -/
def joinLineEnds : Text → Text
  | [] => []
  | [b] => [b]
  | b :: c :: rest =>
    if b = Text.carriageReturn ∧ c = Text.lineFeed then joinLineEnds (c :: rest)
    else b :: joinLineEnds (c :: rest)

/-- A line followed by the spaces that it lacks to a width. -/
def fillTo (width : Nat) (t : Text) : Text :=
  t ++ List.replicate (width - Screen.width t) Text.space

/-- A text laid out and coloured, line by line. -/
def apply (p : Profile) (c : Colour) (t : Text) : Text :=
  let painted := (Text.lines (joinLineEnds (expandTabs t))).map (line p c)
  let widest := (painted.map Screen.width).foldl max 0
  Text.joinWith [Text.lineFeed] (painted.map (fillTo widest))

end Paint

end BitLogic
