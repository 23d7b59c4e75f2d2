import BitLogic.Fault
import BitLogic.Text.Paint

/-!
# Diagnostics

A fault is shown under a header with its wording and its span, together with the
lines of the source that it touches and a row of markers under the offending text:

    --> Error: invalid bit, must be `0` or `1` (at 2..3)
     |
     | 1 2 A
     |   ^
     |

The span is first moved into the source. The line shown starts behind the last line
feed before the span and ends before the first line feed behind it, a carriage
return before that apart. Markers are counted in columns, and there is at least
one.

## Main definitions

* `Diagnostic.Sections`: The source around a span.
* `Diagnostic.sections`: The sections for a span.
* `Diagnostic.Style`: Whether and how colours are used.
* `Diagnostic.ofFault`, `Diagnostic.ofFailure`: A fault under its source, and a
  failure, which is shown by its words when there is no fault in it.
-/

namespace BitLogic

namespace Diagnostic

/-- The line before a span, the text in it, and the rest of its last line. -/
structure Sections where
  before : Text
  offending : Text
  after : Text
  deriving Repr, DecidableEq, Inhabited

/-- What follows the last line feed. -/
def lastLine (t : Text) : Text := (t.reverse.takeWhile (· ≠ Text.lineFeed)).reverse

/-- What precedes the first line feed. -/
def firstLine (t : Text) : Text := t.takeWhile (· ≠ Text.lineFeed)

/-- The source around a span. -/
def sections (src : Text) (s : Span) : Sections :=
  let s := s.clamp src.length
  let lo := s.start.toNat
  let hi := s.stop.toNat
  let rest := firstLine (src.drop hi)
  { before := lastLine (src.take lo)
    offending := (src.take hi).drop lo
    after := Text.dropReturn rest }

/-- Whether colours are asked for, and what the terminal makes of them. -/
structure Style where
  colour : Bool
  profile : Paint.Profile
  deriving Repr, DecidableEq, Inhabited

/-- No colours at all. -/
def Style.none : Style := ⟨false, .plain⟩

/-- A text in a colour if colours are asked for. Without colours, and when it is
    empty, it is left as it is. -/
def Style.paint (st : Style) (c : Paint.Colour) (t : Text) : Text :=
  if st.colour && !t.isEmpty then Paint.apply st.profile c t else t

/-- A fault under its source. -/
def ofFault (st : Style) (src : Text) (f : Fault) : Text :=
  let s := sections src f.span
  let arrow := st.paint .blue (Text.ofString "-->")
  let bar := st.paint .blue (Text.ofString "|")
  let spaces := List.replicate (Width.ofText s.before) Text.space
  let markers := List.replicate (max 1 (Width.ofText s.offending)) 94
  arrow ++ Text.ofString " Error: " ++ f.message ++ Text.ofString " (at " ++ f.span.text ++
      Text.ofString ")\n" ++
    Text.ofString " " ++ bar ++ Text.ofString "\n" ++
    Text.ofString " " ++ bar ++ Text.ofString " " ++ s.before ++ st.paint .red s.offending ++
      s.after ++ Text.ofString "\n" ++
    Text.ofString " " ++ bar ++ Text.ofString " " ++ spaces ++ st.paint .blue markers ++
      Text.ofString "\n" ++
    Text.ofString " " ++ bar ++ Text.ofString "\n"

/-- A failure, under its source if there is a fault in it. -/
def ofFailure (st : Style) (src : Text) (f : Failure) : Text :=
  match f.fault? with
  | some fault => ofFault st src fault
  | none => f.text

end Diagnostic

end BitLogic
