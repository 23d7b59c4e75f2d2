import BitLogic.Text.Basic
import BitLogic.Word

/-!
# Spans

A span is a half-open range of byte offsets. The offsets are integers and not
naturals, because a span may be handed in from outside and then point anywhere,
also before the text or backwards.

## Main definitions

* `Span`: A start and an end.
* `Span.between`: The span of two offsets given in either order.
* `Span.cover`: The smallest span over two spans.
* `Span.len`: The distance from start to end, as a 64-bit word.
* `Span.clamp`: The part of a span that lies within a text of a given length.
-/

namespace BitLogic

/-- The bytes from `start` up to and without `stop`. -/
structure Span where
  start : Int
  stop : Int
  deriving Repr, DecidableEq, Inhabited

namespace Span

/-- The span between two offsets, whichever comes first. -/
def between (a b : Int) : Span := if b < a then ⟨b, a⟩ else ⟨a, b⟩

/-- The smallest span that covers both. -/
def cover (s t : Span) : Span := ⟨min s.start t.start, max s.stop t.stop⟩

/-- The length is counted in signed words of 64 bits and wraps like them. -/
def len (s : Span) : Int := Word.wrap (s.stop - s.start)

/-- Both ends moved into the range from zero to `n`, and put in order. -/
def clamp (s : Span) (n : Nat) : Span :=
  between (min (max s.start 0) n) (min (max s.stop 0) n)

/-- The span in the form `start..stop`. -/
def text (s : Span) : Text := Text.ofInt s.start ++ Text.ofString ".." ++ Text.ofInt s.stop

end Span

end BitLogic
