import BitLogic.Text.Basic

/-!
# Lines from a buffer

Input arrives in lines, read with a buffer of fixed size. A line that does not fit
arrives in pieces: as many bytes as the buffer holds, or one less if the last of them
is a carriage return, which may belong to the end of the line. The line end is not
part of a line, be it a line feed or a carriage return with a line feed behind it.

## Main definitions

* `Prompt.Line`: A line or a piece of one.
* `Prompt.lines`: The lines of an input.

## Theorems

* `Prompt.firstLine_pos`: Reading a line makes progress.
-/

namespace BitLogic

namespace Prompt

/-- How many bytes the buffer holds. -/
def bufferSize : Nat := 4096

/-- A line, or a piece of one that did not fit. -/
structure Line where
  text : Text
  isWhole : Bool
  deriving Repr, DecidableEq, Inhabited

/-- The first line of an input, and how many bytes it takes. -/
def firstLine (t : Text) : Line × Nat :=
  let window := t.take bufferSize
  let text := window.takeWhile (· ≠ Text.lineFeed)
  if text.length < window.length then (⟨Text.dropReturn text, true⟩, text.length + 1)
  else if window.length < bufferSize then (⟨window, true⟩, window.length)
  else
    let piece := Text.dropReturn window
    (⟨piece, false⟩, piece.length)

/-- The first line of an input takes at least one byte. -/
theorem firstLine_pos (b : UInt8) (t : Text) : 0 < (firstLine (b :: t)).2 := by
  unfold firstLine
  have hw : 0 < ((b :: t).take bufferSize).length := by simp [bufferSize]
  have hd := Text.length_dropReturn ((b :: t).take bufferSize)
  simp only []
  split
  · exact Nat.succ_pos _
  · split
    · exact hw
    · rename_i _ hb
      simp only [bufferSize] at *
      omega

/-- The lines of an input, in order. -/
def lines : Text → List Line
  | [] => []
  | b :: t =>
    let first := firstLine (b :: t)
    first.1 :: lines ((b :: t).drop first.2)
termination_by t => t.length
decreasing_by
  have := firstLine_pos b t
  simp only [List.length_drop, List.length_cons]
  omega

end Prompt

end BitLogic
