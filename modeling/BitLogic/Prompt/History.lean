import BitLogic.Files
import BitLogic.Prompt.Lines
import BitLogic.Text.Utf8

/-!
# History

The lines entered at the prompt, oldest first. Only the last ones are kept, and a line
that repeats its predecessor is not added. A history is loaded from a file and written
back to it, one line each; loading ends at a line that does not fit the buffer or is
not valid UTF-8, with what came before it.

## Main definitions

* `History`: The lines entered, oldest first.
* `History.add`: The history after one more line.
* `History.ofText`, `History.text`: A history from a file, and for one.
-/

namespace BitLogic

/-- The lines entered at the prompt, oldest first. -/
abbrev History := List Text

namespace History

/-- How many lines are kept. -/
def limit : Nat := 1000

/-- The last lines, as many as are kept. -/
def keep (h : History) : History := h.drop (h.length - limit)

/-- The history after one more line. -/
def add (h : History) (line : Text) : History :=
  if h.getLast? = some line then h else keep (h ++ [line])

/-- The history in the text of a file. -/
def ofText (t : Text) : History :=
  keep (((Prompt.lines t).takeWhile fun l => l.isWhole && Utf8.valid l.text).map Prompt.Line.text)

/-- The text of a history for a file. -/
def text (h : History) : Text := h.flatMap (· ++ [Text.lineFeed])

/-- The history in a file; an empty one if it cannot be read. -/
def load (files : Files) (path : Text) : History :=
  match files.read path with
  | .ok t => ofText t
  | .error _ => []

end History

end BitLogic
