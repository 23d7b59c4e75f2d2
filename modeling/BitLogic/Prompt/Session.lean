import BitLogic.Command.Console
import BitLogic.Prompt.History
import BitLogic.Text.Blank
import BitLogic.Text.Control

/-!
# Sessions at the prompt

The prompt is printed before every line is read, and the value of the line, or its
diagnostic, follows. Blanks around a line do not count, and a line of blanks is passed
over. At the end of the input the last prompt is left on a line of its own. The
history is read before the first line and written after the last.

## Main definitions

* `Prompt.isShowable`: A prompt can be printed.
* `Prompt.enter`: The session after a line.
* `Prompt.session`: A whole session: its output, and the files behind it.
-/

namespace BitLogic

namespace Prompt

/-- The prompt has no control characters. -/
def isShowable (t : Text) : Bool := !(Utf8.codes t).any isControl

/-- What was printed in a session so far, and its history. -/
structure Progress where
  output : Output
  history : History
  deriving Repr, Inhabited

/-- The session after a line. A line that fails does not make the session fail. -/
def enter (c : Console) (p : Progress) (line : Line) : Progress :=
  let prompted := p.output.andThen (.ofResult c.settings.prompt)
  let src := trimBlanks line.text
  if src.isEmpty then { p with output := prompted }
  else
    { output := prompted.andThen (c.evaluate src).ignoringFailure
      history := p.history.add src }

/-- The session from its first line to the end of the input. -/
def converse (c : Console) (history : History) (input : Text) : Progress :=
  if isShowable c.settings.prompt then
    let p := (lines input).foldl (enter c) ⟨{}, history⟩
    { p with output := p.output.andThen (.ofResult (c.settings.prompt ++ [Text.lineFeed])) }
  else ⟨.ofError (Text.ofString "invalid prompt"), history⟩

/-- A whole session. The history is only kept if a file is set for it; that it cannot
    be written is reported before an error that ends the session. -/
def session (c : Console) (files : Files) (input : Text) : Output × Files :=
  let path := c.settings.historyFile
  if path.isEmpty then ((converse c [] input).output, files)
  else
    let p := converse c (History.load files path) input
    match files.write path p.history.text with
    | .ok files => (p.output, files)
    | .error f =>
      let notice : Output := .ofError (Text.ofString "failed to save history: " ++ f.text)
      if p.output.failed then (notice.andThen p.output, files)
      else (p.output.andThen notice.ignoringFailure, files)

end Prompt

end BitLogic
