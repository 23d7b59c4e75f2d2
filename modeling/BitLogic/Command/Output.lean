import BitLogic.Text.Basic

/-!
# Output

What a command leaves behind: a text on each of its two output channels, and whether
it failed. Outputs follow one another, channel by channel.

## Main definitions

* `Output`: What was printed, and whether the command failed.
* `Output.andThen`: One output after another.
-/

namespace BitLogic

/-- What a command printed as its result and as messages, and whether it failed. -/
structure Output where
  result : Text := []
  messages : Text := []
  failed : Bool := false
  deriving Repr, DecidableEq, Inhabited

namespace Output

/-- A result. -/
def ofResult (t : Text) : Output := { result := t }

/-- An error that stops the program, in words. -/
def ofError (t : Text) : Output :=
  { messages := Text.ofString "error: " ++ t ++ [Text.lineFeed], failed := true }

/-- One output after another; the last one decides whether the whole failed. -/
def andThen (a b : Output) : Output :=
  { result := a.result ++ b.result, messages := a.messages ++ b.messages, failed := b.failed }

/-- Without regard to failure. -/
def ignoringFailure (o : Output) : Output := { o with failed := false }

end Output

end BitLogic
