import BitLogic.Command.Output
import BitLogic.Diagnostic
import BitLogic.Interpreter
import BitLogic.Listing
import BitLogic.Settings.Basic

/-!
# Consoles

The commands on a source that has been read, under the settings in force. Records of
the log come before a diagnostic; a fault is shown as a diagnostic and makes the
command fail.

## Main definitions

* `Console`: The settings in force, and what the terminal can show.
* `Console.evaluate`: The value of a source, after its listings if these are wanted.
* `Console.tokens`, `Console.tree`, `Console.check`, `Console.ir`: The other commands.
-/

namespace BitLogic

/-- The settings in force, and what the terminal can show. -/
structure Console where
  settings : Settings
  profile : Paint.Profile
  deriving Repr, Inhabited

namespace Console

/-- How diagnostics are painted. -/
def style (c : Console) : Diagnostic.Style := ⟨c.settings.colour, c.profile⟩

/-- The threshold of the log. A level that cannot be read counts as that of
    warnings. -/
def threshold (c : Console) : Log.Level :=
  (Log.Level.ofText? c.settings.logLevel).getD Log.Level.warn

/-- The records of the log that are shown. -/
def log (c : Console) (rs : List Log.Record) : Output :=
  { messages := Log.write c.threshold rs }

/-- A fault under its source. -/
def diagnose (c : Console) (src : Text) (f : Fault) : Output :=
  { messages := Diagnostic.ofFault c.style src f, failed := true }

/-- Why no result came about. -/
def stopped (c : Console) (src : Text) : Stop → Output
  | .fault f => c.diagnose src f
  | .breach b => .ofError (b.message?.getD [])

/-- The output of a logged outcome, its success being shown by a function. -/
def present {α : Type} (c : Console) (src : Text) (l : Log.Logged (Except Stop α))
    (success : α → Output) : Output :=
  (c.log l.records).andThen <|
    match l.value with
    | .ok a => success a
    | .error stop => c.stopped src stop

/-- The listings of a source that the settings ask for. The tree is only there if the
    source can be read. -/
def listings (c : Console) (src : Text) : Text :=
  (if c.settings.showTokens then Listing.tokens src else []) ++
    if c.settings.showTree then
      match parse src with
      | .ok p => Listing.tree p.expr
      | .error _ => []
    else []

/-- Without the line ends behind it. -/
def trimLineEnds (src : Text) : Text :=
  Text.dropRightWhile (fun b => b = Text.carriageReturn || b = Text.lineFeed) src

/-- The value of a source, after its listings if these are wanted. -/
def evaluate (c : Console) (src : Text) : Output :=
  let src := trimLineEnds src
  (Output.ofResult (c.listings src)).andThen <|
    c.present src (Interpreter.run src) fun b => .ofResult (Text.ofBool b ++ [Text.lineFeed])

/-- The tokens of a source. -/
def tokens (_ : Console) (src : Text) : Output := .ofResult (Listing.tokens src)

/-- The expression of a source as a tree. -/
def tree (c : Console) (src : Text) : Output :=
  c.present src (Interpreter.parse src) fun p => .ofResult (Listing.tree p.expr)

/-- All faults of a source; a source without any is well. -/
def check (c : Console) (src : Text) : Output :=
  c.present src (Interpreter.check src) fun fs =>
    if fs.isEmpty then .ofResult (Text.ofString "ok\n")
    else { messages := fs.flatMap (Diagnostic.ofFault c.style src), failed := true }

/-- The module of a source. -/
def ir (c : Console) (src : Text) : Output :=
  c.present src (Interpreter.compile src) Output.ofResult

end Console

end BitLogic
