import BitLogic.Command.Help
import BitLogic.Prompt.Session
import BitLogic.Settings.Load

/-!
# Running a command

From the arguments to the output. A call can fail in several places, and the first one
counts: the options, the number of arguments, the settings file, the source, and last
the command on the source. Asking for help comes before all but the options. What is meant
for shells is left to a completer, and then the arguments are not read at all.

## Main definitions

* `Call`: Everything that a run of the program depends on.
* `Call.settings`: The settings in force under some options.
* `Call.source`: The source that a command works on.
* `Call.completed?`: What the completer does with a call.
* `Call.references`: The files that the arguments name.
* `Call.historyFile?`: The file of the history.
* `Call.run`: The output of a run, and the files behind it.
-/

namespace BitLogic

/-- Everything that a run of the program depends on. -/
structure Call where
  args : List Text
  input : Text
  files : Files
  profile : Paint.Profile
  completer : Completer := .silent
  deriving Inhabited

namespace Call

/-- The settings in force: those of the file that the options name, and over them what
    the options say themselves. -/
def settings (call : Call) (o : Options) : Except Failure Settings := do
  let s ← if o.config.isEmpty then pure {} else Settings.load call.files o.config
  return { s with
    colour := s.colour && !o.noColour
    logLevel := if o.verbose then Text.ofString "debug" else s.logLevel }

/-- The source that a command works on: the text among the options, the input, or a
    file. Without a file the text counts even if it is empty. -/
def source (call : Call) (o : Options) (positional : List Text) : Except Failure Text :=
  match positional with
  | [] => .ok o.expr
  | path :: _ =>
    if !o.expr.isEmpty then .ok o.expr
    else if path = [dash] then .ok call.input
    else call.files.read path

/-- The call starts a prompt. -/
def startsPrompt (c : Command) (o : Options) (positional : List Text) : Bool :=
  c = .run && positional.isEmpty && o.expr.isEmpty

/-- Too many arguments for a command. One that works on a source takes no more than
    one. -/
def argumentError? (c : Command) (positional : List Text) : Option Text :=
  if c.hasSource && 1 < positional.length then
    some (Text.ofString "accepts at most 1 arg(s), received " ++ Text.ofNat positional.length)
  else none

/-- What a command does with a source. -/
def onSource (c : Command) (console : Console) (src : Text) : Output :=
  match c with
  | .tokens => console.tokens src
  | .tree => console.tree src
  | .check => console.check src
  | .ir => console.ir src
  | _ => console.evaluate src

/-- What the completer does, if the arguments behind a command are meant for it. -/
def completed? (call : Call) : Command → List Text → Option Output
  | .request described, args => some (call.completer.choices described args)
  | .completion, args =>
    (Shell.find? args).map fun (shell, rest) => call.completer.script shell rest
  | _, _ => none

/-- The help text on what the arguments name. A request is a command only while it is
    carried out, and a word that names no command leads to the program. -/
def helpOn (call : Call) (topic : List Text) : Text :=
  match Command.find topic with
  | (.request _, _) => Command.run.helpText
  | (.completion, args) =>
    match Shell.find? args with
    | some (shell, _) => call.completer.about shell
    | none => Command.completion.helpText
  | (c, _) => c.helpText

/-- A command under the settings in force. -/
def perform (call : Call) (c : Command) (console : Console) (o : Options) (positional : List Text) :
    Output × Files :=
  if c = .help then (.ofResult (call.helpOn positional), call.files)
  else if startsPrompt c o positional then
    Prompt.session console call.files call.input
  else match call.source o positional with
    | .error f => (.ofError f.text, call.files)
    | .ok src => (onSource c console src, call.files)

/-- What the arguments of a call refer to: the settings file, the file of the source,
    and whether the input is read. -/
structure References where
  config : Option Text := none
  source : Option Text := none
  readsInput : Bool := false
  startsPrompt : Bool := false
  deriving Repr, DecidableEq, Inhabited

/-- What arguments refer to. A call that fails on them, asks for help or is meant for
    shells refers to nothing. -/
def references (args : List Text) : References :=
  let (c, rest) := Command.find args
  match Options.read rest with
  | .error _ => {}
  | .ok (o, positional) =>
    if o.help || !(c.hasSource || c = .help) || (argumentError? c positional).isSome then {}
    else
      let config := if o.config.isEmpty then none else some o.config
      let prompted := startsPrompt c o positional
      match if c.hasSource && o.expr.isEmpty then positional.head? else none with
      | none => { config, readsInput := prompted, startsPrompt := prompted }
      | some path =>
        if path = [dash] then { config, readsInput := true } else { config, source := some path }

/-- The output of a run, and the files behind it. -/
def run (call : Call) : Output × Files :=
  let (c, args) := Command.find call.args
  match call.completed? c args with
  | some output => (output, call.files)
  | none =>
    match Options.read args with
    | .error f => (.ofError f.text, call.files)
    | .ok (o, positional) =>
      -- By itself the command above the scripts does nothing, so it is explained.
      if o.help || c = .completion then (.ofResult c.helpText, call.files)
      else match argumentError? c positional, call.settings o with
        | some t, _ => (.ofError t, call.files)
        | none, .error f => (.ofError f.text, call.files)
        | none, .ok s => call.perform c ⟨s, call.profile⟩ o positional

/-- The file of the history, if one is set. -/
def historyFile? (call : Call) : Option Text :=
  match Options.read (Command.find call.args).2 with
  | .error _ => none
  | .ok (o, _) =>
    match call.settings o with
    | .ok s => if s.historyFile.isEmpty then none else some s.historyFile
    | .error _ => none

end Call

end BitLogic
