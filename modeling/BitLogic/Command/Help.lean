import BitLogic.Command.Shell

/-!
# Help texts

What each command does, how it is called, and which options it has. The options of
the program are listed with it, and with the other commands as global ones, apart
from the help option, which each command has for itself.

## Main definitions

* `Command.summary`: A command in one line.
* `Command.below`: What stands below a command.
* `Command.helpText`: The help text of a command.
-/

namespace BitLogic

namespace Flag

/-- What stands for the value of an option. -/
def placeholder (f : Flag) : Text := if f.takesValue then Text.ofString " string" else []

/-- What an option does, in the help text of a command of some name. -/
def purpose (command : Text) : Flag → Text
  | .config => Text.ofString "config file (.toml or .yaml)"
  | .expr => Text.ofString "program text to run instead of a file"
  | .help => Text.ofString "help for " ++ command
  | .noColour => Text.ofString "disable colored diagnostics"
  | .verbose => Text.ofString "log every pipeline stage"

/-- An option and its placeholder, the long names aligned. -/
def heading (f : Flag) : Text :=
  let short := match f.letter? with
    | some b => Text.ofString "  -" ++ [b] ++ Text.ofString ", "
    | none => Text.ofString "      "
  short ++ Text.ofString "--" ++ f.name ++ f.placeholder

/-- Options one to a line, their purposes aligned. -/
def listing (command : Text) (fs : List Flag) : Text :=
  let width := fs.foldl (fun n f => max n f.heading.length) 0
  fs.flatMap fun f =>
    f.heading ++ List.replicate (width - f.heading.length + 3) Text.space ++ f.purpose command ++
      [Text.lineFeed]

end Flag

namespace Command

/-- A command in one line. -/
def summary : Command → Text
  | .run => Text.ofString "Evaluate boolean expressions over declared bits"
  | .tokens => Text.ofString "Print the tokens of a program"
  | .tree => Text.ofString "Print the expression tree of a program"
  | .check => Text.ofString "Report every undefined name and bad call without evaluating"
  | .ir => Text.ofString "Print the LLVM IR of a program"
  | .help => Text.ofString "Help about any command"
  | .completion => Text.ofString "Generate the autocompletion script for the specified shell"
  | .request _ =>
    Text.ofString "Request shell completion choices for the specified command-line"

/-- A command in more lines, where there is more to say. -/
def description : Command → Text
  | .run => Text.joinWith [Text.lineFeed] (List.map Text.ofString
      ["booleval evaluates a program of the form", "", "  <n> <bit_1> ... <bit_n> <expr>", "",
        "where the bits are bound to the variables A, B, C, ... and <expr> is a",
        "variable or a call to not, and or or, for example \"2 1 0 and(A, not(B))\".", "",
        "Without a file or -e an interactive prompt is started."])
  | .help => Text.joinWith [Text.lineFeed] (List.map Text.ofString
      ["Help provides help for any command in the application.",
        "Simply type booleval help [path to command] for full details."])
  | .completion => Text.joinWith [Text.lineFeed] (List.map Text.ofString
      ["Generate the autocompletion script for booleval for the specified shell.",
        "See each sub-command's help for details on how to use the generated script."])
  | c => c.summary

/-- The words that a command is called by. -/
def path : Command → Text
  | .run => programName
  | c => programName ++ [Text.space] ++ c.name

/-- How a command is called. -/
def usage (c : Command) : Text :=
  let forms := match c with
    | .run => [" [file] [flags]", " [command]"]
    | .help => [" [command] [flags]"]
    | .completion => [" [command]"]
    | _ => [" [file] [flags]"]
  forms.flatMap fun form =>
    Text.ofString "  " ++ c.path ++ Text.ofString form ++ [Text.lineFeed]

/-- What stands below a command, by name and with a summary. -/
def below : Command → List (Text × Text)
  | .run => listed.map fun c => (c.name, c.summary)
  | .completion => Shell.all.map fun s => (s.name, s.summary)
  | _ => []

/-- Names one to a line, their summaries aligned. -/
def listing (entries : List (Text × Text)) : Text :=
  entries.flatMap fun (name, summary) =>
    Text.ofString "  " ++ name ++ List.replicate (12 - name.length) Text.space ++ summary ++
      [Text.lineFeed]

/-- The options of a command. Those of the program are global to the others. -/
def options (c : Command) : Text :=
  if c = .run then Flag.listing c.name Flag.all
  else Flag.listing c.name [.help] ++ Text.ofString "\nGlobal Flags:\n" ++
    Flag.listing c.name (Flag.all.filter (· ≠ .help))

/-- The help text of a command. -/
def helpText (c : Command) : Text :=
  let own := c.description ++ Text.ofString "\n\nUsage:\n" ++ c.usage
  let flags := Text.ofString "\nFlags:\n" ++ c.options
  if c.below.isEmpty then own ++ flags
  else own ++ Text.ofString "\nAvailable Commands:\n" ++ listing c.below ++ flags ++
    Text.ofString "\nUse \"" ++ c.path ++
    Text.ofString " [command] --help\" for more information about a command.\n"

end Command

end BitLogic
