import BitLogic.Fault
import BitLogic.Text.Quoted

/-!
# Commands and options

The first word of the arguments that is neither an option nor the value of one may
name a command; without one, the program evaluates a source or starts a prompt.
Options may stand anywhere before a `--`. Short ones can be joined behind one dash,
and the value of an option stands behind an equals sign, or directly behind a letter,
or in the next argument.

The word that names a command is looked for before the options are read, and then
without knowledge of the help option, which therefore seems to take a value.

Two sorts of commands are there for shells, which complete words by scripts. One has the
scripts below it, and by the other a script asks for the choices at a word. No listing
shows the latter, but a word names it like any other command.

## Main definitions

* `Command`: The commands.
* `Command.listed`, `Command.unlisted`, `Command.names`: The commands that have a word.
* `Flag`: The options.
* `Options`: What the options were set to.
* `Command.find`: The command that arguments name, and the other arguments.
* `Options.read`: The options and the positional arguments.
-/

namespace BitLogic

/-- The commands. A request of a script comes with descriptions of the choices or
    without. -/
inductive Command where
  | run
  | tokens
  | tree
  | check
  | ir
  | help
  | completion
  | request (described : Bool)
  deriving Repr, DecidableEq, Inhabited

/-- The options. -/
inductive Flag where
  | config
  | expr
  | help
  | noColour
  | verbose
  deriving Repr, DecidableEq, Inhabited

namespace Flag

/-- All options in the order of their names. -/
def all : List Flag := [.config, .expr, .help, .noColour, .verbose]

/-- The long name of an option. -/
def name : Flag → Text
  | .config => Text.ofString "config"
  | .expr => Text.ofString "expr"
  | .help => Text.ofString "help"
  | .noColour => Text.ofString "no-color"
  | .verbose => Text.ofString "verbose"

/-- The letter of an option. -/
def letter? : Flag → Option UInt8
  | .expr => some 101
  | .help => some 104
  | .verbose => some 118
  | _ => none

/-- The option takes a value, and is not just switched on. -/
def takesValue : Flag → Bool
  | .config => true
  | .expr => true
  | _ => false

/-- An option by its long name. -/
def ofName? (t : Text) : Option Flag := all.find? (·.name == t)

/-- An option by its letter. -/
def ofLetter? (b : UInt8) : Option Flag := all.find? (·.letter? == some b)

/-- An option as messages show it. -/
def shown (f : Flag) : Text :=
  match f.letter? with
  | some b => Text.ofString "-" ++ [b] ++ Text.ofString ", --" ++ f.name
  | none => Text.ofString "--" ++ f.name

end Flag

/-- What the options were set to. -/
structure Options where
  config : Text := []
  expr : Text := []
  help : Bool := false
  noColour : Bool := false
  verbose : Bool := false
  deriving Repr, DecidableEq, Inhabited

/-- The byte that options start with. -/
def dash : UInt8 := 45

/-- The byte between an option and its value. -/
def equalsSign : UInt8 := 61

namespace Options

/-- The words for truth values. -/
def flagWords : List (Text × Bool) :=
  (["1", "t", "T", "TRUE", "true", "True"].map fun w => (Text.ofString w, true)) ++
    ["0", "f", "F", "FALSE", "false", "False"].map fun w => (Text.ofString w, false)

/-- The truth value of an option. -/
def flagValue (f : Flag) (t : Text) : Except Failure Bool :=
  match flagWords.lookup t with
  | some b => .ok b
  | none => .error <| .plain <|
    Text.ofString "invalid argument " ++ Quoted.text t ++ Text.ofString " for " ++
      Quoted.text f.shown ++ Text.ofString " flag: strconv.ParseBool: parsing " ++
      Quoted.text t ++ Text.ofString ": invalid syntax"

/-- The options after one of them got a value. -/
def set (o : Options) (f : Flag) (t : Text) : Except Failure Options :=
  match f with
  | .config => .ok { o with config := t }
  | .expr => .ok { o with expr := t }
  | .help => (flagValue f t).map fun b => { o with help := b }
  | .noColour => (flagValue f t).map fun b => { o with noColour := b }
  | .verbose => (flagValue f t).map fun b => { o with verbose := b }

/-- The value of an option that is only switched on. -/
def switchedOn : Text := Text.ofString "true"

/-- The options after a long one, given without its dashes, and the arguments left
    over behind it. -/
def setLong (o : Options) (body : Text) (rest : List Text) : Except Failure (Options × List Text) :=
  let name := body.takeWhile (· ≠ equalsSign)
  let written := Text.ofString "--" ++ body
  if name.isEmpty || body.head? = some dash then
    .error (.plain (Text.ofString "bad flag syntax: " ++ written))
  else match Flag.ofName? name with
    | none => .error (.plain (Text.ofString "unknown flag: --" ++ name))
    | some f =>
      if name.length < body.length then
        (o.set f (body.drop (name.length + 1))).map fun o => (o, rest)
      else if !f.takesValue then (o.set f switchedOn).map fun o => (o, rest)
      else match rest with
        | value :: rest => (o.set f value).map fun o => (o, rest)
        | [] => .error (.plain (Text.ofString "flag needs an argument: " ++ written))

/-- The options after joined letters, and the arguments left over behind them. Letters
    that start with `test.` are passed over. -/
def setShort (o : Options) (letters : Text) (rest : List Text) :
    Except Failure (Options × List Text) :=
  if (Text.dropPrefix? (Text.ofString "test.") letters).isSome then .ok (o, rest)
  else match letters with
    | [] => .ok (o, rest)
    | b :: more =>
      let complain (what : String) : Except Failure (Options × List Text) :=
        .error <| .plain <|
          Text.ofString what ++ Quoted.char b.toNat ++ Text.ofString " in -" ++ letters
      match Flag.ofLetter? b with
      | none => complain "unknown shorthand flag: "
      | some f =>
        if more.head? = some equalsSign && 1 < more.length then
          (o.set f (more.drop 1)).map fun o => (o, rest)
        else if !f.takesValue then do
          let o ← o.set f switchedOn
          o.setShort more rest
        else if !more.isEmpty then (o.set f more).map fun o => (o, rest)
        else match rest with
          | value :: rest => (o.set f value).map fun o => (o, rest)
          | [] => complain "flag needs an argument: "

/-- The options and positional arguments of some arguments. The number of steps is at
    least that of the arguments. -/
def readLoop : Nat → Options → List Text → Except Failure (Options × List Text)
  | 0, o, _ => .ok (o, [])
  | _, o, [] => .ok (o, [])
  | steps + 1, o, arg :: rest =>
    match arg with
    | 45 :: 45 :: [] => .ok (o, rest)
    | 45 :: 45 :: body => do
      let (o, rest) ← o.setLong body rest
      readLoop steps o rest
    | 45 :: b :: letters => do
      let (o, rest) ← o.setShort (b :: letters) rest
      readLoop steps o rest
    | _ => (readLoop steps o rest).map fun (o, positional) => (o, arg :: positional)

/-- The options and positional arguments of some arguments. -/
def read (args : List Text) : Except Failure (Options × List Text) := readLoop args.length {} args

end Options

namespace Command

/-- The name of the program. -/
def programName : Text := Text.ofString "booleval"

/-- The name of a command, which is that of the program for the one without a word. -/
def name : Command → Text
  | .run => programName
  | .tokens => Text.ofString "tokens"
  | .tree => Text.ofString "tree"
  | .check => Text.ofString "check"
  | .ir => Text.ofString "ir"
  | .help => Text.ofString "help"
  | .completion => Text.ofString "completion"
  | .request true => Text.ofString "__complete"
  | .request false => Text.ofString "__completeNoDesc"

/-- The commands that a listing shows, by name in ascending order. -/
def listed : List Command := [.check, .completion, .help, .ir, .tokens, .tree]

/-- The commands that no listing shows. -/
def unlisted : List Command := [.request true, .request false]

/-- The commands by the words that name them. -/
def names : List (Text × Command) := (listed ++ unlisted).map fun c => (c.name, c)

/-- The command works on a source. -/
def hasSource : Command → Bool
  | .run | .tokens | .tree | .check | .ir => true
  | .help | .completion | .request _ => false

/-- The option takes its value from the next argument, as far as can be told without
    knowing the help option: that holds of every option that is not known to be just
    switched on. -/
def takesNext (arg : Text) : Bool :=
  let isSwitch (f : Option Flag) : Bool := f = some .noColour || f = some .verbose
  !arg.contains equalsSign &&
    match arg with
    | 45 :: 45 :: name => !isSwitch (Flag.ofName? name)
    | [45, b] => !isSwitch (Flag.ofLetter? b)
    | _ => false

/-- The first word that may name a command. An option that seems to take a value ends
    the search if at most one argument follows it. -/
def firstWord? : List Text → Option Text
  | [] => none
  | arg :: rest =>
    if arg = [45, 45] then none
    else if takesNext arg then
      match rest with
      | _ :: next :: more => firstWord? (next :: more)
      | _ => none
    else if arg.isEmpty || arg.head? = some dash then firstWord? rest
    else some arg

/-- The arguments without the first occurrence of a word that is neither an option nor
    the value of one. -/
def withoutWord (word : Text) : List Text → List Text
  | [] => []
  | arg :: rest =>
    if arg = [45, 45] then arg :: rest
    else if takesNext arg then
      match rest with
      | value :: rest => arg :: value :: withoutWord word rest
      | [] => [arg]
    else if arg = word then rest
    else arg :: withoutWord word rest

/-- The command that arguments name, and the other arguments. -/
def find (args : List Text) : Command × List Text :=
  match firstWord? args with
  | none => (.run, args)
  | some word =>
    match names.lookup word with
    | none => (.run, args)
    | some c => (c, withoutWord word args)

end Command

end BitLogic
