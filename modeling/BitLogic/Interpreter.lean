import BitLogic.Check
import BitLogic.Eval
import BitLogic.Files
import BitLogic.IR.Printer
import BitLogic.Log

/-!
# Interpreter

The whole way from a source to an answer, with a record for each stage that was
passed: how many tokens there are, how many bits and which span the program has, and
what came of it. A stage that fails leaves a record with its name, the wording of the
fault and its span, and nothing comes after it.

## Main definitions

* `Interpreter.parse`, `Interpreter.run`, `Interpreter.check`,
  `Interpreter.compile`: The program, the value, the faults and the module of a
  source, with their records.
* `Interpreter.runFile`: The value of a source that is read from a file.
-/

namespace BitLogic

namespace Interpreter

open Log (Record Logged)

/-- A record whose message and keys are literals. -/
def record (message : String) (attrs : List (String × Text)) : Record :=
  ⟨Text.ofString message, attrs.map fun (k, v) => (Text.ofString k, v)⟩

/-- The record of a stage that failed. A breach is not recorded. -/
def failureRecords (stage : String) : Stop → List Record
  | .fault f =>
    [record "pipeline failed"
      [("stage", Text.ofString stage), ("error", f.message), ("span", f.span.text)]]
  | .breach _ => []

/-- One more stage after a logged outcome: its own outcome, and the record of its
    success. -/
def stage {α β : Type} (name : String) (prior : Logged (Except Stop α)) (next : α → Except Stop β)
    (success : β → Record) : Logged (Except Stop β) :=
  match prior.value with
  | .error stop => ⟨.error stop, prior.records⟩
  | .ok a =>
    match next a with
    | .error stop => ⟨.error stop, prior.records ++ failureRecords name stop⟩
    | .ok b => ⟨.ok b, prior.records ++ [success b]⟩

/-- The program of a source. -/
def parse (src : Text) : Logged (Except Stop Program) :=
  let lexed := record "lexed" [("tokens", Text.ofNat (lex src).length)]
  stage "parse" ⟨.ok src, [lexed]⟩ BitLogic.parse fun p =>
    record "parsed" [("args", Text.ofNat p.args.length), ("span", p.expr.span.text)]

/-- The value of a source. -/
def run (src : Text) : Logged (Except Stop Bool) :=
  stage "eval" (parse src) Program.eval fun b => record "evaluated" [("result", Text.ofBool b)]

/-- The faults of a source. -/
def check (src : Text) : Logged (Except Stop (List Fault)) :=
  stage "check" (parse src) (fun p => p.check.mapError Stop.breach) fun fs =>
    record "checked" [("problems", Text.ofNat fs.length)]

/-- The module of a source. -/
def compile (src : Text) : Logged (Except Stop Text) :=
  let built := stage "compile" (parse src) IR.ofProgram fun fs =>
    record "compiled" [("funcs", Text.ofNat fs.length)]
  { built with value := built.value >>= fun fs => (IR.moduleText fs).mapError Stop.breach }

/-- A source and what came of it. -/
structure Ran where
  source : Text
  outcome : Logged (Except Stop Bool)

/-- The value of a source that is to be read first. -/
def runRead (context : Text) (read : Except Failure Text) : Except Failure Ran :=
  match read with
  | .error f => .error (.within context f)
  | .ok src => .ok ⟨src, run src⟩

/-- The value of a source in a file. -/
def runFile (fs : Files) (path : Text) : Except Failure Ran :=
  runRead (Text.ofString "failed to read " ++ path) (fs.read path)

/-- The value of a source from a stream, whose bytes are given unless it failed. -/
def runStream (read : Except Failure Text) : Except Failure Ran :=
  runRead (Text.ofString "failed to read input") read

end Interpreter

end BitLogic
