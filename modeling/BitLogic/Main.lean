import BitLogic.Command.Run

/-!
# The program

The command line: the files that the arguments name and the input are read, the call
is run on them, and its output is printed. Only the history of the prompt is ever
written. Shells are not served: no script is printed for them.

## Main definitions

* `main`: The command line.
-/

namespace BitLogic

namespace Host

/-- The bytes of a text for the system. -/
def toBytes (t : Text) : ByteArray := ⟨t.toArray⟩

/-- The name of a file for the system; a path that is not UTF-8 has none. -/
def fileName? (path : Text) : Option String := String.fromUTF8? (toBytes path)

/-- The files with one more, if it can be read. -/
def fetch (files : Files) (path : Text) : IO Files := do
  let some name := fileName? path | return files
  try
    let bytes ← IO.FS.readBinFile name
    return (Files.normalize path, bytes.data.toList) :: files
  catch _ => return files

/-- A new file, unless there is one. That it cannot be made shows when it is written. -/
def touch (path : Text) : IO Unit := do
  let some name := fileName? path | return
  try
    discard <| IO.FS.readBinFile name
  catch _ =>
    try IO.FS.writeBinFile name .empty
    catch _ => return

/-- The rest of a stream. -/
partial def readAll (stream : IO.FS.Stream) (seen : ByteArray) : IO ByteArray := do
  let chunk ← stream.read 65536
  if chunk.isEmpty then return seen else readAll stream (seen ++ chunk)

/-- Colours are used if the environment insists on them. -/
def profile : IO Paint.Profile := do
  let forced := (← IO.getEnv "CLICOLOR_FORCE").getD ""
  let refused := (← IO.getEnv "NO_COLOR").getD ""
  return if forced = "" || forced = "0" || refused ≠ "" then .plain else .coloured

/-- A call with all that it refers to. -/
def prepare (args : List Text) : IO Call := do
  let refs := Call.references args
  let files ← (refs.config.toList ++ refs.source.toList).foldlM fetch []
  let input ← if refs.readsInput then readAll (← IO.getStdin) .empty else pure .empty
  let call : Call := { args, input := input.data.toList, files, profile := ← profile }
  let history := if refs.startsPrompt then call.historyFile? else none
  match history with
  | none => return call
  | some path =>
    touch path
    return { call with files := ← fetch files path }

/-- Writes the files that have changed. -/
def store (before after : Files) : IO Unit :=
  after.forM fun (path, content) => do
    if before.lookup path ≠ some content then
      let some name := fileName? path | return
      IO.FS.writeBinFile name (toBytes content)

end Host

end BitLogic

open BitLogic in
/-- The command line. -/
def main (args : List String) : IO UInt32 := do
  let call ← Host.prepare (args.map Text.ofString)
  let (output, files) := call.run
  (← IO.getStdout).write (Host.toBytes output.result)
  (← IO.getStderr).write (Host.toBytes output.messages)
  Host.store call.files files
  return if output.failed then 1 else 0
