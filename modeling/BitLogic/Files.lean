import BitLogic.Fault

/-!
# Files

The files of the working directory as a value: reading looks a path up, and writing
gives the files as they are afterwards. A path that leads nowhere, through a file, or
to a directory fails in the words of the operating system.

## Main definitions

* `Files`: Contents by path.
* `Files.Place`: What a path leads to.
* `Files.locate`: The place of a path.
* `Files.read`, `Files.write`: Reading and writing a whole file.
* `Files.normalize`: The name that a path is listed under.
* `Files.extension`: The part of a path from its last dot on.
-/

namespace BitLogic

/-- The contents of files by their path below the working directory. -/
abbrev Files := List (Text × Text)

namespace Files

/-- Why a path cannot be used. -/
inductive Reason where
  | notFound
  | notDirectory
  | isDirectory
  | nameTooLong
  | invalid
  deriving Repr, DecidableEq, Inhabited

/-- A reason in words. -/
def Reason.text : Reason → Text
  | .notFound => Text.ofString "no such file or directory"
  | .notDirectory => Text.ofString "not a directory"
  | .isDirectory => Text.ofString "is a directory"
  | .nameTooLong => Text.ofString "file name too long"
  | .invalid => Text.ofString "invalid argument"

/-- What a path leads to: a file with its content, a directory, a free name in a
    directory that exists, or nothing. -/
inductive Place where
  | file (name content : Text)
  | directory
  | free (name : Text)
  | nowhere (reason : Reason)
  deriving Repr, DecidableEq, Inhabited

/-- The byte between the parts of a path. -/
def separator : UInt8 := 47

/-- A path from its parts. -/
def joinParts (parts : List Text) : Text := Text.joinWith [separator] parts

/-- Some file lies below a directory of this name. -/
def hasDirectory (fs : Files) (name : Text) : Bool :=
  fs.any fun (n, _) => (Text.dropPrefix? (name ++ [separator]) n).isSome

/-- The place of the parts of a path, seen from the directory `dir`, whose parts are
    given last one first. The directory above the working directory exists, and so
    does the one above that; what they hold is unknown. -/
def locateFrom (fs : Files) (dir : List Text) : List Text → Place
  | [] => .directory
  | part :: rest =>
    if part = [] ∨ part = [46] then locateFrom fs dir rest
    else if part = [46, 46] then locateFrom fs dir.tail rest
    else if 255 < part.length then .nowhere .nameTooLong
    else
      let here := part :: dir
      let name := joinParts here.reverse
      match fs.lookup name with
      | some content => if rest.isEmpty then .file name content else .nowhere .notDirectory
      | none =>
        if hasDirectory fs name then locateFrom fs here rest
        else match rest with
          | [] => .free name
          | _ => .nowhere .notFound

/-- The place of a path that starts at the root, of which only the files given by
    such a path are known. -/
def locateFromRoot (fs : Files) (path : Text) : Place :=
  match fs.lookup path with
  | some content => .file path content
  | none => if path.all (· = separator) then .directory else .nowhere .notFound

/-- The place of a path. -/
def locate (fs : Files) (path : Text) : Place :=
  if path.contains 0 then .nowhere .invalid
  else if path = [] then .nowhere .notFound
  else if 4095 < path.length then .nowhere .nameTooLong
  else if path.head? = some separator then locateFromRoot fs path
  else locateFrom fs [] (Text.splitOn separator path)

/-- What was done to a path, the path, and why it failed. -/
def complaint (action : String) (path : Text) (reason : Reason) : Failure :=
  .plain (Text.ofString action ++ [Text.space] ++ path ++ Text.ofString ": " ++ reason.text)

/-- The content of a file. A directory can be opened and then not read. -/
def read (fs : Files) (path : Text) : Except Failure Text :=
  match fs.locate path with
  | .file _ content => .ok content
  | .directory => .error (complaint "read" path .isDirectory)
  | .free _ => .error (complaint "open" path .notFound)
  | .nowhere reason => .error (complaint "open" path reason)

/-- The files after a file has been given a new content. -/
def write (fs : Files) (path content : Text) : Except Failure Files :=
  match fs.locate path with
  | .file name _ => .ok ((name, content) :: fs.eraseP (·.1 == name))
  | .free name => .ok ((name, content) :: fs)
  | .directory => .error (complaint "open" path .isDirectory)
  | .nowhere reason => .error (complaint "open" path reason)

/-- A path without the parts that lead nowhere: what the files below the working
    directory are listed under. -/
def normalize (path : Text) : Text :=
  if path.head? = some separator then path
  else joinParts ((Text.splitOn separator path).filter fun part => part ≠ [] && part ≠ [46])

/-- The part of a path from its last dot on; nothing if its last part has no
    dot. -/
def extension (path : Text) : Text :=
  let name := (path.reverse.takeWhile (· ≠ separator))
  let ending := name.takeWhile (· ≠ 46)
  if ending.length = name.length then [] else 46 :: ending.reverse

end Files

end BitLogic
