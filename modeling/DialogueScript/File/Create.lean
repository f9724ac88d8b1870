/-
# Building a file tree

A file tree is built from a list of entries, one after the other.  The directories that lead to an
entry are created where they are missing, and links among them are followed.  A link at the end of
the path of a file is followed too: the file is written where the link leads, even if there is
nothing yet.
-/
import DialogueScript.File.Tree

namespace DialogueScript

/-- An entry to be created. -/
inductive FileEntry where
  | file (path : String) (content : ByteArray)
  | directory (path : String)
  | link (path : String) (target : String)

namespace Node

/-- The entries with `node` under `name`. -/
def setEntry (name : String) (node : Node) : List (String × Node) → List (String × Node)
  | [] => [(name, node)]
  | (other, old) :: rest =>
    if other = name then (name, node) :: rest else (other, old) :: setEntry name node rest

/-- The tree with another node at a location whose directories exist. -/
def put : Node → Location → Node → Node
  | _, [], new => new
  | .directory entries, name :: names, new =>
    let old := (entries.lookup name).getD (.directory [])
    .directory (setEntry name (old.put names new) entries)
  | node, _ :: _, _ => node

end Node

namespace FileSystem

/-- The file system with `new` at a location. -/
def put (fs : FileSystem) (location : Location) (new : Node) : FileSystem :=
  { fs with root := fs.root.put location new }

/-- Steps into the directory `name`, which is created if it is missing. -/
def enterDirectory (place : FileSystem × Location) (name : String) : FileSystem × Location :=
  let (fs, location) := place
  match fs.arrive maxLinks location [name] with
  | .found location (.directory _) => (fs, location)
  | .vacant location name [] => (fs.put (location ++ [name]) (.directory []), location ++ [name])
  | _ => (fs, location)

/-- The file system with a file to which names lead from a location. -/
def write (fs : FileSystem) (location : Location) (names : List String) (content : ByteArray) :
    FileSystem :=
  match fs.arrive maxLinks location names with
  | .found location (.file _) => fs.put location (.file content)
  | .vacant location name [] => fs.put (location ++ [name]) (.file content)
  | _ => fs

/-- The file system with one more entry. -/
def create (fs : FileSystem) (entry : FileEntry) : FileSystem :=
  let enter (path : String) (names : List String) :=
    names.foldl enterDirectory (fs, startOf fs.workingDirectory path)
  match entry with
  | .directory path => (enter path (Path.names path)).1
  | .link path target =>
    let names := Path.names path
    let (fs, location) := enter path names.dropLast
    fs.put (location ++ names.getLast?.toList) (.link target)
  | .file path content =>
    let names := Path.names path
    let (fs, location) := enter path names.dropLast
    fs.write location names.getLast?.toList content

/-- The file system in which only the working directory and the given entries exist. -/
def ofEntries (workingDirectory : Location) (entries : List FileEntry) : FileSystem :=
  let bare : FileSystem := ⟨.directory [], workingDirectory⟩
  let start := (workingDirectory.foldl enterDirectory (bare, [])).1
  entries.foldl create start

end FileSystem

end DialogueScript
