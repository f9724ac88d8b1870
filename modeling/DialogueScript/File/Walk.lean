/-
# The script files below a path

A path to a regular file stands for that file.  A path to a directory stands for the files below it
that have one of the configured extensions: directories are entered in the byte order of their
names, so the files come in the order of their paths, compared name by name.  Links below the
directory are not followed and are not files.

A directory is entered by its path, so one whose path is too long is left out with all that is in
it.  A file is only named, and stays in the list even if its own path is too long to be read.
-/
import DialogueScript.File.Tree
import DialogueScript.Text.Catalogue
import DialogueScript.Configuration.Basic

namespace DialogueScript

namespace Node

mutual

/-- The regular files at and below a node, as the names that lead to them. -/
def files : Node → List (List String)
  | .file _ => [[]]
  | .link _ => []
  | .directory entries =>
    (Catalogue.ofList (entryFiles entries)).entries.flatMap fun (name, paths) =>
      paths.map (name :: ·)

/-- The regular files at and below each entry of a directory. -/
def entryFiles : List (String × Node) → List (String × List (List String))
  | [] => []
  | (name, node) :: rest => (name, files node) :: entryFiles rest

end

end Node

/-- The path of a file below a path. -/
def Path.descend (root : String) (names : List String) : String :=
  names.foldl Path.join root

/-- Whether a file below a path, given by the names that lead to it, is in a directory that can be
entered.  The directories on the way to it have shorter paths. -/
def Path.isReachable (root : String) (names : List String) : Bool :=
  ! isLong (descend root names.dropLast)

/-- The script files for which a path stands. -/
def scriptsBelow (fs : FileSystem) (config : Configuration) (root : String) : List String :=
  match fs.resolve root with
  | .ok (_, .file _) => [root]
  | .ok (_, node) =>
    ((node.files.filter (Path.isReachable root)).map (Path.descend root)).filter fun path =>
      config.isScriptPath (utf8 path)
  | .error _ => []

end DialogueScript
