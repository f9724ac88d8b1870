/-
# File trees

A file system is a tree of directories, regular files and symbolic links, together with a working
directory.  Following a path from a directory (`FileSystem.resolve`) follows the links it meets, at
most 40 of them, and ends at a file or a directory, or fails.  A name that is too long makes it fail
in the directory where the name is looked up; a path that is too long fails before its first name.

Directories list their entries in the order in which they were created; of two entries with one name
the first counts.  The names of entries and the targets of links are strings, so trees with names that
are not valid UTF-8 are outside the model.
-/
import DialogueScript.File.Path

namespace DialogueScript

/-- A regular file, a symbolic link or a directory. -/
inductive Node where
  | file (content : ByteArray)
  | link (target : String)
  | directory (entries : List (String × Node))

/-- The place of a node: the names that lead to it from the root. -/
abbrev Location := List String

namespace Node

/-- The node at a location below a node; links are not followed. -/
def at? : Node → Location → Option Node
  | node, [] => some node
  | .directory entries, name :: names => (entries.lookup name).bind fun node => node.at? names
  | _, _ :: _ => none

end Node

/-- A tree and the directory from which relative paths start. -/
structure FileSystem where
  root : Node
  workingDirectory : Location

/-- Why a file cannot be read. -/
inductive AccessFailure where
  | notFound
  | notDirectory
  | isDirectory
  | nameTooLong
  | tooManyLinks
  | nulInPath
  | notUtf8
  deriving Repr, DecidableEq

/-- The wording of a failure. -/
def AccessFailure.message : AccessFailure → String
  | notFound => "No such file or directory (os error 2)"
  | notDirectory => "Not a directory (os error 20)"
  | isDirectory => "Is a directory (os error 21)"
  | nameTooLong => "File name too long (os error 36)"
  | tooManyLinks => "Too many levels of symbolic links (os error 40)"
  | nulInPath => "file name contained an unexpected NUL byte"
  | notUtf8 => "stream did not contain valid UTF-8"

/-! ### Following a path -/

/-- Where a walk along names stops. -/
inductive Stop where
  /-- At the end of the names. -/
  | reached (location : Location) (node : Node)
  /-- At a link in the directory at `location`, with further names to go. -/
  | link (location : Location) (target : String) (rest : List String)
  /-- In the directory at `location`, which has no entry `name`, with further names to go. -/
  | missing (location : Location) (name : String) (rest : List String)
  | failed (failure : AccessFailure)

/-- Where a path leads once its links have been followed. -/
inductive Arrival where
  | found (location : Location) (node : Node)
  /-- The directory at `location` has no entry `name`; the names of `rest` would come after it. -/
  | vacant (location : Location) (name : String) (rest : List String)
  | failed (failure : AccessFailure)

namespace FileSystem

/-- Follows names from a location up to the next link. -/
def advance (fs : FileSystem) (location : Location) : List String → Stop
  | [] =>
    match fs.root.at? location with
    | some node => .reached location node
    | none => .failed .notFound
  | name :: rest =>
    match fs.root.at? location with
    | some (.directory entries) =>
      if name = "." then fs.advance location rest
      else if name = ".." then fs.advance location.dropLast rest
      else if Path.isLongName name then .failed .nameTooLong
      else match entries.lookup name with
        | none => .missing location name rest
        | some (.link target) => .link location target rest
        | some _ => fs.advance (location ++ [name]) rest
    | _ => .failed .notDirectory

/-- The location from which a path starts that is met in the directory at `location`. -/
def startOf (location : Location) (path : String) : Location :=
  if Path.isAbsolute path then [] else location

/-- Follows names from a location, through at most `links` links. -/
def arrive (fs : FileSystem) (links : Nat) (location : Location) (names : List String) : Arrival :=
  match fs.advance location names with
  | .reached location node => .found location node
  | .missing location name rest => .vacant location name rest
  | .failed failure => .failed failure
  | .link location target rest =>
    match links with
    | 0 => .failed .tooManyLinks
    | links + 1 =>
      fs.arrive links (startOf location target) (Path.names target ++ rest)

/-- The file or directory to which names lead from a location, through at most `links` links. -/
def follow (fs : FileSystem) (links : Nat) (location : Location) (names : List String) :
    Except AccessFailure (Location × Node) :=
  match fs.arrive links location names with
  | .found location node => .ok (location, node)
  | .vacant .. => .error .notFound
  | .failed failure => .error failure

/-- The number of links that a path may lead through. -/
def maxLinks : Nat := 40

/-- The file or directory to which a path leads from the working directory. -/
def resolve (fs : FileSystem) (path : String) : Except AccessFailure (Location × Node) :=
  if path = "" then .error .notFound
  else if '\x00' ∈ path.toList then .error .nulInPath
  else if Path.isLong path then .error .nameTooLong
  else fs.follow maxLinks (startOf fs.workingDirectory path) (Path.names path)

/-- Whether a path leads anywhere. -/
def pathExists (fs : FileSystem) (path : String) : Bool :=
  (fs.resolve path).isOk

/-- The text of the file to which a path leads. -/
def readText (fs : FileSystem) (path : String) : Except AccessFailure String :=
  match fs.resolve path with
  | .ok (_, .file content) =>
    match String.fromUTF8? content with
    | some text => .ok text
    | none => .error .notUtf8
  | .ok (_, .directory _) => .error .isDirectory
  | .ok (_, .link _) => .error .tooManyLinks
  | .error failure => .error failure

end FileSystem

end DialogueScript
