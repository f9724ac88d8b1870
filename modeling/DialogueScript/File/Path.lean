/-
# Paths

A path is a text whose names are separated by slashes.  Repeated slashes count as one, and a slash
at the end asks for a directory.  A path that starts with a slash is absolute; any other is relative
to a directory.

A file system does not accept names and paths of any length: a name may have at most 255 bytes, and
a whole path, as it is written, at most 4095.
-/

namespace DialogueScript

namespace Path

/-- The pieces of a path between slashes, empty ones included. -/
def pieces (path : String) : List String :=
  (path.toList.splitOn '/').map String.ofList

/-- Whether a path starts at the root. -/
def isAbsolute (path : String) : Bool :=
  path.toList.head? == some '/'

/-- Whether a path ends in a slash. -/
def endsInSlash (path : String) : Bool :=
  path.toList.getLast? == some '/'

/-- The names on a path.  A slash at the end counts as a step to the directory itself. -/
def names (path : String) : List String :=
  let names := (pieces path).filter (· ≠ "")
  if endsInSlash path && names ≠ [] then names ++ ["."] else names

/-- The number of bytes that a name may have. -/
def maxNameSize : Nat := 255

/-- The number of bytes that a path may have. -/
def maxSize : Nat := 4095

/-- Whether a name is too long for every directory. -/
def isLongName (name : String) : Bool :=
  maxNameSize < name.utf8ByteSize

/-- Whether a path is too long to be followed, wherever it leads. -/
def isLong (path : String) : Bool :=
  maxSize < path.utf8ByteSize

/-- The path of an entry of the directory at a path. -/
def join (base name : String) : String :=
  if base = "" || endsInSlash base then base ++ name else base ++ "/" ++ name

/-- What a path says apart from its spelling: whether it is absolute, its first piece, and the
pieces behind it that are neither empty nor a single dot. -/
def normalForm (path : String) : Bool × List String :=
  let pieces := pieces path
  (isAbsolute path, pieces.take 1 ++ (pieces.drop 1).filter fun piece => piece ≠ "" && piece ≠ ".")

end Path

end DialogueScript
