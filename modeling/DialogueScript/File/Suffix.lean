/-
# The suffix of a file name

The suffix of a path is what follows the last dot in its last name.  Paths are bytes here, because a
file name need not be valid text.  Slashes and single dots at the end of a path do not count; a path
that ends in `..` has no last name, and a dot at the beginning of a name begins no suffix.
-/
import DialogueScript.Text.Bytes

namespace DialogueScript

/-- The byte of a slash. -/
def slashByte : UInt8 := 0x2F

/-- The byte of a dot. -/
def dotByte : UInt8 := 0x2E

/-- A component of a path that names nothing: an empty one, or a single dot. -/
def isIdle (component : List UInt8) : Bool :=
  component == [] || component == [dotByte]

/-- The last name of a path, if it ends in one. -/
def lastName? (path : List UInt8) : Option (List UInt8) :=
  match ((path.splitOn slashByte).filter fun component => ! isIdle component).getLast? with
  | some name => if name = [dotByte, dotByte] then none else some name
  | none => none

/-- What follows the last dot of a name, unless the dot is its first byte. -/
def suffixOfName? (name : List UInt8) : Option (List UInt8) :=
  match name.splitOn dotByte with
  | [_] => none
  | [[], _] => none
  | pieces => pieces.getLast?

/-- The suffix of a path, as text if it is valid text. -/
def suffixText? (path : List UInt8) : Option String :=
  ((lastName? path).bind suffixOfName?).bind ofUtf8?

/-- Whether two texts differ at most in the case of ASCII letters. -/
def equalIgnoringAsciiCase (s t : String) : Bool :=
  s.toList.map Char.toLower == t.toList.map Char.toLower

end DialogueScript
