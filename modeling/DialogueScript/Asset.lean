/-
# Asset names

A script may write the name of an asset in words, separated by underscores or spaces; the asset is
known by the words joined together, each with a capital: `phoenix wright` is `PhoenixWright`.  Only
the first character of a word changes, by the full upper-case mapping.
-/
import DialogueScript.Text.Uppercase
import DialogueScript.Text.Catalogue

namespace DialogueScript

/-- A name in its joined form. -/
structure AssetName where
  text : String
  deriving Repr, DecidableEq

namespace AssetName

/-- Underscores and spaces separate words. -/
def isSeparator (c : Char) : Bool :=
  c == '_' || c == ' '

/-- The words of a raw name, in order. -/
def words (raw : List Char) : List (List Char) :=
  (raw.splitOnP isSeparator).filter (! ·.isEmpty)

/-- The word with its first character in upper case. -/
def withCapital : List Char → List Char
  | [] => []
  | first :: rest => uppercase first ++ rest

/-- The asset that a raw name stands for. -/
def ofRaw (raw : String) : AssetName :=
  ⟨String.ofList ((words raw.toList).flatMap withCapital)⟩

/-- The different names of a list, in byte order. -/
def distinct (names : List AssetName) : List AssetName :=
  (Catalogue.ofList (names.map fun name => (name.text, ()))).names.map AssetName.mk

end AssetName

end DialogueScript
