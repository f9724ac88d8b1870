/-
# Configurations

A configuration says where the scripts are, which file extensions mark a script, which actions are
known, and whether warnings count as errors.  It has four fields, each with a default.

A configuration is valid if it names at least one extension, and every extension is written without
its leading dot.
-/
import DialogueScript.File.Path
import DialogueScript.File.Suffix

namespace DialogueScript

/-- The settings of a check. -/
structure Configuration where
  /-- The directory of the scripts, where no path is given. -/
  scriptsDir : String
  /-- The extensions of script files, without the dot. -/
  extensions : List String
  /-- The actions that a script may use; an empty list allows all. -/
  knownActions : List String
  /-- Whether a warning makes the check fail. -/
  warningsAsErrors : Bool
  deriving Repr, DecidableEq

/-- Why a configuration is invalid. -/
inductive ConfigurationFlaw where
  | noExtension
  | badExtension (ext : String)
  deriving Repr, DecidableEq

/-- The wording of a flaw. -/
def ConfigurationFlaw.message : ConfigurationFlaw → String
  | noExtension => "配置验证失败: extensions 不能为空"
  | badExtension ext => "配置验证失败: 无效的扩展名 '" ++ ext ++ "'（不带 `.`，且不能为空）"

namespace Configuration

/-- The configuration in which every field has its default. -/
def standard : Configuration where
  scriptsDir := "assets/scripts"
  extensions := ["txt", "ink"]
  knownActions := []
  warningsAsErrors := false

/-- Whether two configurations say the same; their directories may be spelled differently. -/
def agrees (c d : Configuration) : Bool :=
  Path.normalForm c.scriptsDir == Path.normalForm d.scriptsDir && c.extensions == d.extensions
    && c.knownActions == d.knownActions && c.warningsAsErrors == d.warningsAsErrors

/-- An extension must not be empty, and must not be written with its dot. -/
def isBadExtension (ext : String) : Bool :=
  ext.toList.head?.all (· == '.')

/-- The first flaw of a configuration, if it has one. -/
def flaw? (c : Configuration) : Option ConfigurationFlaw :=
  if c.extensions = [] then some .noExtension
  else (c.extensions.find? isBadExtension).map .badExtension

/-- Whether a path, given in bytes, has one of the configured extensions; the case of ASCII letters
does not matter. -/
def isScriptPath (c : Configuration) (path : List UInt8) : Bool :=
  match suffixText? path with
  | some suffix => c.extensions.any fun ext => equalIgnoringAsciiCase ext suffix
  | none => false

end Configuration

end DialogueScript
