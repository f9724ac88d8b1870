/-
# Loading a configuration file

A configuration file that does not exist stands for the standard configuration.  One that exists
must be readable, and its text must be that of a configuration.
-/
import DialogueScript.Configuration.Text
import DialogueScript.File.Tree

namespace DialogueScript

/-- Why a configuration cannot be loaded. -/
inductive LoadFailure where
  | unreadable (path : String) (failure : AccessFailure)
  | unparsable (path : String) (fault : JsonFault)
  deriving Repr, DecidableEq

/-- The wording of a failure.  For a text that cannot be parsed only its beginning is given here: the
path and the JSON parser's description of the fault, which follow it, are left out.  What kind of
fault it is, and where, the failure itself says. -/
def LoadFailure.message : LoadFailure → String
  | unreadable path failure => "配置文件读取失败 " ++ path ++ ": " ++ failure.message
  | unparsable _ _ => "配置文件解析失败"

/-- Loads the configuration file at a path. -/
def Configuration.load (fs : FileSystem) (path : String) : Except LoadFailure Configuration :=
  if fs.pathExists path = false then .ok .standard
  else match fs.readText path with
    | .error failure => .error (.unreadable path failure)
    | .ok text =>
      match Configuration.ofText text with
      | .error fault => .error (.unparsable path fault)
      | .ok config => .ok config

end DialogueScript
