/-
# Action lines

An action line names an action and lists its parameters between two delimiters, `<action>` or
`<action:parameter,…>`.  Parsing removes one character at either end, whatever it is, splits off the
action at a colon and the parameters at commas; neither separator can be escaped, and a second
colon makes the line malformed.  A line without a parameter section has one empty parameter.

An action line also remembers how far it has been read: `position` is the index of the parameter to
be read next (see `DialogueScript.ActionLine.Reading`).  Nothing in the type keeps it within the
parameters; that it stays there is a matter of how lines are made and read.
-/
import DialogueScript.Number.Integer

namespace DialogueScript

/-! ### What can go wrong -/

/-- The types of value that a parameter may fail to have. -/
inductive ParameterType where
  | integer
  | ordinal
  | number
  deriving Repr, DecidableEq

/-- The name of a parameter type in an error message. -/
def ParameterType.description : ParameterType → String
  | .integer => "integer"
  | .ordinal => "one-based integer"
  | .number => "decimal value"

/-- Why a line cannot be parsed or a parameter cannot be read. -/
inductive LineError where
  /-- The line is too short for two delimiters, or has more than one colon between them. -/
  | badSyntax (line : String)
  /-- The line has no further parameter to serve as `name`. -/
  | missingParameter (name : String)
  /-- The parameter `token`, wanted as `name`, is not of the type described. -/
  | wrongType (description name token : String)
  deriving Repr, DecidableEq

namespace LineError

/-- The text of an error. -/
def message : LineError → String
  | badSyntax line => "无效的动作行语法: " ++ line
  | missingParameter name => "参数不足，缺少: " ++ name
  | wrongType description name token =>
    "解析 " ++ name ++ " 失败：无法将 `" ++ token ++ "` 解析为 " ++ description

/-- Whether the error says that the parameters have run out. -/
def isMissingParameter : LineError → Bool
  | missingParameter _ => true
  | _ => false

end LineError

/-! ### The line -/

/-- A parsed action line: the action, all parameters in order, and the number of parameters that
have been read. -/
@[ext]
structure ActionLine where
  action : String
  parameters : List String
  position : Nat
  deriving Repr, DecidableEq

namespace ActionLine

/-- The number of parameters that have not been read. -/
def unread (line : ActionLine) : Nat :=
  line.parameters.length - line.position

/-- Whether all parameters have been read. -/
def isFullyRead (line : ActionLine) : Bool :=
  line.position == line.parameters.length

/-- The colon between the action and its parameters. -/
def actionSeparator : Char := ':'

/-- The comma between parameters. -/
def parameterSeparator : Char := ','

/-- The text between the first and the last character of a line. -/
def interior? : List Char → Option (List Char)
  | _ :: second :: rest => some (second :: rest).dropLast
  | _ => none

/-- Splits the interior of a line into the action and its parameters. -/
def splitInterior (interior : List Char) : Option (List Char × List (List Char)) :=
  match interior.splitOn actionSeparator with
  | [action] => some (action, [[]])
  | [action, parameters] => some (action, parameters.splitOn parameterSeparator)
  | _ => none

/-- Parses a line, delimiters included. -/
def parse (line : String) : Except LineError ActionLine :=
  match (interior? line.toList).bind splitInterior with
  | some (action, parameters) => .ok ⟨String.ofList action, parameters.map String.ofList, 0⟩
  | none => .error (.badSyntax line)

/-- The action line that a text stands for. -/
def ofText (text : String) : Except LineError ActionLine :=
  parse text

/-- The parameter section of a rendered line.  One empty parameter is left out. -/
def renderParameters (parameters : List String) : List Char :=
  if parameters = [""] then []
  else actionSeparator :: [parameterSeparator].intercalate (parameters.map String.toList)

/-- The line between `<` and `>`; how far it has been read does not show. -/
def render (line : ActionLine) : String :=
  String.ofList ('<' :: (line.action.toList ++ renderParameters line.parameters ++ ['>']))

end ActionLine

end DialogueScript
