/-
# Checking a script

The action lines of a script are checked one by one.  A line that cannot be parsed is an error.  Of
a line that can, an empty action, an action that is not among the known ones, and every empty
parameter among several give a warning.  A summary with the number of action lines comes last.

The findings are kept as causes (`Finding`) and worded in one place (`Finding.message`).
-/
import DialogueScript.Script.Line
import DialogueScript.Report.Diagnostic

namespace DialogueScript

/-- What the check of a script finds. -/
inductive Finding where
  /-- The line cannot be parsed. -/
  | malformed (line : Nat) (error : LineError)
  /-- The line `raw` has an empty action. -/
  | emptyAction (line : Nat) (raw : String)
  /-- The action of the line is not among the known ones. -/
  | unknownAction (line : Nat) (action : String)
  /-- The parameter with this place, counted from one, is empty in the line `raw`. -/
  | emptyParameter (line : Nat) (place : Nat) (raw : String)
  /-- The number of action lines. -/
  | summary (actionLines : Nat)
  deriving Repr, DecidableEq

namespace Finding

/-- How serious a finding is. -/
def level : Finding → Level
  | malformed .. => .error
  | emptyAction .. | unknownAction .. | emptyParameter .. => .warn
  | summary .. => .info

/-- The line that a finding is about. -/
def line? : Finding → Option Nat
  | malformed line _ | emptyAction line _ | unknownAction line _ | emptyParameter line _ _ =>
    some line
  | summary _ => none

/-- The wording of a finding. -/
def message : Finding → String
  | malformed _ error => error.message
  | emptyAction .. => "动作名为空"
  | unknownAction _ action => "未知动作 '" ++ action ++ "'"
  | emptyParameter _ place _ => "第 " ++ String.ofList (renderNatural place) ++ " 个参数为空"
  | summary actionLines => "共检查 " ++ String.ofList (renderNatural actionLines) ++ " 个动作行"

/-- The text of the line, where it helps to see the finding. -/
def detail? : Finding → Option String
  | emptyAction _ raw | emptyParameter _ _ raw => some raw
  | _ => none

/-- A finding as a diagnostic about a script. -/
def diagnostic (script : String) (finding : Finding) : Diagnostic :=
  ⟨finding.level, script, finding.line?, finding.message, finding.detail?⟩

end Finding

/-! ### One line -/

/-- The finding about the action of a line; an empty list of known actions knows them all. -/
def checkAction (known : List String) (number : Nat) (raw action : String) : List Finding :=
  if action = "" then [.emptyAction number raw]
  else if known ≠ [] ∧ action ∉ known then [.unknownAction number action]
  else []

/-- The findings about the parameters of a line.  A single parameter may be empty, because a line
without parameters has one empty parameter. -/
def checkParameters (number : Nat) (raw : String) (parameters : List String) : List Finding :=
  if parameters.length ≤ 1 then []
  else (parameters.zipIdx 1).filterMap fun (parameter, place) =>
    if parameter = "" then some (.emptyParameter number place raw) else none

/-- The findings about a parsed or malformed action line. -/
def checkParsed (known : List String) (number : Nat) (raw : String) :
    Except LineError ActionLine → List Finding
  | .error e => [.malformed number e]
  | .ok line => checkAction known number raw line.action ++ checkParameters number raw line.parameters

/-- The findings about a line of a script; there are none about dialogue. -/
def checkLine (known : List String) (line : Line) : List Finding :=
  line.parse?.elim [] (checkParsed known line.number line.text)

/-! ### A whole script -/

/-- The findings about a script, line by line, and the summary. -/
def findings (known : List String) (text : String) : List Finding :=
  let lines := scriptLines text
  lines.flatMap (checkLine known) ++ [.summary (lines.countP Line.isAction)]

/-- The diagnostics about a script. -/
def checkScript (script text : String) (known : List String) : Diagnostics :=
  (findings known text).map (Finding.diagnostic script)

end DialogueScript
