/-
# Reports

A report is what the check of several scripts says: how many there were, the diagnostics in order,
and how often each action is used in all of them together.

Diagnostics and reports have a JSON form, and a report has a text form for people to read: a
heading, the warnings and errors, and a closing line that counts them.
-/
import DialogueScript.Report.Diagnostic
import DialogueScript.Script.Usage
import DialogueScript.Json.Value

namespace DialogueScript

/-- What the check of several scripts says. -/
structure Report where
  /-- The number of scripts. -/
  scripts : Nat
  diagnostics : Diagnostics
  usage : Usage
  deriving DecidableEq

namespace Report

/-- The report on no script. -/
def empty : Report := ⟨0, [], Catalogue.empty⟩

/-- Whether the scripts fail: because of an error, or of a warning where warnings are not allowed. -/
def fails (r : Report) (warningsAsErrors : Bool) : Bool :=
  r.diagnostics.anyError || (warningsAsErrors && 0 < r.diagnostics.warnings)

end Report

/-! ### JSON form -/

/-- A value that may be missing. -/
def Json.ofOption {α : Type} (encode : α → Json) : Option α → Json
  | none => .null
  | some value => encode value

/-- A diagnostic as an object; a missing line or detail is null. -/
def Diagnostic.toJson (d : Diagnostic) : Json :=
  .object [
    ("level", .string d.level.key),
    ("script_id", .string d.script),
    ("line", .ofOption .number d.line),
    ("message", .string d.message),
    ("detail", .ofOption .string d.detail)]

/-- Diagnostics as an object with one member. -/
def Diagnostics.toJson (ds : Diagnostics) : Json :=
  .object [("diagnostics", .array (ds.map Diagnostic.toJson))]

/-- A usage as an object with a member for each action. -/
def Usage.toJson (usage : Usage) : Json :=
  .object (usage.entries.map fun (action, n) => (action, .number n))

/-- A report as an object. -/
def Report.toJson (r : Report) : Json :=
  .object [
    ("scripts_checked", .number r.scripts),
    ("diagnostics", r.diagnostics.toJson),
    ("action_usage", r.usage.toJson)]

/-! ### Text form -/

namespace Report

/-- The rule above a report. -/
def rule : String :=
  String.ofList (List.replicate 53 '─')

/-- A count in a line of text. -/
def showCount (n : Nat) : String :=
  String.ofList (renderNatural n)

/-- The closing line of a report, with the numbers of errors and warnings. -/
def verdict (errors warnings : Nat) : String :=
  if 0 < errors then "❌ " ++ showCount errors ++ " 个错误, " ++ showCount warnings ++ " 个警告"
  else if 0 < warnings then "⚠️  0 个错误, " ++ showCount warnings ++ " 个警告"
  else "✅ 检查通过，无错误"

/-- The lines of a report for people to read. -/
def textLines (r : Report) : List String :=
  [rule, "检查完成: " ++ showCount r.scripts ++ " 个脚本", ""]
    ++ (r.diagnostics.atLeast .warn).map Diagnostic.render
    ++ ["", verdict r.diagnostics.errors r.diagnostics.warnings]

end Report

end DialogueScript
