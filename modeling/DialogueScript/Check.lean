/-
# The whole check

`runCheck` collects the script files below a root, checks them, prints the report in the wanted
format, and says whether the scripts pass.  What is printed does not depend on the verdict.
-/
import DialogueScript.File.Walk
import DialogueScript.Report.Files

namespace DialogueScript

/-- How a report is printed. -/
inductive ReportFormat where
  | text
  | json
  deriving Repr, DecidableEq

/-- What is printed, on either stream. -/
structure Printed where
  stdout : String
  stderr : String
  deriving Repr, DecidableEq

/-- Nothing is printed. -/
def Printed.nothing : Printed := ⟨"", ""⟩

/-- A line of output. -/
def printLine (line : String) : String :=
  line ++ "\n"

/-- Prints a report: as JSON on the standard output, or as text on the error stream. -/
def Report.print (r : Report) : ReportFormat → Printed
  | .json => ⟨printLine (String.ofList r.toJson.pretty), ""⟩
  | .text => ⟨"", String.join (r.textLines.map printLine)⟩

/-- Why a check fails. -/
inductive CheckFailure where
  /-- The root of the check does not exist. -/
  | noSuchPath (root : String)
  /-- The scripts have errors, or warnings where they count as errors. -/
  | scriptsFailed
  deriving Repr, DecidableEq

/-- The wording of a failure. -/
def CheckFailure.message : CheckFailure → String
  | noSuchPath root => "路径不存在: " ++ root ++ "\n请在 workspace 根目录运行，或指定脚本路径"
  | scriptsFailed => "脚本检查发现错误"

/-- The outcome of a check: what it prints, and whether and why it fails. -/
structure CheckOutcome where
  printed : Printed
  failure? : Option CheckFailure
  deriving Repr, DecidableEq

/-- Checks the scripts below a path, or below the configured directory if there is no path.  Where
there are no scripts, nothing is printed and nothing fails. -/
def runCheck (fs : FileSystem) (config : Configuration) (path? : Option String)
    (format : ReportFormat) : CheckOutcome :=
  let root := path?.getD config.scriptsDir
  if fs.pathExists root = false then ⟨.nothing, some (.noSuchPath root)⟩
  else
    let files := scriptsBelow fs config root
    if files = [] then ⟨.nothing, none⟩
    else
      let report := Report.ofFiles fs config.knownActions files
      ⟨report.print format,
        if report.fails config.warningsAsErrors then some .scriptsFailed else none⟩

end DialogueScript
