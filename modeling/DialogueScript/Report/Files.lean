/-
# Reports on script files

Files are read and checked one by one, and what is said of each is added to the report.  A file that
cannot be read counts as a script with one error and takes no part in the usage.
-/
import DialogueScript.File.Tree
import DialogueScript.Script.Check
import DialogueScript.Report.Basic

namespace DialogueScript

namespace Report

/-- The diagnostic about a file that cannot be read. -/
def unreadable (path : String) (failure : AccessFailure) : Diagnostic :=
  ⟨.error, path, none, "无法读取文件 - " ++ failure.message, none⟩

/-- The report after one more file.  The script is counted before it is known whether the file can be
read. -/
def addFile (fs : FileSystem) (known : List String) (report : Report) (path : String) : Report :=
  let counted := { report with scripts := report.scripts + 1 }
  match fs.readText path with
  | .error failure =>
    { counted with diagnostics := counted.diagnostics ++ [unreadable path failure] }
  | .ok text =>
    { counted with
      diagnostics := counted.diagnostics ++ checkScript path text known
      usage := counted.usage.merge (scriptUsage text) }

/-- The report on a list of files, one added after the other. -/
def ofFiles (fs : FileSystem) (known : List String) (paths : List String) : Report :=
  paths.foldl (addFile fs known) empty

end Report

end DialogueScript
