/-
# Reports file by file

The report on a list of files is built by a loop that adds one file after the other to what has been
reported before.  What it adds for a file does not depend on that: it is the report on the file alone
(`ofFile`), appended to the report so far (`addFile_eq`).

Appending is associative, and the empty report changes nothing.  So the loop may start from any report
(`foldl_addFile`), the report on a list is that on its first file with that on the others appended
(`ofFiles_cons`), and a list may be cut anywhere (`ofFiles_append`).
-/
import DialogueScript.Proofs.Script.Usage
import DialogueScript.Report.Files

namespace DialogueScript

namespace Report

/-! ### Appending -/

/-- The report on the scripts of one report and then those of another. -/
def append (r s : Report) : Report :=
  ⟨r.scripts + s.scripts, r.diagnostics ++ s.diagnostics, r.usage.merge s.usage⟩

theorem empty_append (r : Report) : empty.append r = r := by
  rw [append, empty, Nat.zero_add, List.nil_append, Usage.empty_merge]

theorem append_empty (r : Report) : r.append empty = r := by
  rw [append, empty, Nat.add_zero, List.append_nil]
  rfl

theorem append_assoc (r s t : Report) : (r.append s).append t = r.append (s.append t) := by
  simp only [append, Nat.add_assoc, List.append_assoc, Usage.merge_assoc]

/-! ### The loop over the files -/

variable (fs : FileSystem) (known : List String)

/-- The report on one file. -/
def ofFile (path : String) : Report :=
  match fs.readText path with
  | .ok text => ⟨1, checkScript path text known, scriptUsage text⟩
  | .error failure => ⟨1, [unreadable path failure], Catalogue.empty⟩

/-- **Adding a file is appending the report on it.** -/
theorem addFile_eq (report : Report) (path : String) :
    addFile fs known report path = report.append (ofFile fs known path) := by
  rw [addFile, ofFile]
  cases fs.readText path with
  | error failure => rfl
  | ok text => rfl

/-- The loop appends to the report from which it starts. -/
theorem foldl_addFile (report : Report) (paths : List String) :
    paths.foldl (addFile fs known) report = report.append (ofFiles fs known paths) := by
  induction paths generalizing report with
  | nil => exact (append_empty report).symm
  | cons path paths ih =>
    rw [ofFiles, List.foldl_cons, List.foldl_cons, ih, ih, addFile_eq, addFile_eq, empty_append,
      append_assoc]

theorem ofFiles_cons (path : String) (paths : List String) :
    ofFiles fs known (path :: paths)
      = (ofFile fs known path).append (ofFiles fs known paths) := by
  rw [ofFiles, List.foldl_cons, foldl_addFile, addFile_eq, empty_append]

/-- **The report on two lists of files** is put together from the reports on each. -/
theorem ofFiles_append (xs ys : List String) :
    ofFiles fs known (xs ++ ys) = (ofFiles fs known xs).append (ofFiles fs known ys) := by
  rw [ofFiles, List.foldl_append, foldl_addFile, ← ofFiles]

end Report

end DialogueScript
