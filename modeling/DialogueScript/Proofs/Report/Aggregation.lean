/-
# Reports on several files

The report on a list of files is put together from the reports on the single files, and each of these
depends on its file alone.  What a single file can give is listed by `FileReport`: a readable file
gives the diagnostics and the usage of its text, with one summary; a file that cannot be read gives
one error and no usage.

So lists of files can be cut anywhere.  The number of scripts, the usage and whatever counts
diagnostics do not depend on the order either (`reordered_of_perm`); only the diagnostics themselves are listed in the order of the
files.  `ofFiles_aggregates` says all of it at once.
-/
import DialogueScript.Proofs.Report.Files
import DialogueScript.Proofs.Script.Balance

namespace DialogueScript

namespace Report

variable (fs : FileSystem) (known : List String)

/-! ### One file -/

/-- A file that cannot be read as text. -/
def isUnreadable (path : String) : Bool :=
  ! (fs.readText path).isOk

/-- What a file gives to a report. -/
inductive FileReport (path : String) : Report → Prop
  | readable {text : String} : fs.readText path = .ok text →
      FileReport path ⟨1, checkScript path text known, scriptUsage text⟩
  | unreadable {failure : AccessFailure} : fs.readText path = .error failure →
      FileReport path ⟨1, [unreadable path failure], Catalogue.empty⟩

theorem fileReport_ofFile (path : String) : FileReport fs known path (ofFile fs known path) := by
  rcases h : fs.readText path with failure | text
  · rw [ofFile, h]
    exact .unreadable h
  · rw [ofFile, h]
    exact .readable h

variable {fs known} {path : String} {r : Report}

theorem FileReport.scripts_eq_one (h : FileReport fs known path r) : r.scripts = 1 := by
  cases h with
  | readable | unreadable => rfl

/-- The summaries of a report are counted by its readable files. -/
theorem FileReport.scripts_eq (h : FileReport fs known path r) :
    r.scripts = r.diagnostics.count .info + if isUnreadable fs path then 1 else 0 := by
  cases h with
  | @readable text htext =>
    have hsummary := congrArg List.length (filter_info_checkScript path text known)
    rw [← List.countP_eq_length_filter] at hsummary
    show 1 = Diagnostics.count (checkScript path text known) .info + _
    rw [Diagnostics.count, hsummary, isUnreadable, htext]
    rfl
  | unreadable hfailure =>
    rw [isUnreadable, hfailure]
    rfl

theorem FileReport.script_eq (h : FileReport fs known path r) {d : Diagnostic}
    (hd : d ∈ r.diagnostics) : d.script = path := by
  cases h with
  | readable =>
    obtain ⟨finding, -, rfl⟩ := List.mem_map.mp hd
    rfl
  | unreadable =>
    obtain rfl := List.mem_singleton.mp hd
    rfl

/-! ### Several files -/

variable (fs known)

/-- Every file counts as a script. -/
theorem scripts_ofFiles_eq_length (paths : List String) :
    (ofFiles fs known paths).scripts = paths.length := by
  induction paths with
  | nil => rfl
  | cons path paths ih =>
    have hfile := (fileReport_ofFile fs known path).scripts_eq_one
    rw [ofFiles_cons, List.length_cons, append, hfile, ih, Nat.add_comm]

/-- The scripts of a report are those that are summed up and those that cannot be read. -/
theorem scripts_ofFiles (paths : List String) :
    (ofFiles fs known paths).scripts
      = (ofFiles fs known paths).diagnostics.count .info + paths.countP (isUnreadable fs) := by
  induction paths with
  | nil => rfl
  | cons path paths ih =>
    have hfile := (fileReport_ofFile fs known path).scripts_eq
    rw [ofFiles_cons, List.countP_cons]
    show (ofFile fs known path).scripts + (ofFiles fs known paths).scripts
      = Diagnostics.count (_ ++ _) .info + _
    rw [Diagnostics.count, List.countP_append]
    simp only [Diagnostics.count] at hfile ih
    omega

/-- Every diagnostic is about one of the files. -/
theorem script_mem_of_mem {paths : List String} {d : Diagnostic}
    (h : d ∈ (ofFiles fs known paths).diagnostics) : d.script ∈ paths := by
  induction paths with
  | nil => cases h
  | cons path paths ih =>
    rw [ofFiles_cons] at h
    rcases List.mem_append.mp h with hfile | hrest
    · rw [(fileReport_ofFile fs known path).script_eq hfile]
      exact List.mem_cons_self
    · exact List.mem_cons_of_mem path (ih hrest)

/-! ### The order of the files -/

/-- Two reports that differ at most in the order of their diagnostics. -/
structure Reordered (r s : Report) : Prop where
  scripts_eq : r.scripts = s.scripts
  usage_eq : r.usage = s.usage
  perm : r.diagnostics.Perm s.diagnostics

theorem Reordered.refl (r : Report) : Reordered r r :=
  ⟨rfl, rfl, .refl _⟩

theorem Reordered.trans {r s t : Report} (h : Reordered r s) (h' : Reordered s t) :
    Reordered r t :=
  ⟨h.scripts_eq.trans h'.scripts_eq, h.usage_eq.trans h'.usage_eq, h.perm.trans h'.perm⟩

theorem Reordered.append_left {r s : Report} (h : Reordered r s) (t : Report) :
    Reordered (t.append r) (t.append s) := by
  refine ⟨?_, ?_, h.perm.append_left t.diagnostics⟩
  · rw [append, append, h.scripts_eq]
  · rw [append, append, h.usage_eq]

/-- It does not matter which of two reports comes first. -/
theorem reordered_append_comm (r s : Report) : Reordered (r.append s) (s.append r) :=
  ⟨Nat.add_comm _ _, Usage.merge_comm _ _, List.perm_append_comm⟩

theorem Reordered.append_right {r s : Report} (h : Reordered r s) (t : Report) :
    Reordered (r.append t) (s.append t) :=
  (reordered_append_comm r t).trans ((h.append_left t).trans (reordered_append_comm t s))

/-- **The order of the files only orders the diagnostics.** -/
theorem reordered_of_perm {xs ys : List String} (h : xs.Perm ys) :
    Reordered (ofFiles fs known xs) (ofFiles fs known ys) := by
  induction h with
  | nil => exact .refl _
  | cons path _ ih =>
    rw [ofFiles_cons, ofFiles_cons]
    exact ih.append_left _
  | swap path path' paths =>
    rw [ofFiles_cons, ofFiles_cons, ofFiles_cons, ofFiles_cons, ← append_assoc, ← append_assoc]
    exact (reordered_append_comm _ _).append_right _
  | trans _ _ ih ih' => exact ih.trans ih'

/-- What is counted in reordered reports, and so whether they fail, is the same. -/
theorem Reordered.count_eq {r s : Report} (h : Reordered r s) (level : Level) :
    r.diagnostics.count level = s.diagnostics.count level :=
  h.perm.countP_eq _

theorem Reordered.fails_eq {r s : Report} (h : Reordered r s) (warningsAsErrors : Bool) :
    r.fails warningsAsErrors = s.fails warningsAsErrors := by
  rw [fails, fails, Diagnostics.anyError, Diagnostics.anyError, Diagnostics.errors,
    Diagnostics.errors, Diagnostics.warnings, Diagnostics.warnings, h.count_eq, h.count_eq]

/-! ### All together -/

/-- How the report on several files follows from the reports on fewer of them. -/
structure Aggregates (fs : FileSystem) (known xs ys : List String) : Prop where
  scripts_append : (ofFiles fs known (xs ++ ys)).scripts
    = (ofFiles fs known xs).scripts + (ofFiles fs known ys).scripts
  diagnostics_append : (ofFiles fs known (xs ++ ys)).diagnostics
    = (ofFiles fs known xs).diagnostics ++ (ofFiles fs known ys).diagnostics
  /-- The usages add up, action by action. -/
  usage_append : ∀ action, (ofFiles fs known (xs ++ ys)).usage.find? action
    = Option.merge (· + ·) ((ofFiles fs known xs).usage.find? action)
        ((ofFiles fs known ys).usage.find? action)
  /-- The order of the files only orders the diagnostics. -/
  of_perm : ∀ zs, xs.Perm zs →
    (ofFiles fs known xs).scripts = (ofFiles fs known zs).scripts ∧
    (ofFiles fs known xs).usage = (ofFiles fs known zs).usage ∧
    (ofFiles fs known xs).diagnostics.errors = (ofFiles fs known zs).diagnostics.errors ∧
    (ofFiles fs known xs).diagnostics.warnings = (ofFiles fs known zs).diagnostics.warnings ∧
    (∀ strict, (ofFiles fs known xs).fails strict = (ofFiles fs known zs).fails strict) ∧
    (ofFiles fs known xs).diagnostics.Perm (ofFiles fs known zs).diagnostics
  /-- A file that cannot be read, wherever it stands, adds one script and one error about the file as
  a whole, and nothing else. -/
  of_unreadable : ∀ path failure, fs.readText path = .error failure →
    ∃ d : Diagnostic, d.level = .error ∧ d.script = path ∧ d.line = none ∧ d.detail = none ∧
      ofFiles fs known (xs ++ path :: ys)
        = ⟨(ofFiles fs known (xs ++ ys)).scripts + 1,
            (ofFiles fs known xs).diagnostics ++ d :: (ofFiles fs known ys).diagnostics,
            (ofFiles fs known (xs ++ ys)).usage⟩
  /-- Every script is summed up, or cannot be read. -/
  scripts_eq : (ofFiles fs known xs).scripts
    = (ofFiles fs known xs).diagnostics.count .info + xs.countP (isUnreadable fs)
  /-- Every diagnostic is about one of the files. -/
  script_mem : ∀ d ∈ (ofFiles fs known xs).diagnostics, d.script ∈ xs

/-- A file that cannot be read changes nothing of what is reported on the others. -/
theorem ofFiles_insert_unreadable {path : String} {failure : AccessFailure}
    (h : fs.readText path = .error failure) (xs ys : List String) :
    ofFiles fs known (xs ++ path :: ys)
      = ⟨(ofFiles fs known (xs ++ ys)).scripts + 1,
          (ofFiles fs known xs).diagnostics
            ++ unreadable path failure :: (ofFiles fs known ys).diagnostics,
          (ofFiles fs known (xs ++ ys)).usage⟩ := by
  have hfile : ofFile fs known path = ⟨1, [unreadable path failure], Catalogue.empty⟩ := by
    rw [ofFile, h]
  rw [ofFiles_append, ofFiles_cons, hfile, ofFiles_append]
  simp only [append, Usage.empty_merge, List.singleton_append, Report.mk.injEq, and_true]
  omega

/-- **Files are reported on one by one.**  The report on two lists of files is the sum of the reports
on each, and depends on the order of the files only in the order of its diagnostics; what cannot be
read is an error of its own and does not touch what is said of other files. -/
theorem ofFiles_aggregates (xs ys : List String) : Aggregates fs known xs ys where
  scripts_append := by rw [ofFiles_append, append]
  diagnostics_append := by rw [ofFiles_append, append]
  usage_append action := by rw [ofFiles_append, append, Usage.find?_merge]
  of_perm zs h := by
    have hsame := reordered_of_perm fs known h
    exact ⟨hsame.scripts_eq, hsame.usage_eq, hsame.count_eq .error, hsame.count_eq .warn,
      hsame.fails_eq, hsame.perm⟩
  of_unreadable path failure h :=
    ⟨unreadable path failure, rfl, rfl, rfl, rfl, ofFiles_insert_unreadable fs known h xs ys⟩
  scripts_eq := scripts_ofFiles fs known xs
  script_mem _ := script_mem_of_mem fs known

/-- The law at two files of which one is read twice and the other is not there. -/
theorem ofFiles_aggregates_of_missing_file :
    let fs : FileSystem := ⟨.directory [("a", .file "<x:,>".toUTF8)], []⟩
    fs.readText "b" = .error .notFound ∧
      ∃ d : Diagnostic, d.level = .error ∧ d.script = "b" ∧ d.line = none ∧ d.detail = none ∧
        ofFiles fs ["y"] ["a", "b", "a"]
          = ⟨(ofFiles fs ["y"] ["a", "a"]).scripts + 1,
              (ofFiles fs ["y"] ["a"]).diagnostics ++ d :: (ofFiles fs ["y"] ["a"]).diagnostics,
              (ofFiles fs ["y"] ["a", "a"]).usage⟩ := by
  intro fs
  have h : fs.readText "b" = .error .notFound := by decide +kernel
  exact ⟨h, (ofFiles_aggregates fs ["y"] ["a"] ["a"]).of_unreadable "b" .notFound h⟩

end Report

end DialogueScript
