/-
# What a check prints

A check prints the report on all files that it collects, and only then says whether the scripts
fail.  What is printed is traced back here to the entries of the report that are shown: the warnings
and the errors, in order (`Diagnostics.shown`).  The closing line of the text form counts them by
level, and it says that all is well exactly if there are none (`ClosingLine`).

The verdict is computed apart from all this, but from the same entries: a report fails for nothing
that it does not show, and where warnings count as errors it fails for everything that it shows
(`runCheck_prints`).
-/
import DialogueScript.Proofs.Report.Aggregation
import DialogueScript.Proofs.Verdict

namespace DialogueScript

open Report (rule showCount)

/-! ### Entries that are shown -/

namespace Diagnostics

/-- The warnings and errors. -/
def shown (ds : Diagnostics) : Diagnostics :=
  ds.filter fun d => d.level = .warn ∨ d.level = .error

variable (ds : Diagnostics)

theorem atLeast_warn_eq_shown : ds.atLeast .warn = ds.shown := by
  apply List.filter_congr
  intro d _
  cases hlevel : d.level with
  | info | warn | error => rfl

/-- What is shown keeps the numbers of warnings and errors. -/
theorem count_shown {level : Level} (hlevel : level ≠ .info) :
    ds.shown.count level = ds.count level := by
  rw [count, shown, List.countP_filter]
  apply List.countP_congr
  intro d _
  cases level with
  | info => exact absurd rfl hlevel
  | warn | error => simp +contextual

/-- Nothing is shown exactly if there is neither a warning nor an error. -/
theorem shown_eq_nil_iff : ds.shown = [] ↔ ¬ ds.Has .error ∧ ¬ ds.Has .warn := by
  constructor
  · intro hnil
    have hcount : ∀ level, level ≠ Level.info → ¬ ds.Has level := by
      intro level hlevel
      rw [← count_pos_iff, ← ds.count_shown hlevel, hnil]
      exact Nat.lt_irrefl 0
    exact ⟨hcount .error Level.noConfusion, hcount .warn Level.noConfusion⟩
  · rintro ⟨herror, hwarn⟩
    apply List.filter_eq_nil_iff.mpr
    intro d hd hlevel
    rcases of_decide_eq_true hlevel with hlevel | hlevel
    · exact hwarn ⟨d, hd, hlevel⟩
    · exact herror ⟨d, hd, hlevel⟩

end Diagnostics

/-- The closing line where nothing is shown. -/
def passedLine : String := "✅ 检查通过，无错误"

/-- The numbers of errors and warnings among the entries shown, in a line of text. -/
def countsText (entries : Diagnostics) : String :=
  showCount (entries.count .error) ++ " 个错误, " ++ showCount (entries.count .warn) ++ " 个警告"

/-- The closing lines of the text form, by the entries that are shown above them. -/
inductive ClosingLine (entries : Diagnostics) : String → Prop
  | errors : entries.Has .error → ClosingLine entries ("❌ " ++ countsText entries)
  | warnings : ¬ entries.Has .error → entries ≠ [] →
      ClosingLine entries ("⚠️  " ++ countsText entries)
  | passed : entries = [] → ClosingLine entries passedLine

/-- The line that says that all is well stands below no entry. -/
theorem ClosingLine.eq_passedLine_iff {entries : Diagnostics} {line : String}
    (h : ClosingLine entries line) : line = passedLine ↔ entries = [] := by
  -- the three lines begin with different characters
  cases h with
  | errors herror =>
    refine iff_of_false (fun heq => ?_) ?_
    · have hfirst := congrArg (fun line => line.toList.head?) heq
      simp [passedLine] at hfirst
    · rintro rfl
      exact Diagnostics.not_has_nil herror
  | warnings _ hne =>
    refine iff_of_false (fun heq => ?_) hne
    have hfirst := congrArg (fun line => line.toList.head?) heq
    simp [passedLine] at hfirst
  | passed hnil => exact iff_of_true rfl hnil

/-- The closing line of a report counts what is shown of it. -/
theorem closingLine_verdict (ds : Diagnostics) :
    ClosingLine ds.shown (Report.verdict ds.errors ds.warnings) := by
  have herrors : ds.shown.count .error = ds.errors := ds.count_shown Level.noConfusion
  have hwarnings : ds.shown.count .warn = ds.warnings := ds.count_shown Level.noConfusion
  have hcounts : countsText ds.shown
      = showCount ds.errors ++ (" 个错误, " ++ (showCount ds.warnings ++ " 个警告")) := by
    rw [countsText, herrors, hwarnings, String.append_assoc, String.append_assoc]
  rw [Report.verdict]
  by_cases hpos : 0 < ds.errors
  · have hhas : ds.shown.Has .error := Diagnostics.count_pos_iff.mp (herrors ▸ hpos)
    rw [if_pos hpos]
    simp only [String.append_assoc, ← hcounts]
    exact .errors hhas
  · have hnot : ¬ ds.shown.Has .error := by
      rw [← Diagnostics.count_pos_iff, herrors]
      exact hpos
    rw [if_neg hpos]
    by_cases hwarn : 0 < ds.warnings
    · have hne : ds.shown ≠ [] := by
        intro hnil
        rw [hnil] at hwarnings
        exact absurd hwarnings (Nat.ne_of_lt hwarn)
      -- the number of errors stands in the line as a literal zero
      have hzero : "⚠️  0 个错误, " = "⚠️  " ++ (showCount ds.errors ++ " 个错误, ") := by
        rw [Nat.eq_zero_of_not_pos hpos]
        rfl
      rw [if_pos hwarn, hzero]
      simp only [String.append_assoc, ← hcounts]
      exact .warnings hnot hne
    · rw [if_neg hwarn]
      refine .passed (ds.shown_eq_nil_iff.mpr ⟨?_, ?_⟩)
      · rw [← Diagnostics.count_pos_iff]
        exact hpos
      · rw [← Diagnostics.count_pos_iff]
        exact hwarn

/-! ### The whole check -/

section

variable (fs : FileSystem) (config : Configuration) (path? : Option String)

/-- Where a check looks for scripts. -/
def checkRoot : String := path?.getD config.scriptsDir

/-- The files that a check collects. -/
def collected : List String := scriptsBelow fs config (checkRoot config path?)

/-- The report on the files that a check collects. -/
def collectedReport : Report := Report.ofFiles fs config.knownActions (collected fs config path?)

theorem runCheck_of_noRoot (format : ReportFormat)
    (hroot : fs.pathExists (checkRoot config path?) = false) :
    runCheck fs config path? format = ⟨.nothing, some (.noSuchPath (checkRoot config path?))⟩ :=
  if_pos hroot

theorem runCheck_of_noFile (format : ReportFormat)
    (hroot : fs.pathExists (checkRoot config path?) = true)
    (hfiles : collected fs config path? = []) :
    runCheck fs config path? format = ⟨.nothing, none⟩ :=
  (if_neg (Bool.not_eq_false _ ▸ hroot)).trans (if_pos hfiles)

/-- Where there are files, the report is printed, and then judged. -/
theorem runCheck_of_files (format : ReportFormat)
    (hroot : fs.pathExists (checkRoot config path?) = true)
    (hfiles : collected fs config path? ≠ []) :
    runCheck fs config path? format
      = ⟨(collectedReport fs config path?).print format,
          if (collectedReport fs config path?).fails config.warningsAsErrors then
            some .scriptsFailed else none⟩ :=
  (if_neg (Bool.not_eq_false _ ▸ hroot)).trans (if_neg hfiles)

/-- The verdict does not depend on the format. -/
theorem failure?_runCheck_eq (format format' : ReportFormat) :
    (runCheck fs config path? format).failure? = (runCheck fs config path? format').failure? := by
  cases hroot : fs.pathExists (checkRoot config path?) with
  | false =>
    rw [runCheck_of_noRoot fs config path? _ hroot, runCheck_of_noRoot fs config path? _ hroot]
  | true =>
    by_cases hfiles : collected fs config path? = []
    · rw [runCheck_of_noFile fs config path? _ hroot hfiles,
        runCheck_of_noFile fs config path? _ hroot hfiles]
    · rw [runCheck_of_files fs config path? _ hroot hfiles,
        runCheck_of_files fs config path? _ hroot hfiles]

/-- What is printed is the report, or nothing. -/
theorem printed_runCheck (format : ReportFormat) :
    (runCheck fs config path? format).printed
      = if fs.pathExists (checkRoot config path?) = true ∧ collected fs config path? ≠ [] then
          (collectedReport fs config path?).print format
        else .nothing := by
  cases hroot : fs.pathExists (checkRoot config path?) with
  | false =>
    rw [runCheck_of_noRoot fs config path? format hroot, if_neg fun h => Bool.noConfusion h.1]
  | true =>
    by_cases hfiles : collected fs config path? = []
    · rw [runCheck_of_noFile fs config path? format hroot hfiles, if_neg fun h => h.2 hfiles]
    · rw [runCheck_of_files fs config path? format hroot hfiles]
      exact (if_pos ⟨rfl, hfiles⟩).symm

/-- Whether warnings count as errors plays no part in what is collected and reported. -/
theorem printed_runCheck_withWarnings (warningsAsErrors : Bool) (format : ReportFormat) :
    (runCheck fs { config with warningsAsErrors } path? format).printed
      = (runCheck fs config path? format).printed := by
  rw [printed_runCheck, printed_runCheck]
  rfl

/-- The text form of a report: the heading with the number of files, the entries that are shown, in
order, and a closing line. -/
structure TextForm (files : Nat) (entries : Diagnostics) (closing text : String) : Prop where
  text_eq : text = String.join
    (([rule, "检查完成: " ++ showCount files ++ " 个脚本", ""] ++ entries.map Diagnostic.render
      ++ ["", closing]).map (· ++ "\n"))
  closingLine : ClosingLine entries closing
  passed_iff : closing = passedLine ↔ entries = []

/-- What a check prints, and how that goes with its verdict. -/
structure CheckPrints : Prop where
  /-- The verdict does not depend on the format. -/
  failure?_eq :
    (runCheck fs config path? .text).failure? = (runCheck fs config path? .json).failure?
  /-- Without a root nothing is printed. -/
  noRoot : fs.pathExists (checkRoot config path?) = false → ∀ format,
    runCheck fs config path? format = ⟨.nothing, some (.noSuchPath (checkRoot config path?))⟩
  /-- Without a file nothing is printed. -/
  noFile : fs.pathExists (checkRoot config path?) = true → collected fs config path? = [] →
    ∀ format, runCheck fs config path? format = ⟨.nothing, none⟩
  /-- Otherwise the report is printed as JSON, whatever the verdict. -/
  json : fs.pathExists (checkRoot config path?) = true → collected fs config path? ≠ [] →
    (runCheck fs config path? .json).printed
      = ⟨String.ofList (collectedReport fs config path?).toJson.pretty ++ "\n", ""⟩
  /-- Or else as text, whatever the verdict. -/
  text : fs.pathExists (checkRoot config path?) = true → collected fs config path? ≠ [] →
    ∃ closing text, (runCheck fs config path? .text).printed = ⟨"", text⟩ ∧
      TextForm (collected fs config path?).length
        (collectedReport fs config path?).diagnostics.shown closing text
  /-- Whether warnings count as errors does not show. -/
  printed_eq : ∀ warningsAsErrors format,
    (runCheck fs { config with warningsAsErrors } path? format).printed
      = (runCheck fs config path? format).printed
  /-- Where warnings count as errors, a check that passes has shown nothing. -/
  passes : ∀ format, (runCheck fs config path? format).failure? = none →
    config.warningsAsErrors = true → (collectedReport fs config path?).diagnostics.shown = []
  /-- A check that fails has shown something, unless its root is missing. -/
  fails : fs.pathExists (checkRoot config path?) = true → ∀ format,
    (runCheck fs config path? format).failure? ≠ none →
      (collectedReport fs config path?).diagnostics.shown ≠ []

variable {fs config path?}

/-- A report is printed as text: the heading, what is shown, and the closing line. -/
theorem textForm_print {files : Nat} {r : Report} (hfiles : r.scripts = files) :
    ∃ closing text, r.print .text = ⟨"", text⟩ ∧
      TextForm files r.diagnostics.shown closing text := by
  have hclosing := closingLine_verdict r.diagnostics
  -- the program counts all entries, the form those that are shown
  refine ⟨_, _, rfl, ?_, hclosing, hclosing.eq_passedLine_iff⟩
  rw [Report.textLines, hfiles, Diagnostics.atLeast_warn_eq_shown]
  rfl

variable (fs config path?)

/-- **What a check prints is the whole report, whatever the verdict**, and the verdict fits it. -/
theorem runCheck_prints : CheckPrints fs config path? := by
  have hverdict := failure?_runCheck_eq_none_iff fs config path?
  have hshown := (collectedReport fs config path?).diagnostics.shown_eq_nil_iff
  constructor
  case failure?_eq => exact failure?_runCheck_eq fs config path? .text .json
  case noRoot =>
    intro hroot format
    exact runCheck_of_noRoot fs config path? format hroot
  case noFile =>
    intro hroot hfiles format
    exact runCheck_of_noFile fs config path? format hroot hfiles
  case json =>
    intro hroot hfiles
    rw [runCheck_of_files fs config path? .json hroot hfiles]
    rfl
  case text =>
    intro hroot hfiles
    rw [runCheck_of_files fs config path? .text hroot hfiles]
    exact textForm_print (Report.scripts_ofFiles_eq_length fs config.knownActions _)
  case printed_eq =>
    intro warningsAsErrors format
    exact printed_runCheck_withWarnings fs config path? warningsAsErrors format
  case passes =>
    intro format hpasses hstrict
    have hfails := Report.fails_eq_false_iff.mp ((hverdict format).mp hpasses).2
    exact hshown.mpr ⟨hfails.1, hfails.2 hstrict⟩
  case fails =>
    intro hroot format hfails hnil
    obtain ⟨herror, hwarn⟩ := hshown.mp hnil
    refine hfails ((hverdict format).mpr ⟨hroot, ?_⟩)
    exact Report.fails_eq_false_iff.mpr ⟨herror, fun _ => hwarn⟩

end

end DialogueScript
