/-
# When a check passes

A check passes or fails by the levels of its diagnostics, and these are traced back here to the
characters of the scripts.  A line is malformed if it has a second colon inside (`Malformed`), and
doubtful if it is not, but its action or one of its parameters is objected to (`Doubtful`).  The
report about a line has an error exactly if the line is malformed, and a warning exactly if it is
doubtful; from there the two facts are carried to a script, to a list of files and to a whole check.

`runCheck_passes_iff` is the result: a check passes exactly if its root exists, every file can be
read, no line of any file is malformed and, where warnings count as errors, none is doubtful.
-/
import DialogueScript.Check
import DialogueScript.Proofs.Report.Files
import DialogueScript.Proofs.Script.Report

namespace DialogueScript

open ActionLine (inside actionText parameterText)

/-! ### Diagnostics of a level -/

namespace Diagnostics

/-- Whether one of several diagnostics has this level. -/
def Has (ds : Diagnostics) (level : Level) : Prop :=
  ∃ d ∈ ds, d.level = level

variable {ds ds' : Diagnostics} {level : Level}

theorem count_pos_iff : 0 < ds.count level ↔ ds.Has level := by
  rw [count, List.countP_pos_iff]
  simp only [Has, decide_eq_true_eq]

theorem has_append : Has (ds ++ ds') level ↔ ds.Has level ∨ ds'.Has level := by
  simp only [Has, List.mem_append, or_and_right, exists_or]

theorem has_flatten {reports : List Diagnostics} :
    Has reports.flatten level ↔ ∃ report ∈ reports, report.Has level := by
  constructor
  · rintro ⟨d, hd, hlevel⟩
    obtain ⟨report, hreport, hmem⟩ := List.mem_flatten.mp hd
    exact ⟨report, hreport, d, hmem, hlevel⟩
  · rintro ⟨report, hreport, d, hmem, hlevel⟩
    exact ⟨d, List.mem_flatten.mpr ⟨report, hreport, hmem⟩, hlevel⟩

theorem has_singleton {d : Diagnostic} : Has [d] level ↔ d.level = level := by
  simp [Has]

theorem not_has_nil : ¬ Has [] level := by
  rintro ⟨d, hd, -⟩
  cases hd

end Diagnostics

open Diagnostics

/-! ### Lines -/

/-- An action line with a second colon inside. -/
def Malformed (raw : String) : Prop :=
  2 ≤ (inside raw).count ':'

/-- An action line whose action or one of whose parameters is objected to: the action is empty, or
is not among the known ones, where there are any; or there are commas in the parameter text and
nothing stands at one of the places that they make. -/
def Doubtful (known : List String) (raw : String) : Prop :=
  (inside raw).count ':' ≤ 1 ∧
    (actionText (inside raw) = [] ∨
      (actionText (inside raw) ≠ [] ∧ known ≠ [] ∧ String.ofList (actionText (inside raw)) ∉ known) ∨
      (',' ∈ parameterText (inside raw) ∧
        ∃ place, PieceAt ',' (parameterText (inside raw)) place []))

variable {script raw : String} {known : List String} {number : Nat} {report : Diagnostics}

/-- The report about an action gives warnings and no errors. -/
theorem ActionReport.has_iff {level : Level} (h : ActionReport script known number raw report) :
    report.Has level ↔ level = .warn ∧
      (actionText (inside raw) = [] ∨
        (actionText (inside raw) ≠ [] ∧ known ≠ [] ∧
          String.ofList (actionText (inside raw)) ∉ known)) := by
  cases h with
  | empty hempty =>
    rw [has_singleton]
    exact ⟨fun hlevel => ⟨hlevel.symm, .inl hempty⟩, fun h => h.1.symm⟩
  | unknown hne hknown hnot =>
    rw [has_singleton]
    exact ⟨fun hlevel => ⟨hlevel.symm, .inr ⟨hne, hknown, hnot⟩⟩, fun h => h.1.symm⟩
  | fine hne hfine =>
    constructor
    · intro h
      exact absurd h not_has_nil
    · rintro ⟨-, hempty | ⟨-, hknown, hnot⟩⟩
      · exact absurd hempty hne
      · exact (hfine.elim hknown hnot).elim

/-- A line gives an error exactly if it is malformed. -/
theorem LineReport.has_error_iff (h : LineReport script known number raw report) :
    report.Has .error ↔ Malformed raw := by
  cases h with
  | malformed hcount => exact iff_of_true (has_singleton.mpr rfl) hcount
  | wellFormed hcount haction =>
    have hnot : ¬ Malformed raw := Nat.not_le_of_lt (Nat.lt_succ_of_le hcount)
    -- all that a line without a second colon gives are warnings
    refine iff_of_false ?_ hnot
    rw [has_append, haction.has_iff, not_or]
    constructor
    · rintro ⟨hlevel, -⟩
      cases hlevel
    · rintro ⟨d, hd, hlevel⟩
      obtain ⟨place, -, rfl⟩ := List.mem_map.mp hd
      cases hlevel

/-- A line gives a warning exactly if it is doubtful. -/
theorem LineReport.has_warn_iff (h : LineReport script known number raw report) :
    report.Has .warn ↔ Doubtful known raw := by
  cases h with
  | malformed hcount =>
    refine iff_of_false ?_ fun hdoubtful => ?_
    · rw [has_singleton]
      exact Level.noConfusion
    · have hfew := hdoubtful.1
      omega
  | @wellFormed warnings places hcount haction hsorted hplaces =>
    have hempty : Has (places.map fun place => ⟨.warn, script, some number,
        "第 " ++ String.ofList (renderNatural place) ++ " 个参数为空", some raw⟩) .warn ↔
        ',' ∈ parameterText (inside raw) ∧
          ∃ place, PieceAt ',' (parameterText (inside raw)) place [] := by
      constructor
      · rintro ⟨d, hd, -⟩
        obtain ⟨place, hplace, rfl⟩ := List.mem_map.mp hd
        obtain ⟨hcomma, hpiece⟩ := (hplaces place).mp hplace
        exact ⟨hcomma, place, hpiece⟩
      · rintro ⟨hcomma, place, hpiece⟩
        exact ⟨_, List.mem_map_of_mem ((hplaces place).mpr ⟨hcomma, hpiece⟩), rfl⟩
    rw [has_append, haction.has_iff, hempty, Doubtful, or_assoc.symm]
    constructor
    · rintro (⟨-, h⟩ | h)
      · exact ⟨hcount, .inl h⟩
      · exact ⟨hcount, .inr h⟩
    · rintro ⟨-, h | h⟩
      · exact .inl ⟨rfl, h⟩
      · exact .inr h

/-! ### Scripts -/

/-- What the levels of a script's diagnostics say: apart from the summary, they come from the
action lines of the text. -/
theorem has_checkScript_iff {text : String} {level : Level} (hlevel : level ≠ .info) :
    Has (checkScript script text known) level ↔
      ∃ number raw, ActionAt text number raw ∧
        Has (lineDiagnostics script known number raw) level := by
  have hsummary : ¬ Has [summary script (actionLines text).length] level := by
    rw [has_singleton]
    exact Ne.symm hlevel
  rw [checkScript_eq, has_append, or_iff_left hsummary, has_flatten]
  constructor
  · rintro ⟨report, hreport, hhas⟩
    obtain ⟨⟨number, raw⟩, hline, rfl⟩ := List.mem_map.mp hreport
    exact ⟨number, raw, mem_actionLines.mp hline, hhas⟩
  · rintro ⟨number, raw, hline, hhas⟩
    exact ⟨_, List.mem_map_of_mem (mem_actionLines.mpr hline), hhas⟩

theorem has_error_checkScript_iff {text : String} :
    Has (checkScript script text known) .error ↔
      ∃ number raw, ActionAt text number raw ∧ Malformed raw := by
  rw [has_checkScript_iff Level.noConfusion]
  refine exists_congr fun number => exists_congr fun raw => and_congr_right fun hline => ?_
  exact (hline.lineReport script known number raw).has_error_iff

theorem has_warn_checkScript_iff {text : String} :
    Has (checkScript script text known) .warn ↔
      ∃ number raw, ActionAt text number raw ∧ Doubtful known raw := by
  rw [has_checkScript_iff Level.noConfusion]
  refine exists_congr fun number => exists_congr fun raw => and_congr_right fun hline => ?_
  exact (hline.lineReport script known number raw).has_warn_iff

/-! ### Files -/

/-- The file can be read, none of its lines is malformed and, where warnings count as errors, none
is doubtful. -/
def Acceptable (fs : FileSystem) (known : List String) (warningsAsErrors : Bool) (path : String) :
    Prop :=
  ∃ text, fs.readText path = .ok text ∧
    (∀ number raw, ActionAt text number raw → ¬ Malformed raw) ∧
    (warningsAsErrors = true → ∀ number raw, ActionAt text number raw → ¬ Doubtful known raw)

namespace Report

variable (fs : FileSystem) (known : List String)

theorem fails_eq_false_iff {r : Report} {warningsAsErrors : Bool} :
    r.fails warningsAsErrors = false ↔
      ¬ r.diagnostics.Has .error ∧ (warningsAsErrors = true → ¬ r.diagnostics.Has .warn) := by
  rw [fails, anyError, errors, warnings, Bool.or_eq_false_iff, Bool.and_eq_false_imp,
    decide_eq_false_iff_not, decide_eq_false_iff_not, count_pos_iff, count_pos_iff]

/-- The diagnostics about several files are those about each of them. -/
theorem diagnostics_ofFiles (paths : List String) :
    (ofFiles fs known paths).diagnostics
      = (paths.map fun path => (ofFile fs known path).diagnostics).flatten := by
  induction paths with
  | nil => rfl
  | cons path paths ih =>
    rw [List.map_cons, List.flatten_cons, ← ih, ofFiles_cons, append]

theorem has_ofFiles_iff {paths : List String} {level : Level} :
    (ofFiles fs known paths).diagnostics.Has level ↔
      ∃ path ∈ paths, (ofFile fs known path).diagnostics.Has level := by
  rw [diagnostics_ofFiles, has_flatten]
  constructor
  · rintro ⟨report, hreport, hhas⟩
    obtain ⟨path, hpath, rfl⟩ := List.mem_map.mp hreport
    exact ⟨path, hpath, hhas⟩
  · rintro ⟨path, hpath, hhas⟩
    exact ⟨_, List.mem_map_of_mem hpath, hhas⟩

/-- Several files fail if one of them does. -/
theorem fails_ofFiles_eq_false_iff (paths : List String) (warningsAsErrors : Bool) :
    (ofFiles fs known paths).fails warningsAsErrors = false ↔
      ∀ path ∈ paths, (ofFile fs known path).fails warningsAsErrors = false := by
  simp only [fails_eq_false_iff, has_ofFiles_iff, not_exists, not_and]
  constructor
  · rintro ⟨herror, hwarn⟩ path hpath
    exact ⟨herror path hpath, fun hstrict => hwarn hstrict path hpath⟩
  · intro h
    exact ⟨fun path hpath => (h path hpath).1, fun hstrict path hpath => (h path hpath).2 hstrict⟩

/-- A file does not fail exactly if it is acceptable.  One that cannot be read has an error. -/
theorem fails_ofFile_eq_false_iff (path : String) (warningsAsErrors : Bool) :
    (ofFile fs known path).fails warningsAsErrors = false ↔
      Acceptable fs known warningsAsErrors path := by
  rw [fails_eq_false_iff, ofFile, Acceptable]
  cases fs.readText path with
  | error failure =>
    refine iff_of_false (fun h => h.1 (has_singleton.mpr rfl)) ?_
    rintro ⟨text, htext, -⟩
    cases htext
  | ok text =>
    simp only [has_error_checkScript_iff, has_warn_checkScript_iff, not_exists, not_and]
    constructor
    · intro h
      exact ⟨text, rfl, h⟩
    · rintro ⟨text', htext, h⟩
      obtain rfl := Except.ok.inj htext
      exact h

end Report

/-! ### The whole check -/

/-- A check fails for its report, unless its root is missing; where there is no file, there is
nothing in the report to fail for. -/
theorem failure?_runCheck_eq_none_iff (fs : FileSystem) (config : Configuration)
    (path? : Option String) (format : ReportFormat) :
    (runCheck fs config path? format).failure? = none ↔
      fs.pathExists (path?.getD config.scriptsDir) = true ∧
        (Report.ofFiles fs config.knownActions
          (scriptsBelow fs config (path?.getD config.scriptsDir))).fails config.warningsAsErrors
            = false := by
  simp only [runCheck]
  cases hroot : fs.pathExists (path?.getD config.scriptsDir) with
  | false => simp
  | true =>
    rw [if_neg Bool.noConfusion]
    by_cases hfiles : scriptsBelow fs config (path?.getD config.scriptsDir) = []
    · rw [if_pos hfiles, hfiles]
      refine iff_of_true rfl ⟨rfl, ?_⟩
      apply Report.fails_eq_false_iff.mpr
      exact ⟨not_has_nil, fun _ => not_has_nil⟩
    · rw [if_neg hfiles]
      simp

/-- **When a check passes**: in either format, exactly if the root exists and every script file below
it is acceptable, whatever their number. -/
theorem runCheck_passes_iff (fs : FileSystem) (config : Configuration) (path? : Option String)
    (format : ReportFormat) :
    (runCheck fs config path? format).failure? = none ↔
      fs.pathExists (path?.getD config.scriptsDir) = true ∧
        ∀ path ∈ scriptsBelow fs config (path?.getD config.scriptsDir),
          Acceptable fs config.knownActions config.warningsAsErrors path := by
  rw [failure?_runCheck_eq_none_iff, Report.fails_ofFiles_eq_false_iff]
  apply and_congr_right
  intro _
  refine forall_congr' fun path => forall_congr' fun _ => ?_
  exact Report.fails_ofFile_eq_false_iff fs config.knownActions path config.warningsAsErrors

end DialogueScript
