/-
# What the command line adds

A run on the words of a check has three layers: the configuration file is loaded, the words
complete the configuration, and the scripts are checked.  The run fails where one of them fails
(`RunFails`), and the first two leave nothing printed but the failure.

Of the words only `--deny-warnings` changes the configuration, and it does what the configuration
could have done by itself: such a run is a run on a configuration that differs in that one field
(`LayeredRun.strict_eq`).  For this the two configurations are read from different trees, which must
agree on the scripts; where the configuration file is itself one of them, it is enough that both of
its texts are configurations, since they have no action lines (`SameScripts`).

The flag makes the check stricter and changes nothing of what is printed: what fails without it
fails with it, and a run that passes with it is the same without it.
-/
import DialogueScript.CommandLine
import DialogueScript.Proofs.Check
import DialogueScript.Proofs.Configuration.Text
import DialogueScript.Proofs.File.Contents

namespace DialogueScript

/-! ### Layers -/

namespace CheckRequest

/-- The configuration file of a request. -/
def configFile (request : CheckRequest) : String :=
  request.configPath?.getD defaultConfigPath

/-- The loaded configuration as the words complete it. -/
def complete (request : CheckRequest) (config : Configuration) : Configuration :=
  { config with warningsAsErrors := config.warningsAsErrors || request.denyWarnings }

/-- The check that a request asks for. -/
def check (request : CheckRequest) (fs : FileSystem) (config : Configuration) : CheckOutcome :=
  runCheck fs (request.complete config) request.path? (request.format?.getD .text)

end CheckRequest

/-- What a run shows of a check. -/
def CheckOutcome.run : CheckOutcome → RunOutcome
  | ⟨printed, none⟩ => ⟨0, printed.stdout, printed.stderr⟩
  | ⟨printed, some failure⟩ =>
    ⟨1, printed.stdout, printed.stderr ++ failureLine failure.message⟩

section

variable (fs : FileSystem) (request : CheckRequest)

/-- The ways in which a run fails. -/
inductive RunFails : Prop
  | load {failure : LoadFailure} :
      Configuration.load fs request.configFile = .error failure → RunFails
  | validate {config : Configuration} {flaw : ConfigurationFlaw} :
      Configuration.load fs request.configFile = .ok config →
      (request.complete config).flaw? = some flaw → RunFails
  | check {config : Configuration} {failure : CheckFailure} :
      Configuration.load fs request.configFile = .ok config →
      (request.check fs config).failure? = some failure → RunFails

/-- How a run ends: in one of its layers. -/
inductive RunEnds : RunOutcome → Prop
  | unloaded {failure : LoadFailure} :
      Configuration.load fs request.configFile = .error failure →
      RunEnds ⟨1, "", failureLine (RunFailure.load failure).message⟩
  | flawed {config : Configuration} {flaw : ConfigurationFlaw} :
      Configuration.load fs request.configFile = .ok config →
      (request.complete config).flaw? = some flaw →
      RunEnds ⟨1, "", failureLine flaw.message⟩
  | checked {config : Configuration} : Configuration.load fs request.configFile = .ok config →
      (request.complete config).flaw? = none → RunEnds (request.check fs config).run

variable {fs request}

/-- **A run on the words of a check ends in one of its layers.** -/
theorem runEnds_runCommandLine {words : List String}
    (hwords : Command.ofWords words = .check request) :
    RunEnds fs request (runCommandLine fs words) := by
  rw [runCommandLine, hwords]
  simp only [performCheck, effectiveConfiguration]
  cases hload : Configuration.load fs (request.configPath?.getD defaultConfigPath) with
  | error failure => exact .unloaded hload
  | ok config =>
    cases hflaw : (request.complete config).flaw? with
    | some flaw =>
      have hend := RunEnds.flawed hload hflaw
      rw [CheckRequest.complete] at hflaw
      simp only [hflaw]
      exact hend
    | none =>
      have hend := RunEnds.checked hload hflaw
      rw [CheckRequest.complete] at hflaw
      simp only [hflaw]
      rw [CheckRequest.check, CheckRequest.complete] at hend
      generalize runCheck fs _ request.path? _ = outcome at hend ⊢
      rcases outcome with ⟨printed, - | failure⟩
      · exact hend
      · exact hend

theorem CheckOutcome.exitCode_run (outcome : CheckOutcome) :
    outcome.run.exitCode = if outcome.failure? = none then 0 else 1 := by
  rcases outcome with ⟨printed, - | failure⟩
  · rfl
  · rfl

/-- What a run shows, layer by layer. -/
structure LayeredRun (fs : FileSystem) (request : CheckRequest) (run : RunOutcome) : Prop where
  fails_iff : run.exitCode = 1 ↔ RunFails fs request
  passes_iff : run.exitCode = 0 ↔ ¬ RunFails fs request
  unloaded : ∀ failure, Configuration.load fs request.configFile = .error failure →
    run = ⟨1, "", failureLine (RunFailure.load failure).message⟩
  flawed : ∀ config flaw, Configuration.load fs request.configFile = .ok config →
    (request.complete config).flaw? = some flaw → run = ⟨1, "", failureLine flaw.message⟩
  checked : ∀ config, Configuration.load fs request.configFile = .ok config →
    (request.complete config).flaw? = none → run = (request.check fs config).run

theorem RunEnds.layered {run : RunOutcome} (h : RunEnds fs request run) :
    LayeredRun fs request run := by
  cases h with
  | @unloaded failure hload =>
    have hfails : RunFails fs request := .load hload
    constructor
    · exact iff_of_true rfl hfails
    · exact iff_of_false nofun (not_not.mpr hfails)
    · intro failure' hload'
      cases hload.symm.trans hload'
      rfl
    · intro config flaw hload'
      cases hload.symm.trans hload'
    · intro config hload'
      cases hload.symm.trans hload'
  | @flawed config flaw hload hflaw =>
    have hfails : RunFails fs request := .validate hload hflaw
    constructor
    · exact iff_of_true rfl hfails
    · exact iff_of_false nofun (not_not.mpr hfails)
    · intro failure hload'
      cases hload.symm.trans hload'
    · intro config' flaw' hload' hflaw'
      cases hload.symm.trans hload'
      cases hflaw.symm.trans hflaw'
      rfl
    · intro config' hload' hnone
      cases hload.symm.trans hload'
      cases hflaw.symm.trans hnone
  | @checked config hload hnone =>
    -- the first two layers have not failed, so only the check is left to fail
    have hfails : RunFails fs request ↔ (request.check fs config).failure? ≠ none := by
      constructor
      · rintro (hload' | ⟨hload', hflaw'⟩ | ⟨hload', hcheck⟩)
        · cases hload.symm.trans hload'
        · cases hload.symm.trans hload'
          cases hnone.symm.trans hflaw'
        · cases hload.symm.trans hload'
          rw [hcheck]
          exact Option.some_ne_none _
      · intro hne
        obtain ⟨failure, hfailure⟩ := Option.ne_none_iff_exists'.mp hne
        exact .check hload hfailure
    constructor
    · rw [hfails, CheckOutcome.exitCode_run]
      simp
    · rw [hfails, CheckOutcome.exitCode_run]
      simp
    · intro failure hload'
      cases hload.symm.trans hload'
    · intro config' flaw hload' hflaw
      cases hload.symm.trans hload'
      cases hnone.symm.trans hflaw
    · intro config' hload' _
      cases hload.symm.trans hload'
      rfl

end

/-! ### Warnings as errors -/

namespace CheckRequest

/-- The same request with warnings as errors. -/
def strict (request : CheckRequest) : CheckRequest :=
  { request with denyWarnings := true }

variable (request : CheckRequest) (fs : FileSystem) (config : Configuration)

theorem complete_strict :
    request.strict.complete config = { request.complete config with warningsAsErrors := true } := by
  simp [complete, strict]

/-- The words leave alone what a configuration can be invalid for. -/
theorem flaw?_complete : (request.complete config).flaw? = config.flaw? := rfl

/-- **What passes with warnings as errors is the same without.** -/
theorem check_strict_of_passes (h : (request.strict.check fs config).failure? = none) :
    request.check fs config = request.strict.check fs config := by
  have hprinted : (request.check fs config).printed = (request.strict.check fs config).printed := by
    rw [check, check, complete_strict]
    exact (printed_runCheck_withWarnings fs _ _ true _).symm
  -- no warnings in the strict case, so none to be let off otherwise
  have hpasses : (request.check fs config).failure? = none := by
    rw [check, failure?_runCheck_eq_none_iff, complete_strict] at h
    obtain ⟨hroot, hfails⟩ := h
    obtain ⟨herror, hwarn⟩ := Report.fails_eq_false_iff.mp hfails
    rw [check, failure?_runCheck_eq_none_iff]
    exact ⟨hroot, Report.fails_eq_false_iff.mpr ⟨herror, fun _ => hwarn rfl⟩⟩
  rcases hcheck : request.check fs config with ⟨printed, failure?⟩
  rcases hstrict : request.strict.check fs config with ⟨printed', failure?'⟩
  rw [hcheck, hstrict] at hprinted
  rw [hcheck] at hpasses
  rw [hstrict] at h
  exact congrArg₂ CheckOutcome.mk hprinted (hpasses.trans h.symm)

end CheckRequest

variable {fs fs' : FileSystem} {request : CheckRequest} {run run' : RunOutcome}

/-- A run that passes with warnings as errors is the same without. -/
theorem LayeredRun.eq_of_strict_passes (h : LayeredRun fs request run)
    (h' : LayeredRun fs request.strict run') (hpasses : run'.exitCode = 0) : run = run' := by
  have hnot := h'.passes_iff.mp hpasses
  cases hload : Configuration.load fs request.configFile with
  | error failure => exact absurd (.load hload) hnot
  | ok config =>
    have hcomplete := request.flaw?_complete config
    have hcomplete' := request.strict.flaw?_complete config
    cases hflaw : config.flaw? with
    | some flaw => exact absurd (.validate hload (hcomplete'.trans hflaw)) hnot
    | none =>
      -- loaded and valid with the flag or without: the two runs are those of the checks
      have hcheck : (request.strict.check fs config).failure? = none := by
        by_contra hne
        obtain ⟨failure, hfailure⟩ := Option.ne_none_iff_exists'.mp hne
        exact hnot (.check hload hfailure)
      rw [h.checked config hload (hcomplete.trans hflaw),
        h'.checked config hload (hcomplete'.trans hflaw), request.check_strict_of_passes fs config hcheck]

/-- What fails fails with warnings as errors. -/
theorem LayeredRun.strict_fails (h : LayeredRun fs request run)
    (h' : LayeredRun fs request.strict run') (hfails : run.exitCode = 1) : run'.exitCode = 1 := by
  by_contra hne
  have hpasses : run'.exitCode = 0 :=
    h'.passes_iff.mpr fun hfails' => hne (h'.fails_iff.mpr hfails')
  have hsame := h.eq_of_strict_passes h' hpasses
  rw [← hsame, hfails] at hpasses
  cases hpasses

/-! ### Another configuration file -/

/-- The path leads to a file with the text of a configuration. -/
def IsConfiguration (fs : FileSystem) (path : String) : Prop :=
  ∃ text config, fs.readText path = .ok text ∧ Configuration.ofText text = .ok config

/-- Two trees in which a check meets the same scripts; files that are configurations in both may
differ. -/
structure SameScripts (fs fs' : FileSystem) (config : Configuration) (root : String) : Prop where
  pathExists_eq : fs'.pathExists root = fs.pathExists root
  scriptsBelow_eq : scriptsBelow fs' config root = scriptsBelow fs config root
  readText : ∀ path ∈ scriptsBelow fs config root, fs'.readText path = fs.readText path ∨
    (IsConfiguration fs path ∧ IsConfiguration fs' path)

theorem ofFile_eq {known : List String} {path : String}
    (h : fs'.readText path = fs.readText path ∨
      (IsConfiguration fs path ∧ IsConfiguration fs' path)) :
    Report.ofFile fs' known path = Report.ofFile fs known path := by
  rcases h with hsame | ⟨⟨text, config, hread, hconfig⟩, ⟨text', config', hread', hconfig'⟩⟩
  · rw [Report.ofFile, Report.ofFile, hsame]
  · rw [ofFile_of_configuration known hread hconfig, ofFile_of_configuration known hread' hconfig']

/-- Where the same scripts are met, a check ends the same. -/
theorem SameScripts.runCheck_eq {config : Configuration} {path? : Option String}
    (h : SameScripts fs fs' config (checkRoot config path?)) (format : ReportFormat) :
    runCheck fs' config path? format = runCheck fs config path? format := by
  have hfiles : collected fs' config path? = collected fs config path? := h.scriptsBelow_eq
  -- along the list, for the files of any part of it
  have hreport : ∀ paths, (∀ path ∈ paths, path ∈ collected fs config path?) →
      Report.ofFiles fs' config.knownActions paths
        = Report.ofFiles fs config.knownActions paths := by
    intro paths hpaths
    induction paths with
    | nil => rfl
    | cons path paths ih =>
      obtain ⟨hpath, hothers⟩ := List.forall_mem_cons.mp hpaths
      rw [Report.ofFiles_cons, Report.ofFiles_cons, ih hothers, ofFile_eq (h.readText path hpath)]
  have hcollected : collectedReport fs' config path? = collectedReport fs config path? := by
    rw [collectedReport, collectedReport, hfiles]
    exact hreport _ fun path hpath => hpath
  cases hroot : fs.pathExists (checkRoot config path?) with
  | false =>
    have hroot' := h.pathExists_eq.trans hroot
    rw [runCheck_of_noRoot fs config path? format hroot,
      runCheck_of_noRoot fs' config path? format hroot']
  | true =>
    have hroot' := h.pathExists_eq.trans hroot
    by_cases hnil : collected fs config path? = []
    · rw [runCheck_of_noFile fs config path? format hroot hnil,
        runCheck_of_noFile fs' config path? format hroot' (hfiles.trans hnil)]
    · rw [runCheck_of_files fs config path? format hroot hnil,
        runCheck_of_files fs' config path? format hroot' (hfiles ▸ hnil), hcollected]

/-- **The flag does what the configuration could have done**: a run with warnings as errors is a run
on a configuration that says so, where the same scripts are met. -/
theorem LayeredRun.strict_eq {config : Configuration} (h : LayeredRun fs request.strict run)
    (h' : LayeredRun fs' request run')
    (hload : Configuration.load fs request.configFile = .ok config)
    (hload' : Configuration.load fs' request.configFile
      = .ok { config with warningsAsErrors := true })
    (hsame : SameScripts fs fs' config (checkRoot config request.path?)) : run = run' := by
  -- both runs check the same configuration
  have hcomplete : request.complete { config with warningsAsErrors := true }
      = request.strict.complete config := by
    simp [CheckRequest.complete, CheckRequest.strict]
  have hflaws := congrArg Configuration.flaw? hcomplete
  cases hflaw : (request.strict.complete config).flaw? with
  | some flaw =>
    rw [h.flawed config flaw hload hflaw, h'.flawed _ flaw hload' (hflaws.trans hflaw)]
  | none =>
    have hscripts : SameScripts fs fs' (request.strict.complete config)
        (checkRoot (request.strict.complete config) request.path?) :=
      ⟨hsame.pathExists_eq, hsame.scriptsBelow_eq, hsame.readText⟩
    have hcheck : request.strict.check fs config
        = request.check fs' { config with warningsAsErrors := true } := by
      rw [CheckRequest.check, CheckRequest.check, hcomplete]
      exact (hscripts.runCheck_eq _).symm
    rw [h.checked config hload hflaw, h'.checked _ hload' (hflaws.trans hflaw), hcheck]

/-- A file that is loaded by one path is a configuration by any path that leads to it. -/
theorem isConfiguration_of_load {path path' : String} {location : Location} {node node' : Node}
    {config : Configuration} (hpath : fs.resolve path = .ok (location, node))
    (hpath' : fs.resolve path' = .ok (location, node'))
    (hload : Configuration.load fs path = .ok config) : IsConfiguration fs path' := by
  have hexists : fs.pathExists path = true := by rw [FileSystem.pathExists, hpath]; rfl
  rw [Configuration.load, if_neg (by simp [hexists])] at hload
  rw [IsConfiguration, FileSystem.readText_eq_of_resolve hpath' hpath]
  cases hread : fs.readText path with
  | error failure =>
    rw [hread] at hload
    cases hload
  | ok text =>
    rw [hread] at hload
    cases hconfig : Configuration.ofText text with
    | error fault =>
      simp only [hconfig] at hload
      cases hload
    | ok config => exact ⟨text, config, rfl, hconfig⟩

/-- Trees that differ in a configuration file only have the same scripts. -/
theorem sameScripts_of_differsAt {location : Location} {path : String} {node : Node}
    {config config' : Configuration} (h : FileSystem.DiffersAt location fs fs')
    (hpath : fs.resolve path = .ok (location, node))
    (hload : Configuration.load fs path = .ok config)
    (hload' : Configuration.load fs' path = .ok config') (root : String) :
    SameScripts fs fs' config root := by
  obtain ⟨node', hpath'⟩ := h.exists_resolve hpath
  constructor
  · exact h.pathExists_eq root
  · exact h.scriptsBelow_eq config root
  · intro script _
    by_cases hscript : ∃ node, fs.resolve script = .ok (location, node)
    · -- the script is the configuration file, perhaps by another path
      obtain ⟨_, hresolve⟩ := hscript
      obtain ⟨_, hresolve'⟩ := h.exists_resolve hresolve
      exact .inr ⟨isConfiguration_of_load hpath hresolve hload,
        isConfiguration_of_load hpath' hresolve' hload'⟩
    · left
      apply h.readText_eq script
      intro node' hresolve
      exact hscript ⟨node', hresolve⟩

/-! ### Runs -/

/-- How a run on some words compares with a run on words that ask for warnings as errors besides. -/
structure Strengthens (fs : FileSystem) (request : CheckRequest) (words strictWords : List String) :
    Prop where
  /-- What fails still fails. -/
  fails : (runCommandLine fs words).exitCode = 1 → (runCommandLine fs strictWords).exitCode = 1
  /-- What passes is the same without. -/
  passes : (runCommandLine fs strictWords).exitCode = 0 →
    runCommandLine fs words = runCommandLine fs strictWords
  /-- The configuration could have asked for it, in a tree with the same scripts. -/
  configuration : ∀ fs' config, Configuration.load fs request.configFile = .ok config →
    Configuration.load fs' request.configFile = .ok { config with warningsAsErrors := true } →
    SameScripts fs fs' config (checkRoot config request.path?) →
    runCommandLine fs strictWords = runCommandLine fs' words
  /-- The same scripts are met in a tree in which nothing but the configuration file has changed. -/
  configurationFile : ∀ fs' config location node,
    Configuration.load fs request.configFile = .ok config →
    Configuration.load fs' request.configFile = .ok { config with warningsAsErrors := true } →
    fs.resolve request.configFile = .ok (location, node) → FileSystem.DiffersAt location fs fs' →
    runCommandLine fs strictWords = runCommandLine fs' words

/-- **A run on the words of a check goes layer by layer**; asking for warnings as errors makes it
stricter, as the configuration can, and verbosity changes nothing. -/
theorem runCommandLine_layered (fs : FileSystem) {words : List String} {request : CheckRequest}
    (hwords : Command.ofWords words = .check request) :
    LayeredRun fs request (runCommandLine fs words) ∧
    (∀ strictWords, Command.ofWords strictWords = .check request.strict →
      Strengthens fs request words strictWords) ∧
    ∀ loudWords loud, Command.ofWords loudWords = .check { request with verbose := loud } →
      runCommandLine fs loudWords = runCommandLine fs words := by
  have hrun : ∀ fs, LayeredRun fs request (runCommandLine fs words) :=
    fun fs => (runEnds_runCommandLine hwords).layered
  refine ⟨hrun fs, fun strictWords hstrictWords => ?_, fun loudWords loud hloudWords => ?_⟩
  · have hstrict : LayeredRun fs request.strict (runCommandLine fs strictWords) :=
      (runEnds_runCommandLine hstrictWords).layered
    constructor
    · exact (hrun fs).strict_fails hstrict
    · exact (hrun fs).eq_of_strict_passes hstrict
    · intro fs' config hload hload' hsame
      exact hstrict.strict_eq (hrun fs') hload hload' hsame
    · intro fs' config location node hload hload' hpath hdiffers
      have hsame := sameScripts_of_differsAt hdiffers hpath hload hload'
      exact hstrict.strict_eq (hrun fs') hload hload' (hsame _)
  · rw [runCommandLine, runCommandLine, hloudWords, hwords]
    rfl

/-- A script with a warning and nothing else, beside a configuration file that changes no default. -/
def treeWithWarning : FileSystem :=
  ⟨.directory [("s.txt", .file "<a:,>".toUTF8), ("script-check.json", .file "\x7b\x7d".toUTF8)], []⟩

/-- The same tree after another configuration has been written, in which warnings count as errors. -/
def treeWithStrictFile : FileSystem :=
  treeWithWarning.put ["script-check.json"]
    (.file "\x7b\"warnings_as_errors\":true\x7d".toUTF8)

/-- A script with a warning passes, loudly or not, and fails where warnings count as errors, whether
the words or the configuration file say so. -/
theorem runCommandLine_layered_of_warning :
    Command.ofWords ["script-check", "s.txt"] = .check ⟨some "s.txt", none, none, false, false⟩ ∧
      ¬ RunFails treeWithWarning ⟨some "s.txt", none, none, false, false⟩ ∧
      RunFails treeWithWarning ⟨some "s.txt", none, none, true, false⟩ ∧
      runCommandLine treeWithWarning ["-v", "script-check", "s.txt"]
        = runCommandLine treeWithWarning ["script-check", "s.txt"] ∧
      runCommandLine treeWithWarning ["script-check", "--deny-warnings", "s.txt"]
        = runCommandLine treeWithStrictFile ["script-check", "s.txt"] := by
  have hwords : Command.ofWords ["script-check", "s.txt"]
      = .check ⟨some "s.txt", none, none, false, false⟩ := by decide +kernel
  have hstrict : Command.ofWords ["script-check", "--deny-warnings", "s.txt"]
      = .check ⟨some "s.txt", none, none, true, false⟩ := by decide +kernel
  obtain ⟨hlayers, hstrengthens, hloud⟩ := runCommandLine_layered treeWithWarning hwords
  refine ⟨hwords, hlayers.passes_iff.mp (by decide +kernel), ?_, ?_, ?_⟩
  · exact (runCommandLine_layered treeWithWarning hstrict).1.fails_iff.mp (by decide +kernel)
  · exact hloud ["-v", "script-check", "s.txt"] true (by decide +kernel)
  · have hload : Configuration.load treeWithWarning "script-check.json" = .ok .standard := by
      decide +kernel
    have hload' : Configuration.load treeWithStrictFile "script-check.json"
        = .ok { Configuration.standard with warningsAsErrors := true } := by decide +kernel
    have hfile : treeWithWarning.root.at? ["script-check.json"]
        = some (.file "\x7b\x7d".toUTF8) := rfl
    have hresolve : treeWithWarning.resolve "script-check.json"
        = .ok (["script-check.json"], .file "\x7b\x7d".toUTF8) := by rfl
    exact (hstrengthens _ hstrict).configurationFile _ _ _ _ hload hload' hresolve
      (FileSystem.differsAt_put hfile _)

end DialogueScript
