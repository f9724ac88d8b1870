/-
# The command line

One run of the program: the words of the command line are read, the configuration is loaded and
completed by them, and the scripts are checked.  The words have the last say: `--deny-warnings` turns
warnings into errors whatever the configuration says.

A run ends with exit code 0 if all is well, 1 if the configuration is bad or the scripts fail, and 2
if the words make no sense; a help page is printed with exit code 0.  A run is a function of the
words and the file system.
-/
import DialogueScript.Arguments
import DialogueScript.Configuration.Load

namespace DialogueScript

/-- What a run of the program shows. -/
structure RunOutcome where
  exitCode : Nat
  stdout : String
  stderr : String
  deriving Repr, DecidableEq

/-- Why a run stops with exit code 1. -/
inductive RunFailure where
  | load (failure : LoadFailure)
  | configuration (flaw : ConfigurationFlaw)
  | check (failure : CheckFailure)
  deriving Repr, DecidableEq

namespace RunFailure

/-- The wording of a failure.  A file that cannot be read is reported with the cause repeated. -/
def message : RunFailure → String
  | load failure =>
    match failure with
    | .unreadable _ cause => failure.message ++ ": " ++ cause.message
    | .unparsable _ _ => failure.message
  | configuration flaw => flaw.message
  | check failure => failure.message

end RunFailure

/-- The configuration file, where none is named. -/
def defaultConfigPath : String := "script-check.json"

/-- The configuration on which a request runs: the loaded one, with warnings as errors where the
request asks for that. -/
def effectiveConfiguration (fs : FileSystem) (request : CheckRequest) :
    Except RunFailure Configuration :=
  match Configuration.load fs (request.configPath?.getD defaultConfigPath) with
  | .error failure => .error (.load failure)
  | .ok config =>
    let config :=
      { config with warningsAsErrors := config.warningsAsErrors || request.denyWarnings }
    match config.flaw? with
    | some flaw => .error (.configuration flaw)
    | none => .ok config

/-- What is printed and why the run fails, if it does. -/
def performCheck (fs : FileSystem) (request : CheckRequest) : Printed × Option RunFailure :=
  match effectiveConfiguration fs request with
  | .error failure => (.nothing, some failure)
  | .ok config =>
    let outcome := runCheck fs config request.path? (request.format?.getD .text)
    (outcome.printed, outcome.failure?.map .check)

/-- The report of a failure. -/
def failureLine (message : String) : String :=
  printLine ("xtask error: " ++ message)

/-- A run of the program. -/
def runCommandLine (fs : FileSystem) (words : List String) : RunOutcome :=
  match Command.ofWords words with
  | .misuse => ⟨2, "", printLine HelpPage.program.usage⟩
  | .help page => ⟨0, page.text, ""⟩
  | .checkAll => ⟨1, "", failureLine "check-all starts other programs, which is not possible here"⟩
  | .check request =>
    match performCheck fs request with
    | (printed, none) => ⟨0, printed.stdout, printed.stderr⟩
    | (printed, some failure) =>
      ⟨1, printed.stdout, printed.stderr ++ failureLine failure.message⟩

end DialogueScript
