/-
# Diagnostics

A diagnostic is a message about a script: how serious it is, which script and which line it is
about, and the text concerned, if any.  The three levels are ordered, and a list of diagnostics can
be counted by level and restricted to a level and above.
-/
import DialogueScript.Number.Integer

namespace DialogueScript

/-- How serious a diagnostic is, from the least. -/
inductive Level where
  | info
  | warn
  | error
  deriving Repr, DecidableEq

namespace Level

/-- The place of a level in the order. -/
def rank : Level → Nat
  | info => 0
  | warn => 1
  | error => 2

instance : LE Level := ⟨fun a b => a.rank ≤ b.rank⟩

instance (a b : Level) : Decidable (a ≤ b) :=
  inferInstanceAs (Decidable (a.rank ≤ b.rank))

/-- How two levels compare. -/
def compare (a b : Level) : Ordering :=
  Ord.compare a.rank b.rank

/-- The name of a level in a line of text. -/
def label : Level → String
  | info => "INFO"
  | warn => "WARN"
  | error => "ERROR"

/-- The name of a level in a data file. -/
def key : Level → String
  | info => "info"
  | warn => "warn"
  | error => "error"

end Level

/-- A message about a script. -/
structure Diagnostic where
  level : Level
  script : String
  line : Option Nat
  message : String
  detail : Option String
  deriving Repr, DecidableEq

/-- A diagnostic as text: `[LEVEL] script:line: message`, and the detail on a line of its own. -/
def Diagnostic.render (d : Diagnostic) : String :=
  let place := d.line.elim "" fun number => ":" ++ String.ofList (renderNatural number)
  let detail := d.detail.elim "" fun text => "\n  | " ++ text
  "[" ++ d.level.label ++ "] " ++ d.script ++ place ++ ": " ++ d.message ++ detail

/-- Diagnostics in the order in which they were found. -/
abbrev Diagnostics := List Diagnostic

namespace Diagnostics

/-- The number of diagnostics of one level. -/
def count (ds : Diagnostics) (level : Level) : Nat :=
  ds.countP fun d => d.level = level

/-- The number of errors. -/
def errors (ds : Diagnostics) : Nat :=
  ds.count .error

/-- The number of warnings. -/
def warnings (ds : Diagnostics) : Nat :=
  ds.count .warn

/-- Whether there is an error. -/
def anyError (ds : Diagnostics) : Bool :=
  0 < ds.errors

/-- The diagnostics of a level and above. -/
def atLeast (ds : Diagnostics) (level : Level) : Diagnostics :=
  ds.filter fun d => level ≤ d.level

/-- The number of different diagnostics. -/
def distinctCount (ds : Diagnostics) : Nat :=
  ds.eraseDups.length

end Diagnostics

end DialogueScript
