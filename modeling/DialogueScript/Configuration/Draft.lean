/-
# Configurations in the making

While the text of a configuration is read, some of its fields are known and others are not.  A draft
holds those that are; completing it gives the others their defaults.
-/
import DialogueScript.Configuration.Basic

namespace DialogueScript

/-- The fields that hold a list of texts. -/
inductive ListField where
  | extensions
  | knownActions
  deriving Repr, DecidableEq

/-- The fields of a configuration. -/
inductive Field where
  | scriptsDir
  | list (field : ListField)
  | warningsAsErrors
  deriving Repr, DecidableEq

namespace Field

/-- All fields, in the order in which an array gives them. -/
def all : List Field :=
  [.scriptsDir, .list .extensions, .list .knownActions, .warningsAsErrors]

/-- The key of a field in an object. -/
def key : Field → String
  | scriptsDir => "scripts_dir"
  | list .extensions => "extensions"
  | list .knownActions => "known_actions"
  | warningsAsErrors => "warnings_as_errors"

/-- The field with a given key. -/
def ofKey? (key : String) : Option Field :=
  all.find? fun field => field.key == key

end Field

/-- The fields of a configuration that have been read. -/
structure Draft where
  scriptsDir : Option String
  extensions : Option (List String)
  knownActions : Option (List String)
  warningsAsErrors : Option Bool
  deriving Repr, DecidableEq

namespace Draft

/-- Nothing has been read. -/
def empty : Draft := ⟨none, none, none, none⟩

/-- Whether a field has been read. -/
def has (d : Draft) : Field → Bool
  | .scriptsDir => d.scriptsDir.isSome
  | .list .extensions => d.extensions.isSome
  | .list .knownActions => d.knownActions.isSome
  | .warningsAsErrors => d.warningsAsErrors.isSome

/-- The draft with one of its lists read. -/
def setList (d : Draft) (field : ListField) (texts : List String) : Draft :=
  match field with
  | .extensions => { d with extensions := some texts }
  | .knownActions => { d with knownActions := some texts }

/-- The configuration with the fields of the draft, and defaults for the others. -/
def complete (d : Draft) : Configuration where
  scriptsDir := d.scriptsDir.getD Configuration.standard.scriptsDir
  extensions := d.extensions.getD Configuration.standard.extensions
  knownActions := d.knownActions.getD Configuration.standard.knownActions
  warningsAsErrors := d.warningsAsErrors.getD Configuration.standard.warningsAsErrors

end Draft

end DialogueScript
