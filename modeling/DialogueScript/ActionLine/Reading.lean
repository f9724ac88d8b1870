/-
# Reading parameters

The parameters of an action line are read from left to right.  A read converts the parameter at the
place reached, and only if that succeeds moves the place on.  After a failed read the line is as
before, so the same parameter may be read again as another type.

A reader works on the line as its state: whether it gives a value or an error, there is a line after
it.  `Request` names a reader and the label under which it reports, and `ActionLine.run` performs a
sequence of requests.
-/
import DialogueScript.ActionLine.Basic
import DialogueScript.Asset
import DialogueScript.Number.Single

namespace DialogueScript

namespace ActionLine

/-! ### The readers -/

/-- A read of a line.  It may fail, and has a line to leave behind also where it does. -/
abbrev Reader (α : Type) : Type :=
  ExceptT LineError (StateM ActionLine) α

/-- The parameter at the place reached. -/
def next? (line : ActionLine) : Option String :=
  line.parameters[line.position]?

/-- The line with one more parameter read. -/
def advance (line : ActionLine) : ActionLine :=
  { line with position := line.position + 1 }

/-- Converts the next parameter and, once that has succeeded, moves on. -/
def take {α : Type} (convert : String → Except LineError α) (name : String) : Reader α := do
  match (← get).next? with
  | none => throw (.missingParameter name)
  | some token =>
    let value ← MonadExcept.ofExcept (convert token)
    modify advance
    return value

/-- The error of a parameter that is not of the type wanted. -/
def mistyped (type : ParameterType) (name token : String) : LineError :=
  .wrongType type.description name token

/-- A parameter as an integer. -/
def convertInteger (name token : String) : Except LineError Int32 :=
  match int32? token.toList with
  | some value => .ok value
  | none => .error (mistyped .integer name token)

/-- A parameter as an integer that counts from one.  An integer that does not is reported by its
value, not by its text. -/
def convertOrdinal (name token : String) : Except LineError Int32 :=
  match convertInteger name token with
  | .error e => .error e
  | .ok value =>
    if 0 < value.toInt then .ok value
    else .error (mistyped .ordinal name (String.ofList (renderInteger value.toInt)))

/-- A parameter as a single-precision number. -/
def convertNumber (name token : String) : Except LineError Single :=
  match Single.ofText? token.toList with
  | some value => .ok value
  | none => .error (mistyped .number name token)

/-- Reads a parameter as it stands. -/
def takeText (name : String) : Reader String :=
  take .ok name

/-- Reads a parameter that may be missing at the end of the line. -/
def takeOptionalText (name : String) : Reader (Option String) :=
  tryCatch (some <$> takeText name) fun e =>
    if e.isMissingParameter then pure none else throw e

/-- Reads an integer. -/
def takeInteger (name : String) : Reader Int32 :=
  take (convertInteger name) name

/-- Reads an integer that counts from one. -/
def takeOrdinal (name : String) : Reader Int32 :=
  take (convertOrdinal name) name

/-- Reads a decimal number. -/
def takeNumber (name : String) : Reader Single :=
  take (convertNumber name) name

/-- Reads the name of an asset. -/
def takeAsset (name : String) : Reader AssetName :=
  take (fun token => .ok (AssetName.ofRaw token)) name

end ActionLine

/-! ### Requests and answers -/

/-- The kinds of parameter that can be asked for. -/
inductive ReadKind where
  | text
  | optionalText
  | integer
  | ordinal
  | number
  | asset
  deriving Repr, DecidableEq

/-- A read: what kind of parameter is wanted, and its label in errors. -/
structure Request where
  kind : ReadKind
  name : String
  deriving Repr, DecidableEq

/-- The value of a read. -/
inductive ReadValue where
  | text (value : String)
  /-- An optional parameter is missing. -/
  | absent
  | integer (value : Int32)
  | number (value : Single)
  | asset (value : AssetName)
  deriving Repr, DecidableEq

/-- What a read answers. -/
abbrev Answer := Except LineError ReadValue

namespace ActionLine

/-- The reader that a request names. -/
def reader (request : Request) : Reader ReadValue :=
  match request.kind with
  | .text => .text <$> takeText request.name
  | .optionalText => (fun value => value.elim .absent .text) <$> takeOptionalText request.name
  | .integer => .integer <$> takeInteger request.name
  | .ordinal => .integer <$> takeOrdinal request.name
  | .number => .number <$> takeNumber request.name
  | .asset => .asset <$> takeAsset request.name

/-- The answer to a request, and the line that its reader leaves behind. -/
def answer (request : Request) (line : ActionLine) : Answer × ActionLine :=
  (reader request).run line

/-- The answers to a sequence of requests, and the line after them. -/
def run : List Request → ActionLine → List Answer × ActionLine
  | [], line => ([], line)
  | request :: requests, line =>
    let (first, line') := line.answer request
    let (others, last) := line'.run requests
    (first :: others, last)

end ActionLine

end DialogueScript
