/-
# The text of a configuration

A configuration is written as a JSON object whose members are its fields, in any order; a field that
is missing has its default, and members with other keys are skipped.  The fields may also be given
as an array, in order, of which the last ones may be missing.  A field may not be given twice.

The text is read one character at a time by a machine (`ConfigurationScan`), so that the first thing
that is wrong decides what is reported.  A value of the wrong kind is reported as such only when it
is clear that it is a value: a literal, a string or a numeral is read to its end first, while an
array or an object is recognised by its bracket.

What a record may be written as, which of its faults is met first and of which class it is, is not
decided by the program but by the JSON library that it calls.  The definitions follow what that
library documents of records with defaults: objects and arrays, missing, repeated and foreign
members, values of the wrong kind, and what may stand behind the record.
-/
import DialogueScript.Configuration.Draft
import DialogueScript.Json.Skip

namespace DialogueScript

/-- Where a value of the configuration stands. -/
inductive Place where
  /-- A member of the object. -/
  | member
  /-- An element of the array, before the elements for some further fields. -/
  | element (later : List Field)
  deriving Repr, DecidableEq

/-- A value of the wrong kind that is read to its end. -/
inductive Mistyped where
  /-- The letters of a literal that are still missing. -/
  | word (missing : List Char)
  | text (scan : QuotedScan)
  /-- The characters of a numeral, the last one first. -/
  | numeral (read : List Char) (phase : NumeralPhase)
  deriving Repr, DecidableEq

/-- A field that is being read: its place, and what was read before it. -/
structure Slot where
  place : Place
  draft : Draft
  deriving Repr, DecidableEq

/-- Where the reading of a configuration stands. -/
inductive ConfigurationScan where
  /-- Before the object or array. -/
  | opening
  /-- Behind it. -/
  | closed (draft : Draft)
  /-- A key must come; the end of the object may, unless a comma has been read. -/
  | beforeKey (draft : Draft) (afterComma : Bool)
  | key (draft : Draft) (scan : QuotedScan)
  /-- Behind a key, which belongs to a field or to nobody. -/
  | beforeColon (draft : Draft) (field : Option Field)
  | skipping (draft : Draft) (skip : Skip)
  /-- An element for a field must come; the end of the array may, unless a comma has been read. -/
  | beforeElement (draft : Draft) (field : Field) (later : List Field) (afterComma : Bool)
  /-- Behind the colon of a field. -/
  | beforeValue (draft : Draft) (field : Field)
  /-- A comma or the end of the object or array must come. -/
  | afterValue (slot : Slot)
  | text (slot : Slot) (scan : QuotedScan)
  | flag (slot : Slot) (value : Bool) (missing : List Char)
  /-- A text must come; the end of the list may, unless a comma has been read.  The texts read so
  far are kept with the last one first. -/
  | beforeItem (slot : Slot) (field : ListField) (items : List String) (afterComma : Bool)
  | item (slot : Slot) (field : ListField) (items : List String) (scan : QuotedScan)
  /-- A comma or the end of the list must come. -/
  | afterItem (slot : Slot) (field : ListField) (items : List String)
  | mistyped (value : Mistyped)
  deriving Repr, DecidableEq

namespace Mistyped

/-- Reads the first character of a value that is not of the kind wanted. -/
def begin (c : Char) : Except JsonFault Mistyped :=
  match c with
  | 'n' => .ok (.word ['u', 'l', 'l'])
  | 't' => .ok (.word ['r', 'u', 'e'])
  | 'f' => .ok (.word ['a', 'l', 's', 'e'])
  | '"' => .ok (.text .start)
  | '[' => .error .mismatched
  | '\x7b' => .error .mismatched
  | c =>
    match NumeralPhase.first? c with
    | some phase => .ok (.numeral [c] phase)
    | none => .error .malformed

/-- How a complete numeral is judged where it is not wanted. -/
def numeralFault (read : List Char) : JsonFault :=
  if Numeral.exceedsDouble read.reverse then .malformed else .mismatched

/-- Reads one further character; a value that is complete is an error. -/
def step (value : Mistyped) (c : Char) : Except JsonFault Mistyped :=
  match value with
  | .word [] => .error .mismatched
  | .word (letter :: missing) =>
    if c = letter then
      if missing = [] then .error .mismatched else .ok (.word missing)
    else .error .malformed
  | .text scan =>
    match scan.step .paired c with
    | .ok (.more scan) => .ok (.text scan)
    | .ok (.closed _) => .error .mismatched
    | .error fault => .error fault
  | .numeral read phase =>
    match phase.step c with
    | .more phase => .ok (.numeral (c :: read) phase)
    | .malformed => .error .malformed
    | .ended => .error (numeralFault read)

/-- How the end of the text within the value is to be judged. -/
def faultAtEnd : Mistyped → JsonFault
  | .numeral read phase => if phase.isComplete then numeralFault read else .incomplete
  | _ => .incomplete

end Mistyped

namespace ConfigurationScan

/-- Reads the first character of the value of a field. -/
def beginValue (slot : Slot) (field : Field) (c : Char) : Except JsonFault ConfigurationScan :=
  match field, c with
  | .scriptsDir, '"' => .ok (.text slot .start)
  | .list field, '[' => .ok (.beforeItem slot field [] false)
  | .warningsAsErrors, 't' => .ok (.flag slot true ['r', 'u', 'e'])
  | .warningsAsErrors, 'f' => .ok (.flag slot false ['a', 'l', 's', 'e'])
  | _, c => (Mistyped.begin c).map .mistyped

/-- What follows a key: a field may be given only once. -/
def afterKey (draft : Draft) (key : String) : Except JsonFault ConfigurationScan :=
  match Field.ofKey? key with
  | some field =>
    if draft.has field then .error .mismatched else .ok (.beforeColon draft (some field))
  | none => .ok (.beforeColon draft none)

/-- Reads a character behind the value of a field. -/
def stepAfterValue (slot : Slot) (c : Char) : Except JsonFault ConfigurationScan :=
  if isJsonBlank c then .ok (.afterValue slot)
  else match slot.place, c with
    | .member, ',' => .ok (.beforeKey slot.draft true)
    | .member, '\x7d' => .ok (.closed slot.draft)
    | .element (field :: later), ',' => .ok (.beforeElement slot.draft field later true)
    | .element _, ']' => .ok (.closed slot.draft)
    | _, _ => .error .malformed

/-- Reads one character. -/
def step (scan : ConfigurationScan) (c : Char) : Except JsonFault ConfigurationScan :=
  match scan with
  | .opening =>
    if isJsonBlank c then .ok .opening
    else if c = '\x7b' then .ok (.beforeKey .empty false)
    else if c = '[' then
      .ok (.beforeElement .empty .scriptsDir (Field.all.drop 1) false)
    else (Mistyped.begin c).map .mistyped
  | .closed draft => if isJsonBlank c then .ok (.closed draft) else .error .malformed
  | .beforeKey draft afterComma =>
    if isJsonBlank c then .ok scan
    else if c = '"' then .ok (.key draft .start)
    else if c = '\x7d' ∧ afterComma = false then .ok (.closed draft)
    else .error .malformed
  | .key draft quoted =>
    match quoted.step .paired c with
    | .ok (.more quoted) => .ok (.key draft quoted)
    | .ok (.closed name) => afterKey draft name
    | .error fault => .error fault
  | .beforeColon draft field =>
    if isJsonBlank c then .ok scan
    else if c = ':' then
      match field with
      | some field => .ok (.beforeValue draft field)
      | none => .ok (.skipping draft .start)
    else .error .malformed
  | .skipping draft skip =>
    match skip.step c with
    | .ok (.more skip) => .ok (.skipping draft skip)
    | .ok .ended => .ok (.afterValue ⟨.member, draft⟩)
    | .ok .endedBefore => stepAfterValue ⟨.member, draft⟩ c
    | .error fault => .error fault
  | .beforeElement draft field later afterComma =>
    if isJsonBlank c then .ok scan
    else if c = ']' then if afterComma then .error .malformed else .ok (.closed draft)
    else beginValue ⟨.element later, draft⟩ field c
  | .beforeValue draft field =>
    if isJsonBlank c then .ok scan else beginValue ⟨.member, draft⟩ field c
  | .afterValue slot => stepAfterValue slot c
  | .text slot quoted =>
    match quoted.step .paired c with
    | .ok (.more quoted) => .ok (.text slot quoted)
    | .ok (.closed dir) =>
      .ok (.afterValue { slot with draft := { slot.draft with scriptsDir := some dir } })
    | .error fault => .error fault
  | .flag _ _ [] => .error .malformed
  | .flag slot value (letter :: missing) =>
    if c = letter then
      if missing = [] then
        .ok (.afterValue { slot with draft := { slot.draft with warningsAsErrors := some value } })
      else .ok (.flag slot value missing)
    else .error .malformed
  | .beforeItem slot field items afterComma =>
    if isJsonBlank c then .ok scan
    else if c = '"' then .ok (.item slot field items .start)
    else if c = ']' then
      if afterComma then .error .malformed
      else .ok (.afterValue { slot with draft := slot.draft.setList field items.reverse })
    else (Mistyped.begin c).map .mistyped
  | .item slot field items quoted =>
    match quoted.step .paired c with
    | .ok (.more quoted) => .ok (.item slot field items quoted)
    | .ok (.closed written) => .ok (.afterItem slot field (written :: items))
    | .error fault => .error fault
  | .afterItem slot field items =>
    if isJsonBlank c then .ok scan
    else if c = ',' then .ok (.beforeItem slot field items true)
    else if c = ']' then
      .ok (.afterValue { slot with draft := slot.draft.setList field items.reverse })
    else .error .malformed
  | .mistyped value => (value.step c).map .mistyped

/-- Reads a text from a state on. -/
def run : List Char → ConfigurationScan → Except JsonFault ConfigurationScan
  | [], scan => .ok scan
  | c :: rest, scan =>
    match scan.step c with
    | .ok scan => run rest scan
    | .error fault => .error fault

/-- What the end of the text means in a state. -/
def finish : ConfigurationScan → Except JsonFault Configuration
  | .closed draft => .ok draft.complete
  | .skipping _ skip => .error skip.faultAtEnd
  | .mistyped value => .error value.faultAtEnd
  | _ => .error .incomplete

end ConfigurationScan

/-- Reads the text of a configuration. -/
def Configuration.ofText (text : String) : Except JsonFault Configuration :=
  (ConfigurationScan.run text.toList .opening).bind ConfigurationScan.finish

end DialogueScript
