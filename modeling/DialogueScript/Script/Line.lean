/-
# The lines of a script

A script is a text whose lines end at `\n` and nowhere else.  Blank lines say nothing; every other
line, with the white space at its ends removed, is an action line if it stands between `<` and `>`,
and dialogue otherwise.  Lines are numbered from one, blank lines included.
-/
import DialogueScript.Text.Blank
import DialogueScript.ActionLine.Basic

namespace DialogueScript

/-- What a line of a script is. -/
inductive LineKind where
  | action
  | dialogue
  deriving Repr, DecidableEq

/-- A line of a script that is not blank: its kind, its number and its trimmed text. -/
structure Line where
  kind : LineKind
  number : Nat
  text : String
  deriving Repr, DecidableEq

/-- Whether a trimmed line stands between the delimiters of an action line, which take two bytes. -/
def isDelimited (line : List Char) : Bool :=
  2 ≤ (String.ofList line).utf8ByteSize && line.head? == some '<' && line.getLast? == some '>'

namespace Line

/-- Whether the line is an action line. -/
def isAction (line : Line) : Bool :=
  line.kind == .action

/-- An action line parsed; nothing for dialogue. -/
def parse? (line : Line) : Option (Except LineError ActionLine) :=
  match line.kind with
  | .action => some (ActionLine.parse line.text)
  | .dialogue => none

/-- The line that a numbered segment of a text holds, unless the segment is blank. -/
def ofSegment? (number : Nat) (segment : List Char) : Option Line :=
  let trimmed := trim segment
  if trimmed = [] then none
  else some ⟨if isDelimited trimmed then .action else .dialogue, number, String.ofList trimmed⟩

end Line

/-- The segments of a text between line ends, numbered from one. -/
def numberedSegments (text : String) : List (List Char × Nat) :=
  (text.toList.splitOn '\n').zipIdx 1

/-- The lines of a script, in order, without the blank ones. -/
def scriptLines (text : String) : List Line :=
  (numberedSegments text).filterMap fun (segment, number) => Line.ofSegment? number segment

end DialogueScript
