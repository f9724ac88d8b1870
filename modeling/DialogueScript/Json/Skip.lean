/-
# Skipping a JSON value

A value that nobody asked for is passed over, but must still be JSON.  The reader keeps a stack of
the brackets that are open inside the value, so values may be nested to any depth.  Escaped
surrogates need not come in pairs here, and numbers may be of any size.

A skipped numeral may not be cut off by the end of the text: what is left of it is malformed, not
incomplete.  In this, as in the surrogates and the numbers that it lets pass, skipping follows the
behaviour of the JSON library, which reads a value that is skipped by other rules than one that is
wanted.
-/
import DialogueScript.Json.Numeral

namespace DialogueScript

/-- The brackets that hold other values. -/
inductive Bracket where
  | array
  | object
  deriving Repr, DecidableEq

/-- Where the reading of a skipped value stands, within the innermost open bracket. -/
inductive SkipPhase where
  /-- A value must come. -/
  | beforeValue
  /-- A value or the end of the array must come. -/
  | beforeFirstItem
  /-- A key must come; the end of the object may, unless a comma has been read. -/
  | beforeKey (afterComma : Bool)
  | key (scan : QuotedScan)
  | beforeColon
  | text (scan : QuotedScan)
  /-- The letters of a literal that are still missing. -/
  | word (missing : List Char)
  | numeral (phase : NumeralPhase)
  /-- A comma or the end of the innermost bracket must come. -/
  | afterValue
  deriving Repr, DecidableEq

/-- A value that is being skipped. -/
structure Skip where
  stack : List Bracket
  phase : SkipPhase
  deriving Repr, DecidableEq

/-- What a character of a skipped value leads to. -/
inductive SkipNext where
  | more (skip : Skip)
  /-- The value ends with this character. -/
  | ended
  /-- The value has ended before this character. -/
  | endedBefore
  deriving Repr, DecidableEq

namespace Skip

/-- Before the value. -/
def start : Skip := ⟨[], .beforeValue⟩

/-- The skip in another phase. -/
def enter (skip : Skip) (phase : SkipPhase) : SkipNext :=
  .more { skip with phase }

/-- A value within the brackets of the stack is complete. -/
def complete : List Bracket → SkipNext
  | [] => .ended
  | stack => .more ⟨stack, .afterValue⟩

/-- Reads the first character of a value. -/
def beginValue (stack : List Bracket) (c : Char) : Except JsonFault SkipNext :=
  match c with
  | 'n' => .ok (.more ⟨stack, .word ['u', 'l', 'l']⟩)
  | 't' => .ok (.more ⟨stack, .word ['r', 'u', 'e']⟩)
  | 'f' => .ok (.more ⟨stack, .word ['a', 'l', 's', 'e']⟩)
  | '"' => .ok (.more ⟨stack, .text .start⟩)
  | '[' => .ok (.more ⟨.array :: stack, .beforeFirstItem⟩)
  | '\x7b' => .ok (.more ⟨.object :: stack, .beforeKey false⟩)
  | c =>
    match NumeralPhase.first? c with
    | some phase => .ok (.more ⟨stack, .numeral phase⟩)
    | none => .error .malformed

/-- Reads a character behind a value within brackets. -/
def stepAfterValue (stack : List Bracket) (c : Char) : Except JsonFault SkipNext :=
  if isJsonBlank c then .ok (.more ⟨stack, .afterValue⟩)
  else match stack, c with
    | .array :: _, ',' => .ok (.more ⟨stack, .beforeValue⟩)
    | .object :: _, ',' => .ok (.more ⟨stack, .beforeKey true⟩)
    | .array :: outer, ']' => .ok (complete outer)
    | .object :: outer, '\x7d' => .ok (complete outer)
    | _, _ => .error .malformed

/-- Reads one character of a skipped value. -/
def step (skip : Skip) (c : Char) : Except JsonFault SkipNext :=
  match skip.phase with
  | .beforeValue => if isJsonBlank c then .ok (.more skip) else beginValue skip.stack c
  | .beforeFirstItem =>
    if isJsonBlank c then .ok (.more skip)
    else if c = ']' then .ok (complete skip.stack.tail)
    else beginValue skip.stack c
  | .beforeKey afterComma =>
    if isJsonBlank c then .ok (.more skip)
    else if c = '"' then .ok (skip.enter (.key .start))
    else if c = '\x7d' ∧ afterComma = false then .ok (complete skip.stack.tail)
    else .error .malformed
  | .key scan =>
    match scan.step .any c with
    | .ok (.more scan) => .ok (skip.enter (.key scan))
    | .ok (.closed _) => .ok (skip.enter .beforeColon)
    | .error fault => .error fault
  | .beforeColon =>
    if isJsonBlank c then .ok (.more skip)
    else if c = ':' then .ok (skip.enter .beforeValue)
    else .error .malformed
  | .text scan =>
    match scan.step .any c with
    | .ok (.more scan) => .ok (skip.enter (.text scan))
    | .ok (.closed _) => .ok (complete skip.stack)
    | .error fault => .error fault
  | .word [] => .error .malformed
  | .word (letter :: missing) =>
    if c = letter then
      if missing = [] then .ok (complete skip.stack) else .ok (skip.enter (.word missing))
    else .error .malformed
  | .numeral phase =>
    match phase.step c with
    | .more phase => .ok (skip.enter (.numeral phase))
    | .malformed => .error .malformed
    | .ended =>
      match skip.stack with
      | [] => .ok .endedBefore
      | stack => stepAfterValue stack c
  | .afterValue => stepAfterValue skip.stack c

/-- How the end of the text within a skipped value is to be judged. -/
def faultAtEnd (skip : Skip) : JsonFault :=
  match skip.phase with
  | .numeral phase => if phase.isComplete then .incomplete else .malformed
  | _ => .incomplete

end Skip

end DialogueScript
