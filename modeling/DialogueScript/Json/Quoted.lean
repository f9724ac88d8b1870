/-
# JSON strings, read character by character

A JSON text is read from left to right, one character at a time, and the first thing that is wrong
decides how it is refused (`JsonFault`).  This file reads the inside of a string, from behind its
opening quotation mark: `QuotedScan.step` takes one character.

Two readers need strings.  One wants the text, so escaped surrogates must come in pairs; the other
only skips it, and lets single surrogates pass.  `SurrogateRule` tells them apart.

A `\u` escape takes four bytes.  A text that ends before them is incomplete, even if the bytes that
are there are no hexadecimal digits; so the digits are judged when four bytes have been seen.

All of this follows the documented behaviour of the JSON library that the program calls: its classes
of faults (a text that is no JSON, one that ends too early, a value of the wrong kind), of which the
first one met is reported, and its treatment of surrogates in strings that are wanted or skipped.
-/
import DialogueScript.Number.Integer

namespace DialogueScript

/-- How a JSON text fails to be read. -/
inductive JsonFault where
  /-- No JSON text begins like this. -/
  | malformed
  /-- The text ends too early. -/
  | incomplete
  /-- A value is not of the kind that is wanted at its place, or is given twice. -/
  | mismatched
  deriving Repr, DecidableEq

/-- The white space of JSON. -/
def isJsonBlank (c : Char) : Bool :=
  c == ' ' || c == '\n' || c == '\t' || c == '\r'

/-- What escaped surrogates are allowed. -/
inductive SurrogateRule where
  | paired
  | any
  deriving Repr, DecidableEq

/-- Where the reading of a string stands. -/
inductive QuotedPhase where
  /-- Between two characters. -/
  | plain
  /-- Behind a backslash. -/
  | escaped
  /-- Inside a `\u` escape: the leading surrogate before it, the number of bytes seen, and their
  value if they are digits. -/
  | unicode (lead : Option Nat) (bytes : Nat) (value : Option Nat)
  /-- Behind an escaped leading surrogate. -/
  | leadRead (lead : Nat)
  /-- Behind an escaped leading surrogate and a backslash. -/
  | leadEscaped (lead : Nat)
  deriving Repr, DecidableEq

/-- A string that is being read: the characters so far, the last one first, and the phase. -/
structure QuotedScan where
  read : List Char
  phase : QuotedPhase
  deriving Repr, DecidableEq

/-- What a character inside a string leads to. -/
inductive QuotedNext where
  | more (scan : QuotedScan)
  | closed (text : String)
  deriving Repr, DecidableEq

namespace QuotedScan

/-- Directly behind the opening quotation mark. -/
def start : QuotedScan := ⟨[], .plain⟩

/-- The scan with one more character read. -/
def push (scan : QuotedScan) (c : Char) : QuotedNext :=
  .more ⟨c :: scan.read, .plain⟩

/-- The scan in another phase. -/
def enter (scan : QuotedScan) (phase : QuotedPhase) : QuotedNext :=
  .more { scan with phase }

/-- The value of a hexadecimal digit. -/
def hexValue? (c : Char) : Option Nat :=
  if c.isDigit then some (c.toNat - '0'.toNat)
  else if 'a' ≤ c ∧ c ≤ 'f' then some (c.toNat - 'a'.toNat + 10)
  else if 'A' ≤ c ∧ c ≤ 'F' then some (c.toNat - 'A'.toNat + 10)
  else none

/-- The leading surrogates. -/
def isLead (unit : Nat) : Bool := 0xD800 ≤ unit && unit ≤ 0xDBFF

/-- The trailing surrogates. -/
def isTrail (unit : Nat) : Bool := 0xDC00 ≤ unit && unit ≤ 0xDFFF

/-- The character that a pair of surrogates stands for. -/
def pairedChar (lead trail : Nat) : Char :=
  Char.ofNat (0x10000 + (lead - 0xD800) * 0x400 + (trail - 0xDC00))

/-- Takes the value of a complete `\u` escape. -/
def takeUnit (rule : SurrogateRule) (scan : QuotedScan) (lead : Option Nat) (unit : Nat) :
    Except JsonFault QuotedNext :=
  match rule, lead with
  | .any, _ => .ok (scan.push (Char.ofNat unit))
  | .paired, some lead =>
    if isTrail unit then .ok (scan.push (pairedChar lead unit)) else .error .malformed
  | .paired, none =>
    if isTrail unit then .error .malformed
    else if isLead unit then .ok (scan.enter (.leadRead unit))
    else .ok (scan.push (Char.ofNat unit))

/-- The character that a short escape stands for. -/
def shortEscape? : Char → Option Char
  | '"' => some '"'
  | '\\' => some '\\'
  | '/' => some '/'
  | 'b' => some '\x08'
  | 'f' => some '\x0c'
  | 'n' => some '\n'
  | 'r' => some '\r'
  | 't' => some '\t'
  | _ => none

/-- Reads one character inside a string. -/
def step (rule : SurrogateRule) (scan : QuotedScan) (c : Char) : Except JsonFault QuotedNext :=
  match scan.phase with
  | .plain =>
    if c = '"' then .ok (.closed (String.ofList scan.read.reverse))
    else if c = '\\' then .ok (scan.enter .escaped)
    else if c.toNat < 0x20 then .error .malformed
    else .ok (scan.push c)
  | .escaped =>
    if c = 'u' then .ok (scan.enter (.unicode none 0 (some 0)))
    else match shortEscape? c with
      | some escaped => .ok (scan.push escaped)
      | none => .error .malformed
  | .unicode lead bytes value =>
    let bytes := bytes + c.utf8Size
    let value := value.bind fun high => (hexValue? c).map fun digit => 16 * high + digit
    if bytes < 4 then .ok (scan.enter (.unicode lead bytes value))
    else match value with
      | some unit => scan.takeUnit rule lead unit
      | none => .error .malformed
  | .leadRead lead => if c = '\\' then .ok (scan.enter (.leadEscaped lead)) else .error .malformed
  | .leadEscaped lead =>
    if c = 'u' then .ok (scan.enter (.unicode (some lead) 0 (some 0))) else .error .malformed

end QuotedScan

end DialogueScript
