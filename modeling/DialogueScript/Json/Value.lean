/-
# JSON values and their text

A report is written as a JSON text, on one line (`compact`) or laid out over many (`pretty`).  In a
string only what must be escaped is escaped: quotation marks, backslashes, and the characters below
U+0020, by a short escape where JSON has one.  The escapes and both layouts are those of the JSON
library that the program calls.
-/
import DialogueScript.Number.Integer

namespace DialogueScript

/-- The JSON values that reports are made of.  The members of an object keep their order. -/
inductive Json where
  | null
  | number (value : Nat)
  | string (value : String)
  | array (items : List Json)
  | object (members : List (String × Json))

namespace Json

/-! ### Strings -/

/-- A lower-case hexadecimal digit. -/
def hexDigit (n : Nat) : Char :=
  Nat.digitChar n

/-- How a character is written inside a string. -/
def escape (c : Char) : List Char :=
  match c with
  | '"' => ['\\', '"']
  | '\\' => ['\\', '\\']
  | '\x08' => ['\\', 'b']
  | '\x0c' => ['\\', 'f']
  | '\n' => ['\\', 'n']
  | '\r' => ['\\', 'r']
  | '\t' => ['\\', 't']
  | c =>
    if c.toNat < 0x20 then ['\\', 'u', '0', '0', hexDigit (c.toNat / 16), hexDigit (c.toNat % 16)]
    else [c]

/-- A string between quotation marks. -/
def quote (s : String) : List Char :=
  '"' :: (s.toList.flatMap escape ++ ['"'])

/-! ### One line -/

mutual

/-- The text of a value without any white space. -/
def compact : Json → List Char
  | null => ['n', 'u', 'l', 'l']
  | number value => renderNatural value
  | string value => quote value
  | array items => '[' :: ([','].intercalate (compactItems items) ++ [']'])
  | object members => '\x7b' :: ([','].intercalate (compactMembers members) ++ ['\x7d'])

/-- The texts of the items of an array. -/
def compactItems : List Json → List (List Char)
  | [] => []
  | item :: items => compact item :: compactItems items

/-- The texts of the members of an object. -/
def compactMembers : List (String × Json) → List (List Char)
  | [] => []
  | (key, value) :: members => (quote key ++ ':' :: compact value) :: compactMembers members

end

/-! ### Many lines -/

/-- A new line, indented by two spaces a level. -/
def newLine (depth : Nat) : List Char :=
  '\n' :: List.replicate (2 * depth) ' '

/-- Items or members one a line between brackets; nothing between them if there are none. -/
def block (opening closing : Char) (depth : Nat) (parts : List (List Char)) : List Char :=
  if parts = [] then [opening, closing]
  else opening :: (newLine (depth + 1) ++ (',' :: newLine (depth + 1)).intercalate parts
    ++ newLine depth ++ [closing])

mutual

/-- The text of a value laid out at a depth of indentation. -/
def layOut (depth : Nat) : Json → List Char
  | null => ['n', 'u', 'l', 'l']
  | number value => renderNatural value
  | string value => quote value
  | array items => block '[' ']' depth (layOutItems (depth + 1) items)
  | object members => block '\x7b' '\x7d' depth (layOutMembers (depth + 1) members)

/-- The laid out items of an array. -/
def layOutItems (depth : Nat) : List Json → List (List Char)
  | [] => []
  | item :: items => layOut depth item :: layOutItems depth items

/-- The laid out members of an object. -/
def layOutMembers (depth : Nat) : List (String × Json) → List (List Char)
  | [] => []
  | (key, value) :: members =>
    (quote key ++ ':' :: ' ' :: layOut depth value) :: layOutMembers depth members

end

/-- The text of a value with one item or member a line. -/
def pretty (value : Json) : List Char :=
  layOut 0 value

end Json

end DialogueScript
