/-
# The texts of all values

`ValueText` says which texts are JSON values, of any kind and nested to any depth, and not what they
denote: it is what a reader has to accept that passes a value over.  A numeral may be of any size,
and a string may hold any escape, also that of a single surrogate.

The members of a bracket are texts separated by commas, as in `Json.Text`; how many there are is
all that is known of them, so they are listed by units.  `ValueText.induct` is the induction over
what a value contains.
-/
import DialogueScript.Proofs.Json.Grammar

namespace DialogueScript

/-! ### Numerals -/

/-- A point with digits, or nothing. -/
inductive FractionText : List Char → Prop
  | none : FractionText []
  | point {digits} : IsDigits digits → FractionText ('.' :: digits)

/-- A numeral: an optional minus, a whole part without leading zeros, and optionally a fraction and
an exponent. -/
inductive NumeralText : List Char → Prop
  | intro {sign whole fraction tail n exponent} : sign = [] ∨ sign = ['-'] →
      NaturalText n whole → FractionText fraction → ExponentText exponent tail →
      NumeralText (sign ++ (whole ++ (fraction ++ tail)))

/-! ### Strings that are passed over -/

/-- How a character or half of one can be written in a string. -/
inductive LooseCharText : List Char → Prop
  | plain {c : Char} : 0x20 ≤ c.toNat → c ≠ '"' → c ≠ '\\' → LooseCharText [c]
  | short {c letter} : QuotedScan.shortEscape? letter = some c → LooseCharText ['\\', letter]
  | unit {unit digits} : HexText unit digits → LooseCharText ('\\' :: 'u' :: digits)

/-- What can be written between the quotation marks of a string. -/
inductive LooseStringText : List Char → Prop
  | nil : LooseStringText []
  | cons {text text'} : LooseCharText text → LooseStringText text' →
      LooseStringText (text ++ text')

/-- A string, whatever it says. -/
inductive LooseQuotedText : List Char → Prop
  | intro {text} : LooseStringText text → LooseQuotedText ('"' :: (text ++ ['"']))

/-! ### Values -/

/-- A member of an object: a key, a colon and a value, with white space around the colon. -/
inductive KeyedText (Key Value : List Char → Prop) : List Char → Prop
  | intro {key after before value} : Key key → AreBlanks after → AreBlanks before → Value value →
      KeyedText Key Value (key ++ (after ++ ':' :: (before ++ value)))

/-- The texts of values. -/
inductive ValueText : List Char → Prop
  | null : ValueText ['n', 'u', 'l', 'l']
  | true : ValueText ['t', 'r', 'u', 'e']
  | false : ValueText ['f', 'a', 'l', 's', 'e']
  | numeral {text} : NumeralText text → ValueText text
  | string {text} : LooseQuotedText text → ValueText text
  | array {items : List Unit} {text} : Separated (fun _ => ValueText) items text →
      ValueText ('[' :: (text ++ [']']))
  | object {members : List Unit} {text} :
      Separated (fun _ => KeyedText LooseQuotedText ValueText) members text →
      ValueText ('\x7b' :: (text ++ ['\x7d']))

/-- What holds of a value if it holds of what it contains, holds of all values. -/
theorem ValueText.induct {motive : List Char → Prop} (null : motive ['n', 'u', 'l', 'l'])
    (true : motive ['t', 'r', 'u', 'e']) (false : motive ['f', 'a', 'l', 's', 'e'])
    (numeral : ∀ {text}, NumeralText text → motive text)
    (string : ∀ {text}, LooseQuotedText text → motive text)
    (array : ∀ {items : List Unit} {text}, Separated (fun _ => motive) items text →
      motive ('[' :: (text ++ [']'])))
    (object : ∀ {members : List Unit} {text},
      Separated (fun _ => KeyedText LooseQuotedText motive) members text →
      motive ('\x7b' :: (text ++ ['\x7d'])))
    {text : List Char} (h : ValueText text) : motive text :=
  @ValueText.rec (fun text _ => motive text)
    (fun items text _ => Separated (fun _ => motive) items text)
    (fun members text _ => Separated (fun _ => KeyedText LooseQuotedText motive) members text)
    (fun text _ => KeyedText LooseQuotedText motive text)
    null true false numeral string (fun _ => array) (fun _ => object)
    .nil (fun hbefore _ hafter ih => .single hbefore ih hafter)
    (fun hbefore _ hafter _ ih ihs => .cons hbefore ih hafter ihs)
    .nil (fun hbefore _ hafter ih => .single hbefore ih hafter)
    (fun hbefore _ hafter _ ih ihs => .cons hbefore ih hafter ihs)
    (fun hkey hafter hbefore _ ih => .intro hkey hafter hbefore ih)
    text h

end DialogueScript
