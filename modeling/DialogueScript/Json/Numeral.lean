/-
# JSON numerals, read character by character

A JSON numeral is an optional minus, digits without a leading zero, an optional point with digits
and an optional exponent.  A numeral has no closing mark: it ends before the first character that
cannot continue it.

A numeral whose magnitude exceeds every double is malformed where its value matters.  Here too the
definitions follow the JSON library, which takes the magnitude (`magnitude`) as a significand of at
most 64 bits, the digits that do not fit only counted, times a power of ten, all three rounded to
doubles.
-/
import DialogueScript.Number.Single
import DialogueScript.Json.Quoted

namespace DialogueScript

/-- Where the reading of a numeral stands: behind what. -/
inductive NumeralPhase where
  | minus
  | zero
  | whole
  | point
  | fraction
  | mark
  | markSign
  | exponent
  deriving Repr, DecidableEq

/-- What a character behind the beginning of a numeral leads to. -/
inductive NumeralNext where
  | more (phase : NumeralPhase)
  /-- The numeral is complete, and the character belongs to what follows. -/
  | ended
  | malformed
  deriving Repr, DecidableEq

namespace NumeralPhase

/-- The phase behind the first character of a numeral. -/
def first? (c : Char) : Option NumeralPhase :=
  if c = '-' then some .minus
  else if c = '0' then some .zero
  else if c.isDigit then some .whole
  else none

/-- Whether a numeral may end here. -/
def isComplete : NumeralPhase → Bool
  | zero | whole | fraction | exponent => true
  | minus | point | mark | markSign => false

/-- What follows a whole part: a point, an exponent or the end. -/
def afterWhole (c : Char) : NumeralNext :=
  if c = '.' then .more .point
  else if c = 'e' ∨ c = 'E' then .more .mark
  else .ended

/-- Reads one character behind the beginning of a numeral. -/
def step (phase : NumeralPhase) (c : Char) : NumeralNext :=
  match phase with
  | minus => if c = '0' then .more .zero else if c.isDigit then .more .whole else .malformed
  | zero => if c.isDigit then .malformed else afterWhole c
  | whole => if c.isDigit then .more .whole else afterWhole c
  | point => if c.isDigit then .more .fraction else .malformed
  | fraction =>
    if c.isDigit then .more .fraction
    else if c = 'e' ∨ c = 'E' then .more .mark
    else .ended
  | mark =>
    if c.isDigit then .more .exponent
    else if c = '+' ∨ c = '-' then .more .markSign
    else .malformed
  | markSign => if c.isDigit then .more .exponent else .malformed
  | exponent => if c.isDigit then .more .exponent else .ended

end NumeralPhase

/-! ### Magnitude -/

namespace Numeral

/-- The largest significand. -/
def maxSignificand : Nat := Nat.pow 2 64 - 1

/-- The significand with one more digit, if it is not too large. -/
def extend? (significand : Nat) (digit : Char) : Option Nat :=
  let longer := 10 * significand + (digit.toNat - '0'.toNat)
  if longer ≤ maxSignificand then some longer else none

/-- Reads the digits before the point: the significand, and the number of digits left over. -/
def readWhole : List Char → Nat → Nat × Nat
  | [], significand => (significand, 0)
  | digit :: digits, significand =>
    match extend? significand digit with
    | some longer => readWhole digits longer
    | none => (significand, (digit :: digits).length)

/-- Reads the digits behind the point: the significand, and the number of digits that it took. -/
def readFraction : List Char → Nat → Nat × Nat
  | [], significand => (significand, 0)
  | digit :: digits, significand =>
    match extend? significand digit with
    | some longer => Prod.map id (· + 1) (readFraction digits longer)
    | none => (significand, 0)

/-- The significand and the power of ten of a complete numeral. -/
def magnitude (numeral : List Char) : Nat × Int :=
  let (_, body) := splitSign numeral
  let (fraction, tail) := Decimal.splitFraction (body.dropWhile Char.isDigit)
  let (significand, left) := readWhole (body.takeWhile Char.isDigit) 0
  let (significand, taken) := readFraction fraction significand
  (significand, (Decimal.exponent? tail).getD 0 + left - taken)

/-- A natural number rounded to the 53 bits of a double. -/
def roundToDouble (n : Nat) : Nat :=
  let step := Nat.pow 2 (n.log2 - 52)
  nearestEven n step * step

/-- The numbers from here on round to infinity. -/
def doubleLimit : Nat := Nat.pow 2 1024 - Nat.pow 2 970

/-- Whether a complete numeral exceeds every double. -/
def exceedsDouble (numeral : List Char) : Bool :=
  let (significand, exponent) := magnitude numeral
  if significand = 0 ∨ exponent < 0 then false
  else if 308 < exponent then true
  else doubleLimit ≤ roundToDouble significand * roundToDouble (Nat.pow 10 exponent.toNat)

end Numeral

end DialogueScript
