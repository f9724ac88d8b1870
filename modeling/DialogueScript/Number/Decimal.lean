/-
# Decimal texts

A decimal text is an optional sign, digits with an optional point (at least one digit on either side
of it), and an optional exponent: `-2`, `.25`, `3.`, `1e-3`.  It denotes a sign and the number
`significand · 10 ^ exponent`, kept exactly however many digits it has.
-/
import DialogueScript.Number.Integer

namespace DialogueScript

/-- A signed decimal number; the sign is kept for zero too. -/
structure Decimal where
  negative : Bool
  significand : Nat
  exponent : Int
  deriving Repr, DecidableEq

namespace Decimal

/-- The exponent at the end of a decimal text; zero if the text stops before one. -/
def exponent? : List Char → Option Int
  | [] => some 0
  | mark :: rest => if mark = 'e' ∨ mark = 'E' then integer? rest else none

/-- The digits after a point, and what follows them. -/
def splitFraction : List Char → List Char × List Char
  | '.' :: rest => (rest.takeWhile Char.isDigit, rest.dropWhile Char.isDigit)
  | rest => ([], rest)

/-- Reads a decimal text. -/
def ofText? (text : List Char) : Option Decimal :=
  let (negative, body) := splitSign text
  let whole := body.takeWhile Char.isDigit
  let (fraction, tail) := splitFraction (body.dropWhile Char.isDigit)
  if whole = [] ∧ fraction = [] then none
  else (exponent? tail).map fun exponent =>
    ⟨negative, digitsValue (whole ++ fraction), exponent - fraction.length⟩

end Decimal

end DialogueScript
