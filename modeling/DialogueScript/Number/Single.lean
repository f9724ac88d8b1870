/-
# Single precision

A decimal number is rounded once, straight to the nearest IEEE 754 single, and to the one with the
even significand when two are equally near.  All arithmetic is on natural numbers.

The magnitudes of the finite singles, in units of `2 ^ -149`, are `m · 2 ^ q` with `m < 2 ^ 24`; the
bit pattern of such a magnitude is `q · 2 ^ 23 + m`, also when rounding carries `m` up to `2 ^ 24`.
-/
import DialogueScript.Number.Decimal

namespace DialogueScript

/-- The integer nearest to `a / b`; of two equally near ones the even one. -/
def nearestEven (a b : Nat) : Nat :=
  if b < 2 * (a % b) ∨ (2 * (a % b) = b ∧ a / b % 2 = 1) then a / b + 1 else a / b

/-- A single-precision number, as its bit pattern. -/
structure Single where
  bits : UInt32
  deriving Repr, DecidableEq

namespace Single

/-- The pattern of positive infinity; the patterns below it are the finite magnitudes. -/
def infinity : Nat := 0x7F800000

/-- The exponent `q` for which `a / b`, in units of `2 ^ -149`, has a significand of 24 bits. -/
def scale (a b : Nat) : Nat :=
  (a / b).log2 - 23

/-- The pattern nearest to the magnitude `a / b`, in units of `2 ^ -149`. -/
def roundUnits (a b : Nat) : Nat :=
  let q := scale a b
  q * Nat.pow 2 23 + nearestEven a (b * Nat.pow 2 q)

/-- The pattern nearest to `significand · 10 ^ exponent`.  No power is formed that is larger than
the number itself: `10 ^ 39` exceeds every single, and a number below `10 ^ -46` rounds to zero. -/
def roundMagnitude (significand : Nat) (exponent : Int) : Nat :=
  if significand = 0 then 0
  else if 39 ≤ exponent then infinity
  else if exponent + significand.log2 + 1 ≤ -46 then 0
  else if 0 ≤ exponent then
    roundUnits (significand * Nat.pow 10 exponent.toNat * Nat.pow 2 149) 1
  else roundUnits (significand * Nat.pow 2 149) (Nat.pow 10 (-exponent).toNat)

/-- The single nearest to a decimal number, with its sign; none if it rounds to infinity. -/
def ofDecimal? (d : Decimal) : Option Single :=
  let magnitude := roundMagnitude d.significand d.exponent
  if magnitude < infinity then
    some ⟨UInt32.ofNat (if d.negative then magnitude + Nat.pow 2 31 else magnitude)⟩
  else none

/-- Reads a decimal text as the nearest single. -/
def ofText? (text : List Char) : Option Single :=
  (Decimal.ofText? text).bind ofDecimal?

end Single

end DialogueScript
