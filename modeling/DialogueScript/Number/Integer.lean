/-
# Decimal integers

An integer is written as an optional sign and one or more ASCII digits, and nothing else: no blank,
no separator, no other base.  `integer?` reads such a text of any length as its mathematical value,
`int32?` refuses those that do not fit into 32 bits.  `renderInteger` writes the shortest such text,
and reading it gives the value back (`integer?_renderInteger`).
-/

namespace DialogueScript

/-! ### Reading -/

/-- Splits off one leading sign; the flag says whether it is a minus. -/
def splitSign : List Char → Bool × List Char
  | '-' :: rest => (true, rest)
  | '+' :: rest => (false, rest)
  | text => (false, text)

/-- The value of a run of digits. -/
def digitsValue (digits : List Char) : Nat :=
  Nat.ofDigitChars 10 digits 0

/-- One or more ASCII digits, as a natural number. -/
def natural? (text : List Char) : Option Nat :=
  if text ≠ [] ∧ text.all Char.isDigit then some (digitsValue text) else none

/-- An optional sign and one or more ASCII digits, as an integer. -/
def integer? (text : List Char) : Option Int :=
  let (negative, digits) := splitSign text
  (natural? digits).map fun (n : Nat) => if negative then -(n : Int) else (n : Int)

/-- An integer text whose value fits into 32 bits. -/
def int32? (text : List Char) : Option Int32 :=
  match integer? text with
  | some value =>
    if Int32.minValue.toInt ≤ value ∧ value ≤ Int32.maxValue.toInt then some (Int32.ofInt value)
    else none
  | none => none

/-! ### Writing -/

/-- The decimal digits of a natural number, without leading zeros. -/
def renderNatural (n : Nat) : List Char :=
  Nat.toDigits 10 n

/-- A minus for a negative value, then the digits. -/
def renderInteger (value : Int) : List Char :=
  if value < 0 then '-' :: renderNatural value.natAbs else renderNatural value.natAbs

theorem isDigit_of_mem_renderNatural {n : Nat} {c : Char} (h : c ∈ renderNatural n) :
    c.isDigit = true :=
  Nat.isDigit_of_mem_toDigits (by decide) (by decide) h

theorem natural?_renderNatural (n : Nat) : natural? (renderNatural n) = some n := by
  have hdigits : (renderNatural n).all Char.isDigit = true :=
    List.all_eq_true.mpr fun _ => isDigit_of_mem_renderNatural
  have hvalue : digitsValue (renderNatural n) = n :=
    Nat.ofDigitChars_toDigits (by decide) (by decide)
  rw [natural?, if_pos ⟨Nat.toDigits_ne_nil, hdigits⟩, hvalue]

theorem splitSign_renderNatural (n : Nat) :
    splitSign (renderNatural n) = (false, renderNatural n) := by
  have hdigit : ∀ c ∈ renderNatural n, c.isDigit = true := fun _ => isDigit_of_mem_renderNatural
  unfold splitSign
  split
  · next h => exact absurd (hdigit '-' (h ▸ List.mem_cons_self)) (by decide)
  · next h => exact absurd (hdigit '+' (h ▸ List.mem_cons_self)) (by decide)
  · rfl

/-- **What is written reads back.** -/
theorem integer?_renderInteger (value : Int) : integer? (renderInteger value) = some value := by
  rw [renderInteger]
  split
  · next h =>
    have habs : (-(value.natAbs : Int)) = value := by omega
    simp only [integer?, splitSign, natural?_renderNatural, Option.map_some, if_true, habs]
  · next h =>
    have habs : (value.natAbs : Int) = value := by omega
    simp only [integer?, splitSign_renderNatural, natural?_renderNatural, Option.map_some,
      Bool.false_eq_true, if_false, habs]

end DialogueScript
