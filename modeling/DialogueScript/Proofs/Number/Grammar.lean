/-
# What a numeral says

The texts of numbers, as a grammar: an integer is an optional sign and digits, a decimal is an
optional sign, digits with an optional point, and an optional exponent.  Each rule gives the text
and the number that it denotes, without saying how the one is found in the other.

`integer?` and `Decimal.ofText?` find it: they read exactly the texts of the grammar, each as its
number (`integer?_eq_some_iff`, `decimalText_iff`).  The argument is the same in both directions:
what may follow a run of digits does not begin with a digit, so the run is cut off where it was put
(`takeWhile_run`, `dropWhile_run`).
-/
import Mathlib.Algebra.Order.Field.Rat
import Mathlib.Data.List.TakeWhile
import Mathlib.Tactic.FieldSimp
import Mathlib.Tactic.Ring
import DialogueScript.Number.Decimal

namespace DialogueScript

/-! ### The grammar -/

/-- An optional sign, and whether it is a minus. -/
inductive SignText : Bool → List Char → Prop
  | none : SignText false []
  | plus : SignText false ['+']
  | minus : SignText true ['-']

/-- ASCII digits and nothing else, possibly none. -/
def AreDigits (text : List Char) : Prop :=
  ∀ c ∈ text, c.isDigit = true

/-- One or more ASCII digits. -/
def IsDigits (text : List Char) : Prop :=
  text ≠ [] ∧ AreDigits text

/-- A natural number with a sign. -/
def signed (negative : Bool) (n : Nat) : Int :=
  if negative then -(n : Int) else n

/-- The texts of an integer. -/
inductive IntegerText : Int → List Char → Prop
  | intro {negative sign digits} : SignText negative sign → IsDigits digits →
      IntegerText (signed negative (digitsValue digits)) (sign ++ digits)

/-- An exponent, zero where there is none. -/
inductive ExponentText : Int → List Char → Prop
  | none : ExponentText 0 []
  | marked {mark exponent text} : mark = 'e' ∨ mark = 'E' → IntegerText exponent text →
      ExponentText exponent (mark :: text)

/-- Digits with an optional point, and a digit on at least one side of it: the digits before the
point, those behind it, and the text. -/
inductive PointText : List Char → List Char → List Char → Prop
  | whole {whole} : IsDigits whole → PointText whole [] whole
  | point {whole fraction} : IsDigits whole → AreDigits fraction →
      PointText whole fraction (whole ++ '.' :: fraction)
  | fraction {fraction} : IsDigits fraction → PointText [] fraction ('.' :: fraction)

/-- The texts of a decimal number, given by its sign and its magnitude. -/
inductive DecimalText : Bool → ℚ → List Char → Prop
  | intro {negative sign whole fraction point exponent tail} :
      SignText negative sign → PointText whole fraction point → ExponentText exponent tail →
      DecimalText negative
        ((digitsValue whole + digitsValue fraction / 10 ^ fraction.length) * 10 ^ exponent)
        (sign ++ (point ++ tail))

/-! ### Signs -/

/-- A text that does not begin with a sign. -/
def Unsigned (text : List Char) : Prop :=
  ∀ c ∈ text.head?, c ≠ '-' ∧ c ≠ '+'

theorem splitSign_of_unsigned {text : List Char} (h : Unsigned text) :
    splitSign text = (false, text) := by
  unfold splitSign
  split
  · exact absurd rfl (h '-' rfl).1
  · exact absurd rfl (h '+' rfl).2
  · rfl

theorem SignText.splitSign_append {negative : Bool} {sign text : List Char}
    (hsign : SignText negative sign) (h : Unsigned text) :
    splitSign (sign ++ text) = (negative, text) := by
  cases hsign with
  | none => exact splitSign_of_unsigned h
  | plus | minus => rfl

/-- What is split off is a sign. -/
theorem exists_signText (text : List Char) :
    ∃ sign, SignText (splitSign text).1 sign ∧ text = sign ++ (splitSign text).2 := by
  unfold splitSign
  split
  · exact ⟨_, .minus, rfl⟩
  · exact ⟨_, .plus, rfl⟩
  · exact ⟨_, .none, rfl⟩

theorem unsigned_of_isDigit {c : Char} {text : List Char} (h : c.isDigit = true) :
    Unsigned (c :: text) := by
  intro c' hc'
  obtain rfl := Option.some.inj hc'
  constructor
  · rintro rfl
    cases h
  · rintro rfl
    cases h

theorem IsDigits.unsigned_append {digits : List Char} (h : IsDigits digits) (text : List Char) :
    Unsigned (digits ++ text) := by
  obtain ⟨c, rest, rfl⟩ := List.exists_cons_of_ne_nil h.1
  exact unsigned_of_isDigit (h.2 c List.mem_cons_self)

/-! ### Runs of characters -/

/-- A text does not go on with a character of some class. -/
def Stops (p : Char → Bool) (text : List Char) : Prop :=
  ∀ c ∈ text.head?, p c = false

theorem stops_cons {p : Char → Bool} {c : Char} (h : p c = false) (text : List Char) :
    Stops p (c :: text) := by
  intro c' hc'
  obtain rfl := Option.some.inj hc'
  exact h

theorem takeWhile_run {p : Char → Bool} {run text : List Char} (h : ∀ c ∈ run, p c = true)
    (htext : Stops p text) : (run ++ text).takeWhile p = run := by
  rw [List.takeWhile_append_of_pos h]
  rcases text with - | ⟨c, text⟩
  · exact List.append_nil _
  · rw [List.takeWhile_cons_of_neg (by simp [htext c rfl]), List.append_nil]

theorem dropWhile_run {p : Char → Bool} {run text : List Char} (h : ∀ c ∈ run, p c = true)
    (htext : Stops p text) : (run ++ text).dropWhile p = text := by
  rw [List.dropWhile_append_of_pos h]
  rcases text with - | ⟨c, text⟩
  · rfl
  · exact List.dropWhile_cons_of_neg (by simp [htext c rfl])

theorem areDigits_takeWhile (text : List Char) : AreDigits (text.takeWhile Char.isDigit) :=
  fun _ hc => List.mem_takeWhile_imp hc

/-- More digits behind a number raise it by a power of ten. -/
theorem digitsValue_append (digits more : List Char) :
    digitsValue (digits ++ more) = digitsValue digits * 10 ^ more.length + digitsValue more := by
  rw [digitsValue, Nat.ofDigitChars_append, Nat.ofDigitChars_eq_ofDigitChars_zero, Nat.mul_comm]
  rfl

/-! ### Integers -/

theorem natural?_eq_some_iff {text : List Char} {n : Nat} :
    natural? text = some n ↔ IsDigits text ∧ digitsValue text = n := by
  rw [natural?, IsDigits, AreDigits, ← List.all_eq_true]
  split
  · next h => simp [h]
  · next h => exact iff_of_false (fun hn => by cases hn) fun hdigits => h hdigits.1

/-- **An integer text is read as its value**, and nothing else is read. -/
theorem integer?_eq_some_iff {text : List Char} {value : Int} :
    integer? text = some value ↔ IntegerText value text := by
  constructor
  · intro h
    obtain ⟨sign, hsign, htext⟩ := exists_signText text
    rw [integer?] at h
    generalize splitSign text = parts at h hsign htext
    obtain ⟨n, hn, rfl⟩ := Option.map_eq_some_iff.mp h
    obtain ⟨hdigits, rfl⟩ := natural?_eq_some_iff.mp hn
    rw [htext]
    exact .intro hsign hdigits
  · rintro ⟨hsign, hdigits⟩
    have hbody := hsign.splitSign_append (hdigits.unsigned_append [])
    rw [List.append_nil] at hbody
    rw [integer?, hbody]
    exact Option.map_eq_some_iff.mpr ⟨_, natural?_eq_some_iff.mpr ⟨hdigits, rfl⟩, rfl⟩

/-! ### Decimals -/

namespace Decimal

theorem exponent?_eq_some_iff {text : List Char} {exponent : Int} :
    exponent? text = some exponent ↔ ExponentText exponent text := by
  constructor
  · intro h
    rcases text with - | ⟨mark, text⟩
    · obtain rfl := Option.some.inj h
      exact .none
    · rw [exponent?] at h
      split at h
      · next hmark => exact .marked hmark (integer?_eq_some_iff.mp h)
      · cases h
  · rintro (_ | ⟨hmark, htext⟩)
    · rfl
    · rw [exponent?, if_pos hmark]
      exact integer?_eq_some_iff.mpr htext

/-- An exponent begins with neither a digit nor a point. -/
theorem head_exponentText {text : List Char} {exponent : Int} (h : ExponentText exponent text) :
    Stops Char.isDigit text ∧ text.head? ≠ some '.' := by
  cases h with
  | none => exact ⟨fun c hc => by simp at hc, by simp⟩
  | marked hmark =>
    constructor
    · intro c hc
      obtain rfl := Option.some.inj hc
      rcases hmark with rfl | rfl
      · rfl
      · rfl
    · intro hpoint
      obtain rfl := Option.some.inj hpoint
      rcases hmark with h | h
      · cases h
      · cases h

theorem splitFraction_of_ne_point {text : List Char} (h : text.head? ≠ some '.') :
    splitFraction text = ([], text) := by
  unfold splitFraction
  split
  · exact absurd rfl h
  · rfl

theorem splitFraction_point {fraction tail : List Char} (h : AreDigits fraction)
    (htail : Stops Char.isDigit tail) :
    splitFraction ('.' :: (fraction ++ tail)) = (fraction, tail) := by
  rw [splitFraction, takeWhile_run h htail, dropWhile_run h htail]

/-- Reading digits with a point, and an exponent behind them, finds their parts. -/
theorem splitFraction_pointText {whole fraction point tail : List Char} {exponent : Int}
    (hpoint : PointText whole fraction point) (htail : ExponentText exponent tail) :
    (point ++ tail).takeWhile Char.isDigit = whole ∧
      splitFraction ((point ++ tail).dropWhile Char.isDigit) = (fraction, tail) := by
  obtain ⟨hends, hne⟩ := head_exponentText htail
  have hdot : ∀ text, Stops Char.isDigit ('.' :: text) := stops_cons rfl
  cases hpoint with
  | whole hwhole =>
    rw [takeWhile_run hwhole.2 hends, dropWhile_run hwhole.2 hends]
    exact ⟨rfl, splitFraction_of_ne_point hne⟩
  | point hwhole hfraction =>
    rw [List.append_assoc, List.cons_append, takeWhile_run hwhole.2 (hdot _),
      dropWhile_run hwhole.2 (hdot _)]
    exact ⟨rfl, splitFraction_point hfraction hends⟩
  | fraction hfraction =>
    have hnone : AreDigits [] := fun _ hc => by cases hc
    have htake := takeWhile_run hnone (hdot (fraction ++ tail))
    have hdrop := dropWhile_run hnone (hdot (fraction ++ tail))
    rw [List.nil_append] at htake hdrop
    rw [List.cons_append, htake, hdrop]
    exact ⟨rfl, splitFraction_point hfraction.2 hends⟩

/-- Digits with a point have a digit, and do not begin with a sign. -/
theorem PointText.unsigned_append {whole fraction point : List Char}
    (h : PointText whole fraction point) (text : List Char) :
    Unsigned (point ++ text) ∧ ¬ (whole = [] ∧ fraction = []) := by
  cases h with
  | whole hwhole => exact ⟨hwhole.unsigned_append text, fun h => hwhole.1 h.1⟩
  | point hwhole _ =>
    rw [List.append_assoc]
    exact ⟨hwhole.unsigned_append _, fun h => hwhole.1 h.1⟩
  | fraction hfraction =>
    refine ⟨?_, fun h => hfraction.1 h.2⟩
    intro c hc
    obtain rfl := Option.some.inj hc
    decide

/-- What is left of a text behind its sign is digits with a point, and the rest. -/
theorem exists_pointText {body : List Char}
    (h : ¬ (body.takeWhile Char.isDigit = [] ∧
      (splitFraction (body.dropWhile Char.isDigit)).1 = [])) :
    ∃ point, PointText (body.takeWhile Char.isDigit)
        (splitFraction (body.dropWhile Char.isDigit)).1 point ∧
      body = point ++ (splitFraction (body.dropWhile Char.isDigit)).2 := by
  have hbody := List.takeWhile_append_dropWhile (p := Char.isDigit) (l := body)
  have hwhole := areDigits_takeWhile body
  generalize body.takeWhile Char.isDigit = whole at *
  generalize body.dropWhile Char.isDigit = rest at *
  subst hbody
  by_cases hdot : rest.head? = some '.'
  · obtain ⟨rest, rfl⟩ : ∃ tail, rest = '.' :: tail := by
      rcases rest with - | ⟨c, rest⟩
      · cases hdot
      · exact ⟨rest, by rw [Option.some.inj hdot]⟩
    have hfraction := areDigits_takeWhile rest
    have hrest := List.takeWhile_append_dropWhile (p := Char.isDigit) (l := rest)
    simp only [splitFraction] at h ⊢
    rcases whole with - | ⟨c, whole⟩
    · refine ⟨_, .fraction ⟨fun hnil => h ⟨rfl, hnil⟩, hfraction⟩, ?_⟩
      rw [List.nil_append, List.cons_append, hrest]
    · refine ⟨_, .point ⟨List.cons_ne_nil _ _, hwhole⟩ hfraction, ?_⟩
      simp only [List.append_assoc, List.cons_append, hrest]
  · rw [splitFraction_of_ne_point hdot] at h ⊢
    exact ⟨_, .whole ⟨fun hnil => h ⟨hnil, rfl⟩, hwhole⟩, rfl⟩

/-- The magnitude of a decimal number. -/
def magnitude (d : Decimal) : ℚ :=
  d.significand * 10 ^ d.exponent

/-- The digits on both sides of a point as one number, and the exponent lowered for those behind
it. -/
theorem magnitude_mk (negative : Bool) (whole fraction : List Char) (exponent : Int) :
    magnitude ⟨negative, digitsValue (whole ++ fraction), exponent - fraction.length⟩
      = (digitsValue whole + digitsValue fraction / 10 ^ fraction.length) * 10 ^ exponent := by
  have hten : (10 : ℚ) ≠ 0 := by norm_num
  rw [magnitude, digitsValue_append, zpow_sub₀ hten, zpow_natCast]
  push_cast
  field_simp

end Decimal

open Decimal in
/-- **A decimal text is read as its number**, and nothing else is read. -/
theorem decimalText_iff {negative : Bool} {q : ℚ} {text : List Char} :
    DecimalText negative q text ↔
      ∃ d, Decimal.ofText? text = some d ∧ d.negative = negative ∧ d.magnitude = q := by
  constructor
  · rintro ⟨hsign, hpoint, htail⟩
    obtain ⟨hunsigned, hdigit⟩ := PointText.unsigned_append hpoint _
    obtain ⟨hwhole, hfraction⟩ := splitFraction_pointText hpoint htail
    refine ⟨_, ?_, rfl, magnitude_mk negative _ _ _⟩
    rw [ofText?, hsign.splitSign_append hunsigned]
    simp only [hwhole, hfraction, if_neg hdigit]
    rw [exponent?_eq_some_iff.mpr htail]
    rfl
  · rintro ⟨d, hd, rfl, rfl⟩
    obtain ⟨sign, hsign, htext⟩ := exists_signText text
    simp only [ofText?] at hd
    generalize splitSign text = parts at hd hsign htext
    split at hd
    · cases hd
    · next hdigit =>
      obtain ⟨exponent, hexponent, rfl⟩ := Option.map_eq_some_iff.mp hd
      obtain ⟨point, hpoint, hbody⟩ := exists_pointText hdigit
      have hdecimal := DecimalText.intro hsign hpoint (exponent?_eq_some_iff.mp hexponent)
      rwa [← hbody, ← htext, ← magnitude_mk parts.1] at hdecimal

/-- Digits behind the point lower the exponent; a text without any digit is no number. -/
example : Decimal.ofText? "-2.50e-1".toList = some ⟨true, 250, -3⟩ ∧
    Decimal.ofText? ".e1".toList = none := by decide +kernel

end DialogueScript
