/-
# The magnitudes of singles

A bit pattern has a sign, eight bits of exponent and 23 bits of fraction, and denotes a rational
number (`Single.magnitude`); the exponent of all ones is left to infinity and what is no number.

Counted in units of `2 ^ -149`, the smallest positive magnitude, every magnitude is a natural
number, and patterns are ordered as their magnitudes are.  The step from one pattern to the next is
a power of two that its exponent gives (`units_succ`); so the magnitudes grow strictly
(`units_strictMono`), and `m · 2 ^ q` with a significand `m` of 24 bits is the magnitude of the
pattern `q · 2 ^ 23 + m` (`units_significand`), also where `m` is `2 ^ 24` and the pattern runs
into the next exponent.
-/
import Mathlib.Algebra.Order.Field.Rat
import Mathlib.Order.Monotone.Basic
import Mathlib.Tactic.FieldSimp
import Mathlib.Tactic.Ring
import DialogueScript.Number.Single

namespace DialogueScript

namespace Single

/-! ### What a pattern denotes -/

/-- Whether the sign bit is set. -/
def isNegative (s : Single) : Bool :=
  2 ^ 31 ≤ s.bits.toNat

/-- The pattern without its sign. -/
def pattern (s : Single) : Nat :=
  s.bits.toNat % 2 ^ 31

/-- The bits of the exponent. -/
def exponentBits (s : Single) : Nat :=
  s.pattern / 2 ^ 23

/-- The bits of the fraction. -/
def fractionBits (s : Single) : Nat :=
  s.pattern % 2 ^ 23

/-- Whether the pattern denotes a number. -/
def IsFinite (s : Single) : Prop :=
  s.exponentBits < 255

/-- The fraction with its leading bit, which subnormal numbers lack. -/
def significand (s : Single) : Nat :=
  if s.exponentBits = 0 then s.fractionBits else 2 ^ 23 + s.fractionBits

/-- The magnitude of a number; subnormal numbers have the smallest exponent of the others. -/
def magnitude (s : Single) : ℚ :=
  s.significand * 2 ^ ((max s.exponentBits 1 : ℕ) - 150 : ℤ)

/-! ### Magnitudes as natural numbers -/

/-- The magnitude of a pattern without sign, in units of `2 ^ -149`; the exponent may be of any
size. -/
def units (p : Nat) : Nat :=
  (if p / 2 ^ 23 = 0 then p % 2 ^ 23 else 2 ^ 23 + p % 2 ^ 23) * 2 ^ (p / 2 ^ 23 - 1)

theorem magnitude_eq (s : Single) : s.magnitude = units s.pattern / 2 ^ 149 := by
  have htwo : (2 : ℚ) ≠ 0 := by norm_num
  have hexponent :
      ((max s.exponentBits 1 : ℕ) - 150 : ℤ) = ((s.exponentBits - 1 : ℕ) : ℤ) - 149 := by
    omega
  rw [magnitude, hexponent, zpow_sub₀ htwo, zpow_natCast, units, significand, exponentBits,
    fractionBits]
  push_cast
  rw [mul_div_assoc]
  norm_cast

theorem isFinite_iff (s : Single) : s.IsFinite ↔ s.pattern < infinity := by
  rw [IsFinite, exponentBits, infinity]
  omega

/-- The parity of a pattern is that of its significand. -/
theorem even_significand_iff (s : Single) : Even s.significand ↔ Even s.pattern := by
  rw [Nat.even_iff, Nat.even_iff, significand, fractionBits]
  split
  · omega
  · omega

/-! ### From one pattern to the next -/

theorem units_succ (p : Nat) : units (p + 1) = units p + 2 ^ (p / 2 ^ 23 - 1) := by
  by_cases hcarry : p % 2 ^ 23 = 2 ^ 23 - 1
  · -- the fraction is full, and the next pattern has the next exponent
    have hexponent : (p + 1) / 2 ^ 23 = p / 2 ^ 23 + 1 := by omega
    have hfraction : (p + 1) % 2 ^ 23 = 0 := by omega
    rw [units, units, hexponent, hfraction, hcarry, if_neg (Nat.succ_ne_zero _)]
    rcases Nat.eq_zero_or_pos (p / 2 ^ 23) with hzero | hpos
    · rw [if_pos hzero, hzero]
      norm_num
    · obtain ⟨e, he⟩ := Nat.exists_eq_add_of_lt hpos
      rw [if_neg (by omega), he]
      simp only [Nat.zero_add, Nat.add_sub_cancel]
      ring
  · have hexponent : (p + 1) / 2 ^ 23 = p / 2 ^ 23 := by omega
    have hfraction : (p + 1) % 2 ^ 23 = p % 2 ^ 23 + 1 := by omega
    rw [units, units, hexponent, hfraction]
    split
    · ring
    · ring

theorem units_strictMono : StrictMono units := by
  apply strictMono_nat_of_lt_succ
  intro p
  rw [units_succ]
  exact Nat.lt_add_of_pos_right (Nat.two_pow_pos _)

/-- **A significand and an exponent make a pattern.**  Only the smallest exponent goes with fewer
than 24 bits. -/
theorem units_significand {m q : Nat} (hm : m ≤ 2 ^ 24) (hq : q = 0 ∨ 2 ^ 23 ≤ m) :
    units (q * 2 ^ 23 + m) = m * 2 ^ q := by
  rcases Nat.lt_or_ge m (2 ^ 23) with hsmall | hlarge
  · obtain rfl : q = 0 := by omega
    have hexponent : (0 * 2 ^ 23 + m) / 2 ^ 23 = 0 := by omega
    have hfraction : (0 * 2 ^ 23 + m) % 2 ^ 23 = m := by omega
    rw [units, hexponent, hfraction, if_pos rfl]
  · rcases Nat.lt_or_ge m (2 ^ 24) with hfull | hcarry
    · have hexponent : (q * 2 ^ 23 + m) / 2 ^ 23 = q + 1 := by omega
      have hfraction : 2 ^ 23 + (q * 2 ^ 23 + m) % 2 ^ 23 = m := by omega
      rw [units, hexponent, hfraction, if_neg (Nat.succ_ne_zero q), Nat.add_sub_cancel]
    · -- the significand has been rounded up to the next power of two
      obtain rfl : m = 2 ^ 24 := by omega
      have hexponent : (q * 2 ^ 23 + 2 ^ 24) / 2 ^ 23 = q + 2 := by omega
      have hfraction : (q * 2 ^ 23 + 2 ^ 24) % 2 ^ 23 = 0 := by omega
      rw [units, hexponent, hfraction, if_neg (by omega), Nat.add_sub_assoc (by decide)]
      ring

/-- The magnitude at which the exponents end. -/
theorem units_infinity : units infinity = 2 ^ 24 * 2 ^ 253 := by
  have hpattern : infinity = 253 * 2 ^ 23 + 2 ^ 24 := by decide
  rw [hpattern, units_significand le_rfl (.inr (by decide))]

/-- The largest magnitude of a single. -/
theorem units_pred_infinity : units (infinity - 1) = (2 ^ 24 - 1) * 2 ^ 253 := by
  have hpattern : infinity - 1 = 253 * 2 ^ 23 + (2 ^ 24 - 1) := by decide
  rw [hpattern, units_significand (by decide) (.inr (by decide))]

end Single

end DialogueScript
