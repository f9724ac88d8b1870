/-
# Rounding to singles

`RoundsTo x s` says that a single has the finite magnitude nearest to `x`, and an even significand
if another one is equally near.  Rounding a decimal number gives such a single with the sign of the
number, unless the number is so large that infinity would be as near (`ofDecimal?_eq_some_iff`).

The argument has three steps.  A fraction is rounded to the nearest integer, the even one of two
(`nearestEven_spec`).  Scaled by a power of two, that is the nearest magnitude: behind the last bit
of a 24-bit significand the patterns are spaced evenly, and only below a power of two they lie
closer, on the side where the number is not (`nearest_roundUnits`).  And the nearest pattern of
all, with exponents of any size, is a single exactly if the number is below the middle of the last
single and the next pattern (`Nearest.lt_infinity_iff`), which is odd and even.
-/
import Mathlib.Algebra.Order.Field.Power
import Mathlib.Tactic.Linarith
import Mathlib.Tactic.Positivity
import DialogueScript.Proofs.Number.Grammar
import DialogueScript.Proofs.Number.Magnitude

namespace DialogueScript

/-! ### The nearest integer -/

/-- A fraction is rounded by at most a half, and by a half only to an even integer. -/
theorem nearestEven_spec (a : Nat) {b : Nat} (hb : 0 < b) :
    |(nearestEven a b : ℚ) - a / b| ≤ 1 / 2 ∧
      (|(nearestEven a b : ℚ) - a / b| = 1 / 2 → Even (nearestEven a b)) := by
  have hrest := Nat.mod_lt a hb
  have hparts : (a : ℚ) / b = (a / b : ℕ) + (a % b : ℕ) / b := by
    have h : (a : ℚ) = b * (a / b : ℕ) + (a % b : ℕ) := mod_cast (Nat.div_add_mod a b).symm
    have hb' : (b : ℚ) ≠ 0 := mod_cast hb.ne'
    field_simp
    linarith
  have hb' : (0 : ℚ) < b := mod_cast hb
  rw [hparts, nearestEven]
  generalize a / b = whole, a % b = rest at hrest ⊢
  split
  · next hup =>
    have hhalf : (1 : ℚ) / 2 ≤ rest / b := by
      rw [div_le_div_iff₀ two_pos hb']
      exact mod_cast (by omega : 1 * b ≤ rest * 2)
    have hone : (rest : ℚ) / b < 1 := (div_lt_one hb').mpr (mod_cast hrest)
    have habs : |((whole + 1 : ℕ) : ℚ) - (whole + rest / b)| = 1 - rest / b := by
      push_cast
      rw [abs_of_nonneg (by linarith)]
      ring
    rw [habs]
    refine ⟨by linarith, fun htie => ?_⟩
    -- exactly half way the integer below was odd
    have hrest' : (rest : ℚ) / b = 1 / 2 := by linarith
    rw [div_eq_div_iff hb'.ne' two_ne_zero] at hrest'
    have hmiddle : rest * 2 = 1 * b := mod_cast hrest'
    rw [Nat.even_iff]
    omega
  · next hdown =>
    have hhalf : (rest : ℚ) / b ≤ 1 / 2 := by
      rw [div_le_div_iff₀ hb' two_pos]
      exact mod_cast (by omega : rest * 2 ≤ 1 * b)
    have hzero : (0 : ℚ) ≤ rest / b := by positivity
    have habs : |(whole : ℚ) - (whole + rest / b)| = rest / b := by
      rw [abs_of_nonpos (by linarith)]
      ring
    rw [habs]
    refine ⟨hhalf, fun htie => ?_⟩
    rw [div_eq_div_iff hb'.ne' two_ne_zero] at htie
    have hmiddle : rest * 2 = 1 * b := mod_cast htie
    rw [Nat.even_iff]
    omega

namespace Single

/-! ### The nearest pattern -/

/-- A pattern, of any exponent, has the magnitude nearest to `x`, in units of `2 ^ -149`; if
another one is equally near, it is even. -/
def Nearest (x : ℚ) (p : Nat) : Prop :=
  ∀ other, other ≠ p →
    |units p - x| < |units other - x| ∨ |units p - x| = |units other - x| ∧ Even p

/-- A pattern is nearest if the magnitude is within half a gap, and no other pattern is within the
gap, except below where the magnitude is not. -/
theorem nearest_of_gap {x : ℚ} {p : Nat} (gap : ℚ) (hhalf : |units p - x| ≤ gap / 2)
    (hodd : |units p - x| = gap / 2 → Even p) (habove : (units p : ℚ) + gap ≤ units (p + 1))
    (hbelow : ∀ other < p, (units other : ℚ) + gap ≤ units p ∨ (units p : ℚ) ≤ x) :
    Nearest x p := by
  have hwithin := abs_le.mp hhalf
  -- beyond a gap, nothing is nearer than half of it
  have hbeyond : ∀ other : Nat, gap / 2 ≤ |(units other : ℚ) - x| →
      |units p - x| < |units other - x| ∨ |units p - x| = |units other - x| ∧ Even p := by
    intro other hfar
    rcases lt_or_eq_of_le (hhalf.trans hfar) with hlt | heq
    · exact .inl hlt
    · exact .inr ⟨heq, hodd (le_antisymm hhalf (heq ▸ hfar))⟩
  intro other hother
  rcases Nat.lt_or_gt_of_ne hother with hlt | hgt
  · rcases hbelow other hlt with hgap | hside
    · apply hbeyond
      have := neg_le_abs ((units other : ℚ) - x)
      linarith
    · left
      have hunits : (units other : ℚ) < units p := mod_cast units_strictMono hlt
      rw [abs_of_nonpos (by linarith), abs_of_nonpos (by linarith)]
      linarith
  · apply hbeyond
    have hunits : (units (p + 1) : ℚ) ≤ units other := mod_cast units_strictMono.monotone hgt
    have := le_abs_self ((units other : ℚ) - x)
    linarith

/-- The number whose significand is rounded has 24 bits before the point, unless its exponent is the
smallest. -/
theorem scale_spec (a : Nat) {b : Nat} (hb : 0 < b) :
    (a : ℚ) / b < 2 ^ 24 * 2 ^ scale a b ∧
      (scale a b ≠ 0 → (2 : ℚ) ^ 23 * 2 ^ scale a b ≤ a / b) := by
  have hb' : (0 : ℚ) < b := mod_cast hb
  have hlog : (a / b).log2 ≤ 23 + scale a b := by
    rw [scale]
    omega
  constructor
  · rw [← pow_add, div_lt_iff₀ hb']
    have hlt : a / b < 2 ^ (24 + scale a b) := by
      apply Nat.lt_of_lt_of_le Nat.lt_log2_self
      exact Nat.pow_le_pow_right two_pos (by omega)
    exact mod_cast (Nat.div_lt_iff_lt_mul hb).mp hlt
  · intro hscale
    have hlog' : (a / b).log2 = 23 + scale a b := by
      rw [scale] at hscale ⊢
      omega
    rw [← pow_add, le_div_iff₀ hb']
    have hne : a / b ≠ 0 := by
      intro hzero
      rw [hzero, Nat.log2_zero] at hlog'
      omega
    have hle : 2 ^ (23 + scale a b) ≤ a / b := by
      rw [← hlog']
      exact Nat.log2_self_le hne
    exact mod_cast (Nat.le_div_iff_mul_le hb).mp hle

/-- The gap above a pattern is at least the last place of its significand. -/
theorem units_add_le {m q : Nat} (hm : m ≤ 2 ^ 24) (hq : q = 0 ∨ 2 ^ 23 ≤ m) :
    units (q * 2 ^ 23 + m) + 2 ^ q ≤ units (q * 2 ^ 23 + m + 1) := by
  rw [units_succ]
  apply Nat.add_le_add_left
  apply Nat.pow_le_pow_right two_pos
  omega

/-- So is the gap below it, unless the significand is a power of two. -/
theorem units_add_le_of_lt {m q other : Nat} (hm : m ≤ 2 ^ 24) (hq : q = 0 ∨ 2 ^ 23 < m)
    (hother : other < q * 2 ^ 23 + m) : units other + 2 ^ q ≤ units (q * 2 ^ 23 + m) := by
  obtain ⟨p, hp⟩ : ∃ p, q * 2 ^ 23 + m = p + 1 := ⟨q * 2 ^ 23 + m - 1, by omega⟩
  have hle : units other ≤ units p := units_strictMono.monotone (by omega)
  have hgap : 2 ^ q ≤ 2 ^ (p / 2 ^ 23 - 1) := Nat.pow_le_pow_right two_pos (by omega)
  rw [hp, units_succ]
  omega

/-- **Rounding a fraction gives the nearest pattern.** -/
theorem nearest_roundUnits (a : Nat) {b : Nat} (hb : 0 < b) :
    Nearest (a / b) (roundUnits a b) := by
  obtain ⟨hupper, hlower⟩ := scale_spec a hb
  rw [roundUnits]
  simp only [Nat.pow_eq]
  generalize scale a b = q at hupper hlower ⊢
  have hgap : (0 : ℚ) < 2 ^ q := by positivity
  obtain ⟨hhalf, heven⟩ := nearestEven_spec a (Nat.mul_pos hb (Nat.two_pow_pos q))
  have hscaled : (a : ℚ) / (b * 2 ^ q : ℕ) = a / b / 2 ^ q := by
    push_cast
    rw [div_div]
  rw [hscaled] at hhalf heven
  generalize nearestEven a (b * 2 ^ q) = m at hhalf heven ⊢
  generalize (a : ℚ) / b = x at hupper hlower hhalf heven ⊢
  -- the rounded significand has at most 24 bits, or is the next power of two
  have hwithin := abs_le.mp hhalf
  have hm : m ≤ 2 ^ 24 := by
    have hlt : x / 2 ^ q < 2 ^ 24 := (div_lt_iff₀ hgap).mpr hupper
    have hlt' : (m : ℚ) < (2 ^ 24 + 1 : ℕ) := by
      push_cast
      linarith
    exact Nat.lt_succ_iff.mp (mod_cast hlt')
  have hfull : q ≠ 0 → 2 ^ 23 ≤ m := by
    intro hq
    have hle : (2 : ℚ) ^ 23 ≤ x / 2 ^ q := (le_div_iff₀ hgap).mpr (hlower hq)
    have hlt' : ((2 ^ 23 : ℕ) : ℚ) < (m + 1 : ℕ) := by
      push_cast
      linarith
    exact Nat.lt_succ_iff.mp (mod_cast hlt')
  have hq : q = 0 ∨ 2 ^ 23 ≤ m := by
    by_cases hzero : q = 0
    · exact .inl hzero
    · exact .inr (hfull hzero)
  have hdistance : |(units (q * 2 ^ 23 + m) : ℚ) - x| = |(m : ℚ) - x / 2 ^ q| * 2 ^ q := by
    rw [units_significand hm hq, ← abs_of_pos hgap, ← abs_mul, abs_of_pos hgap, sub_mul,
      div_mul_cancel₀ _ hgap.ne']
    push_cast
    rfl
  apply nearest_of_gap (2 ^ q)
  · rw [hdistance]
    have := mul_le_mul_of_nonneg_right hhalf hgap.le
    linarith
  · intro htie
    rw [hdistance] at htie
    have htie' : |(m : ℚ) - x / 2 ^ q| = 1 / 2 := by
      apply mul_right_cancel₀ hgap.ne'
      linarith
    rw [Nat.even_add]
    exact iff_of_true (Even.mul_left (by decide) q) (heven htie')
  · exact mod_cast units_add_le hm hq
  · intro other hother
    by_cases hpower : q = 0 ∨ 2 ^ 23 < m
    · exact .inl (mod_cast units_add_le_of_lt hm hpower hother)
    · -- the significand is a power of two, and the number is not below it
      obtain ⟨hzero, hsmall⟩ := not_or.mp hpower
      obtain rfl : m = 2 ^ 23 := Nat.le_antisymm (Nat.le_of_not_lt hsmall) (hfull hzero)
      right
      rw [units_significand hm hq]
      push_cast
      exact hlower hzero

/-- What is below half of the smallest magnitude is nearest to zero. -/
theorem nearest_zero {x : ℚ} (hx : 0 ≤ x) (hhalf : x < 1 / 2) : Nearest x 0 := by
  intro other hother
  left
  have hzero : units 0 = 0 := rfl
  have hpos : units 0 < units other := units_strictMono (Nat.pos_of_ne_zero hother)
  have hone : (1 : ℚ) ≤ units other := mod_cast hpos
  rw [hzero, Nat.cast_zero, zero_sub, abs_neg, abs_of_nonneg hx, abs_of_nonneg (by linarith)]
  linarith

/-! ### Overflow -/

/-- The middle of the largest magnitude of a single and the next pattern, in units of `2 ^ -149`. -/
def limit : ℚ := (2 ^ 25 - 1) * 2 ^ 252

/-- **The nearest pattern is that of a single exactly below the limit.**  At the limit, the last
single and the next pattern are equally near, and the last single is odd. -/
theorem Nearest.lt_infinity_iff {x : ℚ} {p : Nat} (h : Nearest x p) : p < infinity ↔ x < limit := by
  have hstep : (2 : ℚ) ^ 253 = 2 * 2 ^ 252 := by norm_num
  have hnext : (units infinity : ℚ) = 2 ^ 24 * (2 * 2 ^ 252) := by
    rw [units_infinity, ← hstep]
    norm_cast
  have hlast : (units (infinity - 1) : ℚ) = (2 ^ 24 - 1) * (2 * 2 ^ 252) := by
    rw [units_pred_infinity, ← hstep]
    norm_num
  rw [limit]
  have hgap : (0 : ℚ) < 2 ^ 252 := by positivity
  generalize (2 : ℚ) ^ 252 = gap at hnext hlast hgap ⊢
  constructor
  · intro hp
    by_contra hx
    have hx := not_lt.mp hx
    have hle : (units p : ℚ) ≤ units (infinity - 1) :=
      mod_cast units_strictMono.monotone (Nat.le_sub_one_of_lt hp)
    have hdown : |(units p : ℚ) - x| = x - units p := by
      rw [abs_of_nonpos (by linarith)]
      ring
    have hup : |(units infinity : ℚ) - x| ≤ x - units (infinity - 1) := by
      apply abs_le.mpr
      constructor
      · linarith
      · linarith
    rcases h infinity hp.ne' with hlt | ⟨heq, heven⟩
    · linarith
    · -- a tie is with the last single, which is odd
      have hunits : (units p : ℚ) = units (infinity - 1) := le_antisymm hle (by linarith)
      obtain rfl : p = infinity - 1 := units_strictMono.injective (mod_cast hunits)
      exact absurd heven (by decide)
  · intro hx
    by_contra hp
    have hle : (units infinity : ℚ) ≤ units p :=
      mod_cast units_strictMono.monotone (Nat.le_of_not_lt hp)
    have hfar : |(units (infinity - 1) : ℚ) - x| < units p - x := by
      apply abs_lt.mpr
      constructor
      · linarith
      · linarith
    have hne : infinity - 1 ≠ p := by
      rintro rfl
      exact hp (by decide)
    have hself := le_abs_self ((units p : ℚ) - x)
    rcases h (infinity - 1) hne with hlt | ⟨heq, -⟩
    · linarith
    · linarith

/-! ### Decimal numbers -/

/-- A number far below the singles is nearest to zero. -/
theorem lt_half_of_exponent_le {n : Nat} {e : Int} (h : e + n.log2 + 1 ≤ -46) :
    (n : ℚ) * 10 ^ e * 2 ^ 149 < 1 / 2 := by
  have hten : (0 : ℚ) < 10 := by norm_num
  have hn : (n : ℚ) < 10 ^ (n.log2 + 1) := by
    have hlt : n < 10 ^ (n.log2 + 1) :=
      Nat.lt_of_lt_of_le Nat.lt_log2_self (Nat.pow_le_pow_left (by decide) _)
    exact mod_cast hlt
  have hsmall : (n : ℚ) * 10 ^ e < 10 ^ (-46 : ℤ) := by
    calc (n : ℚ) * 10 ^ e < 10 ^ (n.log2 + 1) * 10 ^ e :=
          mul_lt_mul_of_pos_right hn (zpow_pos hten e)
      _ = 10 ^ (((n.log2 + 1 : ℕ) : ℤ) + e) := by rw [zpow_add₀ hten.ne', zpow_natCast]
      _ ≤ 10 ^ (-46 : ℤ) := zpow_le_zpow_right₀ (by norm_num) (by omega)
  calc (n : ℚ) * 10 ^ e * 2 ^ 149 < 10 ^ (-46 : ℤ) * 2 ^ 149 :=
        mul_lt_mul_of_pos_right hsmall (by positivity)
    _ < 1 / 2 := by norm_num

/-- A number far above the singles is not below the limit. -/
theorem limit_le_of_le_exponent {n : Nat} {e : Int} (hn : n ≠ 0) (h : 39 ≤ e) :
    limit ≤ (n : ℚ) * 10 ^ e * 2 ^ 149 := by
  have hone : (1 : ℚ) ≤ n := mod_cast Nat.one_le_iff_ne_zero.mpr hn
  have hpow : (10 : ℚ) ^ 39 ≤ 10 ^ e := by
    rw [← zpow_natCast]
    exact zpow_le_zpow_right₀ (by norm_num) h
  have hnumber : (10 : ℚ) ^ 39 ≤ n * 10 ^ e :=
    hpow.trans (le_mul_of_one_le_left (by positivity) hone)
  calc limit ≤ 10 ^ 39 * 2 ^ 149 := by
        rw [limit]
        norm_num
    _ ≤ n * 10 ^ e * 2 ^ 149 := mul_le_mul_of_nonneg_right hnumber (by positivity)

/-- **What is computed for a decimal number** is below infinity exactly if the number is below the
limit, and then it is the nearest pattern. -/
theorem roundMagnitude_spec (n : Nat) (e : Int) :
    (roundMagnitude n e < infinity ↔ (n : ℚ) * 10 ^ e * 2 ^ 149 < limit) ∧
      (roundMagnitude n e < infinity → Nearest (n * 10 ^ e * 2 ^ 149) (roundMagnitude n e)) := by
  have hten : (10 : ℚ) ≠ 0 := by norm_num
  have of_nearest : Nearest (n * 10 ^ e * 2 ^ 149) (roundMagnitude n e) →
      (roundMagnitude n e < infinity ↔ (n : ℚ) * 10 ^ e * 2 ^ 149 < limit) ∧
        (roundMagnitude n e < infinity → Nearest (n * 10 ^ e * 2 ^ 149) (roundMagnitude n e)) :=
    fun h => ⟨h.lt_infinity_iff, fun _ => h⟩
  rcases eq_or_ne n 0 with rfl | hn
  · apply of_nearest
    rw [roundMagnitude, if_pos rfl]
    exact nearest_zero (by simp) (by simp)
  by_cases hlarge : 39 ≤ e
  · -- the power of ten alone is beyond every single
    rw [roundMagnitude, if_neg hn, if_pos hlarge]
    have hlimit := limit_le_of_le_exponent hn hlarge
    exact ⟨iff_of_false (lt_irrefl _) (not_lt.mpr hlimit), fun h => absurd h (lt_irrefl _)⟩
  apply of_nearest
  rw [roundMagnitude, if_neg hn, if_neg hlarge]
  by_cases hsmall : e + n.log2 + 1 ≤ -46
  · rw [if_pos hsmall]
    exact nearest_zero (by positivity) (lt_half_of_exponent_le hsmall)
  rw [if_neg hsmall]
  by_cases hsign : 0 ≤ e
  · rw [if_pos hsign]
    obtain ⟨k, rfl⟩ := Int.eq_ofNat_of_zero_le hsign
    have h := nearest_roundUnits (n * 10 ^ k * 2 ^ 149) one_pos
    push_cast at h
    rwa [div_one, ← zpow_natCast (10 : ℚ) k] at h
  · rw [if_neg hsign]
    obtain ⟨k, rfl⟩ : ∃ k : ℕ, e = -k := ⟨(-e).toNat, by omega⟩
    have h := nearest_roundUnits (n * 2 ^ 149) (Nat.pow_pos (n := k) (by decide : 0 < 10))
    have hvalue : (n : ℚ) * 10 ^ (-k : ℤ) * 2 ^ 149 = (n * 2 ^ 149 : ℕ) / (10 ^ k : ℕ) := by
      rw [zpow_neg, zpow_natCast]
      push_cast
      ring
    rw [hvalue]
    rwa [neg_neg, Int.toNat_natCast]

/-- A single has the finite magnitude nearest to `x`; where another one is equally near, its
significand is even. -/
structure RoundsTo (x : ℚ) (s : Single) : Prop where
  finite : s.IsFinite
  nearest : ∀ other : Single, other.IsFinite → |s.magnitude - x| ≤ |other.magnitude - x|
  even : ∀ other : Single, other.IsFinite → other.magnitude ≠ s.magnitude →
    |s.magnitude - x| = |other.magnitude - x| → Even s.significand

/-- Distances between magnitudes and a number, counted in units. -/
theorem abs_magnitude_sub (s : Single) (x : ℚ) :
    |s.magnitude - x| = |(units s.pattern : ℚ) - x * 2 ^ 149| / 2 ^ 149 := by
  have hunit : (0 : ℚ) < 2 ^ 149 := by positivity
  have hsub : s.magnitude - x = ((units s.pattern : ℚ) - x * 2 ^ 149) / 2 ^ 149 := by
    rw [magnitude_eq, sub_div, mul_div_cancel_right₀ _ hunit.ne']
  rw [hsub, abs_div, abs_of_pos hunit]

theorem magnitude_eq_iff (s other : Single) :
    s.magnitude = other.magnitude ↔ s.pattern = other.pattern := by
  have hunit : (2 : ℚ) ^ 149 ≠ 0 := by positivity
  rw [magnitude_eq, magnitude_eq, div_left_inj' hunit, Nat.cast_inj,
    units_strictMono.injective.eq_iff]

/-- A single whose pattern is the nearest of all is the nearest single. -/
theorem roundsTo_of_nearest {x : ℚ} {s : Single} (hfinite : s.pattern < infinity)
    (h : Nearest (x * 2 ^ 149) s.pattern) : RoundsTo x s := by
  have hunit : (0 : ℚ) < 2 ^ 149 := by positivity
  refine ⟨(isFinite_iff s).mpr hfinite, fun other _ => ?_, fun other _ hne htie => ?_⟩
  · rw [abs_magnitude_sub, abs_magnitude_sub, div_le_div_iff_of_pos_right hunit]
    rcases eq_or_ne other.pattern s.pattern with heq | hne
    · rw [heq]
    · rcases h _ hne with hlt | ⟨heq, -⟩
      · exact hlt.le
      · exact heq.le
  · rw [abs_magnitude_sub, abs_magnitude_sub, div_left_inj' hunit.ne'] at htie
    rw [even_significand_iff]
    rcases h _ (mt (magnitude_eq_iff other s).mpr hne) with hlt | ⟨-, heven⟩
    · exact absurd htie hlt.ne
    · exact heven

/-! ### Patterns with a sign -/

/-- The single with a sign and a pattern. -/
def ofPattern (negative : Bool) (p : Nat) : Single :=
  ⟨UInt32.ofNat (if negative then p + Nat.pow 2 31 else p)⟩

theorem toNat_bits_ofPattern (negative : Bool) {p : Nat} (hp : p < infinity) :
    (ofPattern negative p).bits.toNat = if negative then p + 2 ^ 31 else p := by
  rw [infinity] at hp
  rw [ofPattern, UInt32.toNat_ofNat', Nat.pow_eq]
  apply Nat.mod_eq_of_lt
  split
  · omega
  · omega

theorem pattern_ofPattern (negative : Bool) {p : Nat} (hp : p < infinity) :
    (ofPattern negative p).pattern = p := by
  rw [pattern, toNat_bits_ofPattern negative hp]
  rw [infinity] at hp
  split
  · omega
  · omega

theorem isNegative_ofPattern (negative : Bool) {p : Nat} (hp : p < infinity) :
    (ofPattern negative p).isNegative = negative := by
  rw [isNegative, toNat_bits_ofPattern negative hp]
  rw [infinity] at hp
  cases negative with
  | false => simpa using Nat.lt_trans hp (by decide)
  | true => simp

/-- A single is its sign and its pattern. -/
theorem eq_of_pattern_eq {s t : Single} (hsign : s.isNegative = t.isNegative)
    (hpattern : s.pattern = t.pattern) : s = t := by
  have hs := s.bits.toNat_lt
  have ht := t.bits.toNat_lt
  rw [isNegative, isNegative, decide_eq_decide] at hsign
  rw [pattern, pattern] at hpattern
  obtain ⟨bits⟩ := s
  obtain ⟨bits'⟩ := t
  have hbits : bits.toNat = bits'.toNat := by
    simp only at hsign hpattern hs ht
    omega
  rw [UInt32.toNat_inj.mp hbits]

theorem magnitude_lt_iff (s t : Single) : s.magnitude < t.magnitude ↔ s.pattern < t.pattern := by
  have hunit : (0 : ℚ) < 2 ^ 149 := by positivity
  rw [magnitude_eq, magnitude_eq, div_lt_div_iff_of_pos_right hunit, Nat.cast_lt,
    units_strictMono.lt_iff_lt]

/-- Of two patterns that are equally near, the even one is taken; so they cannot both be. -/
theorem not_roundsTo_of_lt {x : ℚ} {s t : Single} (hs : RoundsTo x s) (ht : RoundsTo x t) :
    ¬ s.pattern < t.pattern := by
  intro hlt
  have hlt' := (magnitude_lt_iff s t).mpr hlt
  have htie : |s.magnitude - x| = |t.magnitude - x| :=
    le_antisymm (hs.nearest t ht.finite) (ht.nearest s hs.finite)
  have hs_even := (even_significand_iff s).mp (hs.even t ht.finite hlt'.ne' htie)
  have ht_even := (even_significand_iff t).mp (ht.even s hs.finite hlt'.ne htie.symm)
  rw [Nat.even_iff] at hs_even ht_even
  -- the odd pattern above the lower one is nearer than both
  have hfinite := (isFinite_iff t).mp ht.finite
  have hp : s.pattern + 1 < infinity := by omega
  have hbetween := pattern_ofPattern false hp
  have hlower := (magnitude_lt_iff s (ofPattern false (s.pattern + 1))).mpr (by omega)
  have hupper := (magnitude_lt_iff (ofPattern false (s.pattern + 1)) t).mpr (by omega)
  have hnear := hs.nearest _ ((isFinite_iff (ofPattern false (s.pattern + 1))).mpr (by omega))
  have hmiddle : s.magnitude - x = -(t.magnitude - x) := by
    rcases abs_eq_abs.mp htie with heq | heq
    · linarith
    · exact heq
  rw [abs_of_neg (by linarith : s.magnitude - x < 0)] at hnear
  rcases abs_cases ((ofPattern false (s.pattern + 1)).magnitude - x) with ⟨habs, -⟩ | ⟨habs, -⟩
  · linarith
  · linarith

/-- **There is one way to round a number**, up to the sign. -/
theorem RoundsTo.unique {x : ℚ} {s t : Single} (hs : RoundsTo x s) (ht : RoundsTo x t)
    (hsign : s.isNegative = t.isNegative) : s = t := by
  apply eq_of_pattern_eq hsign
  have hle := not_roundsTo_of_lt ht hs
  have hge := not_roundsTo_of_lt hs ht
  omega

/-! ### Decimal numbers as singles -/

/-- A decimal number below the limit has a single, the nearest one with its sign; no other number
has one. -/
theorem ofDecimal?_cases (d : Decimal) :
    (d.magnitude < 2 ^ 128 - 2 ^ 103 ∧
        ∃ s, ofDecimal? d = some s ∧ s.isNegative = d.negative ∧ RoundsTo d.magnitude s) ∨
      (¬ d.magnitude < 2 ^ 128 - 2 ^ 103 ∧ ofDecimal? d = none) := by
  obtain ⟨hfinite, hnearest⟩ := roundMagnitude_spec d.significand d.exponent
  have hlimit : d.magnitude * 2 ^ 149 < limit ↔ d.magnitude < 2 ^ 128 - 2 ^ 103 := by
    have hunit : (0 : ℚ) < 2 ^ 149 := by positivity
    have hvalue : limit = (2 ^ 128 - 2 ^ 103) * 2 ^ 149 := by
      rw [limit]
      norm_num
    rw [hvalue, mul_lt_mul_iff_left₀ hunit]
  rw [← hlimit, Decimal.magnitude, ← hfinite]
  simp only [ofDecimal?]
  generalize roundMagnitude d.significand d.exponent = p at hfinite hnearest ⊢
  by_cases hp : p < infinity
  · have hpattern := pattern_ofPattern d.negative hp
    refine .inl ⟨hp, ofPattern d.negative p, if_pos hp, isNegative_ofPattern d.negative hp, ?_⟩
    apply roundsTo_of_nearest
    · rwa [hpattern]
    · rw [hpattern]
      exact hnearest hp
  · exact .inr ⟨hp, if_neg hp⟩

/-- **A decimal number is rounded to the nearest single with its sign**, unless it is too large. -/
theorem ofDecimal?_eq_some_iff {d : Decimal} {s : Single} :
    ofDecimal? d = some s ↔
      d.magnitude < 2 ^ 128 - 2 ^ 103 ∧ s.isNegative = d.negative ∧ RoundsTo d.magnitude s := by
  rcases ofDecimal?_cases d with ⟨hlt, t, ht, hsign, hrounds⟩ | ⟨hge, hnone⟩
  · rw [ht]
    constructor
    · intro h
      obtain rfl := Option.some.inj h
      exact ⟨hlt, hsign, hrounds⟩
    · rintro ⟨-, hsign', hrounds'⟩
      exact congrArg some (hrounds.unique hrounds' (hsign.trans hsign'.symm))
  · rw [hnone]
    exact iff_of_false (fun h => by cases h) fun h => hge h.1

/-- **A text is read as a single** exactly if it is that of a decimal number that is not too large;
and it is read as the nearest one, with the sign that is written. -/
theorem ofText?_eq_some_iff {text : List Char} {s : Single} :
    ofText? text = some s ↔
      ∃ q, DecimalText s.isNegative q text ∧ q < 2 ^ 128 - 2 ^ 103 ∧ RoundsTo q s := by
  simp only [ofText?, Option.bind_eq_some_iff, decimalText_iff, ofDecimal?_eq_some_iff]
  constructor
  · rintro ⟨d, hd, hlt, hsign, hrounds⟩
    exact ⟨_, ⟨d, hd, hsign.symm, rfl⟩, hlt, hrounds⟩
  · rintro ⟨q, ⟨d, hd, hsign, rfl⟩, hlt, hrounds⟩
    exact ⟨d, hd, hlt, hsign.symm, hrounds⟩

/-- A number half way between two singles is read as the even one; zero keeps its sign. -/
example : ofText? "16777217".toList = some ⟨0x4b800000⟩ ∧ ofText? "-0".toList = some ⟨0x80000000⟩ := by
  decide +kernel

/-- Every decimal text that is not too large has a single. -/
theorem exists_ofText?_eq_some_iff {text : List Char} :
    (∃ s, ofText? text = some s) ↔
      ∃ negative q, DecimalText negative q text ∧ q < 2 ^ 128 - 2 ^ 103 := by
  constructor
  · rintro ⟨s, hs⟩
    obtain ⟨q, hdecimal, hlt, -⟩ := ofText?_eq_some_iff.mp hs
    exact ⟨_, q, hdecimal, hlt⟩
  · rintro ⟨negative, q, hdecimal, hlt⟩
    obtain ⟨d, hd, -, rfl⟩ := decimalText_iff.mp hdecimal
    rcases ofDecimal?_cases d with ⟨-, s, hs, -⟩ | ⟨hge, -⟩
    · exact ⟨s, by rw [ofText?, hd, Option.bind_some, hs]⟩
    · exact absurd hlt hge

/-- The largest integer that is read, as the largest single, and the next one. -/
example : ofText? "340282356779733661637539395458142568447".toList = some ⟨0x7f7fffff⟩ ∧
    ofText? "340282356779733661637539395458142568448".toList = none := by decide +kernel

end Single

end DialogueScript
