import LessonBook.Number.Binary64
import Mathlib.Algebra.Order.Field.Power
import Mathlib.Data.Rat.Cast.Order
import Mathlib.Tactic.FieldSimp
import Mathlib.Tactic.Linarith
import Mathlib.Tactic.NormNum
import Mathlib.Tactic.Positivity
import Mathlib.Tactic.Ring

/-!
Rounding a fraction. Every fraction that lies nearer to a number than to its
neighbours is rounded to that number, also where the numbers above it are twice
as far apart as those below.
-/

namespace LessonBook.Binary64

/-! ### Powers as fractions -/

theorem power_as_fraction (base : Nat) (exponent : Int) :
    ((Nat.pow base exponent.toNat : Nat) : ℚ) / (Nat.pow base (-exponent).toNat : Nat) =
      (base : ℚ) ^ exponent := by
  simp only [Nat.pow_eq, Nat.cast_pow]
  rcases Int.le_total 0 exponent with positive | negative
  · have none : (-exponent).toNat = 0 := by omega
    rw [none, pow_zero, div_one, ← zpow_natCast, Int.toNat_of_nonneg positive]
  · have none : exponent.toNat = 0 := by omega
    rw [none, pow_zero, one_div, ← zpow_natCast, Int.toNat_of_nonneg (by omega), zpow_neg, inv_inv]

theorem power_of_two_positive (exponent : Int) :
    0 < (powerOfTwo exponent).1 ∧ 0 < (powerOfTwo exponent).2 :=
  ⟨Nat.pow_pos (by decide), Nat.pow_pos (by decide)⟩

theorem power_of_two_eq (exponent : Int) :
    ((powerOfTwo exponent).1 : ℚ) / (powerOfTwo exponent).2 = 2 ^ exponent :=
  power_as_fraction 2 exponent

theorem scaled_fraction (numerator denominator : Nat) (exponent : Int) :
    ((numerator * (powerOfTwo exponent).2 : Nat) : ℚ) / (denominator * (powerOfTwo exponent).1 : Nat) =
      numerator / denominator / 2 ^ exponent := by
  rw [← power_of_two_eq, Nat.cast_mul, Nat.cast_mul, div_div_div_eq]

theorem two_zpow_succ (exponent : Int) : (2 : ℚ) ^ (exponent + 1) = 2 * 2 ^ exponent := by
  rw [zpow_add₀ two_ne_zero, zpow_one, mul_comm]

/-! ### The nearest integer -/

theorem round_half_even_of_bounds {numerator denominator value : Nat} (positive : 0 < denominator)
    (low : 2 * value * denominator ≤ 2 * numerator + denominator)
    (high : 2 * numerator ≤ 2 * value * denominator + denominator)
    (tie : value % 2 = 0 ∨ (2 * value * denominator < 2 * numerator + denominator ∧
      2 * numerator < 2 * value * denominator + denominator)) :
    roundHalfEven numerator denominator = value := by
  have split := Nat.div_add_mod numerator denominator
  have rest := Nat.mod_lt numerator positive
  simp only [roundHalfEven]
  generalize numerator / denominator = quotient at *
  generalize numerator % denominator = remainder at *
  obtain near | near : value = quotient ∨ value = quotient + 1 := by
    have below : value < quotient + 2 := by
      by_contra far
      have bound : (quotient + 2) * denominator ≤ value * denominator :=
        Nat.mul_le_mul_right _ (by omega)
      nlinarith
    have above : quotient ≤ value := by
      by_contra far
      have bound : (value + 1) * denominator ≤ quotient * denominator :=
        Nat.mul_le_mul_right _ (by omega)
      nlinarith
    omega
  · subst near
    have twice : 2 * numerator = 2 * value * denominator + 2 * remainder := by
      rw [← split]
      ring
    split
    · rfl
    · split
      · omega
      · split <;> omega
  · subst near
    have twice : 2 * numerator + 2 * denominator =
        2 * (quotient + 1) * denominator + 2 * remainder := by
      rw [← split]
      ring
    split
    · omega
    · split
      · rfl
      · split <;> omega

theorem round_half_even_of_near {numerator denominator value : Nat} (positive : 0 < denominator)
    (low : (value : ℚ) - 1 / 2 ≤ numerator / denominator)
    (high : (numerator : ℚ) / denominator ≤ value + 1 / 2)
    (tie : value % 2 = 0 ∨ ((value : ℚ) - 1 / 2 < numerator / denominator ∧
      (numerator : ℚ) / denominator < value + 1 / 2)) :
    roundHalfEven numerator denominator = value := by
  have denominatorPositive : (0 : ℚ) < denominator := by exact_mod_cast positive
  rw [le_div_iff₀ denominatorPositive] at low
  rw [div_le_iff₀ denominatorPositive] at high
  rw [lt_div_iff₀ denominatorPositive, div_lt_iff₀ denominatorPositive] at tie
  apply round_half_even_of_bounds positive
  · have bound : (2 * value * denominator : ℚ) ≤ 2 * numerator + denominator := by linarith
    exact_mod_cast bound
  · have bound : (2 * numerator : ℚ) ≤ 2 * value * denominator + denominator := by linarith
    exact_mod_cast bound
  · refine tie.imp id fun strict => ⟨?_, ?_⟩
    · have bound : (2 * value * denominator : ℚ) < 2 * numerator + denominator := by linarith
      exact_mod_cast bound
    · have bound : (2 * numerator : ℚ) < 2 * value * denominator + denominator := by linarith
      exact_mod_cast bound

/-! ### The exponent of a fraction -/

theorem two_zpow_mul (count : Nat) (exponent : Int) :
    (2 : ℚ) ^ count * 2 ^ exponent = 2 ^ (count + exponent) := by
  rw [zpow_add₀ two_ne_zero, zpow_natCast]

theorem exponent_lt {value : ℚ} {low high : Int} (above : 2 ^ low ≤ value)
    (below : value < 2 ^ high) : low < high :=
  (zpow_lt_zpow_iff_right₀ one_lt_two).mp (above.trans_lt below)

/-- The lengths of numerator and denominator give the size of a fraction but for one digit. -/
theorem fraction_log_bounds {numerator denominator : Nat} (present : 0 < numerator)
    (positive : 0 < denominator) :
    (2 : ℚ) ^ ((numerator.log2 : Int) - denominator.log2 - 1) ≤ numerator / denominator ∧
      (numerator : ℚ) / denominator < 2 ^ ((numerator.log2 : Int) - denominator.log2 + 1) := by
  have denominatorPositive : (0 : ℚ) < denominator := by exact_mod_cast positive
  have numeratorLow : (2 : ℚ) ^ numerator.log2 ≤ numerator := by
    exact_mod_cast Nat.log2_self_le present.ne'
  have numeratorHigh : (numerator : ℚ) < 2 ^ (numerator.log2 + 1) := by
    exact_mod_cast Nat.lt_log2_self
  have denominatorLow : (2 : ℚ) ^ denominator.log2 ≤ denominator := by
    exact_mod_cast Nat.log2_self_le positive.ne'
  have denominatorHigh : (denominator : ℚ) ≤ 2 ^ (denominator.log2 + 1) := by
    exact_mod_cast Nat.lt_log2_self.le
  constructor
  · calc (2 : ℚ) ^ ((numerator.log2 : Int) - denominator.log2 - 1)
        = 2 ^ numerator.log2 / 2 ^ (denominator.log2 + 1) := by
          simp only [← zpow_natCast, ← zpow_sub₀ (two_ne_zero' ℚ)]
          congr 1
          omega
      _ ≤ numerator / denominator :=
          div_le_div₀ (by positivity) numeratorLow denominatorPositive denominatorHigh
  · calc (numerator : ℚ) / denominator
        < 2 ^ (numerator.log2 + 1) / 2 ^ denominator.log2 :=
          div_lt_div₀ numeratorHigh denominatorLow (by positivity) (by positivity)
      _ = 2 ^ ((numerator.log2 : Int) - denominator.log2 + 1) := by
          simp only [← zpow_natCast, ← zpow_sub₀ (two_ne_zero' ℚ)]
          congr 1
          omega

/-- The exponent is the least one, or the one at which the fraction has 53 digits. -/
theorem exponent_of_spec {numerator denominator : Nat} (present : 0 < numerator)
    (positive : 0 < denominator) :
    ∃ exact : Int, exponentOf numerator denominator = max leastExponent exact ∧
      2 ^ (52 + exact) ≤ (numerator : ℚ) / denominator ∧
      (numerator : ℚ) / denominator < 2 ^ (53 + exact) := by
  obtain ⟨below, above⟩ := fraction_log_bounds present positive
  obtain ⟨guess, start⟩ : ∃ guess : Int,
      guess = (numerator.log2 : Int) - denominator.log2 - 52 := ⟨_, rfl⟩
  have test : numerator * (powerOfTwo guess).2 < denominator * (powerOfTwo guess).1 * Nat.pow 2 52 ↔
      (numerator : ℚ) / denominator < 2 ^ (52 + guess) := by
    have unitPositive : (0 : ℚ) < (denominator * (powerOfTwo guess).1 : Nat) := by
      exact_mod_cast Nat.mul_pos positive (power_of_two_positive guess).1
    have power : (2 : ℚ) ^ (52 + guess) = 2 ^ 52 * 2 ^ guess := (two_zpow_mul 52 guess).symm
    rw [power, ← div_lt_iff₀ (by positivity), ← scaled_fraction, div_lt_iff₀ unitPositive,
      Nat.pow_eq, mul_comm _ (2 ^ 52)]
    exact_mod_cast Iff.rfl
  rw [exponentOf, ← start]
  simp only [test]
  split
  · rename_i small
    refine ⟨guess - 1, rfl, ?_, ?_⟩
    · rwa [show 52 + (guess - 1) = (numerator.log2 : Int) - denominator.log2 - 1 by omega]
    · rwa [show 53 + (guess - 1) = 52 + guess by omega]
  · rename_i large
    refine ⟨guess, rfl, not_lt.mp large, ?_⟩
    rwa [show 53 + guess = (numerator.log2 : Int) - denominator.log2 + 1 by omega]

/-- Finite numbers with a significand of 53 binary digits, or of fewer at the least exponent. -/
def IsStandard : Binary64 → Prop
  | finite _ significand exponent => significand < 2 ^ 53 ∧ leastExponent ≤ exponent ∧
      exponent ≤ greatestExponent ∧ (2 ^ 52 ≤ significand ∨ exponent = leastExponent)
  | _ => False

/-- Numbers stand closer together below a power of two than above it. -/
def IsLowest (significand : Nat) (exponent : Int) : Prop :=
  significand = 2 ^ 52 ∧ leastExponent < exponent

instance (significand : Nat) (exponent : Int) : Decidable (IsLowest significand exponent) :=
  inferInstanceAs (Decidable (_ ∧ _))

/-- The fractions nearest to a number, counted in units of its last digit. The ends
belong to a number with an even significand. -/
structure IsNear (significand : Nat) (exponent : Int) (units : ℚ) : Prop where
  low : (significand : ℚ) - (if IsLowest significand exponent then 1 / 4 else 1 / 2) ≤ units
  high : units ≤ significand + 1 / 2
  tie : significand % 2 = 0 ∨
    (significand : ℚ) - (if IsLowest significand exponent then 1 / 4 else 1 / 2) < units ∧
      units < significand + 1 / 2

theorem IsNear.low_half {significand : Nat} {exponent : Int} {units : ℚ}
    (near : IsNear significand exponent units) : (significand : ℚ) - 1 / 2 ≤ units := by
  have low := near.low
  split at low <;> linarith

/-- The exponent of a number and of the fractions near to it is the same, unless
the fraction lies below a power of two and the number is that power. -/
theorem exponent_of_near {negative : Bool} {significand numerator denominator : Nat}
    {exponent : Int} (standard : IsStandard (finite negative significand exponent))
    (present : 0 < numerator) (positive : 0 < denominator)
    (near : IsNear significand exponent ((numerator : ℚ) / denominator / 2 ^ exponent)) :
    exponentOf numerator denominator = exponent ∨
      IsLowest significand exponent ∧ exponentOf numerator denominator = exponent - 1 ∧
        (numerator : ℚ) / denominator / 2 ^ exponent < 2 ^ 52 := by
  obtain ⟨short, least, -, full⟩ := standard
  obtain ⟨exact, same, low, high⟩ := exponent_of_spec present positive
  have nearLow := near.low_half
  have nearHigh := near.high
  rw [same]
  generalize (numerator : ℚ) / denominator = value at *
  have power : (0 : ℚ) < 2 ^ exponent := by positivity
  have notAbove : exact ≤ exponent := by
    have bound : (significand : ℚ) + 1 ≤ 2 ^ 53 := by exact_mod_cast short
    have below : value / 2 ^ exponent < 2 ^ 53 := by linarith
    rw [div_lt_iff₀ power, two_zpow_mul] at below
    have := exponent_lt low below
    omega
  obtain fullUnits | lowUnits := le_or_gt (2 ^ 52) (value / 2 ^ exponent)
  · left
    rw [le_div_iff₀ power, two_zpow_mul] at fullUnits
    have := exponent_lt fullUnits high
    omega
  obtain atLeast | aboveLeast := eq_or_lt_of_le least
  · left
    omega
  right
  have digits : 2 ^ 52 ≤ significand := full.resolve_right aboveLeast.ne'
  have digitsLow : (2 : ℚ) ^ 52 ≤ significand := by exact_mod_cast digits
  have lowest : significand = 2 ^ 52 := by
    have bound : (significand : ℚ) < 2 ^ 52 + 1 := by linarith
    have : significand < 2 ^ 52 + 1 := by exact_mod_cast bound
    omega
  have notSame : exact < exponent := by
    have below := lowUnits
    rw [div_lt_iff₀ power, two_zpow_mul] at below
    have := exponent_lt low below
    omega
  have notFar : exponent - 1 ≤ exact := by
    have above : (2 : ℚ) ^ 51 ≤ value / 2 ^ exponent := by linarith
    rw [le_div_iff₀ power, two_zpow_mul] at above
    have := exponent_lt above high
    omega
  exact ⟨⟨lowest, aboveLeast⟩, by omega, lowUnits⟩

theorem scaled_of_near {numerator denominator value : Nat} {exponent : Int}
    (positive : 0 < denominator)
    (low : (value : ℚ) - 1 / 2 ≤ numerator / denominator / 2 ^ exponent)
    (high : (numerator : ℚ) / denominator / 2 ^ exponent ≤ value + 1 / 2)
    (tie : value % 2 = 0 ∨ ((value : ℚ) - 1 / 2 < numerator / denominator / 2 ^ exponent ∧
      (numerator : ℚ) / denominator / 2 ^ exponent < value + 1 / 2)) :
    scaled numerator denominator exponent = value := by
  rw [← scaled_fraction] at low high tie
  exact round_half_even_of_near (Nat.mul_pos positive (power_of_two_positive exponent).1) low high tie

section

variable {negative : Bool} {numerator denominator significand : Nat} {exponent : Int}

theorem of_fraction_of_short (present : 0 < numerator)
    (found : exponentOf numerator denominator = exponent)
    (rounded : scaled numerator denominator exponent = significand) (short : significand ≠ Nat.pow 2 53)
    (inRange : ¬greatestExponent < exponent) :
    ofFraction negative numerator denominator = finite negative significand exponent := by
  unfold ofFraction
  -- the large bound is kept closed, or the test against it is evaluated
  generalize Nat.pow 2 53 = full at short ⊢
  rw [if_neg present.ne', found]
  simp only [rounded, if_neg short, if_neg inRange]

theorem of_fraction_of_carry (present : 0 < numerator)
    (found : exponentOf numerator denominator = exponent - 1)
    (rounded : scaled numerator denominator (exponent - 1) = Nat.pow 2 53)
    (carried : Nat.pow 2 52 = significand) (inRange : ¬greatestExponent < exponent) :
    ofFraction negative numerator denominator = finite negative significand exponent := by
  unfold ofFraction
  generalize Nat.pow 2 53 = full at rounded ⊢
  rw [if_neg present.ne', found]
  simp only [rounded, if_true, sub_add_cancel, carried, if_neg inRange]

theorem of_fraction_eq (standard : IsStandard (finite negative significand exponent))
    (present : 0 < numerator) (positive : 0 < denominator)
    (near : IsNear significand exponent ((numerator : ℚ) / denominator / 2 ^ exponent)) :
    ofFraction negative numerator denominator = finite negative significand exponent := by
  have inRange : ¬greatestExponent < exponent := not_lt.mpr standard.2.2.1
  obtain same | ⟨lowest, before, small⟩ := exponent_of_near standard present positive near
  · refine of_fraction_of_short present same (scaled_of_near positive near.low_half near.high ?_)
      standard.1.ne inRange
    by_cases lowest : IsLowest significand exponent
    · left
      rw [lowest.1]
      decide
    · simpa only [if_neg lowest] using near.tie
  · -- just below a power of two the digits round up to the next power
    have double : (numerator : ℚ) / denominator / 2 ^ (exponent - 1) =
        2 * (numerator / denominator / 2 ^ exponent) := by
      rw [← sub_add_cancel exponent 1, two_zpow_succ, add_sub_cancel_right]
      field_simp
    have low := near.low
    rw [if_pos lowest, lowest.1] at low
    push_cast at low
    refine of_fraction_of_carry present before ?_ lowest.1.symm inRange
    refine scaled_of_near positive ?_ ?_ (.inl (by norm_num)) <;> rw [double, Nat.pow_eq] <;>
      push_cast <;> linarith

/-! ### Whole numbers -/

theorem round_half_even_between {numerator denominator low high : Nat} (positive : 0 < denominator)
    (above : low * denominator ≤ numerator) (below : numerator ≤ high * denominator) :
    low ≤ roundHalfEven numerator denominator ∧ roundHalfEven numerator denominator ≤ high := by
  have quotientLow : low ≤ numerator / denominator := (Nat.le_div_iff_mul_le positive).mpr above
  have quotientHigh : numerator / denominator ≤ high :=
    Nat.div_le_of_le_mul (by rwa [mul_comm] at below)
  have split := Nat.div_add_mod numerator denominator
  simp only [roundHalfEven]
  obtain less | last := Nat.lt_or_eq_of_le quotientHigh
  · split_ifs <;> omega
  · -- at the upper bound nothing is left to round up
    have exact : numerator % denominator = 0 := by
      rw [last, mul_comm] at split
      omega
    rw [exact, if_pos (by omega)]
    exact ⟨quotientLow, quotientHigh⟩

theorem scaled_between (low high : Nat) (positive : 0 < denominator)
    (above : (low : ℚ) * 2 ^ exponent ≤ numerator / denominator)
    (below : (numerator : ℚ) / denominator ≤ high * 2 ^ exponent) :
    low ≤ scaled numerator denominator exponent ∧ scaled numerator denominator exponent ≤ high := by
  have power : (0 : ℚ) < 2 ^ exponent := by positivity
  have unit := Nat.mul_pos positive (power_of_two_positive exponent).1
  have unitPositive : (0 : ℚ) < (denominator * (powerOfTwo exponent).1 : Nat) := by
    exact_mod_cast unit
  rw [← le_div_iff₀ power, ← scaled_fraction, le_div_iff₀ unitPositive] at above
  rw [← div_le_iff₀ power, ← scaled_fraction, div_le_iff₀ unitPositive] at below
  exact round_half_even_between unit (by exact_mod_cast above) (by exact_mod_cast below)

/-- Rounding has a finite result, unless the fraction is too large. -/
theorem of_fraction_standard (present : 0 < numerator) (positive : 0 < denominator)
    (inRange : exponentOf numerator denominator < greatestExponent) :
    IsStandard (ofFraction negative numerator denominator) := by
  obtain ⟨exact, found, low, high⟩ := exponent_of_spec present positive
  obtain ⟨exponent, same⟩ : ∃ exponent, exponentOf numerator denominator = exponent := ⟨_, rfl⟩
  rw [same] at found inRange
  have least : leastExponent ≤ exponent := by omega
  have below : (numerator : ℚ) / denominator ≤ ((2 ^ 53 : Nat) : ℚ) * 2 ^ exponent := by
    rw [Nat.cast_pow, Nat.cast_ofNat, two_zpow_mul]
    exact high.le.trans (zpow_le_zpow_right₀ one_le_two (by omega))
  have short := (scaled_between 0 (2 ^ 53) positive (by simp; positivity) below).2
  by_cases carry : scaled numerator denominator exponent = Nat.pow 2 53
  · have next : exponentOf numerator denominator = exponent + 1 - 1 := by omega
    have rounded : scaled numerator denominator (exponent + 1 - 1) = Nat.pow 2 53 := by
      rw [add_sub_cancel_right, carry]
    rw [of_fraction_of_carry present next rounded rfl (by omega)]
    exact ⟨by norm_num, by omega, by omega, .inl (by norm_num)⟩
  · rw [of_fraction_of_short present same rfl carry (by omega)]
    refine ⟨lt_of_le_of_ne short carry, least, inRange.le, ?_⟩
    obtain full | atLeast := (by omega : exact = exponent ∨ exponent = leastExponent)
    · left
      subst full
      have above : ((2 ^ 52 : Nat) : ℚ) * 2 ^ exact ≤ numerator / denominator := by
        rwa [Nat.cast_pow, Nat.cast_ofNat, two_zpow_mul]
      exact (scaled_between (2 ^ 52) (2 ^ 53) positive above below).1
    · exact .inr atLeast

/-- Every whole number below the greatest significand is a finite number. -/
theorem standard_of_integer (negative : Bool) {value : Nat} (small : value < 2 ^ 53) :
    IsStandard (ofFraction negative value 1) := by
  obtain zero | present := Nat.eq_zero_or_pos value
  · subst zero
    exact ⟨by decide, Int.le_refl _, by decide, .inr rfl⟩
  · apply of_fraction_standard present one_pos
    obtain ⟨exact, found, low, -⟩ := exponent_of_spec present one_pos
    have bound : (value : ℚ) / (1 : Nat) < 2 ^ (53 : Int) := by
      rw [Nat.cast_one, div_one]
      exact_mod_cast small
    have whole := exponent_lt low bound
    rw [found]
    unfold leastExponent greatestExponent
    omega

end

end LessonBook.Binary64
