import LessonBook.Number.Shortest
import LessonBook.Proofs.Number.Rounding
import LessonBook.Proofs.Text.Digits

/-!
The search for the fewest digits. Seventeen digits always suffice, so what the
search finds lies among the fractions that are rounded to the number.
-/

namespace LessonBook.Binary64

theorem power_of_ten_eq (scale : Int) :
    ((Nat.pow 10 scale.toNat : Nat) : ℚ) / (Nat.pow 10 (-scale).toNat : Nat) = 10 ^ scale :=
  power_as_fraction 10 scale

namespace Neighbourhood

variable {around : Neighbourhood}

def point (around : Neighbourhood) (digits : Nat) (scale : Int) : ℚ :=
  digits * 10 ^ scale * around.denominator

theorem point_eq (digits : Nat) (scale : Int) :
    around.point digits scale =
      ((digits * Nat.pow 10 scale.toNat * around.denominator : Nat) : ℚ) /
        (Nat.pow 10 (-scale).toNat : Nat) := by
  rw [point, ← power_of_ten_eq]
  push_cast
  ring

theorem contains_iff (digits : Nat) (scale : Int) :
    around.contains digits scale = true ↔
      if around.closed then
        around.low ≤ around.point digits scale ∧ around.point digits scale ≤ around.high
      else around.low < around.point digits scale ∧ around.point digits scale < around.high := by
  have positive : (0 : ℚ) < (Nat.pow 10 (-scale).toNat : Nat) := by
    exact_mod_cast Nat.pow_pos (by decide)
  simp only [point_eq, le_div_iff₀ positive, div_le_iff₀ positive, lt_div_iff₀ positive,
    div_lt_iff₀ positive]
  unfold contains
  split <;> simp only [Bool.and_eq_true, decide_eq_true_eq] <;> norm_cast

/-- The value lies between two neighbouring points of the grid. -/
theorem value_between (positive : 0 < around.denominator) (scale : Int) :
    around.point (around.units scale).1 scale ≤ around.value ∧
      around.value < around.point ((around.units scale).1 + 1) scale := by
  have shiftPositive : (0 : ℚ) < (Nat.pow 10 (-scale).toNat : Nat) := by
    exact_mod_cast Nat.pow_pos (by decide)
  have unitPositive : 0 < around.denominator * Nat.pow 10 scale.toNat :=
    Nat.mul_pos positive (Nat.pow_pos (by decide))
  have low := Nat.div_mul_le_self (around.value * Nat.pow 10 (-scale).toNat)
    (around.denominator * Nat.pow 10 scale.toNat)
  have high := Nat.lt_mul_div_succ (around.value * Nat.pow 10 (-scale).toNat) unitPositive
  rw [point_eq, point_eq, div_le_iff₀ shiftPositive, lt_div_iff₀ shiftPositive]
  norm_cast
  simp only [units]
  constructor
  · rw [mul_assoc, mul_comm (Nat.pow 10 scale.toNat)]
    exact low
  · rw [mul_assoc, mul_comm (Nat.pow 10 scale.toNat), mul_comm (_ / _ + 1)]
    exact high

theorem contains_of_on_grid {scale : Int} {digits : Nat}
    (found : around.onGrid? scale = some digits) : around.contains digits scale = true := by
  unfold onGrid? at found
  generalize around.units scale = counted at found
  obtain ⟨below, half⟩ := counted
  dsimp only at found
  split at found
  · cases half with
    | lt | gt =>
        cases found
        assumption
    | eq =>
        cases found
        split <;> assumption
  · cases found
    assumption
  · cases found
    assumption
  · cases found

theorem point_le_low {digits : Nat} {scale : Int} (inside : around.value < around.high)
    (below : around.point digits scale ≤ around.value)
    (missed : around.contains digits scale ≠ true) : around.point digits scale ≤ around.low := by
  by_contra above
  have high : around.point digits scale < around.high := lt_of_le_of_lt below (by exact_mod_cast inside)
  rw [ne_eq, contains_iff] at missed
  split at missed
  · exact missed ⟨(not_le.mp above).le, high.le⟩
  · exact missed ⟨not_le.mp above, high⟩

theorem high_le_point {digits : Nat} {scale : Int} (inside : around.low < around.value)
    (above : around.value < around.point digits scale)
    (missed : around.contains digits scale ≠ true) : around.high ≤ around.point digits scale := by
  by_contra below
  have low : around.low < around.point digits scale := lt_trans (by exact_mod_cast inside) above
  rw [ne_eq, contains_iff] at missed
  split at missed
  · exact missed ⟨low.le, (not_le.mp below).le⟩
  · exact missed ⟨low, not_le.mp below⟩

theorem on_grid_of_wide {scale : Int} (positive : 0 < around.denominator)
    (inside : around.low < around.value ∧ around.value < around.high)
    (wide : around.point 1 scale < around.high - around.low) :
    ∃ digits, around.onGrid? scale = some digits := by
  obtain ⟨low, high⟩ := value_between positive scale
  have next : around.point ((around.units scale).1 + 1) scale =
      around.point (around.units scale).1 scale + around.point 1 scale := by
    simp only [point]
    push_cast
    ring
  unfold onGrid?
  generalize around.units scale = counted at *
  obtain ⟨below, half⟩ := counted
  dsimp only at *
  split
  · cases half <;> exact ⟨_, rfl⟩
  · exact ⟨_, rfl⟩
  · exact ⟨_, rfl⟩
  · rename_i missedBelow missedAbove
    have lowEnd := point_le_low inside.2 low (by rw [missedBelow]; decide)
    have highEnd := high_le_point inside.1 high (by rw [missedAbove]; decide)
    linarith

theorem shortest_contains {scale : Int} {count : Nat}
    (last : ∃ digits, around.onGrid? (scale - count) = some digits) :
    around.contains (around.shortest scale (count + 1)).1
      (around.shortest scale (count + 1)).2 = true := by
  induction count generalizing scale with
  | zero =>
      obtain ⟨digits, found⟩ := last
      rw [Nat.cast_zero, sub_zero] at found
      simp only [shortest, found]
      exact contains_of_on_grid found
  | succ count induction =>
      rw [shortest]
      cases found : around.onGrid? scale with
      | some digits => exact contains_of_on_grid found
      | none =>
          apply induction
          rwa [show scale - 1 - count = scale - (count + 1 : Nat) by omega]

/-- A value has a digit other than zero in front of the place where its digits
begin to count. -/
theorem point_of_places (positive : 0 < around.denominator)
    (visible : ∃ count < 400, around.denominator ≤ around.value * Nat.pow 10 (count + 1)) :
    around.point 1 (around.places - 1) ≤ around.value := by
  obtain ⟨whole, wholeEq⟩ : ∃ whole, whole = around.value / around.denominator := ⟨_, rfl⟩
  unfold places point
  rw [← wholeEq]
  dsimp only
  rw [Nat.cast_one, one_mul]
  split
  · rename_i present
    have digits := Text.power_length_le_of_nat present
    have size : (10 : ℚ) ^ (((Nat.toDigits 10 whole).length : Int) - 1) =
        (10 ^ ((Nat.toDigits 10 whole).length - 1) : Nat) := by
      have nonempty := Nat.length_toDigits_pos (b := 10) (n := whole)
      rw [← Nat.cast_one, ← Nat.cast_sub (by omega), zpow_natCast]
      push_cast
      rfl
    rw [size]
    have bound : 10 ^ ((Nat.toDigits 10 whole).length - 1) * around.denominator ≤ around.value := by
      rw [wholeEq] at digits ⊢
      exact (Nat.le_div_iff_mul_le positive).mp digits
    exact_mod_cast bound
  · have within : (List.range 400).findIdx (fun count =>
        around.denominator ≤ around.value * Nat.pow 10 (count + 1)) < (List.range 400).length :=
      List.findIdx_lt_length_of_exists
        (visible.imp fun _ enough => ⟨List.mem_range.mpr enough.1, decide_eq_true enough.2⟩)
    have reached := List.findIdx_getElem (w := within)
    rw [List.getElem_range] at reached
    generalize (List.range 400).findIdx _ = index at reached ⊢
    have negated : Int.neg index - 1 = -((index + 1 : Nat) : Int) := by
      change -(index : Int) - 1 = _
      omega
    rw [negated, zpow_neg, zpow_natCast, inv_mul_le_iff₀ (by positivity), mul_comm]
    exact_mod_cast of_decide_eq_true reached

end Neighbourhood

/-! ### The interval of a number -/

theorem two_power_le_ten_power (count : Nat) : 2 ^ (3 * count) ≤ 10 ^ count := by
  rw [pow_mul]
  exact Nat.pow_le_pow_left (by decide) count

theorem two_zpow_le_ten_zpow (count : Nat) : (2 : ℚ) ^ (3 * count : Int) ≤ 10 ^ (count : Int) := by
  exact_mod_cast two_power_le_ten_power count

section

variable {negative : Bool} {significand : Nat} {exponent : Int}

theorem neighbourhood_inside (present : 0 < significand) :
    (neighbourhood significand exponent).low < (neighbourhood significand exponent).value ∧
      (neighbourhood significand exponent).value < (neighbourhood significand exponent).high := by
  obtain ⟨up, -⟩ := power_of_two_positive (exponent - 2)
  constructor
  · apply Nat.mul_lt_mul_of_pos_right _ up
    split <;> omega
  · exact Nat.mul_lt_mul_of_pos_right (by omega) up

theorem neighbourhood_visible (present : 0 < significand) (least : leastExponent ≤ exponent) :
    ∃ count < 400, (neighbourhood significand exponent).denominator ≤
      (neighbourhood significand exponent).value * Nat.pow 10 (count + 1) := by
  obtain ⟨up, -⟩ := power_of_two_positive (exponent - 2)
  have value : 0 < (neighbourhood significand exponent).value := Nat.mul_pos (by omega) up
  have small (count : Nat) (enough : 1076 ≤ 3 * (count + 1)) :
      (neighbourhood significand exponent).denominator ≤
        (neighbourhood significand exponent).value * Nat.pow 10 (count + 1) :=
    calc (neighbourhood significand exponent).denominator
        = 2 ^ (-(exponent - 2)).toNat := rfl
      _ ≤ 2 ^ (3 * (count + 1)) := Nat.pow_le_pow_right (by decide) (by
          unfold leastExponent at least
          omega)
      _ ≤ 10 ^ (count + 1) := two_power_le_ten_power (count + 1)
      _ ≤ _ := Nat.le_mul_of_pos_left _ value
  exact ⟨359, by decide, small 359 (by decide)⟩

/-- The bounds of the interval, counted in quarters of the last digit. -/
theorem neighbourhood_eq (exponent : Int) (present : 0 < significand) :
    ((neighbourhood significand exponent).low : ℚ) =
        (4 * significand - if IsLowest significand exponent then 1 else 2) *
          (powerOfTwo (exponent - 2)).1 ∧
      ((neighbourhood significand exponent).value : ℚ) =
        4 * significand * (powerOfTwo (exponent - 2)).1 ∧
      ((neighbourhood significand exponent).high : ℚ) =
        (4 * significand + 2) * (powerOfTwo (exponent - 2)).1 := by
  simp only [neighbourhood, Bool.and_eq_true, decide_eq_true_eq, Nat.pow_eq]
  refine ⟨?_, by push_cast; rfl, by push_cast; rfl⟩
  by_cases lowest : significand = 2 ^ 52 ∧ leastExponent < exponent
  · rw [if_pos lowest, if_pos (show IsLowest significand exponent from lowest), Nat.cast_mul,
      Nat.cast_sub (by omega)]
    push_cast
    rfl
  · rw [if_neg lowest, if_neg (show ¬IsLowest significand exponent from lowest), Nat.cast_mul,
      Nat.cast_sub (by omega)]
    push_cast
    rfl

/-- Seventeen digits single out a number. -/
theorem shortest_digits_inside (standard : IsStandard (finite negative significand exponent))
    (present : 0 < significand) :
    (neighbourhood significand exponent).contains
      ((neighbourhood significand exponent).shortest
        ((neighbourhood significand exponent).places - 1) 17).1
      ((neighbourhood significand exponent).shortest
        ((neighbourhood significand exponent).places - 1) 17).2 = true := by
  have up := (power_of_two_positive (exponent - 2)).1
  have positive : 0 < (neighbourhood significand exponent).denominator :=
    (power_of_two_positive (exponent - 2)).2
  obtain ⟨low, value, high⟩ := neighbourhood_eq exponent present
  have first := Neighbourhood.point_of_places positive
    (neighbourhood_visible present standard.2.1)
  apply Neighbourhood.shortest_contains
  apply Neighbourhood.on_grid_of_wide positive (neighbourhood_inside present)
  generalize (neighbourhood significand exponent).places - 1 = scale at first ⊢
  have finer : (neighbourhood significand exponent).point 1 scale =
      10 ^ 16 * (neighbourhood significand exponent).point 1 (scale - (16 : Nat)) := by
    simp only [Neighbourhood.point]
    rw [zpow_sub₀ (by norm_num), zpow_natCast]
    field_simp
  have unit : (0 : ℚ) < (powerOfTwo (exponent - 2)).1 := by exact_mod_cast up
  rw [finer, value] at first
  rw [low, high]
  split
  · rename_i lowest
    have power : (significand : ℚ) = 2 ^ 52 := by exact_mod_cast lowest.1
    rw [power] at first ⊢
    linarith
  · have short : (significand : ℚ) ≤ 2 ^ 53 := by exact_mod_cast standard.1.le
    have bound := mul_le_mul_of_nonneg_right short unit.le
    linarith

/-- What lies in the interval is rounded to the number. -/
theorem near_of_contains {digits : Nat} {scale : Int} (present : 0 < significand)
    (inside : (neighbourhood significand exponent).contains digits scale = true) :
    IsNear significand exponent (digits * 10 ^ scale / 2 ^ exponent) := by
  obtain ⟨up, positive⟩ := power_of_two_positive (exponent - 2)
  obtain ⟨low, -, high⟩ := neighbourhood_eq exponent present
  have unit : (0 : ℚ) < (powerOfTwo (exponent - 2)).1 := by exact_mod_cast up
  have base : (0 : ℚ) < (powerOfTwo (exponent - 2)).2 := by exact_mod_cast positive
  rw [Neighbourhood.contains_iff, low, high, ← le_div_iff₀ unit, ← div_le_iff₀ unit,
    ← lt_div_iff₀ unit, ← div_lt_iff₀ unit] at inside
  obtain ⟨quarters, counted⟩ : ∃ quarters : ℚ, quarters =
      (neighbourhood significand exponent).point digits scale / (powerOfTwo (exponent - 2)).1 :=
    ⟨_, rfl⟩
  have units : (digits : ℚ) * 10 ^ scale / 2 ^ exponent = quarters / 4 := by
    have quarter : (2 : ℚ) ^ exponent = 4 * 2 ^ (exponent - 2) := by
      rw [show exponent = exponent - 2 + 1 + 1 by ring, two_zpow_succ, two_zpow_succ]
      ring_nf
    rw [counted, quarter, ← power_of_two_eq]
    change _ = (digits : ℚ) * 10 ^ scale * (powerOfTwo (exponent - 2)).2 / _ / 4
    field_simp
  rw [units]
  rw [← counted] at inside
  have parity : (neighbourhood significand exponent).closed = true ↔ significand % 2 = 0 :=
    beq_iff_eq
  have ends : (4 * (significand : ℚ) - if IsLowest significand exponent then 1 else 2) / 4 =
      significand - if IsLowest significand exponent then 1 / 4 else 1 / 2 := by
    split <;> ring
  by_cases even : significand % 2 = 0
  · rw [if_pos (parity.mpr even)] at inside
    exact ⟨by linarith, by linarith, .inl even⟩
  · rw [if_neg (mt parity.mp even)] at inside
    exact ⟨by linarith, by linarith, .inr ⟨by linarith, by linarith⟩⟩

end

end LessonBook.Binary64
