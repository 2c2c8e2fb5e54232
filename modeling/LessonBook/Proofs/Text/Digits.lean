import Mathlib.Data.List.TakeWhile
import Mathlib.Tactic.Ring
import LessonBook.Proofs.Text.Trim

/-!
Runs of decimal digits: what they count, and where a run ends.
-/

namespace LessonBook.Text

def AllDigits (digits : Text) : Prop := ∀ c ∈ digits, c.isDigit = true

theorem all_digits_append {front back : Text} :
    AllDigits (front ++ back) ↔ AllDigits front ∧ AllDigits back :=
  List.forall_mem_append

theorem all_digits_of_nat (value : Nat) : AllDigits (ofNat value) :=
  fun _ member => Nat.isDigit_of_mem_toDigits (by decide) (by decide) member

theorem all_digits_zeros (count : Nat) : AllDigits (List.replicate count '0') := by
  intro c member
  rw [List.eq_of_mem_replicate member]
  rfl

/-! ### The number that digits spell -/

theorem digits_value_eq (digits : Text) : digitsValue digits = Nat.ofDigitChars 10 digits 0 := rfl

@[simp] theorem digits_value_nil : digitsValue [] = 0 := rfl

theorem digits_value_append (front back : Text) :
    digitsValue (front ++ back) = 10 ^ back.length * digitsValue front + digitsValue back := by
  rw [digits_value_eq, Nat.ofDigitChars_append, Nat.ofDigitChars_eq_ofDigitChars_zero]
  rfl

@[simp] theorem digits_value_of_nat (value : Nat) : digitsValue (ofNat value) = value :=
  Nat.ofDigitChars_ten_toDigits

@[simp] theorem digits_value_zeros (count : Nat) : digitsValue (List.replicate count '0') = 0 := by
  rw [digits_value_eq, Nat.ofDigitChars_replicate_zero, mul_zero]

theorem digits_value_cons (c : Char) (digits : Text) :
    digitsValue (c :: digits) = 10 ^ digits.length * (c.toNat - 48) + digitsValue digits := by
  rw [← List.singleton_append, digits_value_append]
  simp [digitsValue]

theorem digits_value_drop_zeros (digits : Text) :
    digitsValue (digits.dropWhile (· == '0')) = digitsValue digits := by
  induction digits with
  | nil => rfl
  | cons c digits induction =>
      rw [List.dropWhile_cons]
      split
      · rename_i zero
        rw [beq_iff_eq.mp zero, induction, digits_value_cons]
        simp
      · rfl

theorem digit_bounds {c : Char} (digit : c.isDigit = true) : 48 ≤ c.toNat ∧ c.toNat ≤ 57 := by
  simpa [Char.isDigit, UInt32.le_iff_toNat_le] using digit

theorem digits_value_lt {digits : Text} (spelled : AllDigits digits) :
    digitsValue digits < 10 ^ digits.length := by
  induction digits with
  | nil => decide
  | cons c digits induction =>
      obtain ⟨digit, spelled⟩ := List.forall_mem_cons.mp spelled
      have bounds := digit_bounds digit
      have rest := induction spelled
      rw [digits_value_cons, List.length_cons, pow_succ]
      have first : 10 ^ digits.length * (c.toNat - 48) ≤ 10 ^ digits.length * 9 :=
        Nat.mul_le_mul_left _ (by omega)
      omega

/-- Digits without a zero in front are as large as their number says. -/
theorem le_digits_value {c : Char} {digits : Text} (digit : c.isDigit = true) (first : c ≠ '0') :
    10 ^ digits.length ≤ digitsValue (c :: digits) := by
  have bounds := digit_bounds digit
  have present : 1 ≤ c.toNat - 48 := by
    have other : c.toNat ≠ 48 := fun zero => first (Char.toNat_inj.mp zero)
    omega
  rw [digits_value_cons]
  exact (Nat.le_mul_of_pos_right _ present).trans (Nat.le_add_right _ _)

theorem power_length_le_of_nat {value : Nat} (present : 0 < value) :
    10 ^ ((ofNat value).length - 1) ≤ value := by
  obtain one | more := Nat.eq_zero_or_pos ((ofNat value).length - 1)
  · rw [one]
    exact present
  · have long : ¬(ofNat value).length ≤ (ofNat value).length - 1 := by omega
    unfold ofNat at long more
    rw [Nat.length_toDigits_le_iff (by decide) more] at long
    exact not_lt.mp long

/-- The digits of a number begin with a zero for the number zero only. -/
theorem of_nat_first {value : Nat} (present : 0 < value) :
    ∃ c more, ofNat value = c :: more ∧ c ≠ '0' := by
  cases spelling : ofNat value with
  | nil => exact absurd spelling Nat.toDigits_ne_nil
  | cons c more =>
      refine ⟨c, more, rfl, ?_⟩
      rintro rfl
      have large := power_length_le_of_nat present
      have small : digitsValue more < 10 ^ more.length := by
        apply digits_value_lt
        have spelled := all_digits_of_nat value
        rw [spelling] at spelled
        exact (List.forall_mem_cons.mp spelled).2
      have value_eq := digits_value_of_nat value
      rw [spelling] at large value_eq
      rw [digits_value_cons] at value_eq
      simp at large value_eq
      omega

theorem digits_value_drop_end_zeros (digits : Text) :
    ∃ count, dropEndWhile (· == '0') digits ++ List.replicate count '0' = digits ∧
      digitsValue digits = 10 ^ count * digitsValue (dropEndWhile (· == '0') digits) := by
  obtain ⟨back, whole, zeros⟩ := drop_end_while_split (· == '0') digits
  have same : back = List.replicate back.length '0' :=
    List.eq_replicate_of_mem fun c member => beq_iff_eq.mp (zeros c member)
  refine ⟨back.length, by rw [← same, whole], ?_⟩
  have value := digits_value_append (dropEndWhile (· == '0') digits) back
  rwa [whole, same, digits_value_zeros, List.length_replicate, Nat.add_zero] at value

/-- What is left of the digits of a number without the zeros at their end. -/
theorem of_nat_drop_end_zeros {value : Nat} (present : 0 < value) :
    ∃ c more count, dropEndWhile (· == '0') (ofNat value) = c :: more ∧ c ≠ '0' ∧
      AllDigits (c :: more) ∧ (ofNat value).length = (c :: more).length + count ∧
      value = 10 ^ count * digitsValue (c :: more) := by
  obtain ⟨count, whole, counted⟩ := digits_value_drop_end_zeros (ofNat value)
  have spelled : AllDigits (dropEndWhile (· == '0') (ofNat value)) := fun d member =>
    all_digits_of_nat value d ((drop_end_while_begins _ _).subset member)
  obtain ⟨c, rest, front, notZero⟩ := of_nat_first present
  rw [digits_value_of_nat] at counted
  cases kept : dropEndWhile (· == '0') (ofNat value) with
  | nil =>
      rw [kept, digits_value_nil, Nat.mul_zero] at counted
      exact absurd counted present.ne'
  | cons d more =>
      rw [kept] at whole counted spelled
      have size := congrArg List.length whole
      rw [List.length_append, List.length_replicate] at size
      have same : d = c := (List.cons.inj (whole.trans front)).1
      exact ⟨d, more, count, rfl, same ▸ notZero, spelled, size.symm, counted⟩

/-! ### The end of a run -/

def StopsDigits (rest : Text) : Prop := ∀ c ∈ rest.head?, c.isDigit = false

theorem stops_digits_cons {c : Char} (other : c.isDigit = false) (rest : Text) :
    StopsDigits (c :: rest) := by
  rintro d ⟨⟩
  exact other

theorem take_digits {digits rest : Text} (spelled : AllDigits digits) (stops : StopsDigits rest) :
    (digits ++ rest).takeWhile Char.isDigit = digits := by
  rw [List.takeWhile_append_of_pos spelled]
  cases rest with
  | nil => simp
  | cons c rest => simp [stops c rfl]

theorem drop_digits {digits rest : Text} (spelled : AllDigits digits) (stops : StopsDigits rest) :
    (digits ++ rest).dropWhile Char.isDigit = rest := by
  rw [List.dropWhile_append_of_pos spelled]
  cases rest with
  | nil => rfl
  | cons c rest => simp [stops c rfl]

end LessonBook.Text
