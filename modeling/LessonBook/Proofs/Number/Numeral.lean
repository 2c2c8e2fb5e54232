import LessonBook.Proofs.Number.ShortestDigits

/-!
Numerals. The text of a finite number reads back as that number, with or without
an exponent, and wherever the point stands.
-/

namespace LessonBook.Binary64

open Text

section

variable {negative : Bool} {significand : Nat} {exponent : Int}

/-- What is rounded to a number is neither too large nor too small for decimal
numerals of four hundred places. -/
theorem magnitude_of_near (standard : IsStandard (finite negative significand exponent))
    (present : 0 < significand) {value : ℚ}
    (near : IsNear significand exponent (value / 2 ^ exponent)) :
    10 ^ (-400 : Int) ≤ value ∧ value ≤ 10 ^ (399 : Int) := by
  obtain ⟨short, least, greatest, -⟩ := standard
  unfold leastExponent at least
  unfold greatestExponent at greatest
  have power : (0 : ℚ) < 2 ^ exponent := by positivity
  have low := near.low_half
  have high := near.high
  rw [le_div_iff₀ power] at low
  rw [div_le_iff₀ power] at high
  constructor
  · calc (10 : ℚ) ^ (-400 : Int) = (10 ^ ((400 : Nat) : Int))⁻¹ := zpow_neg _ _
      _ ≤ (2 ^ (3 * (400 : Nat) : Int))⁻¹ := inv_anti₀ (by positivity) (two_zpow_le_ten_zpow 400)
      _ = 2 ^ (-(3 * (400 : Nat)) : Int) := (zpow_neg _ _).symm
      _ ≤ 2 ^ (exponent - 1) := zpow_le_zpow_right₀ one_le_two (by omega)
      _ = 1 / 2 * 2 ^ exponent := by
          rw [zpow_sub₀ two_ne_zero, zpow_one]
          ring
      _ ≤ (significand - 1 / 2) * 2 ^ exponent := by
          have one : (1 : ℚ) ≤ significand := by exact_mod_cast present
          exact mul_le_mul_of_nonneg_right (by linarith) power.le
      _ ≤ value := low
  · calc value ≤ (significand + 1 / 2) * 2 ^ exponent := high
      _ ≤ 2 ^ 53 * 2 ^ exponent := by
          have bound : (significand : ℚ) + 1 ≤ 2 ^ 53 := by exact_mod_cast short
          exact mul_le_mul_of_nonneg_right (by linarith) power.le
      _ = 2 ^ (53 + exponent) := by
          rw [zpow_add₀ two_ne_zero]
          rfl
      _ ≤ 2 ^ (3 * (399 : Nat) : Int) := zpow_le_zpow_right₀ one_le_two (by omega)
      _ ≤ 10 ^ (399 : Int) := two_zpow_le_ten_zpow 399

/-- The places of digits that begin with one other than zero are those of their size. -/
theorem places_of_magnitude {c : Char} {more : Text} {scale : Int}
    (spelled : AllDigits (c :: more)) (first : c ≠ '0')
    (low : 10 ^ (-400 : Int) ≤ (digitsValue (c :: more) : ℚ) * 10 ^ scale)
    (high : (digitsValue (c :: more) : ℚ) * 10 ^ scale ≤ 10 ^ (399 : Int)) :
    -400 < ((c :: more).length : Int) + scale ∧ ((c :: more).length : Int) + scale ≤ 400 := by
  have power : (0 : ℚ) < 10 ^ scale := by positivity
  have ten : (1 : ℚ) < 10 := by norm_num
  have least : (10 : ℚ) ^ (more.length : Int) ≤ digitsValue (c :: more) := by
    rw [zpow_natCast]
    exact_mod_cast le_digits_value (spelled c List.mem_cons_self) first
  have greatest : (digitsValue (c :: more) : ℚ) < 10 ^ ((c :: more).length : Int) := by
    rw [zpow_natCast]
    exact_mod_cast digits_value_lt spelled
  constructor
  · rw [← zpow_lt_zpow_iff_right₀ ten, zpow_add₀ (by norm_num)]
    exact low.trans_lt (mul_lt_mul_of_pos_right greatest power)
  · have bound : (more.length : Int) + scale ≤ 399 := by
      rw [← zpow_le_zpow_iff_right₀ ten, zpow_add₀ (by norm_num)]
      exact (mul_le_mul_of_nonneg_right least power.le).trans high
    rw [List.length_cons]
    push_cast
    omega

/-- Digits whose number is near are read as the number. -/
theorem of_decimal_eq (standard : IsStandard (finite negative significand exponent))
    (present : 0 < significand) {digits : Text} {scale : Int} (spelled : AllDigits digits)
    (near : IsNear significand exponent (digitsValue digits * 10 ^ scale / 2 ^ exponent)) :
    ofDecimal negative digits scale = finite negative significand exponent := by
  obtain ⟨low, high⟩ := magnitude_of_near standard present near
  rw [← digits_value_drop_zeros] at near low high
  have kept : AllDigits (digits.dropWhile (· == '0')) :=
    fun c member => spelled c ((List.dropWhile_suffix _).subset member)
  unfold ofDecimal
  cases found : digits.dropWhile (· == '0') with
  | nil =>
      rw [found, digits_value_nil, Nat.cast_zero, zero_mul] at low
      exact absurd low (not_le.mpr (by positivity))
  | cons c more =>
      rw [found] at near low high kept
      have first : c ≠ '0' := by
        have := List.head?_dropWhile_not (· == '0') digits
        rw [found] at this
        simpa using this
      obtain ⟨notSmall, notLarge⟩ := places_of_magnitude kept first low high
      have positive : 0 < digitsValue (c :: more) :=
        (Nat.pow_pos (by decide)).trans_le (le_digits_value (kept c List.mem_cons_self) first)
      simp only [List.isEmpty_cons, Bool.false_or]
      rw [if_neg (by simpa using notSmall.le), if_neg (not_lt.mpr notLarge)]
      rw [← power_of_ten_eq] at near
      split
      · rename_i whole
        have none : (-scale).toNat = 0 := by omega
        refine of_fraction_eq standard (Nat.mul_pos positive (Nat.pow_pos (by decide))) one_pos ?_
        convert near using 2
        rw [none]
        push_cast
        simp
      · rename_i part
        have none : scale.toNat = 0 := by omega
        refine of_fraction_eq standard positive (Nat.pow_pos (by decide)) ?_
        convert near using 2
        rw [none]
        push_cast
        simp [div_eq_mul_inv]

end

/-! ### The parts of a numeral -/

/-- The parts of a numeral. Without digits behind the point no point is written. -/
structure Numeral where
  negative : Bool
  whole : Text
  fraction : Text := []
  exponent : Option Int := none

namespace Numeral

def signText (negative : Bool) : Text :=
  if negative then ['-'] else []

def fractionText (fraction : Text) : Text :=
  if fraction.isEmpty then [] else '.' :: fraction

def exponentText : Option Int → Text
  | none => []
  | some exponent => ['e', if exponent < 0 then '-' else '+'] ++ Text.ofNat exponent.natAbs

def text (numeral : Numeral) : Text :=
  signText numeral.negative ++ numeral.whole ++ fractionText numeral.fraction ++
    exponentText numeral.exponent

def scale (numeral : Numeral) : Int :=
  numeral.exponent.getD 0 - numeral.fraction.length

structure IsPlain (numeral : Numeral) : Prop where
  whole_digits : AllDigits numeral.whole
  whole_first : numeral.whole = ['0'] ∨ ∃ c ∈ numeral.whole.head?, c ≠ '0'
  fraction_digits : AllDigits numeral.fraction

variable {numeral : Numeral}

theorem IsPlain.whole_cons (plain : numeral.IsPlain) :
    ∃ c more, numeral.whole = c :: more ∧ c.isDigit = true := by
  have digits := plain.whole_digits
  obtain zero | ⟨c, found, -⟩ := plain.whole_first
  · exact ⟨'0', [], zero, rfl⟩
  · obtain ⟨more, split⟩ := List.head?_eq_some_iff.mp found
    rw [split] at digits
    exact ⟨c, more, split, digits c List.mem_cons_self⟩

theorem sign_text_append {c : Char} (digit : c.isDigit = true) (negative : Bool) (rest : Text) :
    sign (signText negative ++ c :: rest) = (negative, c :: rest) := by
  cases negative with
  | true => rfl
  | false =>
      have minus : c ≠ '-' := by
        rintro rfl
        cases digit
      have plus : c ≠ '+' := by
        rintro rfl
        cases digit
      unfold sign
      split
      · rename_i same
        cases same
        exact absurd rfl minus
      · rename_i same
        cases same
        exact absurd rfl plus
      · rfl

theorem exponent_part_text (exponent : Option Int) :
    exponentPart (exponentText exponent) = exponent.getD 0 := by
  cases exponent with
  | none => rfl
  | some exponent =>
      have read : (Text.ofNat exponent.natAbs).takeWhile Char.isDigit = Text.ofNat exponent.natAbs :=
        List.takeWhile_eq_self_iff.mpr (all_digits_of_nat _)
      rw [exponentText, Option.getD_some]
      by_cases small : exponent < 0
      · rw [if_pos small]
        change -(digitsValue ((Text.ofNat exponent.natAbs).takeWhile Char.isDigit) : Int) = exponent
        rw [read, digits_value_of_nat]
        omega
      · rw [if_neg small]
        change (digitsValue ((Text.ofNat exponent.natAbs).takeWhile Char.isDigit) : Int) = exponent
        rw [read, digits_value_of_nat]
        omega

def EndsFraction (rest : Text) : Prop := ∀ c ∈ rest.head?, c.isDigit = false ∧ c ≠ '.'

theorem EndsFraction.stops {rest : Text} (ends : EndsFraction rest) : StopsDigits rest :=
  fun c first => (ends c first).1

theorem exponent_text_ends (exponent : Option Int) : EndsFraction (exponentText exponent) := by
  cases exponent with
  | none => exact fun _ absent => nomatch absent
  | some exponent =>
      rintro _ ⟨⟩
      decide

def fractionOf (text : Text) : Text × Text :=
  match text with
  | '.' :: more => (more.takeWhile Char.isDigit, more.dropWhile Char.isDigit)
  | _ => ([], text)

theorem fraction_of_append {fraction rest : Text} (digits : AllDigits fraction)
    (ends : EndsFraction rest) : fractionOf (fractionText fraction ++ rest) = (fraction, rest) := by
  unfold fractionText
  split
  · rename_i none
    rw [List.isEmpty_iff.mp none, List.nil_append]
    unfold fractionOf
    split
    · exact absurd rfl (ends _ rfl).2
    · rfl
  · change (List.takeWhile _ (fraction ++ rest), List.dropWhile _ (fraction ++ rest)) = _
    rw [take_digits digits ends.stops, drop_digits digits ends.stops]

theorem fraction_text_stops (fraction : Text) {rest : Text} (stops : StopsDigits rest) :
    StopsDigits (fractionText fraction ++ rest) := by
  unfold fractionText
  split
  · exact stops
  · exact stops_digits_cons rfl _

theorem of_numeral_text (plain : numeral.IsPlain) :
    ofNumeral numeral.text =
      ofDecimal numeral.negative (numeral.whole ++ numeral.fraction) numeral.scale := by
  obtain ⟨c, more, whole, digit⟩ := plain.whole_cons
  have ends := exponent_text_ends numeral.exponent
  have stops := fraction_text_stops numeral.fraction ends.stops
  have signed : sign numeral.text = (numeral.negative, numeral.whole ++
      (fractionText numeral.fraction ++ exponentText numeral.exponent)) := by
    rw [text, List.append_assoc, List.append_assoc, whole]
    exact sign_text_append digit _ _
  have fraction := fraction_of_append plain.fraction_digits ends
  unfold ofNumeral
  rw [signed]
  dsimp only
  rw [take_digits plain.whole_digits stops, drop_digits plain.whole_digits stops]
  change ofDecimal _ (_ ++ (fractionOf _).1) (exponentPart (fractionOf _).2 - (fractionOf _).1.length) = _
  rw [fraction, exponent_part_text]
  rfl

/-! ### Laid-out digits -/

/-- The parts into which a layout divides digits. -/
def ofLayout (layout : Layout) (negative : Bool) (digits : Text) (point : Int) : Numeral :=
  if 0 < point && point ≤ layout.places then
    if digits.length ≤ point then ⟨negative, digits ++ zeros (point - digits.length), [], none⟩
    else ⟨negative, digits.take point.toNat, digits.drop point.toNat, none⟩
  else if point ≤ 0 && -layout.leadingZeros < point then
    ⟨negative, ['0'], zeros (-point) ++ digits, none⟩
  else ⟨negative, digits.take 1, digits.drop 1, some (point - 1)⟩

section

variable {layout : Layout} {negative : Bool} {c : Char} {more : Text} {point : Int}

theorem of_layout_text :
    (ofLayout layout negative (c :: more) point).text =
      signText negative ++ layOut layout (c :: more) point := by
  unfold ofLayout layOut
  dsimp only
  split
  · rename_i positional
    obtain ⟨positive, -⟩ := Bool.and_eq_true_iff.mp positional
    split
    · simp [text, fractionText, exponentText]
    · rename_i short
      have present : (c :: more).drop point.toNat ≠ [] := by
        rw [ne_eq, List.drop_eq_nil_iff]
        have := of_decide_eq_true positive
        omega
      simp [text, fractionText, exponentText, present]
  · split
    · simp [text, fractionText, exponentText]
    · cases more with
      | nil => simp [text, fractionText, exponentText]
      | cons d more =>
          have several : ¬((c :: d :: more).length : Int) = 1 := by
            rw [List.length_cons, List.length_cons]
            omega
          rw [if_neg several]
          simp [text, fractionText, exponentText]

theorem of_layout_plain (layout : Layout) (negative : Bool) (point : Int)
    (digits : AllDigits (c :: more)) (first : c ≠ '0') :
    (ofLayout layout negative (c :: more) point).IsPlain := by
  have taken (count : Nat) : AllDigits ((c :: more).take count) :=
    fun d member => digits d (List.mem_of_mem_take member)
  have dropped (count : Nat) : AllDigits ((c :: more).drop count) :=
    fun d member => digits d (List.mem_of_mem_drop member)
  unfold ofLayout
  split
  · rename_i positional
    split
    · exact ⟨all_digits_append.mpr ⟨digits, all_digits_zeros _⟩, .inr ⟨c, rfl, first⟩, nofun⟩
    · obtain ⟨count, found⟩ : ∃ count, point.toNat = count + 1 :=
        ⟨point.toNat - 1, by simp at positional; omega⟩
      rw [found]
      exact ⟨taken _, .inr ⟨c, rfl, first⟩, dropped _⟩
  · split
    · exact ⟨all_digits_zeros 1, .inl rfl, all_digits_append.mpr ⟨all_digits_zeros _, digits⟩⟩
    · exact ⟨taken 1, .inr ⟨c, rfl, first⟩, dropped 1⟩

theorem of_layout_negative (digits : Text) :
    (ofLayout layout negative digits point).negative = negative := by
  unfold ofLayout
  split
  · split <;> rfl
  · split <;> rfl

/-- The parts count what the digits do. -/
theorem of_layout_value (digits : Text) (present : digits ≠ []) :
    (digitsValue ((ofLayout layout negative digits point).whole ++
        (ofLayout layout negative digits point).fraction) : ℚ) *
        10 ^ (ofLayout layout negative digits point).scale =
      digitsValue digits * 10 ^ (point - digits.length) := by
  unfold ofLayout
  split
  · rename_i positional
    obtain ⟨positive, -⟩ := Bool.and_eq_true_iff.mp positional
    split
    · rename_i long
      have count : point - digits.length = ((point - digits.length).toNat : Int) := by omega
      rw [count, zpow_natCast]
      simp [scale, zeros, digits_value_append, mul_comm]
    · rename_i short
      have := of_decide_eq_true positive
      have width : ((digits.drop point.toNat).length : Int) = digits.length - point := by
        rw [List.length_drop]
        omega
      simp only [scale, List.take_append_drop, width]
      simp
  · split
    · rename_i small
      obtain ⟨behind, -⟩ := Bool.and_eq_true_iff.mp small
      have := of_decide_eq_true behind
      have width : ((zeros (-point) ++ digits).length : Int) = digits.length - point := by
        rw [List.length_append, zeros, List.length_replicate]
        omega
      have value : digitsValue (['0'] ++ (zeros (-point) ++ digits)) = digitsValue digits := by
        rw [digits_value_append, digits_value_append, zeros, digits_value_zeros]
        simp [digitsValue]
      simp only [scale, width, value]
      simp
    · have width : ((digits.drop 1).length : Int) = digits.length - 1 := by
        have := List.length_pos_iff.mpr present
        rw [List.length_drop]
        omega
      simp only [scale, List.take_append_drop, width, Option.getD_some]
      congr 2
      ring

end

end Numeral

/-! ### The text of a number -/

theorem magnitude_text_reads {negative : Bool} {significand : Nat} {exponent : Int}
    (standard : IsStandard (finite negative significand exponent)) (present : 0 < significand) :
    ∃ numeral : Numeral, numeral.IsPlain ∧
      numeral.text = Numeral.signText negative ++ magnitudeText significand exponent ∧
      ofNumeral numeral.text = finite negative significand exponent := by
  have inside := shortest_digits_inside standard present
  unfold magnitudeText shortestDigits
  rw [if_neg present.ne']
  dsimp only
  generalize (neighbourhood significand exponent).shortest _ 17 = found at inside ⊢
  obtain ⟨value, place⟩ := found
  dsimp only at inside ⊢
  have near := near_of_contains present inside
  have positive : 0 < value := by
    by_contra none
    have zero : value = 0 := by omega
    have low := near.low_half
    have one : (1 : ℚ) ≤ significand := by exact_mod_cast present
    rw [zero, Nat.cast_zero, zero_mul, zero_div] at low
    linarith
  obtain ⟨c, more, count, kept, notZero, spelled, size, counted⟩ := of_nat_drop_end_zeros positive
  change ∃ numeral : Numeral, numeral.IsPlain ∧ numeral.text = _ ++ layOut {}
    (dropEndWhile (· == '0') (Text.ofNat value)) ((Text.ofNat value).length + place) ∧ _
  have plain := Numeral.of_layout_plain {} negative ((Text.ofNat value).length + place) spelled
    notZero
  refine ⟨_, plain, by rw [kept]; exact Numeral.of_layout_text, ?_⟩
  rw [Numeral.of_numeral_text plain, Numeral.of_layout_negative]
  apply of_decimal_eq standard present
    (all_digits_append.mpr ⟨plain.whole_digits, plain.fraction_digits⟩)
  rw [Numeral.of_layout_value _ (List.cons_ne_nil _ _)]
  have width : ((Text.ofNat value).length : Int) + place - (c :: more).length = count + place := by
    rw [size]
    push_cast
    ring
  rw [width, zpow_add₀ (by norm_num), zpow_natCast]
  convert near using 2
  rw [counted]
  push_cast
  ring

/-- The text of a finite number is a numeral, and reads back as that number. A
zero comes back without its sign. -/
theorem to_text_reads {value : Binary64} (standard : IsStandard value) :
    ∃ numeral : Numeral, numeral.IsPlain ∧ numeral.text = value.toText ∧
      same (ofNumeral value.toText) value = true := by
  cases value with
  | infinite | nan => exact standard.elim
  | finite negative significand exponent =>
      obtain zero | present := Nat.eq_zero_or_pos significand
      · subst zero
        have text : (finite negative 0 exponent).toText = ['0'] := by cases negative <;> rfl
        have read : ofNumeral ['0'] = finite false 0 leastExponent := rfl
        rw [text, read]
        refine ⟨⟨false, ['0'], [], none⟩, ⟨all_digits_zeros 1, .inl rfl, nofun⟩, rfl, ?_⟩
        simp [same, isZero]
      · obtain ⟨numeral, plain, text, read⟩ := magnitude_text_reads standard present
        have whole : (finite negative significand exponent).toText = numeral.text := by
          rw [text, toText, Numeral.signText]
          have nonzero : (significand != 0) = true := bne_iff_ne.mpr present.ne'
          rw [nonzero, Bool.and_true]
        refine ⟨numeral, plain, whole.symm, ?_⟩
        rw [whole, read]
        simp [same]

end LessonBook.Binary64
