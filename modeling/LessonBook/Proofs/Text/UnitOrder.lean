import Mathlib.Data.List.Lex
import LessonBook.Text.Units

/-!
The order of texts by their 16-bit units is linear: different texts have
different units, and lists of units are compared as in a dictionary.
-/

namespace LessonBook.Text

theorem less_values_iff {first second : List Nat} :
    lessValues first second = true ↔ first < second := by
  induction first generalizing second with
  | nil => cases second <;> simp [lessValues]
  | cons a first induction =>
      cases second with
      | nil => simp [lessValues]
      | cons b second => simp [lessValues, List.cons_lt_cons_iff, induction]

theorem units_less_iff {first second : Text} :
    unitsLess first second = true ↔ unitValues first < unitValues second :=
  less_values_iff

def charUnits (c : Char) : List Nat :=
  if unitsOf c = 1 then [c.toNat]
  else [0xD800 + (c.toNat - 0x10000) / 0x400, 0xDC00 + (c.toNat - 0x10000) % 0x400]

theorem unit_values_cons (c : Char) (rest : Text) :
    unitValues (c :: rest) = charUnits c ++ unitValues rest := rfl

/-- A character is the surrogate of no other one, so its units tell where they end. -/
theorem char_units_inj {c d : Char} {left right : List Nat}
    (same : charUnits c ++ left = charUnits d ++ right) : c = d ∧ left = right := by
  have bounds (e : Char) : e.toNat < 0xD800 ∨ 0xDFFF < e.toNat ∧ e.toNat < 0x110000 := e.valid
  have first := bounds c
  have second := bounds d
  have equal : c.toNat = d.toNat → c = d := Char.toNat_inj.mp
  simp only [charUnits, unitsOf] at same
  split_ifs at same <;>
    simp only [List.cons_append, List.nil_append, List.cons.injEq] at same
  · exact ⟨equal same.1, same.2⟩
  all_goals try omega
  exact ⟨equal (by omega), same.2.2⟩

theorem unit_values_injective : Function.Injective unitValues := by
  intro first
  induction first with
  | nil =>
      intro second same
      cases second with
      | nil => rfl
      | cons d second =>
          rw [unit_values_cons, charUnits] at same
          split at same <;> cases same
  | cons c first induction =>
      intro second same
      cases second with
      | nil =>
          rw [unit_values_cons, charUnits] at same
          split at same <;> cases same
      | cons d second =>
          obtain ⟨rfl, rest⟩ := char_units_inj same
          rw [induction rest]

theorem units_less_irrefl (text : Text) : ¬unitsLess text text = true := by
  rw [units_less_iff]
  exact lt_irrefl _

theorem units_less_trans {first second third : Text} (below : unitsLess first second = true)
    (above : unitsLess second third = true) : unitsLess first third = true := by
  rw [units_less_iff] at *
  exact below.trans above

theorem units_less_or {first second : Text} (different : first ≠ second) :
    unitsLess first second = true ∨ unitsLess second first = true := by
  rw [units_less_iff, units_less_iff]
  exact lt_or_gt_of_ne (unit_values_injective.ne different)

theorem not_units_less_iff {first second : Text} :
    (!unitsLess second first) = true ↔ unitValues first ≤ unitValues second := by
  rw [Bool.not_eq_true', Bool.eq_false_iff, ne_eq, units_less_iff, not_lt]

/-- Texts that are put in order stand in strictly ascending order if they are distinct. -/
theorem pairwise_merge_sort {texts : List Text} (distinct : texts.Nodup) :
    (texts.mergeSort fun first second => !unitsLess second first).Pairwise
      (unitsLess · · = true) := by
  let notAbove (first second : Text) : Bool := !unitsLess second first
  have sorted : (texts.mergeSort notAbove).Pairwise (notAbove · · = true) := by
    apply List.pairwise_mergeSort
    · intro first second third below above
      rw [not_units_less_iff] at *
      exact below.trans above
    · intro first second
      rw [Bool.or_eq_true, not_units_less_iff, not_units_less_iff]
      exact le_total _ _
  have apart : (texts.mergeSort notAbove).Nodup :=
    (List.mergeSort_perm texts notAbove).nodup_iff.mpr distinct
  refine (sorted.and apart).imp fun ⟨ordered, different⟩ => ?_
  rcases units_less_or different with less | less
  · exact less
  · simp [notAbove, less] at ordered

theorem nodup_of_ascending {texts : List Text} (ascending : texts.Pairwise (unitsLess · · = true)) :
    texts.Nodup := by
  refine ascending.imp ?_
  rintro first second less rfl
  exact units_less_irrefl first less

/-- What is less than a text of an ascending list stands in front of it. -/
theorem mem_front_of_ascending {front back : List Text} {middle text : Text}
    (ascending : (front ++ middle :: back).Pairwise (unitsLess · · = true)) :
    text ∈ front ↔ text ∈ front ++ middle :: back ∧ unitsLess text middle = true := by
  obtain ⟨-, behind, across⟩ := List.pairwise_append.mp ascending
  constructor
  · intro member
    exact ⟨List.mem_append_left _ member, across text member middle List.mem_cons_self⟩
  · rintro ⟨member, less⟩
    rcases List.mem_append.mp member with member | member
    · exact member
    · rcases List.mem_cons.mp member with rfl | member
      · exact absurd less (units_less_irrefl text)
      · have greater := (List.pairwise_cons.mp behind).1 text member
        exact absurd (units_less_trans less greater) (units_less_irrefl text)

/-- There is one strictly ascending order. -/
theorem eq_of_perm_of_ascending {texts ordered : List Text} (same : texts.Perm ordered)
    (ascending : texts.Pairwise (unitsLess · · = true))
    (ascending' : ordered.Pairwise (unitsLess · · = true)) : texts = ordered := by
  refine same.eq_of_pairwise ?_ ascending ascending'
  intro first second _ _ less greater
  exact absurd (units_less_trans less greater) (units_less_irrefl first)

theorem merge_sort_eq_of_perm {texts ordered : List Text} (same : ordered.Perm texts)
    (ascending : ordered.Pairwise (unitsLess · · = true)) :
    (texts.mergeSort fun first second => !unitsLess second first) = ordered := by
  have distinct : texts.Nodup := same.nodup_iff.mp (nodup_of_ascending ascending)
  exact eq_of_perm_of_ascending ((List.mergeSort_perm texts _).trans same.symm)
    (pairwise_merge_sort distinct) ascending

end LessonBook.Text
