import LessonBook.Proofs.Text.Remainder

/-!
Searching for a word that begins with a character it does not hold again, as
`<!--` does. Such a word never overlaps with itself, so its first occurrence in
a joined text is found in one of the two parts.
-/

namespace LessonBook.Recognizer

open Text

theorem word_eq_some_iff {letters text rest : Text} :
    word letters text = some rest ↔ text = letters ++ rest := by
  induction letters generalizing text with
  | nil => simp [word]
  | cons w letters induction =>
      cases text with
      | nil => simp [word]
      | cons c more =>
          simp only [word, List.cons_append, List.cons.injEq]
          by_cases same : w = c
          · simp [same, induction]
          · simp [same, Ne.symm same]

theorem word_append (letters rest : Text) : word letters (letters ++ rest) = some rest :=
  word_eq_some_iff.mpr rfl

variable {c d : Char} {letters front back : Text}

/-- A word that reaches behind `front` would hold the first character there. -/
theorem prefix_of_prefix_append (fresh : d ∉ letters) (present : front ≠ [])
    (found : c :: letters <+: front ++ d :: back) : c :: letters <+: front := by
  obtain ⟨rest, same⟩ := found
  rcases List.append_eq_append_iff.mp same with ⟨more, split, -⟩ | ⟨more, split, tail⟩
  · exact ⟨more, split.symm⟩
  · cases front with
    | nil => exact absurd rfl present
    | cons e front =>
        cases more with
        | nil => exact ⟨[], by simpa using split⟩
        | cons m more =>
            rw [List.cons_append, List.cons.injEq] at split tail
            rw [split.2, tail.1] at fresh
            exact absurd fresh (by simp)

theorem word_of_absent (absent : ¬letters <+: front) : word letters front = none := by
  cases found : word letters front with
  | none => rfl
  | some rest => exact absurd ⟨rest, (word_eq_some_iff.mp found).symm⟩ absent

/-- A text without the word is passed over, if the word cannot begin at its end. -/
theorem first_match_append (fresh : d ∉ letters) (absent : ¬c :: letters <:+: front) :
    firstMatch (word (c :: letters)) (front ++ d :: back) =
      (firstMatch (word (c :: letters)) (d :: back)).map fun found => (front ++ found.1, found.2) := by
  induction front with
  | nil => simp
  | cons e front induction =>
      have refused : word (c :: letters) (e :: (front ++ d :: back)) = none := by
        apply word_of_absent
        intro found
        exact absent (prefix_of_prefix_append fresh (List.cons_ne_nil e front) found).isInfix
      rw [List.cons_append, firstMatch]
      simp only [refused]
      rw [induction fun inside => absent (inside.trans (List.suffix_cons e front).isInfix)]
      cases firstMatch (word (c :: letters)) (d :: back) <;> rfl

theorem first_match_append_of_not_mem (absent : c ∉ front) (back : Text) :
    firstMatch (word (c :: letters)) (front ++ back) =
      (firstMatch (word (c :: letters)) back).map fun found => (front ++ found.1, found.2) := by
  induction front with
  | nil => simp
  | cons e front induction =>
      simp only [List.mem_cons, not_or] at absent
      have refused : word (c :: letters) (e :: (front ++ back)) = none := by
        simp [word, absent.1]
      rw [List.cons_append, firstMatch]
      simp only [refused]
      rw [induction absent.2]
      cases firstMatch (word (c :: letters)) back <;> rfl

theorem first_match_word (letters back : Text) :
    firstMatch (word letters) (letters ++ back) = some ([], back) := by
  cases letters with
  | nil => cases back <;> simp [firstMatch, word]
  | cons c letters =>
      rw [List.cons_append, firstMatch, ← List.cons_append]
      simp only [word_append]

theorem first_match_none {text : Text} (absent : ¬letters <:+: text) :
    firstMatch (word letters) text = none := by
  induction text with
  | nil => rw [firstMatch, word_of_absent fun found => absent found.isInfix]; rfl
  | cons e text induction =>
      rw [firstMatch]
      simp only [word_of_absent fun found => absent found.isInfix]
      rw [induction fun inside => absent (inside.trans (List.suffix_cons e text).isInfix)]
      rfl

theorem first_match_split {text left : Text}
    (found : firstMatch (word letters) text = some (front, left)) :
    text = front ++ (letters ++ left) := by
  induction text generalizing front with
  | nil =>
      simp only [firstMatch, Option.map_eq_some_iff, word_eq_some_iff] at found
      obtain ⟨rest, same, pair⟩ := found
      cases pair
      exact same
  | cons e text induction =>
      simp only [firstMatch] at found
      split at found
      · rename_i read
        cases found
        rw [List.nil_append]
        exact word_eq_some_iff.mp read
      · simp only [Option.map_eq_some_iff] at found
        obtain ⟨⟨inner, rest⟩, later, pair⟩ := found
        cases pair
        rw [induction later, List.cons_append]

/-- A word is no part of a text that ends in front of a character it does not hold. -/
theorem infix_append_cons_iff (fresh : d ∉ c :: letters) :
    c :: letters <:+: front ++ d :: back ↔ c :: letters <:+: front ∨ c :: letters <:+: back := by
  simp only [List.mem_cons, not_or] at fresh
  induction front with
  | nil => simp [List.infix_cons_iff, List.cons_prefix_cons, Ne.symm fresh.1]
  | cons e front induction =>
      rw [List.cons_append, List.infix_cons_iff, induction, @List.infix_cons_iff _ _ _ front, or_assoc]
      have here : c :: letters <+: e :: (front ++ d :: back) ↔ c :: letters <+: e :: front :=
        ⟨fun found => prefix_of_prefix_append fresh.2 (List.cons_ne_nil e front) found,
          fun found => found.trans (List.prefix_append _ _)⟩
      rw [here]

theorem infix_append_iff_of_not_mem (absent : c ∉ front) :
    c :: letters <:+: front ++ back ↔ c :: letters <:+: back := by
  induction front with
  | nil => rfl
  | cons e front induction =>
      simp only [List.mem_cons, not_or] at absent
      simp [List.infix_cons_iff, List.cons_prefix_cons, absent.1, induction absent.2]

/-- A word that occurs has a first occurrence. -/
theorem first_occurrence {text : Text} (occurs : c :: letters <:+: text) :
    ∃ front back, text = front ++ (c :: letters) ++ back ∧ ¬c :: letters <:+: front := by
  induction text with
  | nil => simp at occurs
  | cons e text induction =>
      by_cases here : c :: letters <+: e :: text
      · obtain ⟨back, same⟩ := here
        exact ⟨[], back, by simp [← same], by simp⟩
      · rcases List.infix_cons_iff.mp occurs with found | inside
        · exact absurd found here
        · obtain ⟨front, back, split, absent⟩ := induction inside
          refine ⟨e :: front, back, by simp [split], ?_⟩
          intro earlier
          rcases List.infix_cons_iff.mp earlier with found | inside'
          · exact here (found.trans ⟨(c :: letters) ++ back, by simp [split]⟩)
          · exact absent inside'

end LessonBook.Recognizer
