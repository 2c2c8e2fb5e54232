import LessonBook.Proofs.Text.Remainder

/-!
A recognizer that reads no newline sees one line only: behind the line it may
find a newline or the end of the text, and it leaves there what it was given.
-/

namespace LessonBook.Recognizer

open Text

variable {tail : Text}

theorem line_end_cases (ended : atLineEnd tail = true) :
    tail = [] ∨ ∃ below, tail = '\n' :: below := by
  cases tail with
  | nil => exact .inl rfl
  | cons c below => exact .inr ⟨below, by simpa [atLineEnd] using ended⟩

theorem take_while_before_end (inClass : Char → Bool) (outside : inClass '\n' = false)
    (ended : atLineEnd tail = true) (line : Text) :
    (line ++ tail).takeWhile inClass = line.takeWhile inClass := by
  induction line with
  | nil => obtain rfl | ⟨below, rfl⟩ := line_end_cases ended <;> simp [outside]
  | cons c line induction => simp [List.takeWhile_cons, induction]

theorem drop_while_before_end (inClass : Char → Bool) (outside : inClass '\n' = false)
    (ended : atLineEnd tail = true) (line : Text) :
    (line ++ tail).dropWhile inClass = line.dropWhile inClass ++ tail := by
  induction line with
  | nil => obtain rfl | ⟨below, rfl⟩ := line_end_cases ended <;> simp [outside]
  | cons c line induction =>
      simp only [List.cons_append, List.dropWhile_cons, induction]
      split <;> rfl

theorem skip_spaces_and_tabs_before_end (ended : atLineEnd tail = true) (line : Text) :
    skipSpacesAndTabs (line ++ tail) = skipSpacesAndTabs line ++ tail :=
  drop_while_before_end _ (by decide) ended line

theorem one_before_end (inClass : Char → Bool) (outside : inClass '\n' = false)
    (ended : atLineEnd tail = true) (line : Text) :
    one inClass (line ++ tail) = (one inClass line).map (· ++ tail) := by
  cases line with
  | nil => obtain rfl | ⟨below, rfl⟩ := line_end_cases ended <;> simp [one, outside]
  | cons c line =>
      simp only [List.cons_append, one]
      split <;> rfl

theorem char_before_end (wanted : Char) (inside : wanted ≠ '\n')
    (ended : atLineEnd tail = true) (line : Text) :
    char wanted (line ++ tail) = (char wanted line).map (· ++ tail) :=
  one_before_end _ (by simpa using Ne.symm inside) ended line

theorem word_before_end (letters : Text) (single : '\n' ∉ letters)
    (ended : atLineEnd tail = true) (line : Text) :
    word letters (line ++ tail) = (word letters line).map (· ++ tail) := by
  induction letters generalizing line with
  | nil => simp [word]
  | cons w letters induction =>
      simp only [List.mem_cons, not_or] at single
      cases line with
      | nil =>
          obtain rfl | ⟨below, rfl⟩ := line_end_cases ended <;>
            simp [word, Ne.symm single.1]
      | cons c line =>
          simp only [List.cons_append, word]
          split
          · exact induction single.2 line
          · rfl

theorem word_any_case_before_end (letters : Text) (single : ∀ w ∈ letters, w.toLower ≠ '\n')
    (ended : atLineEnd tail = true) (line : Text) :
    wordAnyCase letters (line ++ tail) = (wordAnyCase letters line).map (· ++ tail) := by
  induction letters generalizing line with
  | nil => simp [wordAnyCase]
  | cons w letters induction =>
      rw [List.forall_mem_cons] at single
      cases line with
      | nil =>
          obtain rfl | ⟨below, rfl⟩ := line_end_cases ended <;> simp [wordAnyCase, single.1]
      | cons c line =>
          simp only [List.cons_append, wordAnyCase]
          split
          · exact induction single.2 line
          · rfl

theorem skip_up_to_before_end (inClass : Char → Bool) (outside : inClass '\n' = false)
    (ended : atLineEnd tail = true) (count : Nat) (line : Text) :
    skipUpTo inClass count (line ++ tail) = skipUpTo inClass count line ++ tail := by
  induction count generalizing line with
  | zero => simp [skipUpTo]
  | succ count induction =>
      cases line with
      | nil => obtain rfl | ⟨below, rfl⟩ := line_end_cases ended <;> simp [skipUpTo, outside]
      | cons c line =>
          simp only [List.cons_append, skipUpTo, induction]
          split <;> rfl

theorem line_end_of_end (ended : atLineEnd tail = true) :
    lineEnd tail = some (tail.drop 1) := by
  obtain rfl | ⟨below, rfl⟩ := line_end_cases ended <;> simp [lineEnd]

theorem not_newline_of_single {line : Text} (single : '\n' ∉ line) :
    ∀ c ∈ line, notNewline c = true := by
  intro c member
  simp only [notNewline, bne_iff_ne, ne_eq]
  rintro rfl
  exact single member

theorem first_line_before_end (ended : atLineEnd tail = true) {line : Text}
    (single : '\n' ∉ line) : firstLine (line ++ tail) = line := by
  rw [firstLine, take_while_before_end _ (by decide) ended, List.takeWhile_eq_self_iff]
  exact not_newline_of_single single

theorem after_first_line_before_end (ended : atLineEnd tail = true) {line : Text}
    (single : '\n' ∉ line) : afterFirstLine (line ++ tail) = tail := by
  rw [afterFirstLine, drop_while_before_end _ (by decide) ended,
    List.dropWhile_eq_nil_iff.mpr (not_newline_of_single single), List.nil_append]

theorem single_of_suffix {line rest : Text} (single : '\n' ∉ line) (left : rest <:+ line) :
    '\n' ∉ rest :=
  fun member => single (left.mem member)

end LessonBook.Recognizer
