import LessonBook.Text.Recognizer
import Mathlib.Data.List.TakeWhile

/-!
Recognizers take from the front: what each of them leaves is an end part of the
text it was given, and together with the part in front of it is that text again.
-/

namespace LessonBook

namespace Text

theorem before_append_rest {text rest : Text} (left : rest <:+ text) :
    before text rest ++ rest = text := by
  obtain ⟨front, rfl⟩ := left
  rw [before_append]

theorem before_of_split {text front rest : Text} (split : front ++ rest = text) :
    before text rest = front :=
  split ▸ before_append front rest

theorem drop_of_split {text front rest : Text} (split : front ++ rest = text) :
    text.drop front.length = rest :=
  split ▸ List.drop_left

theorem mem_before {text below rest : Text} {c : Char} (inside : c :: below <:+ text)
    (left : rest <:+ below) : c ∈ before text rest := by
  obtain ⟨front, rfl⟩ := inside
  obtain ⟨middle, rfl⟩ := left
  have split : front ++ c :: (middle ++ rest) = (front ++ c :: middle) ++ rest := by simp
  rw [split, before_append]
  exact List.mem_append_right front List.mem_cons_self

theorem after_first_line_suffix (text : Text) : afterFirstLine text <:+ text :=
  List.dropWhile_suffix notNewline

theorem first_line_append_after (text : Text) : firstLine text ++ afterFirstLine text = text :=
  List.takeWhile_append_dropWhile

theorem drop_first_line (text : Text) : text.drop (firstLine text).length = afterFirstLine text :=
  drop_of_split (first_line_append_after text)

end Text

namespace Recognizer

open Text

theorem suffix_of_one {inClass : Char → Bool} {text rest : Text}
    (read : one inClass text = some rest) : rest <:+ text := by
  cases text with
  | nil => simp [one] at read
  | cons c after =>
      simp only [one] at read
      split at read
      · cases read
        exact List.suffix_cons c _
      · cases read

theorem suffix_of_char {wanted : Char} {text rest : Text}
    (read : char wanted text = some rest) : rest <:+ text :=
  suffix_of_one read

theorem char_eq_some_iff {wanted : Char} {text rest : Text} :
    char wanted text = some rest ↔ text = wanted :: rest := by
  cases text with
  | nil => simp [char, one]
  | cons c more => simp [char, one]

theorem suffix_of_word {letters text rest : Text}
    (read : word letters text = some rest) : rest <:+ text := by
  induction letters generalizing text with
  | nil =>
      simp only [word, Option.some.injEq] at read
      exact read ▸ List.suffix_refl text
  | cons w letters induction =>
      cases text with
      | nil => simp [word] at read
      | cons c after =>
          simp only [word] at read
          split at read
          · exact (induction read).trans (List.suffix_cons c after)
          · cases read

theorem suffix_of_word_any_case {letters text rest : Text}
    (read : wordAnyCase letters text = some rest) : rest <:+ text := by
  induction letters generalizing text with
  | nil =>
      simp only [wordAnyCase, Option.some.injEq] at read
      exact read ▸ List.suffix_refl text
  | cons w letters induction =>
      cases text with
      | nil => simp [wordAnyCase] at read
      | cons c after =>
          simp only [wordAnyCase] at read
          split at read
          · exact (induction read).trans (List.suffix_cons c after)
          · cases read

theorem word_any_case_append {letters text left : Text} (rest : Text)
    (read : wordAnyCase letters text = some left) :
    wordAnyCase letters (text ++ rest) = some (left ++ rest) := by
  induction letters generalizing text with
  | nil =>
      cases read
      rfl
  | cons w letters induction =>
      cases text with
      | nil => cases read
      | cons c text =>
          rw [List.cons_append]
          rw [wordAnyCase] at read ⊢
          split at read
          · rename_i same
            rw [if_pos same]
            exact induction read
          · cases read

theorem skip_up_to_suffix (inClass : Char → Bool) (count : Nat) (text : Text) :
    skipUpTo inClass count text <:+ text := by
  induction count generalizing text with
  | zero => simp [skipUpTo]
  | succ count induction =>
      cases text with
      | nil => simp [skipUpTo]
      | cons c rest =>
          simp only [skipUpTo]
          split
          · exact (induction rest).trans (List.suffix_cons c rest)
          · exact List.suffix_refl _

theorem skip_up_to_append {inClass : Char → Bool} {count : Nat} {text : Text}
    (rest : Text) (present : skipUpTo inClass count text ≠ []) :
    skipUpTo inClass count (text ++ rest) = skipUpTo inClass count text ++ rest := by
  induction count generalizing text with
  | zero => rfl
  | succ count induction =>
      cases text with
      | nil => exact absurd rfl present
      | cons c text =>
          rw [List.cons_append]
          rw [skipUpTo] at present ⊢
          rw [skipUpTo]
          split
          · rename_i skipped
            rw [if_pos skipped] at present
            exact induction present
          · rfl

theorem skip_up_to_split (inClass : Char → Bool) (count : Nat) (text : Text) :
    ∃ front, text = front ++ skipUpTo inClass count text ∧ front.length ≤ count ∧
      ∀ c ∈ front, inClass c = true := by
  induction count generalizing text with
  | zero => exact ⟨[], rfl, Nat.le_refl 0, by simp⟩
  | succ count induction =>
      cases text with
      | nil => exact ⟨[], rfl, Nat.zero_le _, by simp⟩
      | cons c rest =>
          rw [skipUpTo]
          split
          · rename_i inside
            obtain ⟨front, split, bound, skipped⟩ := induction rest
            refine ⟨c :: front, by rw [List.cons_append, ← split], Nat.succ_le_succ bound, ?_⟩
            exact List.forall_mem_cons.mpr ⟨inside, skipped⟩
          · exact ⟨[], rfl, Nat.zero_le _, by simp⟩

theorem skip_up_to_of_outside {inClass : Char → Bool} {count : Nat} {front : Text} {c : Char}
    (skipped : ∀ d ∈ front, inClass d = true) (bound : front.length ≤ count)
    (outside : inClass c = false) (rest : Text) :
    skipUpTo inClass count (front ++ c :: rest) = c :: rest := by
  induction front generalizing count with
  | nil => cases count <;> simp [skipUpTo, outside]
  | cons d front induction =>
      obtain ⟨here, later⟩ := List.forall_mem_cons.mp skipped
      obtain ⟨more, rfl⟩ := Nat.exists_eq_add_of_le' bound
      rw [List.length_cons, ← Nat.add_assoc, List.cons_append, skipUpTo, if_pos here]
      exact induction later (Nat.le_add_left _ _)

theorem indent_suffix (text : Text) : indent text <:+ text :=
  skip_up_to_suffix _ 3 text

theorem indent_split (text : Text) :
    ∃ spaces, text = spaces ++ indent text ∧ spaces.length ≤ 3 ∧ ∀ s ∈ spaces, s = ' ' := by
  obtain ⟨spaces, split, bound, blank⟩ := skip_up_to_split (· == ' ') 3 text
  exact ⟨spaces, split, bound, fun s member => by simpa using blank s member⟩

theorem suffix_of_some1 {inClass : Char → Bool} {text rest : Text}
    (read : some1 inClass text = some rest) : rest <:+ text := by
  simp only [some1, Option.map_eq_some_iff] at read
  obtain ⟨after, found, rfl⟩ := read
  exact (List.dropWhile_suffix inClass).trans (suffix_of_one found)

theorem suffix_of_line_end {text rest : Text} (read : lineEnd text = some rest) :
    rest <:+ text := by
  cases text with
  | nil => simp_all [lineEnd]
  | cons c after =>
      simp only [lineEnd] at read
      split at read
      · cases read
        exact List.suffix_cons c _
      · cases read

theorem suffix_of_line_ends {text rest : Text} (read : lineEnds text = some rest) :
    rest <:+ text := by
  cases text with
  | nil => simp_all [lineEnds]
  | cons c after =>
      simp only [lineEnds] at read
      split at read
      · cases read
        exact (List.dropWhile_suffix _).trans (List.suffix_cons c after)
      · cases read

theorem many_suffix {step : Recognizer}
    (leaves : ∀ {text rest}, step text = some rest → rest <:+ text) (text : Text) :
    many step text <:+ text := by
  have bounded : ∀ count text, repeatUpTo step count text <:+ text := by
    intro count
    induction count with
    | zero => exact fun text => List.suffix_refl text
    | succ count induction =>
        intro text
        simp only [repeatUpTo]
        split
        · exact (induction _).trans (leaves ‹_›)
        · exact List.suffix_refl text
  exact bounded text.length text

/-- Every success shortens the text, so the bound on the repetitions is never felt. -/
theorem many_eq {step : Recognizer}
    (shortens : ∀ {text rest}, step text = some rest → rest.length < text.length) (text : Text) :
    many step text = match step text with
      | some rest => many step rest
      | none => text := by
  have sameResult : ∀ (low high : Nat) (text : Text), text.length ≤ low → text.length ≤ high →
      repeatUpTo step low text = repeatUpTo step high text := by
    intro low
    induction low with
    | zero =>
        intro high text empty _
        have refused : step text = none := by
          cases read : step text with
          | none => rfl
          | some rest => exact absurd (shortens read) (by omega)
        cases high <;> simp [repeatUpTo, refused]
    | succ low induction =>
        intro high text lowBound highBound
        cases read : step text with
        | none => cases high <;> simp [repeatUpTo, read]
        | some rest =>
            have shorter := shortens read
            cases high with
            | zero => omega
            | succ high =>
                simp only [repeatUpTo, read]
                exact induction high rest (by omega) (by omega)
  cases read : step text with
  | none => cases length : text.length <;> simp [many, repeatUpTo, length, read]
  | some rest =>
      have shorter := shortens read
      obtain ⟨count, length⟩ : ∃ count, text.length = count + 1 := ⟨text.length - 1, by omega⟩
      simp only [many, length, repeatUpTo, read]
      exact sameResult count rest.length rest (by omega) (Nat.le_refl _)

theorem space_lines_from_suffix {whole lineStart text : Text} (started : lineStart <:+ whole)
    (inside : text <:+ whole) : spaceLinesFrom lineStart text <:+ whole := by
  induction text generalizing lineStart with
  | nil => exact List.nil_suffix
  | cons c rest induction =>
      have restInside := (List.suffix_cons c rest).trans inside
      simp only [spaceLinesFrom]
      split
      · exact induction started restInside
      · split
        · exact induction restInside restInside
        · exact started

theorem skip_space_lines_suffix (text : Text) : skipSpaceLines text <:+ text :=
  space_lines_from_suffix (List.suffix_refl text) (List.suffix_refl text)

theorem suffix_of_first_match {step : Recognizer}
    (leaves : ∀ {text rest}, step text = some rest → rest <:+ text)
    {text front rest : Text} (found : firstMatch step text = some (front, rest)) :
    rest <:+ text := by
  induction text generalizing front with
  | nil =>
      simp only [firstMatch, Option.map_eq_some_iff] at found
      obtain ⟨left, read, same⟩ := found
      cases same
      exact leaves read
  | cons c text induction =>
      simp only [firstMatch] at found
      split at found
      · cases found
        exact leaves ‹_›
      · simp only [Option.map_eq_some_iff] at found
        obtain ⟨⟨inner, left⟩, later, same⟩ := found
        cases same
        exact (induction later).trans (List.suffix_cons c text)

theorem through_first_suffix {step : Recognizer}
    (leaves : ∀ {text rest}, step text = some rest → rest <:+ text) (text : Text) :
    throughFirst step text <:+ text := by
  unfold throughFirst
  split
  · exact suffix_of_first_match leaves ‹_›
  · exact List.nil_suffix

end Recognizer

end LessonBook
