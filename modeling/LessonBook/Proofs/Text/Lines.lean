import LessonBook.Text.Recognizer

/-!
Laws of cutting a text into lines: the lines of a joined text, how lines and
newlines are counted, and how a text that ends where a line ends is cut.
-/

namespace LessonBook.Text

open Recognizer

def linesBelow (pieces : List Text) : Text :=
  pieces.flatMap fun piece => '\n' :: piece

@[simp] theorem lines_below_nil : linesBelow [] = [] := rfl

@[simp] theorem lines_below_cons (piece : Text) (pieces : List Text) :
    linesBelow (piece :: pieces) = '\n' :: (piece ++ linesBelow pieces) := rfl

theorem join_lines_cons (piece : Text) (pieces : List Text) :
    joinLines (piece :: pieces) = piece ++ linesBelow pieces := by
  induction pieces generalizing piece with
  | nil => simp [joinLines, intercalate]
  | cons next pieces induction =>
      have joined := induction next
      simp only [joinLines, intercalate] at joined ⊢
      simp [joined]

theorem lines_below_of_cons (piece : Text) (pieces : List Text) :
    linesBelow (piece :: pieces) = '\n' :: joinLines (piece :: pieces) := by
  rw [join_lines_cons, lines_below_cons]

theorem lines_below_of_ne_nil {pieces : List Text} (present : pieces ≠ []) :
    linesBelow pieces = '\n' :: joinLines pieces := by
  cases pieces with
  | nil => exact absurd rfl present
  | cons piece pieces => exact lines_below_of_cons piece pieces

theorem lines_below_append (front back : List Text) :
    linesBelow (front ++ back) = linesBelow front ++ linesBelow back :=
  List.flatMap_append

theorem lines_nil : lines [] = [[]] := rfl

theorem lines_newline (rest : Text) : lines ('\n' :: rest) = [] :: lines rest := by
  simp [lines, splitAt]

theorem lines_cons {c : Char} (plain : c ≠ '\n') (rest : Text) :
    ∃ first others, lines rest = first :: others ∧ lines (c :: rest) = (c :: first) :: others := by
  cases pieces : lines rest with
  | nil => exact absurd pieces (lines_ne_nil rest)
  | cons first others =>
      refine ⟨first, others, rfl, ?_⟩
      simp only [lines] at pieces ⊢
      simp [splitAt, plain, pieces]

theorem lines_append_newline (front back : Text) :
    lines (front ++ '\n' :: back) = lines front ++ lines back := by
  induction front with
  | nil => simp [lines_newline, lines_nil]
  | cons c front induction =>
      by_cases newline : c = '\n'
      · subst newline
        simp [lines_newline, induction]
      · obtain ⟨first, others, front_lines, cons_lines⟩ := lines_cons newline front
        obtain ⟨first', others', whole_lines, whole_cons⟩ :=
          lines_cons newline (front ++ '\n' :: back)
        rw [induction, front_lines, List.cons_append, List.cons.injEq] at whole_lines
        rw [List.cons_append, whole_cons, cons_lines, ← whole_lines.1, ← whole_lines.2]
        rfl

theorem lines_of_no_newline {line : Text} (single : '\n' ∉ line) : lines line = [line] := by
  induction line with
  | nil => rfl
  | cons c line induction =>
      simp only [List.mem_cons, not_or] at single
      obtain ⟨first, others, rest_lines, cons_lines⟩ := lines_cons (Ne.symm single.1) line
      rw [induction single.2, List.cons.injEq] at rest_lines
      rw [cons_lines, ← rest_lines.1, ← rest_lines.2]

theorem lines_first_line (text : Text) : ∃ others, lines text = firstLine text :: others := by
  induction text with
  | nil => exact ⟨[], rfl⟩
  | cons c text induction =>
      by_cases newline : c = '\n'
      · subst newline
        exact ⟨lines text, lines_newline text⟩
      · obtain ⟨others, cut⟩ := induction
        obtain ⟨first, below, same, longer⟩ := lines_cons newline text
        rw [cut, List.cons.injEq] at same
        refine ⟨below, ?_⟩
        rw [longer, ← same.1, firstLine, firstLine, List.takeWhile_cons,
          if_pos (by simpa [notNewline] using newline)]

theorem first_line_mem_lines (text : Text) : firstLine text ∈ lines text := by
  obtain ⟨others, cut⟩ := lines_first_line text
  rw [cut]
  exact List.mem_cons_self

theorem first_line_suffix_line {text rest : Text} (left : rest <:+ text) :
    ∃ line ∈ lines text, firstLine rest <:+ line := by
  obtain ⟨front, rfl⟩ := left
  induction front with
  | nil => exact ⟨_, first_line_mem_lines rest, List.suffix_refl _⟩
  | cons c front induction =>
      obtain ⟨line, member, inside⟩ := induction
      by_cases newline : c = '\n'
      · rw [newline, List.cons_append, lines_newline]
        exact ⟨line, List.mem_cons_of_mem _ member, inside⟩
      · obtain ⟨first, others, cut, longer⟩ := lines_cons newline (front ++ rest)
        rw [cut] at member
        rw [List.cons_append, longer]
        rcases List.mem_cons.mp member with rfl | member
        · exact ⟨c :: line, List.mem_cons_self, inside.trans (List.suffix_cons c line)⟩
        · exact ⟨line, List.mem_cons_of_mem _ member, inside⟩

theorem lines_append_of_no_newline {line text first : Text} {others : List Text}
    (single : '\n' ∉ line) (cut : lines text = first :: others) :
    lines (line ++ text) = (line ++ first) :: others := by
  induction line with
  | nil => exact cut
  | cons c line induction =>
      simp only [List.mem_cons, not_or] at single
      obtain ⟨first', others', rest_lines, cons_lines⟩ :=
        lines_cons (Ne.symm single.1) (line ++ text)
      rw [induction single.2, List.cons.injEq] at rest_lines
      rw [List.cons_append, cons_lines, ← rest_lines.1, ← rest_lines.2]
      rfl

theorem no_newline_of_mem_lines {text line : Text} (member : line ∈ lines text) :
    '\n' ∉ line := by
  induction text generalizing line with
  | nil => simp_all [lines_nil]
  | cons c text induction =>
      by_cases newline : c = '\n'
      · subst newline
        rw [lines_newline, List.mem_cons] at member
        rcases member with rfl | member
        · simp
        · exact induction member
      · obtain ⟨first, others, rest_lines, cons_lines⟩ := lines_cons newline text
        rw [cons_lines, List.mem_cons] at member
        rcases member with rfl | member
        · have first_clean : '\n' ∉ first := induction (by simp [rest_lines])
          simp [Ne.symm newline, first_clean]
        · exact induction (by simp [rest_lines, member])

theorem lines_join_lines {pieces : List Text} (present : pieces ≠ [])
    (single : ∀ piece ∈ pieces, '\n' ∉ piece) : lines (joinLines pieces) = pieces := by
  induction pieces with
  | nil => exact absurd rfl present
  | cons piece pieces induction =>
      have piece_single := single piece (by simp)
      cases pieces with
      | nil => simpa [join_lines_cons] using lines_of_no_newline piece_single
      | cons next pieces =>
          have below := induction (by simp) fun other member => single other (by simp [member])
          rw [join_lines_cons, lines_below_of_cons, lines_append_newline,
            lines_of_no_newline piece_single, below]
          rfl

theorem infix_lines_below {piece : Text} {pieces : List Text} (member : piece ∈ pieces) :
    piece <:+: linesBelow pieces := by
  induction pieces with
  | nil => cases member
  | cons next pieces induction =>
      rw [lines_below_cons]
      rcases List.mem_cons.mp member with rfl | member
      · exact ⟨['\n'], linesBelow pieces, by simp⟩
      · exact (induction member).trans ⟨'\n' :: next, [], by simp⟩

theorem infix_of_mem_lines {text line : Text} (member : line ∈ lines text) : line <:+: text := by
  have joined := join_lines_of_lines text
  cases cut : lines text with
  | nil => exact absurd cut (lines_ne_nil text)
  | cons first others =>
      rw [cut, join_lines_cons] at joined
      rw [cut] at member
      rcases List.mem_cons.mp member with rfl | member
      · exact ⟨[], linesBelow others, by simpa using joined⟩
      · exact (infix_lines_below member).trans ⟨first, [], by simpa using joined⟩

/-- Over texts this is decided by running through them. -/
theorem only_newlines_of_all {text : Text}
    (only : text.all (fun c => !isTerminator c || c == '\n') = true) :
    ∀ c ∈ text, isTerminator c = true → c = '\n' := by
  intro c member ends
  simpa [ends] using List.all_eq_true.mp only c member

theorem newline_count_append (front back : Text) :
    newlineCount (front ++ back) = newlineCount front + newlineCount back :=
  List.count_append

@[simp] theorem newline_count_nil : newlineCount [] = 0 := rfl

@[simp] theorem newline_count_newline (rest : Text) :
    newlineCount ('\n' :: rest) = newlineCount rest + 1 := by
  simp [newlineCount]

theorem newline_count_cons {c : Char} (plain : c ≠ '\n') (rest : Text) :
    newlineCount (c :: rest) = newlineCount rest := by
  simp [newlineCount, plain]

theorem newline_count_of_no_newline {line : Text} (single : '\n' ∉ line) :
    newlineCount line = 0 :=
  List.count_eq_zero.mpr single

theorem length_lines (text : Text) : (lines text).length = newlineCount text + 1 := by
  induction text with
  | nil => rfl
  | cons c text induction =>
      by_cases newline : c = '\n'
      · subst newline
        simp [lines_newline, induction]
      · obtain ⟨first, others, rest_lines, cons_lines⟩ := lines_cons newline text
        rw [rest_lines] at induction
        rw [cons_lines, newline_count_cons newline, ← induction]
        rfl

end LessonBook.Text
