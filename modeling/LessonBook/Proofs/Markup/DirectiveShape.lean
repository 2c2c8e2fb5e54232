import LessonBook.Markup.Block.Directive
import LessonBook.Proofs.Text.FirstLine
import LessonBook.Proofs.Text.Lines

/-!
The lines of a directive. Its opening line is read by itself; a closed directive
consists of this line, the lines of its body, none of which closes it, and the
first line that does.
-/

namespace LessonBook.Directive

open Text Recognizer

theorem opening_before_end {line tail : Text} (ended : atLineEnd tail = true)
    (single : '\n' ∉ line) :
    opening? (line ++ tail) = (opening? line).map fun found => (found.1, tail.drop 1) := by
  have indented : indent (line ++ tail) = indent line ++ tail :=
    skip_up_to_before_end _ (by decide) ended 3 line
  simp only [opening?, indented]
  cases fenced : indent line with
  | nil =>
      obtain rfl | ⟨below, rfl⟩ := line_end_cases ended
      · rfl
      · rfl
  | cons mark rest =>
      simp only [List.cons_append, List.head?_cons, Option.bind_eq_bind, Option.bind_some]
      by_cases isMark : isFenceMark mark = true
      · have inside : ('\n' == mark) = false := by
          rw [beq_eq_false_iff_ne]
          rintro rfl
          exact absurd isMark (by decide)
        have braces := char_before_end '\x7b' (by decide) ended
        have closing := char_before_end '\x7d' (by decide) ended
        rw [← List.cons_append, take_while_before_end (· == mark) inside ended,
          drop_while_before_end (· == mark) inside ended, skip_spaces_and_tabs_before_end ended,
          braces]
        simp only [isMark, Bool.not_true, Bool.false_eq_true, if_false]
        split
        · rfl
        · cases braced : char '\x7b' (skipSpacesAndTabs ((mark :: rest).dropWhile (· == mark))) with
          | none => rfl
          | some named =>
              have left : named <:+ line := (suffix_of_char braced).trans <|
                (List.dropWhile_suffix _).trans <| (List.dropWhile_suffix _).trans <|
                (fenced ▸ indent_suffix line)
              simp only [Option.map_some, Option.bind_some,
                take_while_before_end isNameChar (by decide) ended,
                drop_while_before_end isNameChar (by decide) ended, closing]
              split
              · rfl
              · cases closed : char '\x7d' (named.dropWhile isNameChar) with
                | none => rfl
                | some args =>
                    have argsSingle : '\n' ∉ args := single_of_suffix single <|
                      (suffix_of_char closed).trans ((List.dropWhile_suffix _).trans left)
                    have alone := after_first_line_before_end (rfl : atLineEnd [] = true) argsSingle
                    have aloneFirst := first_line_before_end (rfl : atLineEnd [] = true) argsSingle
                    have endAlone : lineEnd [] = some [] := rfl
                    rw [List.append_nil] at alone aloneFirst
                    simp [after_first_line_before_end ended argsSingle, line_end_of_end ended,
                      first_line_before_end ended argsSingle, alone, aloneFirst, endAlone]
      · simp [isMark]

theorem first_line_single (text : Text) : '\n' ∉ firstLine text := by
  intro member
  exact absurd (List.mem_takeWhile_imp member) (by decide)

theorem after_first_line_ends (text : Text) : atLineEnd (afterFirstLine text) = true := by
  induction text with
  | nil => rfl
  | cons c rest induction =>
      by_cases newline : c = '\n'
      · subst newline
        rfl
      · have plain : notNewline c = true := by simp [notNewline, newline]
        rw [afterFirstLine, List.dropWhile_cons, if_pos plain]
        exact induction

theorem opening_first_line {text rest : Text} {opening : Opening}
    (read : opening? text = some (opening, rest)) :
    opening? (firstLine text) = some (opening, []) ∧ rest = (afterFirstLine text).drop 1 := by
  have split := opening_before_end (after_first_line_ends text) (first_line_single text)
  rw [first_line_append_after, read, eq_comm, Option.map_eq_some_iff] at split
  obtain ⟨⟨found, left⟩, alone, same⟩ := split
  have whole := opening_before_end (rfl : atLineEnd [] = true) (first_line_single text)
  rw [List.append_nil, alone] at whole
  cases same
  cases whole
  exact ⟨alone, rfl⟩

theorem fence_of_opening {text rest : Text} {opening : Opening}
    (read : opening? text = some (opening, rest)) :
    isFenceMark opening.mark = true ∧ 3 ≤ opening.fence.length ∧
      ∀ c ∈ opening.fence, c = opening.mark := by
  simp only [opening?, Option.bind_eq_bind, Option.bind_eq_some_iff] at read
  obtain ⟨mark, -, read⟩ := read
  split at read
  · cases read
  · rename_i isMark
    split at read
    · cases read
    · rename_i long
      simp only [Option.bind_eq_some_iff] at read
      obtain ⟨named, -, read⟩ := read
      split at read
      · cases read
      · simp only [Option.bind_eq_some_iff, Option.some.injEq, Prod.mk.injEq] at read
        obtain ⟨args, -, after, -, same, -⟩ := read
        subst same
        refine ⟨by simpa using isMark, Nat.not_lt.mp long, ?_⟩
        intro c member
        simpa using List.mem_takeWhile_imp member

theorem split_at_line_eq_some {isClosing : Text → Bool} {pieces front back : List Text}
    (found : splitAtLine isClosing pieces = some (front, back)) :
    ∃ last, pieces = front ++ last :: back ∧ isClosing last = true ∧
      ∀ line ∈ front, isClosing line = false := by
  induction pieces generalizing front with
  | nil => cases found
  | cons line pieces induction =>
      rw [splitAtLine] at found
      split at found
      · rename_i closing
        cases found
        exact ⟨line, rfl, closing, by simp⟩
      · rename_i open'
        obtain ⟨⟨inner, below⟩, later, same⟩ := Option.map_eq_some_iff.mp found
        cases same
        obtain ⟨last, rfl, closing, inside⟩ := induction later
        refine ⟨last, rfl, closing, ?_⟩
        intro other member
        rcases List.mem_cons.mp member with rfl | member
        · exact Bool.eq_false_iff.mpr open'
        · exact inside other member

theorem following_eq (pieces : List Text) : following pieces = linesBelow pieces := by
  cases pieces with
  | nil => rfl
  | cons piece pieces => rw [lines_below_of_cons]; rfl

structure Closed (directive : Directive) (opening : Opening) (first : Text) (body : List Text)
    (last : Text) : Prop where
  opens : opening? first = some (opening, [])
  name : directive.name = trim opening.name
  args : directive.args = trim opening.args
  fence : directive.fence = opening.fence
  content : directive.body = joinLines body
  inside : ∀ line ∈ body, closes opening.mark opening.fence.length line = false
  closing : closes opening.mark opening.fence.length last = true
  single : ∀ line ∈ first :: (body ++ [last]), '\n' ∉ line

/-- A directive is closed by the first line that can close it, and takes no more than this line. -/
theorem closed_of_read {colonFence : Bool} {text rest : Text} {directive : Directive}
    (read : read? colonFence text = some (directive, rest)) (closed : directive.closed = true) :
    ∃ opening first body last, Closed directive opening first body last ∧
      text = joinLines (first :: (body ++ [last])) ++ rest ∧ atLineEnd rest = true := by
  simp only [read?, Option.bind_eq_bind, Option.bind_eq_some_iff] at read
  obtain ⟨⟨opening, inside⟩, opened, read⟩ := read
  split at read
  · cases read
  · obtain ⟨alone, below⟩ := opening_first_line opened
    split at read
    · rename_i body after found
      cases read
      split at found
      · rename_i newline
        obtain ⟨last, cut, closing, open'⟩ := split_at_line_eq_some found
        have split : afterFirstLine text = '\n' :: inside := by
          obtain none | ⟨more, more_eq⟩ := line_end_cases (after_first_line_ends text)
          · have whole := first_line_append_after text
            rw [none, List.append_nil] at whole
            have last := first_line_single text
            rw [below, none, List.drop_nil, ← whole] at newline
            simp only [before, List.length_nil, Nat.sub_zero, List.take_length, beq_iff_eq]
              at newline
            exact absurd (List.mem_of_getLast? newline) (by rw [whole]; exact whole ▸ last)
          · rw [more_eq, below, more_eq]
            rfl
        have rest := join_lines_of_lines inside
        refine ⟨opening, firstLine text, body, last, ⟨alone, rfl, rfl, rfl, rfl, open', closing, ?_⟩,
          ?_, ?_⟩
        · intro line member
          rcases List.mem_cons.mp member with rfl | member
          · exact first_line_single text
          · have among : line ∈ lines inside := by
              rw [cut]
              rcases List.mem_append.mp member with member | member
              · exact List.mem_append_left _ member
              · exact List.mem_append_right _ (by simpa using Or.inl (List.mem_singleton.mp member))
            exact no_newline_of_mem_lines among
        · conv => lhs; rw [← first_line_append_after text, split, ← rest, cut]
          rw [join_lines_cons, following_eq, List.append_assoc, ← lines_below_append,
            List.append_assoc, List.singleton_append]
          exact congrArg _ (lines_below_of_ne_nil (by simp)).symm
        · rw [following_eq]
          cases after <;> rfl
      · cases found
    · cases read
      cases closed

theorem rest_of_unclosed {colonFence : Bool} {text rest : Text} {directive : Directive}
    (read : read? colonFence text = some (directive, rest)) (unclosed : directive.closed = false) :
    rest = [] := by
  simp only [read?, Option.bind_eq_bind, Option.bind_eq_some_iff] at read
  obtain ⟨⟨opening, inside⟩, opened, read⟩ := read
  split at read
  · cases read
  · split at read
    · cases read
      cases unclosed
    · cases read
      rfl

theorem suffix_of_read {colonFence : Bool} {text rest : Text} {directive : Directive}
    (read : read? colonFence text = some (directive, rest)) : rest <:+ text := by
  cases closed : directive.closed with
  | true =>
      obtain ⟨_, first, body, last, -, split, -⟩ := closed_of_read read closed
      exact ⟨_, split.symm⟩
  | false =>
      rw [rest_of_unclosed read closed]
      exact List.nil_suffix

end LessonBook.Directive
