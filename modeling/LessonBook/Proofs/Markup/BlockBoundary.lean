import LessonBook.Proofs.Markup.LineBoundary
import LessonBook.Proofs.Text.Search
import LessonBook.Proofs.Text.Trim

/-!
Where all kinds of blocks leave off. Blocks of HTML may end with a tag in the
middle of a line, and lists do not take the blanks at their end.
-/

namespace LessonBook

open Text Recognizer BlockReader

/-- What is left begins with blanks to the end of a line, or behind a character
that ends a line or a tag. -/
def LeavesOff (text rest : Text) : Prop :=
  (∀ c ∈ firstLine rest, isBlank c = true) ∨
    ∃ c, (isTerminator c = true ∨ c = '>') ∧ c :: rest <:+ text

theorem LeavesOff.of_suffix {whole text rest : Text} (leaves : LeavesOff text rest)
    (inside : text <:+ whole) : LeavesOff whole rest := by
  rcases leaves with blank | ⟨c, isEnd, behind⟩
  · exact .inl blank
  · exact .inr ⟨c, isEnd, behind.trans inside⟩

theorem EndsLine.leaves_off {text rest : Text} (ends : EndsLine text rest) :
    LeavesOff text rest := by
  rcases ends with ended | behind
  · left
    intro c member
    rcases line_end_cases ended with rfl | ⟨below, rfl⟩ <;> cases member
  · exact .inr ⟨'\n', .inl (by decide), behind⟩

theorem leaves_off_skip_newlines {whole text : Text} {c : Char}
    (isEnd : isTerminator c = true ∨ c = '>') (behind : c :: text <:+ whole) :
    LeavesOff whole (skipNewlines text) := by
  cases text with
  | nil => exact (ends_line_nil whole).leaves_off
  | cons d below =>
      rw [skipNewlines, List.dropWhile_cons]
      split
      · rename_i newline
        rw [beq_iff_eq] at newline
        rw [newline] at behind
        have within := (List.suffix_cons c _).trans behind
        exact .inr ⟨'\n', .inl (by decide), (newline_skip_newlines below).trans within⟩
      · exact .inr ⟨c, isEnd, behind⟩

namespace Html

theorem ends_line_of_blank_lines {text rest : Text} (read : blankLines? text = some rest) :
    EndsLine text rest := by
  cases text with
  | nil => cases read
  | cons c inside =>
      simp only [blankLines?] at read
      split at read
      · cases read
      · generalize blank_eq : dropEndWhile (· == ' ')
          (inside.takeWhile fun d => d == ' ' || d == '\n') = blank at read
        split at read
        · rename_i newline
          cases read
          have front : blank <+: inside := by
            rw [← blank_eq]
            exact (drop_end_while_begins _ _).trans (List.takeWhile_prefix _)
          obtain ⟨after, rfl⟩ := front
          have present : blank ≠ [] := by
            rintro rfl
            cases newline
          obtain ⟨d, last⟩ : ∃ d, blank.getLast? = some d :=
            ⟨_, List.getLast?_eq_some_getLast present⟩
          rw [← blank_eq] at last
          have blanks := drop_end_while_last last
          rw [blank_eq] at last
          have member : d ∈ (blank ++ after).takeWhile fun d => d == ' ' || d == '\n' := by
            apply (drop_end_while_begins (· == ' ') _).subset
            rw [blank_eq]
            exact List.mem_of_getLast? last
          have isNewline : d = '\n' := by
            have inside := List.mem_takeWhile_imp member
            rw [blanks, Bool.false_or] at inside
            simpa using inside
          obtain ⟨front, rfl⟩ := List.getLast?_eq_some_iff.mp last
          right
          rw [List.drop_left, isNewline]
          exact ⟨c :: front, by simp⟩
        · cases read

theorem through_blank_lines_ends (text : Text) : EndsLine text (throughBlankLines text) := by
  rcases through_first_cases blankLines? text with nothing | ⟨here, inside, read⟩
  · rw [throughBlankLines, nothing]
    exact ends_line_nil text
  · exact (ends_line_of_blank_lines read).of_suffix inside

theorem ends_line_of_rest_of_line {text rest : Text} (read : restOfLine? text = some rest) :
    EndsLine text rest := by
  simp only [restOfLine?] at read
  split at read
  · cases read
  · cases read
    exact ends_line_skip_newlines (.inl (Directive.after_first_line_ends text))
      (after_first_line_suffix text)

theorem leaves_off_of_closing_word (letters : Text) {here text rest : Text} {last : Char}
    (isEnd : isTerminator last = true ∨ last = '>') (inside : here <:+ text)
    (read : (word (letters ++ [last]) here).map skipNewlines = some rest) :
    LeavesOff text rest := by
  obtain ⟨after, found, rfl⟩ := Option.map_eq_some_iff.mp read
  rw [word_eq_some_iff] at found
  apply leaves_off_skip_newlines isEnd
  exact List.IsSuffix.trans ⟨letters, by rw [found]; simp⟩ inside

theorem leaves_off_of_raw_element {text rest : Text} (read : rawElement? text = some rest) :
    LeavesOff text rest := by
  simp only [rawElement?, Option.bind_eq_bind, Option.bind_eq_some_iff] at read
  obtain ⟨named, bracket, read⟩ := read
  split at read
  · cases read
  · simp only [Option.bind_eq_some_iff, Option.some.injEq] at read
    obtain ⟨inside, blank, rfl⟩ := read
    have within := (suffix_of_one blank).trans
      ((List.dropWhile_suffix _).trans (suffix_of_char bracket))
    apply EndsLine.leaves_off
    rcases through_first_cases _ inside with nothing | ⟨here, left, found⟩
    · rw [nothing]
      exact ends_line_nil text
    · obtain ⟨after, closed, ended⟩ := Option.bind_eq_some_iff.mp found
      exact (ends_line_of_rest_of_line ended).of_suffix
        ((suffix_of_word_any_case closed).trans (left.trans within))

theorem leaves_off_of_comment {text rest : Text} (read : comment? text = some rest) :
    LeavesOff text rest := by
  simp only [comment?, Option.bind_eq_bind, Option.bind_eq_some_iff] at read
  obtain ⟨inside, opened, read⟩ := read
  refine ((ends_line_of_line_ends read).of_suffix ((after_first_line_suffix _).trans
    (List.IsSuffix.trans ?_ (suffix_of_word opened)))).leaves_off
  split
  · exact List.suffix_cons '>' _
  · exact List.suffix_append ['-', '>'] _
  · exact through_first_suffix suffix_of_word inside

theorem leaves_off_of_instruction {text rest : Text} (read : instruction? text = some rest) :
    LeavesOff text rest := by
  simp only [instruction?, Option.bind_eq_bind, Option.bind_eq_some_iff, Option.some.injEq] at read
  obtain ⟨inside, opened, rfl⟩ := read
  rcases through_first_cases _ inside with nothing | ⟨here, left, found⟩
  · rw [nothing]
    exact (ends_line_nil text).leaves_off
  · exact leaves_off_of_closing_word ['?'] (.inr rfl)
      (left.trans (suffix_of_word opened)) found

theorem leaves_off_of_declaration {text rest : Text} (read : declaration? text = some rest) :
    LeavesOff text rest := by
  simp only [declaration?, Option.bind_eq_bind, Option.bind_eq_some_iff, Option.some.injEq] at read
  obtain ⟨named, opened, inside, letter, rfl⟩ := read
  rcases through_first_cases _ inside with nothing | ⟨here, left, found⟩
  · rw [nothing]
    exact (ends_line_nil text).leaves_off
  · obtain ⟨after, closed, same⟩ := Option.map_eq_some_iff.mp found
    rw [← same]
    rw [char_eq_some_iff] at closed
    apply leaves_off_skip_newlines (.inr rfl)
    rw [← closed]
    exact left.trans ((suffix_of_one letter).trans (suffix_of_word opened))

theorem leaves_off_of_character_data {text rest : Text} (read : characterData? text = some rest) :
    LeavesOff text rest := by
  simp only [characterData?, Option.bind_eq_bind, Option.bind_eq_some_iff,
    Option.some.injEq] at read
  obtain ⟨inside, opened, rfl⟩ := read
  rcases through_first_cases _ inside with nothing | ⟨here, left, found⟩
  · rw [nothing]
    exact (ends_line_nil text).leaves_off
  · exact leaves_off_of_closing_word [']', ']'] (.inr rfl)
      (left.trans (suffix_of_word_any_case opened)) found

theorem ends_line_of_block_element {text rest : Text} (read : blockElement? text = some rest) :
    EndsLine text rest := by
  simp only [blockElement?, Option.bind_eq_bind, Option.bind_eq_some_iff, Option.some.injEq] at read
  obtain ⟨inside, tag, rfl⟩ := read
  exact (through_blank_lines_ends inside).of_suffix (consumes_of_block_tag tag).suffix

theorem ends_line_of_other_element {text rest : Text} (read : otherElement? text = some rest) :
    EndsLine text rest := by
  simp only [otherElement?, Option.bind_eq_bind, Option.bind_eq_some_iff] at read
  obtain ⟨opened, bracket, read⟩ := read
  have ends {inside : Text} (left : inside <:+ opened)
      (found : (if restIsBlank inside = true then some (throughBlankLines inside) else none) =
        some rest) : EndsLine text rest := by
    split at found
    · cases found
      exact (through_blank_lines_ends inside).of_suffix (left.trans (suffix_of_char bracket))
    · cases found
  split at read
  · rename_i closing
    simp only [Option.bind_eq_some_iff] at read
    obtain ⟨named, name, after, closed, read⟩ := read
    exact ends ((suffix_of_char closed).trans <| (List.dropWhile_suffix _).trans <|
      (suffix_of_other_name name).trans (List.suffix_cons '/' closing)) read
  · simp only [Option.bind_eq_some_iff] at read
    obtain ⟨named, name, after, closed, read⟩ := read
    exact ends ((suffix_of_attributes closed).trans (suffix_of_other_name name)) read

theorem leaves_off_of_read {text rest : Text} (read : read? text = some rest) :
    LeavesOff text rest := by
  simp only [read?, Option.or_eq_some_iff] at read
  have left := indent_suffix text
  rcases read with found | ⟨-, found | ⟨-, found | ⟨-, found | ⟨-, found | ⟨-, found | ⟨-, found⟩⟩⟩⟩⟩⟩
  · exact (leaves_off_of_raw_element found).of_suffix left
  · exact (leaves_off_of_comment found).of_suffix left
  · exact (leaves_off_of_instruction found).of_suffix left
  · exact (leaves_off_of_declaration found).of_suffix left
  · exact (leaves_off_of_character_data found).of_suffix left
  · exact (ends_line_of_block_element found).leaves_off.of_suffix left
  · exact (ends_line_of_other_element found).leaves_off.of_suffix left

end Html

theorem blank_of_digit {c : Char} (digit : c.isDigit = true) : isBlank c = false := by
  simp only [Char.isDigit, Bool.and_eq_true, decide_eq_true_eq, UInt32.le_iff_toNat_le] at digit
  have low : 48 ≤ c.toNat := digit.1
  have high : c.toNat ≤ 57 := digit.2
  simp only [isBlank, Bool.or_eq_false_iff, Bool.and_eq_false_iff, decide_eq_false_iff_not,
    beq_eq_false_iff_ne]
  omega

theorem Heading.list_mark_eq_some {text rest : Text} (read : listMark? text = some rest) :
    ∃ c below, text = c :: below ∧ isBlank c = false ∧ rest <:+ below := by
  cases text with
  | nil => cases read
  | cons c below =>
      refine ⟨c, below, rfl, ?_⟩
      simp only [listMark?] at read
      split at read
      · rename_i bullet
        cases read
        simp only [Bool.or_eq_true, beq_iff_eq, or_assoc] at bullet
        refine ⟨?_, List.suffix_refl rest⟩
        rcases bullet with rfl | rfl | rfl <;> decide
      · split at read
        · rename_i counted
          have digit : c.isDigit = true := by
            by_contra other
            simp [other] at counted
          rw [List.dropWhile_cons, if_pos digit] at read
          exact ⟨blank_of_digit digit, (suffix_of_one read).trans (List.dropWhile_suffix _)⟩
        · cases read

namespace ListItem

/-- The raw text of items and what is left of the text behind them. At the end of
the text the raw text has a newline of its own. -/
def Taken (text raw left : Text) : Prop :=
  (text = raw ++ left ∧ (left = [] ∨ raw = [] ∨ raw.getLast? = some '\n')) ∨
    (left = [] ∧ raw = text ++ ['\n'])

variable {mark : Mark} {width : Nat} {text raw rest left : Text}

theorem taken_line (split : text = raw ++ rest) :
    Taken text (raw ++ firstLine rest ++ ['\n']) ((afterFirstLine rest).drop 1) := by
  have whole := first_line_append_after rest
  rcases line_end_cases (Directive.after_first_line_ends rest) with nothing | ⟨below, newline⟩
  · rw [nothing, List.append_nil] at whole
    exact .inr ⟨by rw [nothing]; rfl, by rw [split, whole]⟩
  · refine .inl ⟨?_, .inr (.inr (by simp))⟩
    rw [newline] at whole
    rw [newline, split]
    calc
      raw ++ rest = raw ++ (firstLine rest ++ '\n' :: below) := congrArg (raw ++ ·) whole.symm
      _ = raw ++ firstLine rest ++ ['\n'] ++ ('\n' :: below).drop 1 := by simp

theorem extend_eq_some {item longer : Open} (found : extend? width item text = some longer) :
    longer.raw = item.raw ++ firstLine text ++ ['\n'] ∧
      ∃ added, longer.content = item.content ++ '\n' :: added ∧ added <:+ firstLine text := by
  simp only [extend?] at found
  split at found
  · cases found
  · split at found
    · cases found
    · cases found
      refine ⟨rfl, _, rfl, ?_⟩
      split
      · exact List.drop_suffix width _
      · exact List.suffix_refl _

theorem extend_all_preserves (Kept : Open → Text → Prop)
    (each : ∀ {item longer rest}, rest ≠ [] → extend? width item rest = some longer →
      Kept item rest → Kept longer ((afterFirstLine rest).drop 1))
    {count : Nat} {item extended : Open} (started : Kept item rest)
    (found : extendAll width count item rest = (extended, left)) : Kept extended left := by
  induction count generalizing item rest with
  | zero =>
      cases found
      exact started
  | succ count induction =>
      rw [extendAll] at found
      split at found
      · cases found
        exact started
      · rename_i present
        split at found
        · rename_i longer extends'
          exact induction (each (by simpa using present) extends' started) found
        · cases found
          exact started

theorem taken_extend_all {count : Nat} {item extended : Open} (taken : Taken text item.raw rest)
    (found : extendAll width count item rest = (extended, left)) :
    Taken text extended.raw left := by
  refine extend_all_preserves (fun item rest => Taken text item.raw rest) ?_ taken found
  intro item longer rest present extends' taken
  rw [(extend_eq_some extends').1]
  rcases taken with ⟨split, -⟩ | ⟨nothing, -⟩
  · exact taken_line split
  · exact absurd nothing present

theorem newline_before {text rest : Text} (behind : '\n' :: rest <:+ text) :
    (before text rest).getLast? = some '\n' := by
  obtain ⟨front, rfl⟩ := behind
  rw [List.append_cons, before_append]
  simp

theorem after_mark_eq_some {written : Text} (read : afterMark? written = some rest) :
    rest = (afterFirstLine written).drop 1 := by
  cases written with
  | nil =>
      cases read
      rfl
  | cons c below =>
      simp only [afterMark?] at read
      split at read
      · rw [line_end_of_end (Directive.after_first_line_ends _), Option.some.injEq] at read
        exact read.symm
      · cases read

theorem after_mark_ends {written : Text} (read : afterMark? written = some rest) :
    rest <:+ written ∧ (rest = [] ∨ '\n' :: rest <:+ written) := by
  have inside := after_first_line_suffix written
  rw [after_mark_eq_some read]
  refine ⟨(List.drop_suffix 1 _).trans inside, ?_⟩
  rcases line_end_cases (Directive.after_first_line_ends written) with nothing | ⟨below, newline⟩
  · exact .inl (by rw [nothing]; rfl)
  · rw [newline] at inside ⊢
    exact .inr inside

theorem marked_of_mark {found : Mark} (read : mark? text = some (found, rest)) :
    ∃ c below, isBlank c = false ∧ c :: below <:+ text ∧ rest <:+ below := by
  simp only [mark?, Option.bind_eq_bind, Option.bind_eq_some_iff] at read
  obtain ⟨after, marked, sign, -, read⟩ := read
  obtain ⟨c, below, split, kept, left⟩ := Heading.list_mark_eq_some marked
  have inside := split ▸ indent_suffix text
  split at read <;> cases read <;> exact ⟨c, below, kept, inside, left⟩

/-- How an item is read: behind its mark `written` follows, whose other lines are `rest`. -/
structure Opened (mark : Mark) (text written rest : Text) : Prop where
  marked : mark? text = some (mark, written)
  below : afterMark? written = some rest

theorem opened_of_read {content : Text} (read : read? mark text = some ((raw, content), left)) :
    ∃ written rest, Opened mark text written rest ∧
      ((raw = before text rest ++ firstLine rest ++ ['\n'] ∧ content = [] ∧
          left = (afterFirstLine rest).drop 1) ∨
        ∃ width count indented item,
          extendAll width count ⟨before text rest, (expandTabs (firstLine written)).drop indented,
            expandTabs (firstLine written), false⟩ rest = (item, left) ∧
          raw = item.raw ∧ content = item.content) := by
  simp only [read?, Option.bind_eq_bind] at read
  split at read
  · cases read
  · simp only [Option.bind_eq_some_iff] at read
    obtain ⟨⟨opening, written⟩, item, rest, behind, read⟩ := read
    simp only [item?, Option.bind_eq_bind, Option.bind_eq_some_iff] at item
    obtain ⟨⟨found, after⟩, marked, item⟩ := item
    split at item
    · cases item
    · rename_i same
      simp only [Option.bind_eq_some_iff, Option.some.injEq, Prod.mk.injEq] at item
      obtain ⟨-, -, -, rfl⟩ := item
      obtain rfl : found = mark := by simpa using same
      refine ⟨after, rest, ⟨marked, behind⟩, ?_⟩
      split at read
      · cases read
        exact .inl ⟨rfl, rfl, rfl⟩
      · cases read
        exact .inr ⟨_, _, _, _, rfl, rfl, rfl⟩

theorem taken_of_read {content : Text} (read : read? mark text = some ((raw, content), left)) :
    Taken text raw left := by
  obtain ⟨written, rest, opened, lines⟩ := opened_of_read read
  obtain ⟨c, below, -, marked, behind⟩ := marked_of_mark opened.marked
  have inside := behind.trans ((List.suffix_cons c below).trans marked)
  obtain ⟨within, ends⟩ := after_mark_ends opened.below
  have split := (before_append_rest (within.trans inside)).symm
  rcases lines with ⟨rfl, -, rfl⟩ | ⟨width, count, indented, item, extended, rfl, -⟩
  · exact taken_line split
  · refine taken_extend_all (.inl ⟨split, ?_⟩) extended
    rcases ends with nothing | newline
    · exact .inl nothing
    · exact .inr (.inr (newline_before (newline.trans inside)))

theorem Taken.append {raw' left' : Text} (taken : Taken text raw left) (present : left ≠ [])
    (more : Taken left raw' left') : Taken text (raw ++ raw') left' := by
  rcases taken with ⟨split, ends⟩ | ⟨nothing, -⟩
  · rcases more with ⟨split', ends'⟩ | ⟨nothing', whole'⟩
    · refine .inl ⟨by rw [split, split', List.append_assoc], ?_⟩
      rcases ends' with done | none | newline
      · exact .inl done
      · rw [none, List.append_nil]
        rcases ends with done | none' | newline
        · rw [done, none, List.nil_append] at split'
          exact .inl split'.symm
        · exact .inr (.inl none')
        · exact .inr (.inr newline)
      · refine .inr (.inr ?_)
        rw [List.getLast?_append, newline]
        rfl
    · exact .inr ⟨nothing', by rw [whole', split, List.append_assoc]⟩
  · exact absurd nothing present

theorem taken_of_read_all (mark : Mark) (count : Nat) (text : Text) :
    ∃ left, Taken text ((readAll mark count text).map Prod.fst).flatten left := by
  induction count generalizing text with
  | zero => exact ⟨text, .inl ⟨rfl, .inr (.inl rfl)⟩⟩
  | succ count induction =>
      rw [readAll]
      split
      · rename_i item rest found
        have taken := taken_of_read found
        rw [List.map_cons, List.flatten_cons]
        split
        · exact ⟨rest, by simpa using taken⟩
        · rename_i present
          obtain ⟨left, more⟩ := induction rest
          exact ⟨left, taken.append (by simpa using present) more⟩
      · exact ⟨text, .inl ⟨rfl, .inr (.inl rfl)⟩⟩

theorem Taken.suffix (taken : Taken text raw left) : left <:+ text := by
  rcases taken with ⟨split, -⟩ | ⟨nothing, -⟩
  · exact ⟨raw, split.symm⟩
  · exact nothing ▸ List.nil_suffix

theorem Taken.trimmed (taken : Taken text raw left) : trimEnd raw <+: text := by
  rcases taken with ⟨split, -⟩ | ⟨-, added⟩
  · exact (drop_end_while_begins isBlank raw).trans ⟨left, split.symm⟩
  · obtain ⟨blanks, whole, -⟩ := trim_end_newline (by rw [added]; simp : raw.getLast? = _)
    exact ⟨blanks, List.append_cancel_right (whole.trans added)⟩

/-- Behind a list that has lost the blanks at its end there are only blanks on the line. -/
theorem Taken.blank_line (taken : Taken text raw left) :
    text.drop (trimEnd raw).length = text ∨
      ∀ c ∈ firstLine (text.drop (trimEnd raw).length), isBlank c = true := by
  have drop (rest : Text) (split : text = trimEnd raw ++ rest) :
      text.drop (trimEnd raw).length = rest := drop_of_split split.symm
  have within {line : Text} (blanks : ∀ c ∈ line, isBlank c = true) :
      ∀ c ∈ firstLine line, isBlank c = true :=
    fun c member => blanks c ((List.takeWhile_prefix _).subset member)
  rcases taken with ⟨split, nothing | none | newline⟩ | ⟨-, added⟩
  · obtain ⟨back, whole, blanks⟩ := drop_end_while_split isBlank raw
    right
    rw [drop back (by rw [split, nothing, List.append_nil]; exact whole.symm)]
    exact within blanks
  · left
    rw [none]
    rfl
  · obtain ⟨blanks, whole, blank⟩ := trim_end_newline newline
    right
    have rest : text = trimEnd raw ++ (blanks ++ '\n' :: left) := by
      rw [split, ← List.append_assoc, List.append_cons, whole]
    rw [drop _ rest, firstLine,
      take_while_before_end notNewline (by decide) (rfl : atLineEnd ('\n' :: left) = true)]
    exact within blank
  · obtain ⟨blanks, whole, blank⟩ := trim_end_newline (by rw [added]; simp : raw.getLast? = _)
    right
    rw [drop blanks (List.append_cancel_right (added.symm.trans whole.symm))]
    exact within blank

theorem leaves_off_of_read_list {checkBoxes : Bool} {contents : List Text}
    (read : readList? checkBoxes text = some (contents, rest)) :
    rest = text ∨ LeavesOff text rest := by
  simp only [readList?, Option.bind_eq_bind, Option.bind_eq_some_iff, Option.some.injEq,
    Prod.mk.injEq] at read
  obtain ⟨mark, -, -, rfl⟩ := read
  obtain ⟨left, taken⟩ := taken_of_read_all mark text.length text
  exact taken.blank_line.imp id .inl

end ListItem

end LessonBook
