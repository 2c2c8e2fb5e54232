import LessonBook.Proofs.Markup.Remainder

/-!
Blocks of HTML, tables, paragraphs, quotes and directives are read from the front too.
-/

namespace LessonBook

open Text Recognizer

theorem Recognizer.skip_newlines_suffix (text : Text) : skipNewlines text <:+ text :=
  List.dropWhile_suffix _

namespace Html

theorem suffix_of_blank_lines {text rest : Text} (read : blankLines? text = some rest) :
    rest <:+ text := by
  cases text with
  | nil => cases read
  | cons c inside =>
      simp only [blankLines?] at read
      split at read
      · cases read
      · split at read
        · cases read
          exact (List.drop_suffix _ inside).trans (List.suffix_cons c inside)
        · cases read

theorem through_blank_lines_suffix (text : Text) : throughBlankLines text <:+ text :=
  through_first_suffix suffix_of_blank_lines text

theorem suffix_of_block_name {text rest : Text} (read : afterBlockName? text = some rest) :
    rest <:+ text := by
  unfold afterBlockName? at read
  split at read
  · cases read
    exact (List.dropWhile_suffix _).trans (List.suffix_cons ' ' _)
  · cases read
    exact List.suffix_cons '\n' _
  · cases read
    exact List.suffix_cons '>' _
  · cases read
    exact List.suffix_append ['/', '>'] _
  · cases read

theorem skip_slash_suffix (text : Text) : skipSlash text <:+ text := by
  unfold skipSlash
  split
  · exact List.suffix_cons '/' _
  · exact List.suffix_refl text

theorem consumes_of_block_tag {fold : Text → Text} {text rest : Text}
    (read : blockTag? fold text = some rest) : Consumes text rest := by
  simp only [blockTag?, Option.bind_eq_bind, Option.bind_eq_some_iff] at read
  obtain ⟨inside, bracket, read⟩ := read
  split at read
  · cases read
  · exact (consumes_of_char (by decide) bracket).trans_suffix <| (suffix_of_block_name read).trans <|
      (List.dropWhile_suffix _).trans (skip_slash_suffix inside)

theorem suffix_of_rest_of_line {text rest : Text} (read : restOfLine? text = some rest) :
    rest <:+ text := by
  simp only [restOfLine?] at read
  split at read
  · cases read
  · cases read
    exact (skip_newlines_suffix _).trans (after_first_line_suffix text)

theorem consumes_of_raw_element {text rest : Text} (read : rawElement? text = some rest) :
    Consumes text rest := by
  simp only [rawElement?, Option.bind_eq_bind, Option.bind_eq_some_iff] at read
  obtain ⟨named, bracket, read⟩ := read
  split at read
  · cases read
  · simp only [Option.bind_eq_some_iff, Option.some.injEq] at read
    obtain ⟨inside, blank, rfl⟩ := read
    refine (consumes_of_char (by decide) bracket).trans_suffix (List.IsSuffix.trans
      (through_first_suffix ?_ inside) ((suffix_of_one blank).trans (List.dropWhile_suffix _)))
    intro here left found
    obtain ⟨after, closed, ended⟩ := Option.bind_eq_some_iff.mp found
    exact (suffix_of_rest_of_line ended).trans (suffix_of_word_any_case closed)

theorem consumes_of_comment {text rest : Text} (read : comment? text = some rest) :
    Consumes text rest := by
  simp only [comment?, Option.bind_eq_bind, Option.bind_eq_some_iff] at read
  obtain ⟨inside, opened, read⟩ := read
  refine (consumes_of_word (by decide) opened).trans_suffix
    ((suffix_of_line_ends read).trans ((after_first_line_suffix _).trans ?_))
  split
  · exact List.suffix_cons '>' _
  · exact List.suffix_append ['-', '>'] _
  · exact through_first_suffix suffix_of_word inside

theorem suffix_of_closing_word {closing : Recognizer}
    (leaves : ∀ {text rest}, closing text = some rest → rest <:+ text) {text rest : Text}
    (read : (closing text).map skipNewlines = some rest) : rest <:+ text := by
  obtain ⟨after, closed, rfl⟩ := Option.map_eq_some_iff.mp read
  exact (skip_newlines_suffix after).trans (leaves closed)

theorem consumes_of_instruction {text rest : Text} (read : instruction? text = some rest) :
    Consumes text rest := by
  simp only [instruction?, Option.bind_eq_bind, Option.bind_eq_some_iff, Option.some.injEq] at read
  obtain ⟨inside, opened, rfl⟩ := read
  exact (consumes_of_word (by decide) opened).trans_suffix
    (through_first_suffix (suffix_of_closing_word suffix_of_word) inside)

theorem consumes_of_declaration {text rest : Text} (read : declaration? text = some rest) :
    Consumes text rest := by
  simp only [declaration?, Option.bind_eq_bind, Option.bind_eq_some_iff, Option.some.injEq] at read
  obtain ⟨named, opened, inside, letter, rfl⟩ := read
  exact (consumes_of_word (by decide) opened).trans_suffix <|
    (through_first_suffix (suffix_of_closing_word suffix_of_char) inside).trans (suffix_of_one letter)

theorem consumes_of_character_data {text rest : Text} (read : characterData? text = some rest) :
    Consumes text rest := by
  simp only [characterData?, Option.bind_eq_bind, Option.bind_eq_some_iff,
    Option.some.injEq] at read
  obtain ⟨inside, opened, rfl⟩ := read
  exact (consumes_of_word_any_case (by decide) opened).trans_suffix
    (through_first_suffix (suffix_of_closing_word suffix_of_word) inside)

theorem consumes_of_block_element {text rest : Text} (read : blockElement? text = some rest) :
    Consumes text rest := by
  simp only [blockElement?, Option.bind_eq_bind, Option.bind_eq_some_iff, Option.some.injEq] at read
  obtain ⟨inside, tag, rfl⟩ := read
  exact (consumes_of_block_tag tag).trans_suffix (through_blank_lines_suffix inside)

theorem suffix_of_other_name {text rest : Text} (read : otherName? text = some rest) :
    rest <:+ text := by
  simp only [otherName?, Option.bind_eq_bind, Option.bind_eq_some_iff] at read
  obtain ⟨inside, letter, read⟩ := read
  split at read
  · cases read
  · cases read
    exact (List.dropWhile_suffix _).trans (suffix_of_one letter)

theorem suffix_of_attribute_value {text rest : Text} (read : attributeValue? text = some rest) :
    rest <:+ text := by
  unfold attributeValue? at read
  split at read
  · cases read
  · split at read
    · exact (suffix_of_char read).trans <| (List.dropWhile_suffix _).trans (List.suffix_cons _ _)
    · exact suffix_of_some1 read

theorem suffix_of_attributes {count : Nat} {text rest : Text}
    (read : attributes? count text = some rest) : rest <:+ text := by
  induction count generalizing text with
  | zero => cases read
  | succ count induction =>
      have skipped := List.dropWhile_suffix (l := text) (· == ' ')
      rw [← skipSpaces] at skipped
      simp only [attributes?] at read
      split at read
      · rename_i opened
        cases read
        exact (List.suffix_cons '>' _).trans (opened ▸ skipped)
      · rename_i opened
        cases read
        rw [opened] at skipped
        exact (List.suffix_append ['/', '>'] _).trans skipped
      · split at read
        · cases read
        · simp only [Option.bind_eq_bind, Option.bind_eq_some_iff] at read
          obtain ⟨started, first, read⟩ := read
          have left := (suffix_of_one first).trans skipped
          generalize behind : started.dropWhile
            (fun c => isWordChar c || c == '.' || c == ':' || c == '-') = afterName at read
          have named : afterName <:+ text := behind ▸ (List.dropWhile_suffix _).trans left
          have blanks := List.dropWhile_suffix (l := afterName) (· == ' ')
          rw [← skipSpaces] at blanks
          split at read
          · rename_i assigned equals
            simp only [Option.bind_eq_some_iff] at read
            obtain ⟨after, value, read⟩ := read
            exact (induction read).trans <| (suffix_of_attribute_value value).trans <|
              (List.dropWhile_suffix _).trans <| (List.suffix_cons '=' assigned).trans <|
              (equals ▸ blanks).trans named
          · exact (induction read).trans named

theorem consumes_of_other_element {text rest : Text} (read : otherElement? text = some rest) :
    Consumes text rest := by
  simp only [otherElement?, Option.bind_eq_bind, Option.bind_eq_some_iff] at read
  obtain ⟨opened, bracket, read⟩ := read
  have ends {inside : Text} (left : inside <:+ opened)
      (found : (if restIsBlank inside = true then some (throughBlankLines inside) else none) =
        some rest) : Consumes text rest := by
    split at found
    · cases found
      exact (consumes_of_char (by decide) bracket).trans_suffix
        ((through_blank_lines_suffix inside).trans left)
    · cases found
  split at read
  · rename_i closing
    simp only [Option.bind_eq_some_iff] at read
    obtain ⟨named, name, after, closed, read⟩ := read
    exact ends ((suffix_of_char closed).trans <| (List.dropWhile_suffix _).trans <|
      (suffix_of_other_name name).trans (List.suffix_cons '/' closing)) read
  · simp only [Option.bind_eq_some_iff] at read
    obtain ⟨named, name, after, closed, read⟩ := read
    exact ends ((suffix_of_attributes closed).trans (suffix_of_other_name name)) read

theorem consumes_of_read {text rest : Text} (read : read? text = some rest) : Consumes text rest := by
  simp only [read?, Option.or_eq_some_iff] at read
  have left := indent_suffix text
  rcases read with found | ⟨-, found | ⟨-, found | ⟨-, found | ⟨-, found | ⟨-, found | ⟨-, found⟩⟩⟩⟩⟩⟩
  · exact (consumes_of_raw_element found).of_suffix left
  · exact (consumes_of_comment found).of_suffix left
  · exact (consumes_of_instruction found).of_suffix left
  · exact (consumes_of_declaration found).of_suffix left
  · exact (consumes_of_character_data found).of_suffix left
  · exact (consumes_of_block_element found).of_suffix left
  · exact (consumes_of_other_element found).of_suffix left

end Html

namespace Table

theorem bar_suffix (text : Text) : bar text <:+ text := by
  unfold bar
  split
  · exact (List.dropWhile_suffix _).trans (List.suffix_cons '|' _)
  · exact List.suffix_refl text

theorem suffix_of_alignment {text rest : Text} (read : alignment? text = some rest) :
    rest <:+ text := by
  simp only [alignment?, Option.bind_eq_bind, Option.bind_eq_some_iff, Option.some.injEq] at read
  obtain ⟨after, dashes, rfl⟩ := read
  have left : after <:+ text := by
    apply (suffix_of_some1 dashes).trans
    split
    · exact List.suffix_cons ':' _
    · exact List.suffix_refl text
  refine (List.dropWhile_suffix _).trans (List.IsSuffix.trans ?_ left)
  split
  · exact List.suffix_cons ':' _
  · exact List.suffix_refl after

theorem suffix_of_next_alignment {text rest : Text} (read : nextAlignment? text = some rest) :
    rest <:+ text := by
  simp only [nextAlignment?, Option.bind_eq_bind, Option.bind_eq_some_iff] at read
  obtain ⟨after, sign, read⟩ := read
  exact (suffix_of_alignment read).trans ((List.dropWhile_suffix _).trans (suffix_of_char sign))

theorem suffix_of_alignment_row {text rest : Text} (read : alignmentRow? text = some rest) :
    rest <:+ text := by
  simp only [alignmentRow?, Option.bind_eq_bind, Option.bind_eq_some_iff] at read
  obtain ⟨first, aligned, read⟩ := read
  split at read
  · cases read
    exact (bar_suffix _).trans <| (many_suffix suffix_of_next_alignment first).trans <|
      (suffix_of_alignment aligned).trans <| (bar_suffix _).trans (indent_suffix text)
  · cases read

theorem consumes_of_header {text header rest : Text} (read : header? text = some (header, rest)) :
    Consumes text rest := by
  simp only [header?, Option.bind_eq_bind, Option.bind_eq_some_iff] at read
  obtain ⟨after, first, read⟩ := read
  split at read
  · cases read
  · simp only [Option.bind_eq_some_iff, Option.some.injEq, Prod.mk.injEq] at read
    obtain ⟨below, newline, -, rfl⟩ := read
    exact (consumes_of_char (by decide) newline).of_suffix <| (after_first_line_suffix _).trans <|
      (suffix_of_one first).trans (List.dropWhile_suffix _)

theorem suffix_of_row {text rest : Text} (read : row? text = some rest) : rest <:+ text := by
  simp only [row?] at read
  split at read
  · cases read
  · exact (suffix_of_line_end read).trans (after_first_line_suffix text)

theorem consumes_of_parts {text header alignments rows rest : Text}
    (read : parts? text = some (header, alignments, rows, rest)) : Consumes text rest := by
  simp only [parts?, Option.bind_eq_bind, Option.bind_eq_some_iff] at read
  obtain ⟨⟨top, below⟩, headed, after, aligned, read⟩ := read
  have begun := (consumes_of_header headed).trans_suffix (suffix_of_alignment_row aligned)
  split at read
  · cases read
    exact begun
  · rename_i c inside
    cases read
    exact begun.trans_suffix <| (skip_newlines_suffix _).trans <|
      (many_suffix suffix_of_row inside).trans (List.suffix_cons c inside)

theorem consumes_of_read {text rest : Text} {cells : List Text}
    (read : read? text = some (cells, rest)) : Consumes text rest := by
  simp only [read?, Option.bind_eq_bind, Option.bind_eq_some_iff] at read
  obtain ⟨⟨header, alignments, rows, after⟩, parts, read⟩ := read
  split at read
  · cases read
  · split at read
    · cases read
    · cases read
      exact consumes_of_parts parts

end Table

namespace Paragraph

theorem suffix_of_continuation {tables : Bool} {text rest : Text}
    (read : continuation? tables text = some rest) : rest <:+ text := by
  simp only [continuation?, Option.bind_eq_bind, Option.bind_eq_some_iff] at read
  obtain ⟨line, newline, read⟩ := read
  split at read
  · cases read
  · simp only [Option.bind_eq_some_iff, Option.some.injEq] at read
    obtain ⟨after, first, rfl⟩ := read
    exact (after_first_line_suffix _).trans ((suffix_of_one first).trans (suffix_of_char newline))

theorem suffix_of_rest {tables : Bool} {text rest : Text} (read : rest? tables text = some rest) :
    rest <:+ text := by
  simp only [rest?, Option.bind_eq_bind, Option.bind_eq_some_iff, Option.some.injEq] at read
  obtain ⟨after, first, rfl⟩ := read
  exact (many_suffix suffix_of_continuation _).trans <| (after_first_line_suffix after).trans
    (suffix_of_one first)

end Paragraph

namespace Quote

theorem piece_eq_some {text rest : Text} (read : piece? text = some rest) :
    ∃ behind, indent text = '>' :: behind ∧ rest <:+ behind := by
  simp only [piece?, Option.bind_eq_bind, Option.bind_eq_some_iff] at read
  obtain ⟨behind, sign, read⟩ := read
  have quotes (inside : Text) :
      (Paragraph.rest? false inside).getD (afterFirstLine inside) <:+ inside := by
    cases found : Paragraph.rest? false inside with
    | none => exact after_first_line_suffix inside
    | some after => exact Paragraph.suffix_of_rest found
  refine ⟨behind, char_eq_some_iff.mp sign, (suffix_of_line_end read).trans ((quotes _).trans ?_)⟩
  split
  · exact List.suffix_cons ' ' _
  · exact List.suffix_refl behind

theorem consumes_of_piece {text rest : Text} (read : piece? text = some rest) : Consumes text rest := by
  obtain ⟨behind, sign, left⟩ := piece_eq_some read
  exact ((consumes_cons (by decide) behind).trans_suffix left).of_suffix (sign ▸ indent_suffix text)

theorem consumes_of_read {text content rest : Text} (read : read? text = some (content, rest)) :
    Consumes text rest := by
  simp only [read?, Option.bind_eq_bind, Option.bind_eq_some_iff, Option.some.injEq,
    Prod.mk.injEq] at read
  obtain ⟨after, piece, -, rfl⟩ := read
  exact (consumes_of_piece piece).trans_suffix
    (many_suffix (fun read => (consumes_of_piece read).suffix) after)

end Quote

namespace ListItem

theorem suffix_of_read_list {checkBoxes : Bool} {text rest : Text} {contents : List Text}
    (read : readList? checkBoxes text = some (contents, rest)) : rest <:+ text := by
  simp only [readList?, Option.bind_eq_bind, Option.bind_eq_some_iff, Option.some.injEq,
    Prod.mk.injEq] at read
  obtain ⟨mark, -, -, rfl⟩ := read
  exact List.drop_suffix _ text

end ListItem

end LessonBook
