import LessonBook.Proofs.Markup.Step

/-!
Most kinds of blocks leave off with the text, in front of a newline or right
behind one.
-/

namespace LessonBook

open Text Recognizer BlockReader

/-- What is left begins with the end of a line, or right behind one. -/
def EndsLine (text rest : Text) : Prop :=
  atLineEnd rest = true ∨ '\n' :: rest <:+ text

theorem ends_line_nil (text : Text) : EndsLine text [] :=
  .inl rfl

theorem EndsLine.of_suffix {whole text rest : Text} (ends : EndsLine text rest)
    (inside : text <:+ whole) : EndsLine whole rest := by
  rcases ends with ended | behind
  · exact .inl ended
  · exact .inr (behind.trans inside)

namespace Recognizer

variable {step : Recognizer} {whole text rest : Text}

theorem ends_line_of_line_end (read : lineEnd text = some rest) : EndsLine text rest := by
  cases text with
  | nil =>
      cases read
      exact ends_line_nil []
  | cons c below =>
      simp only [lineEnd, beq_iff_eq] at read
      split at read
      · rename_i newline
        cases read
        rw [newline]
        exact .inr (List.suffix_refl _)
      · cases read

theorem newline_skip_newlines (text : Text) : '\n' :: skipNewlines text <:+ '\n' :: text := by
  induction text with
  | nil => exact List.suffix_refl _
  | cons c text induction =>
      rw [skipNewlines, List.dropWhile_cons]
      split
      · rename_i newline
        rw [beq_iff_eq] at newline
        rw [newline]
        exact induction.trans (List.suffix_cons '\n' _)
      · exact List.suffix_refl _

theorem ends_line_skip_newlines (ends : EndsLine whole text) (inside : text <:+ whole) :
    EndsLine whole (skipNewlines text) := by
  rcases ends with ended | behind
  · rcases line_end_cases ended with rfl | ⟨below, rfl⟩
    · exact ends_line_nil whole
    · exact .inr ((newline_skip_newlines below).trans inside)
  · exact .inr ((newline_skip_newlines text).trans behind)

theorem ends_line_of_line_ends (read : lineEnds text = some rest) : EndsLine text rest := by
  cases text with
  | nil =>
      cases read
      exact ends_line_nil []
  | cons c below =>
      simp only [lineEnds, beq_iff_eq] at read
      split at read
      · rename_i newline
        cases read
        rw [newline]
        exact .inr (newline_skip_newlines below)
      · cases read

theorem skip_space_lines_ends (text : Text) :
    skipSpaceLines text = text ∨ EndsLine text (skipSpaceLines text) := by
  obtain ⟨raw, split, -, ends⟩ : ∃ raw, raw ++ skipSpaceLines text = text ∧
      (∀ c ∈ raw, c = ' ' ∨ c = '\n') ∧
      (raw = [] ∨ skipSpaceLines text = [] ∨ raw.getLast? = some '\n') :=
    space_lines_split [] rfl (by simp)
  rcases ends with rfl | nothing | last
  · exact .inl split
  · rw [nothing]
    exact .inr (ends_line_nil text)
  · obtain ⟨front, rfl⟩ := List.getLast?_eq_some_iff.mp last
    rw [← List.append_cons] at split
    exact .inr (.inr ⟨front, split⟩)

theorem newline_skip_space_lines (text : Text) : EndsLine ('\n' :: text) (skipSpaceLines text) := by
  rcases skip_space_lines_ends text with same | ends
  · rw [same]
    exact .inr (List.suffix_refl _)
  · exact ends.of_suffix (List.suffix_cons '\n' text)

theorem many_preserves (Kept : Text → Prop)
    (each : ∀ {text rest}, step text = some rest → Kept text → Kept rest) (started : Kept text) :
    Kept (many step text) := by
  have bounded : ∀ count text, Kept text → Kept (repeatUpTo step count text) := by
    intro count
    induction count with
    | zero => exact fun text started => started
    | succ count induction =>
        intro text started
        rw [repeatUpTo]
        split
        · exact induction _ (each ‹_› started)
        · exact started
  exact bounded text.length text started

theorem ends_line_many (leaves : ∀ {text rest}, step text = some rest → rest <:+ text)
    (each : ∀ {text rest}, step text = some rest → EndsLine text rest)
    (started : EndsLine whole text) (inside : text <:+ whole) :
    EndsLine whole (many step text) := by
  have kept : EndsLine whole (many step text) ∧ many step text <:+ whole := by
    apply many_preserves fun here => EndsLine whole here ∧ here <:+ whole
    · intro here rest read before
      exact ⟨(each read).of_suffix before.2, (leaves read).trans before.2⟩
    · exact ⟨started, inside⟩
  exact kept.1

theorem read_of_first_match {front : Text} (found : firstMatch step text = some (front, rest)) :
    ∃ here, here <:+ text ∧ step here = some rest := by
  induction text generalizing front with
  | nil =>
      simp only [firstMatch, Option.map_eq_some_iff] at found
      obtain ⟨left, read, same⟩ := found
      cases same
      exact ⟨[], List.suffix_refl _, read⟩
  | cons c text induction =>
      simp only [firstMatch] at found
      split at found
      · cases found
        exact ⟨c :: text, List.suffix_refl _, ‹_›⟩
      · simp only [Option.map_eq_some_iff] at found
        obtain ⟨⟨inner, left⟩, later, same⟩ := found
        cases same
        obtain ⟨here, inside, read⟩ := induction later
        exact ⟨here, inside.trans (List.suffix_cons c text), read⟩

theorem through_first_cases (step : Recognizer) (text : Text) :
    throughFirst step text = [] ∨
      ∃ here, here <:+ text ∧ step here = some (throughFirst step text) := by
  unfold throughFirst
  split
  · rename_i front rest found
    exact .inr (read_of_first_match found)
  · exact .inl rfl

end Recognizer

namespace IndentedCode

theorem ends_line_of_line {text rest : Text} (read : line? text = some rest) :
    EndsLine text rest := by
  simp only [line?, Option.bind_eq_bind, Option.bind_eq_some_iff] at read
  obtain ⟨opened, blanks, written, first, read⟩ := read
  have left := (after_first_line_suffix written).trans ((suffix_of_one first).trans
    (suffix_of_word blanks))
  have ended := Directive.after_first_line_ends written
  split at read
  · cases read
    exact ends_line_nil text
  · rename_i c below found
    cases read
    rw [found] at left ended
    have newline : c = '\n' := by simpa [atLineEnd] using ended
    rw [newline] at left
    exact (newline_skip_space_lines below).of_suffix left

theorem ends_line_of_read {text content rest : Text} (read : read? text = some (content, rest)) :
    EndsLine text rest := by
  simp only [read?, Option.bind_eq_bind, Option.bind_eq_some_iff, Option.some.injEq,
    Prod.mk.injEq] at read
  obtain ⟨after, line, -, rfl⟩ := read
  exact ends_line_many suffix_of_line ends_line_of_line (ends_line_of_line line)
    (suffix_of_line line)

end IndentedCode

namespace FencedCode

theorem ends_line_of_closing {opening : Opening} {text rest : Text}
    (read : closing? opening text = some rest) : EndsLine text rest := by
  simp only [closing?, Option.bind_eq_bind, Option.bind_eq_some_iff] at read
  obtain ⟨run, fence, read⟩ := read
  split at read
  · rename_i ended
    cases read
    exact .inl ended
  · cases read

theorem body_ends_line {closing : Recognizer}
    (each : ∀ {text rest}, closing text = some rest → EndsLine text rest) (text : Text) :
    EndsLine text (body closing text).2 := by
  induction text with
  | nil => exact ends_line_nil []
  | cons c rest induction =>
      have inside := induction.of_suffix (List.suffix_cons c rest)
      rw [body]
      split
      · split
        · exact ends_line_nil _
        · split
          · exact (each ‹_›).of_suffix (List.suffix_cons c rest)
          · exact inside
      · exact inside

theorem ends_line_of_read {text content rest : Text} (read : read? text = some (content, rest)) :
    EndsLine text rest := by
  simp only [read?, Option.bind_eq_bind, Option.bind_eq_some_iff] at read
  obtain ⟨⟨opening, inside⟩, opened, read⟩ := read
  have left := (consumes_of_opening opened).suffix
  split at read
  · cases read
    exact (ends_line_of_closing ‹_›).of_suffix left
  · cases read
    exact (body_ends_line ends_line_of_closing inside).of_suffix left

end FencedCode

namespace DefinitionList

theorem ends_line_of_definition {text rest : Text} (read : definition? text = some rest) :
    EndsLine text rest := by
  simp only [definition?, Option.bind_eq_bind, Option.bind_eq_some_iff] at read
  obtain ⟨inside, colon, blanks, spaced, written, first, ended⟩ := read
  exact (ends_line_of_line_end ended).of_suffix <| (after_first_line_suffix _).trans <|
    (suffix_of_one first).trans <| (suffix_of_some1 spaced).trans <|
    (suffix_of_char colon).trans (indent_suffix text)

theorem ends_line_of_continuation {text rest : Text} (read : continuation? text = some rest) :
    EndsLine text rest := by
  have written {inside : Text} (left : inside <:+ text)
      (read : (one (fun c => !isBlank c) inside).bind
        (fun after => lineEnd (afterFirstLine after)) = some rest) : EndsLine text rest := by
    obtain ⟨after, first, ended⟩ := Option.bind_eq_some_iff.mp read
    exact (ends_line_of_line_end ended).of_suffix <| (after_first_line_suffix _).trans <|
      (suffix_of_one first).trans left
  simp only [continuation?, Option.bind_eq_bind] at read
  split at read
  · exact written ((List.dropWhile_suffix _).trans (List.suffix_append [' ', ' '] _)) read
  · exact written (List.suffix_cons '\t' _) read
  · cases read

theorem ends_line_of_entry {text rest : Text} (read : entry? text = some rest) :
    EndsLine text rest := by
  simp only [ entry?, Option.map_eq_some_iff] at read
  obtain ⟨after, definition, rfl⟩ := read
  exact ends_line_many suffix_of_continuation ends_line_of_continuation
    (ends_line_of_definition definition) (suffix_of_definition definition)

theorem ends_line_of_read {text rest : Text} {content : Text × List Text}
    (read : read? text = some (content, rest)) : EndsLine text rest := by
  simp only [read?, Option.bind_eq_bind] at read
  split at read
  · cases read
  · simp only [Option.bind_eq_some_iff, Option.some.injEq, Prod.mk.injEq] at read
    obtain ⟨definitions, newline, after, entry, -, rfl⟩ := read
    have below := ends_line_many suffix_of_entry ends_line_of_entry (ends_line_of_entry entry)
      (suffix_of_entry entry)
    exact below.of_suffix <| (suffix_of_char newline).trans <|
      (after_first_line_suffix _).trans (indent_suffix text)

end DefinitionList

namespace FieldList

theorem ends_line_of_line {text rest : Text} (read : line? text = some rest) :
    EndsLine text rest := by
  simp only [line?, Option.bind_eq_bind, Option.bind_eq_some_iff] at read
  obtain ⟨⟨key, after⟩, named, read⟩ := read
  split at read
  · cases read
    exact ends_line_nil text
  · split at read
    · exact (ends_line_of_line_end read).of_suffix
        ((after_first_line_suffix _).trans (consumes_of_key named).suffix)
    · cases read

theorem ends_line_of_read {text rest : Text} {fields : Record Text}
    (read : read? text = some (fields, rest)) : EndsLine text rest := by
  simp only [read?, Option.bind_eq_bind, Option.bind_eq_some_iff, Option.some.injEq,
    Prod.mk.injEq] at read
  obtain ⟨after, line, -, rfl⟩ := read
  exact ends_line_many (fun read => (consumes_of_line read).suffix) ends_line_of_line
    (ends_line_of_line line) (consumes_of_line line).suffix

end FieldList

namespace FrontMatter

theorem ends_line_of_closing {text rest : Text} (read : closing? text = some rest) :
    EndsLine text rest := by
  simp only [closing?, Option.bind_eq_bind, Option.bind_eq_some_iff] at read
  obtain ⟨lineStart, newline, closed, delimiter, read⟩ := read
  split at read
  · rename_i ended
    cases read
    exact .inl ended
  · cases read

theorem ends_line_of_read {text content rest : Text} (read : read? text = some (content, rest)) :
    EndsLine text rest := by
  simp only [read?, Option.bind_eq_bind, Option.bind_eq_some_iff] at read
  obtain ⟨dashes, delimiter, inside, newline, found⟩ := read
  obtain ⟨here, within, closed⟩ := read_of_first_match found
  exact (ends_line_of_closing closed).of_suffix <| within.trans <| (suffix_of_char newline).trans <|
    (List.dropWhile_suffix _).trans (suffix_of_word delimiter)

end FrontMatter

theorem ImageElement.ends_line_of_read {text rest : Text} {content : Text × Text}
    (read : read? text = some (content, rest)) : EndsLine text rest := by
  simp only [read?, Option.bind_eq_bind, Option.bind_eq_some_iff] at read
  obtain ⟨inside, opened, read⟩ := read
  split at read
  · cases read
  · simp only [Option.bind_eq_some_iff] at read
    obtain ⟨closed, bracket, read⟩ := read
    split at read
    · cases read
    · rename_i ended
      simp only [Option.some.injEq, Prod.mk.injEq] at read
      obtain ⟨-, rfl⟩ := read
      exact .inl (by simpa using ended)

namespace Formula

theorem ends_of_label {endsLine : Text → Bool} {text rest : Text} {label : Option Text}
    (read : label? endsLine text = some (label, rest)) : endsLine rest = true := by
  simp only [label?] at read
  split at read
  · split at read
    · split at read
      · rename_i ended
        cases read
        exact ended
      · cases read
    · cases read
  · split at read
    · rename_i ended
      cases read
      exact ended
    · cases read

theorem ends_of_dollar_body {endsLine : Text → Bool} {text rest body : Text}
    {label : Option Text} (read : dollarBody? endsLine text = some (body, label, rest)) :
    endsLine rest = true := by
  induction text generalizing body with
  | nil => cases read
  | cons c inside induction =>
      rw [dollarBody?] at read
      split at read
      · rename_i label' left found
        cases read
        obtain ⟨behind, signs, labelled⟩ := Option.bind_eq_some_iff.mp found
        exact ends_of_label labelled
      · simp only [Option.map_eq_some_iff] at read
        obtain ⟨⟨front, found⟩, later, same⟩ := read
        cases same
        exact induction later

theorem ends_of_dollar {endsLine : Text → Bool} {text rest : Text} {formula : Formula}
    (read : dollar? endsLine text = some (formula, rest)) : endsLine rest = true := by
  simp only [dollar?, Option.bind_eq_bind, Option.bind_eq_some_iff, Option.some.injEq,
    Prod.mk.injEq] at read
  obtain ⟨opened, signs, ⟨body, label, left⟩, found, -, rfl⟩ := read
  exact ends_of_dollar_body found

theorem ends_of_environment_end {endsLine : Text → Bool} {name text rest : Text}
    (read : environmentEnd? endsLine name text = some rest) : endsLine rest = true := by
  simp only [environmentEnd?, Option.bind_eq_bind, Option.bind_eq_some_iff] at read
  obtain ⟨named, command, closed, found, after, brace, read⟩ := read
  split at read
  · rename_i ended
    cases read
    exact ended
  · cases read

theorem ends_of_environment {endsLine : Text → Bool} {text rest : Text} {formula : Formula}
    (read : environment? endsLine text = some (formula, rest)) : endsLine rest = true := by
  simp only [environment?, Option.bind_eq_bind, Option.bind_eq_some_iff] at read
  obtain ⟨opened, command, read⟩ := read
  split at read
  · cases read
  · split at read
    · simp only [Option.bind_eq_some_iff, Option.some.injEq, Prod.mk.injEq] at read
      obtain ⟨inside, brace, ⟨body, after⟩, found, -, rfl⟩ := read
      obtain ⟨here, -, closed⟩ := read_of_first_match found
      exact ends_of_environment_end closed
    · simp only [Option.bind_eq_some_iff, Option.some.injEq, Prod.mk.injEq] at read
      obtain ⟨inside, brace, ⟨body, after⟩, found, -, rfl⟩ := read
      obtain ⟨here, -, closed⟩ := read_of_first_match found
      exact ends_of_environment_end closed

end Formula

theorem Directive.ends_line_of_read {colonFence : Bool} {text rest : Text} {directive : Directive}
    (read : read? colonFence text = some (directive, rest)) : EndsLine text rest := by
  simp only [read?, Option.bind_eq_bind, Option.bind_eq_some_iff] at read
  obtain ⟨⟨opening, below⟩, opened, read⟩ := read
  split at read
  · cases read
  · split at read
    · rename_i body after split
      cases read
      cases after with
      | nil => exact ends_line_nil text
      | cons line after => exact .inl rfl
    · cases read
      exact ends_line_nil text

theorem ThematicBreak.ends_line_of_read {text rest : Text} (read : read? text = some rest) :
    EndsLine text rest := by
  simp only [read?] at read
  split at read
  · exact (ends_line_of_line_ends read).of_suffix
      ((after_first_line_suffix _).trans (indent_suffix text))
  · cases read

namespace Heading

theorem ends_line_of_read {text content rest : Text} (read : read? text = some (content, rest)) :
    EndsLine text rest := by
  simp only [read?, Option.bind_eq_bind, Option.bind_eq_some_iff] at read
  obtain ⟨line, signs, read⟩ := read
  split at read
  · cases read
  · simp only [Option.bind_eq_some_iff, Option.some.injEq, Prod.mk.injEq] at read
    obtain ⟨after, ended, -, rfl⟩ := read
    exact (ends_line_of_line_ends ended).of_suffix
      ((after_first_line_suffix _).trans (consumes_of_signs signs).suffix)

theorem ends_line_of_underline {text rest : Text} (read : underline? text = some rest) :
    EndsLine text rest := by
  simp only [underline?, Option.bind_eq_bind, Option.bind_eq_some_iff] at read
  obtain ⟨mark, -, read⟩ := read
  split at read
  · cases read
  · exact (ends_line_of_line_ends read).of_suffix <| (List.dropWhile_suffix _).trans <|
      (List.dropWhile_suffix _).trans (indent_suffix text)

theorem ends_line_of_underlined_text {text front rest : Text}
    (read : underlinedText? text = some (front, rest)) : EndsLine text rest := by
  induction text generalizing front with
  | nil => cases read
  | cons c inside induction =>
      have later {shift : Text × Text → Text × Text}
          (read : (underlinedText? inside).map shift = some (front, rest))
          (keeps : ∀ found, (shift found).2 = found.2) : EndsLine (c :: inside) rest := by
        obtain ⟨⟨inner, left⟩, found, same⟩ := Option.map_eq_some_iff.mp read
        have kept := keeps (inner, left)
        rw [same] at kept
        cases kept
        exact (induction found).of_suffix (List.suffix_cons c inside)
      rw [underlinedText?] at read
      split at read
      · split at read
        · cases read
          exact (ends_line_of_underline ‹_›).of_suffix (List.suffix_cons c inside)
        · split at read
          · cases read
          · exact later read fun _ => rfl
      · split at read
        · cases read
        · exact later read fun _ => rfl

theorem ends_line_of_underlined {text content rest : Text}
    (read : underlined? text = some (content, rest)) : EndsLine text rest := by
  unfold underlined? at read
  split at read
  · cases read
  · split at read
    · cases read
    · rename_i c inside _
      split at read
      · cases read
      · obtain ⟨⟨inner, left⟩, found, same⟩ := Option.map_eq_some_iff.mp read
        cases same
        exact (ends_line_of_underlined_text found).of_suffix (List.suffix_cons c inside)

end Heading

namespace Table

theorem ends_line_of_row {text rest : Text} (read : row? text = some rest) :
    EndsLine text rest := by
  simp only [row?] at read
  split at read
  · cases read
  · exact (ends_line_of_line_end read).of_suffix (after_first_line_suffix text)

theorem ends_of_alignment_row {text rest : Text} (read : alignmentRow? text = some rest) :
    atLineEnd rest = true := by
  simp only [alignmentRow?, Option.bind_eq_bind, Option.bind_eq_some_iff] at read
  obtain ⟨first, aligned, read⟩ := read
  split at read
  · rename_i ended
    cases read
    exact ended
  · cases read

theorem ends_line_of_parts {text header alignments rows rest : Text}
    (read : parts? text = some (header, alignments, rows, rest)) : EndsLine text rest := by
  simp only [parts?, Option.bind_eq_bind, Option.bind_eq_some_iff] at read
  obtain ⟨⟨top, below⟩, headed, after, aligned, read⟩ := read
  have left := (suffix_of_alignment_row aligned).trans (consumes_of_header headed).suffix
  have ended := ends_of_alignment_row aligned
  split at read
  · cases read
    exact ends_line_nil text
  · rename_i c inside
    cases read
    have newline : c = '\n' := by simpa [atLineEnd] using ended
    rw [newline] at left
    have within := (List.suffix_cons '\n' inside).trans left
    exact ends_line_skip_newlines
      (ends_line_many suffix_of_row ends_line_of_row (.inr left) within)
      ((many_suffix suffix_of_row inside).trans within)

theorem ends_line_of_read {text rest : Text} {cells : List Text}
    (read : read? text = some (cells, rest)) : EndsLine text rest := by
  simp only [read?, Option.bind_eq_bind, Option.bind_eq_some_iff] at read
  obtain ⟨⟨header, alignments, rows, after⟩, parts, read⟩ := read
  split at read
  · cases read
  · split at read
    · cases read
    · cases read
      exact ends_line_of_parts parts

end Table

theorem Paragraph.ends_of_rest {tables : Bool} {text rest : Text}
    (read : rest? tables text = some rest) : atLineEnd rest = true := by
  simp only [rest?, Option.bind_eq_bind, Option.bind_eq_some_iff, Option.some.injEq] at read
  obtain ⟨after, -, rfl⟩ := read
  apply many_preserves fun here => atLineEnd here = true
  · intro here below continued ended
    simp only [continuation?, Option.bind_eq_bind, Option.bind_eq_some_iff] at continued
    obtain ⟨line, -, continued⟩ := continued
    split at continued
    · cases continued
    · simp only [Option.bind_eq_some_iff, Option.some.injEq] at continued
      obtain ⟨inside, -, rfl⟩ := continued
      exact Directive.after_first_line_ends inside
  · exact Directive.after_first_line_ends after

namespace Quote

theorem ends_line_of_piece {text rest : Text} (read : piece? text = some rest) :
    EndsLine text rest := by
  simp only [piece?, Option.bind_eq_bind, Option.bind_eq_some_iff] at read
  obtain ⟨behind, sign, read⟩ := read
  have quotes (inside : Text) :
      (Paragraph.rest? false inside).getD (afterFirstLine inside) <:+ inside := by
    cases found : Paragraph.rest? false inside with
    | none => exact after_first_line_suffix inside
    | some after => exact Paragraph.suffix_of_rest found
  apply (ends_line_of_line_end read).of_suffix
  apply (quotes _).trans
  apply List.IsSuffix.trans _ ((suffix_of_char sign).trans (indent_suffix text))
  split
  · exact List.suffix_cons ' ' _
  · exact List.suffix_refl behind

theorem ends_line_of_read {text content rest : Text} (read : read? text = some (content, rest)) :
    EndsLine text rest := by
  simp only [read?, Option.bind_eq_bind, Option.bind_eq_some_iff, Option.some.injEq,
    Prod.mk.injEq] at read
  obtain ⟨after, piece, -, rfl⟩ := read
  exact ends_line_many (fun read => (consumes_of_piece read).suffix) ends_line_of_piece
    (ends_line_of_piece piece) (consumes_of_piece piece).suffix

end Quote

end LessonBook
