import LessonBook.Markup.Block.Reader
import LessonBook.Proofs.Text.Lines
import LessonBook.Proofs.Text.Weight

/-!
Every kind of block is read from the front of the text: what its reader leaves
is an end part of the text it was given. Most readers need a certain character,
and leave what stands behind it.
-/

namespace LessonBook

open Text Recognizer

namespace IndentedCode

theorem suffix_of_line {text rest : Text} (read : line? text = some rest) : rest <:+ text := by
  simp only [line?, Option.bind_eq_bind, Option.bind_eq_some_iff] at read
  obtain ⟨opened, blanks, written, first, read⟩ := read
  have left := (after_first_line_suffix written).trans ((suffix_of_one first).trans
    (suffix_of_word blanks))
  split at read
  · cases read
    exact List.nil_suffix
  · rename_i c after found
    cases read
    rw [found] at left
    exact (skip_space_lines_suffix after).trans ((List.suffix_cons c after).trans left)

theorem suffix_of_read {text content rest : Text} (read : read? text = some (content, rest)) :
    rest <:+ text := by
  simp only [read?, Option.bind_eq_bind, Option.bind_eq_some_iff, Option.some.injEq,
    Prod.mk.injEq] at read
  obtain ⟨after, line, -, rfl⟩ := read
  exact (many_suffix suffix_of_line after).trans (suffix_of_line line)

end IndentedCode

namespace FencedCode

theorem consumes_of_opening {text rest : Text} {opening : Opening}
    (read : opening? text = some (opening, rest)) : Consumes text rest := by
  simp only [opening?, Option.bind_eq_bind, Option.bind_eq_some_iff] at read
  obtain ⟨mark, head, read⟩ := read
  obtain ⟨inside, fenced⟩ := List.head?_eq_some_iff.mp head
  split at read
  · cases read
  · rename_i isMark
    have written : mark ≠ ' ' := by
      rintro rfl
      exact isMark (by decide)
    split at read
    · cases read
    · simp only [Option.bind_eq_some_iff, Option.some.injEq, Prod.mk.injEq] at read
      obtain ⟨after, ended, -, rfl⟩ := read
      have left : after <:+ inside := by
        apply (suffix_of_line_end ended).trans ((after_first_line_suffix _).trans _)
        rw [fenced, List.dropWhile_cons, if_pos (by simp)]
        exact List.dropWhile_suffix _
      exact ((consumes_cons written inside).trans_suffix left).of_suffix
        (fenced ▸ indent_suffix text)

theorem suffix_of_closing {opening : Opening} {text rest : Text}
    (read : closing? opening text = some rest) : rest <:+ text := by
  simp only [closing?, Option.bind_eq_bind, Option.bind_eq_some_iff] at read
  obtain ⟨run, fence, read⟩ := read
  split at read
  · cases read
    exact (List.dropWhile_suffix _).trans <| (List.dropWhile_suffix _).trans <|
      (suffix_of_word fence).trans (indent_suffix text)
  · cases read

theorem body_suffix {closing : Recognizer}
    (leaves : ∀ {text rest}, closing text = some rest → rest <:+ text) (text : Text) :
    (body closing text).2 <:+ text := by
  induction text with
  | nil => exact List.nil_suffix
  | cons c rest induction =>
      have inside := induction.trans (List.suffix_cons c rest)
      rw [body]
      split
      · split
        · exact List.nil_suffix
        · split
          · exact (leaves ‹_›).trans (List.suffix_cons c rest)
          · exact inside
      · exact inside

theorem consumes_of_read {text content rest : Text} (read : read? text = some (content, rest)) :
    Consumes text rest := by
  simp only [read?, Option.bind_eq_bind, Option.bind_eq_some_iff] at read
  obtain ⟨⟨opening, inside⟩, opened, read⟩ := read
  have begun := consumes_of_opening opened
  split at read
  · cases read
    exact begun.trans_suffix (suffix_of_closing ‹_›)
  · cases read
    exact begun.trans_suffix (body_suffix suffix_of_closing inside)

end FencedCode

namespace DefinitionList

theorem suffix_of_definition {text rest : Text} (read : definition? text = some rest) :
    rest <:+ text := by
  simp only [definition?, Option.bind_eq_bind, Option.bind_eq_some_iff] at read
  obtain ⟨inside, colon, blanks, spaced, written, first, ended⟩ := read
  exact (suffix_of_line_end ended).trans <| (after_first_line_suffix _).trans <|
    (suffix_of_one first).trans <| (suffix_of_some1 spaced).trans <|
    (suffix_of_char colon).trans (indent_suffix text)

theorem suffix_of_continuation {text rest : Text} (read : continuation? text = some rest) :
    rest <:+ text := by
  have written {inside : Text} (left : inside <:+ text)
      (read : (one (fun c => !isBlank c) inside).bind
        (fun after => lineEnd (afterFirstLine after)) = some rest) : rest <:+ text := by
    obtain ⟨after, first, ended⟩ := Option.bind_eq_some_iff.mp read
    exact (suffix_of_line_end ended).trans <| (after_first_line_suffix _).trans <|
      (suffix_of_one first).trans left
  simp only [continuation?, Option.bind_eq_bind] at read
  split at read
  · exact written ((List.dropWhile_suffix _).trans (List.suffix_append [' ', ' '] _)) read
  · exact written (List.suffix_cons '\t' _) read
  · cases read

theorem suffix_of_entry {text rest : Text} (read : entry? text = some rest) : rest <:+ text := by
  simp only [ entry?, Option.map_eq_some_iff] at read
  obtain ⟨after, definition, rfl⟩ := read
  exact (many_suffix suffix_of_continuation after).trans (suffix_of_definition definition)

theorem consumes_of_read {text rest : Text} {content : Text × List Text}
    (read : read? text = some (content, rest)) : Consumes text rest := by
  simp only [read?, Option.bind_eq_bind] at read
  split at read
  · cases read
  · simp only [Option.bind_eq_some_iff, Option.some.injEq, Prod.mk.injEq] at read
    obtain ⟨definitions, newline, after, entry, -, rfl⟩ := read
    exact ((consumes_of_char (by decide) newline).of_suffix
      ((after_first_line_suffix _).trans (indent_suffix text))).trans_suffix
        ((many_suffix suffix_of_entry after).trans (suffix_of_entry entry))

end DefinitionList

namespace FieldList

theorem consumes_of_key {text key rest : Text} (read : key? text = some (key, rest)) :
    Consumes text rest := by
  simp only [key?, Option.bind_eq_bind, Option.bind_eq_some_iff] at read
  obtain ⟨named, colon, read⟩ := read
  split at read
  · cases read
  · simp only [Option.bind_eq_some_iff, Option.some.injEq, Prod.mk.injEq] at read
    obtain ⟨after, colon', -, rfl⟩ := read
    exact ((consumes_of_char (by decide) colon).of_suffix (indent_suffix text)).trans_suffix
      ((suffix_of_char colon').trans (List.dropWhile_suffix _))

theorem consumes_of_line {text rest : Text} (read : line? text = some rest) : Consumes text rest := by
  simp only [line?, Option.bind_eq_bind, Option.bind_eq_some_iff] at read
  obtain ⟨⟨key, after⟩, named, read⟩ := read
  have begun := consumes_of_key named
  split at read
  · cases read
    exact begun.trans_suffix List.nil_suffix
  · split at read
    · exact begun.trans_suffix ((suffix_of_line_end read).trans (after_first_line_suffix _))
    · cases read

theorem consumes_of_read {text rest : Text} {fields : Record Text}
    (read : read? text = some (fields, rest)) : Consumes text rest := by
  simp only [read?, Option.bind_eq_bind, Option.bind_eq_some_iff, Option.some.injEq,
    Prod.mk.injEq] at read
  obtain ⟨after, line, -, rfl⟩ := read
  exact (consumes_of_line line).trans_suffix
    (many_suffix (fun read => (consumes_of_line read).suffix) after)

end FieldList

namespace FrontMatter

theorem suffix_of_closing {text rest : Text} (read : closing? text = some rest) :
    rest <:+ text := by
  simp only [closing?, Option.bind_eq_bind, Option.bind_eq_some_iff] at read
  obtain ⟨lineStart, newline, closed, delimiter, read⟩ := read
  have left : closed <:+ lineStart := by
    simp only [orElse] at delimiter
    split at delimiter
    · cases delimiter
      exact suffix_of_word ‹_›
    · exact suffix_of_word delimiter
  split at read
  · cases read
    exact (List.dropWhile_suffix _).trans (left.trans (suffix_of_char newline))
  · cases read

theorem consumes_of_read {text content rest : Text} (read : read? text = some (content, rest)) :
    Consumes text rest := by
  simp only [read?, Option.bind_eq_bind, Option.bind_eq_some_iff] at read
  obtain ⟨dashes, delimiter, inside, newline, found⟩ := read
  exact (consumes_of_word (by decide) delimiter).trans_suffix <|
    (suffix_of_first_match suffix_of_closing found).trans <|
      (suffix_of_char newline).trans (List.dropWhile_suffix _)

end FrontMatter

namespace ImageElement

theorem consumes_of_read {text rest : Text} {content : Text × Text}
    (read : read? text = some (content, rest)) : Consumes text rest := by
  simp only [read?, Option.bind_eq_bind, Option.bind_eq_some_iff] at read
  obtain ⟨inside, opened, read⟩ := read
  split at read
  · cases read
  · simp only [Option.bind_eq_some_iff] at read
    obtain ⟨closed, bracket, read⟩ := read
    split at read
    · cases read
    · simp only [Option.some.injEq, Prod.mk.injEq] at read
      obtain ⟨-, rfl⟩ := read
      exact ((consumes_of_word_any_case (by decide) opened).of_suffix (indent_suffix text)).trans_suffix
        ((List.dropWhile_suffix _).trans <| (suffix_of_char bracket).trans (List.dropWhile_suffix _))

end ImageElement

namespace Formula

theorem suffix_of_label {endsLine : Text → Bool} {text rest : Text} {label : Option Text}
    (read : label? endsLine text = some (label, rest)) : rest <:+ text := by
  have skipped := List.dropWhile_suffix (l := text) isSpaceOrTab
  rw [← skipSpacesAndTabs] at skipped
  simp only [label?] at read
  split at read
  · rename_i inside opened
    rw [opened] at skipped
    split at read
    · rename_i after closed
      split at read
      · cases read
        have left : after <:+ inside := (List.suffix_cons ')' after).trans
          (closed ▸ List.dropWhile_suffix _)
        exact (List.dropWhile_suffix _).trans <| left.trans <|
          (List.suffix_cons '(' inside).trans skipped
      · cases read
    · cases read
  · split at read
    · cases read
      exact skipped
    · cases read

theorem suffix_of_dollar_body {endsLine : Text → Bool} {text rest body : Text}
    {label : Option Text} (read : dollarBody? endsLine text = some (body, label, rest)) :
    rest <:+ text := by
  induction text generalizing body with
  | nil => cases read
  | cons c inside induction =>
      rw [dollarBody?] at read
      split at read
      · rename_i label' left found
        cases read
        obtain ⟨behind, signs, labelled⟩ := Option.bind_eq_some_iff.mp found
        exact (suffix_of_label labelled).trans (suffix_of_word signs)
      · simp only [Option.map_eq_some_iff] at read
        obtain ⟨⟨front, found⟩, later, same⟩ := read
        cases same
        exact (induction later).trans (List.suffix_cons c inside)

theorem consumes_of_dollar {endsLine : Text → Bool} {text rest : Text} {formula : Formula}
    (read : dollar? endsLine text = some (formula, rest)) : Consumes text rest := by
  simp only [dollar?, Option.bind_eq_bind, Option.bind_eq_some_iff, Option.some.injEq,
    Prod.mk.injEq] at read
  obtain ⟨opened, signs, ⟨body, label, left⟩, found, -, rfl⟩ := read
  exact ((consumes_of_word (by decide) signs).of_suffix (indent_suffix text)).trans_suffix
    (suffix_of_dollar_body found)

theorem suffix_of_environment_end {endsLine : Text → Bool} {name text rest : Text}
    (read : environmentEnd? endsLine name text = some rest) : rest <:+ text := by
  simp only [environmentEnd?, Option.bind_eq_bind, Option.bind_eq_some_iff] at read
  obtain ⟨named, command, closed, found, after, brace, read⟩ := read
  split at read
  · cases read
    exact (List.dropWhile_suffix _).trans <| (suffix_of_char brace).trans <|
      (suffix_of_word found).trans (suffix_of_word command)
  · cases read

theorem consumes_of_environment {endsLine : Text → Bool} {text rest : Text} {formula : Formula}
    (read : environment? endsLine text = some (formula, rest)) : Consumes text rest := by
  simp only [environment?, Option.bind_eq_bind, Option.bind_eq_some_iff] at read
  obtain ⟨opened, command, read⟩ := read
  have begun := (consumes_of_word (by decide) command).of_suffix (indent_suffix text)
  have left := List.dropWhile_suffix (l := opened) Char.isAlpha
  split at read
  · cases read
  · split at read <;> rename_i named
    · rw [named] at left
      simp only [Option.bind_eq_some_iff, Option.some.injEq, Prod.mk.injEq] at read
      obtain ⟨inside, brace, ⟨body, after⟩, found, -, rfl⟩ := read
      exact begun.trans_suffix <| (suffix_of_first_match suffix_of_environment_end found).trans <|
        (suffix_of_char brace).trans ((List.suffix_cons '*' _).trans left)
    · simp only [Option.bind_eq_some_iff, Option.some.injEq, Prod.mk.injEq] at read
      obtain ⟨inside, brace, ⟨body, after⟩, found, -, rfl⟩ := read
      exact begun.trans_suffix <| (suffix_of_first_match suffix_of_environment_end found).trans <|
        (suffix_of_char brace).trans left

end Formula

namespace ThematicBreak

theorem mark_of_rule {filler : Char → Bool} {mark : Char} {below : Text}
    (ruled : isRule filler (firstLine (mark :: below)) = true) :
    mark = '-' ∨ mark = '_' ∨ mark = '*' := by
  by_cases newline : mark = '\n'
  · rw [newline] at ruled
    cases ruled
  · rw [firstLine, List.takeWhile_cons, if_pos (by simpa [notNewline] using newline)] at ruled
    simp only [isRule, Bool.and_eq_true, Bool.or_eq_true, beq_iff_eq] at ruled
    exact or_assoc.mp ruled.1.1

theorem consumes_of_read {text rest : Text} (read : read? text = some rest) : Consumes text rest := by
  simp only [read?] at read
  split at read
  · rename_i ruled
    cases line : indent text with
    | nil =>
        rw [line] at ruled
        cases ruled
    | cons mark below =>
        rw [line] at ruled read
        have written : mark ≠ '\n' ∧ mark ≠ ' ' := by
          rcases mark_of_rule ruled with rfl | rfl | rfl <;> decide
        have left : rest <:+ below := by
          apply (suffix_of_line_ends read).trans
          rw [afterFirstLine, List.dropWhile_cons, if_pos (by simpa [notNewline] using written.1)]
          exact List.dropWhile_suffix _
        exact ((consumes_cons written.2 below).trans_suffix left).of_suffix (line ▸ indent_suffix text)
  · cases read

end ThematicBreak

namespace Heading

theorem consumes_of_signs {text rest : Text} (read : afterSigns? text = some rest) :
    Consumes text rest := by
  simp only [afterSigns?] at read
  split at read
  · rename_i deep
    cases read
    cases opened : indent text with
    | nil =>
        rw [opened] at deep
        cases deep
    | cons c below =>
        have sign : c = '#' := by
          by_contra other
          simp [opened, other] at deep
        rw [sign] at opened ⊢
        rw [List.dropWhile_cons, if_pos (by decide)]
        exact ((consumes_cons (by decide) below).trans_suffix (List.dropWhile_suffix _)).of_suffix
          (opened ▸ indent_suffix text)
  · cases read

theorem consumes_of_read {text content rest : Text} (read : read? text = some (content, rest)) :
    Consumes text rest := by
  simp only [read?, Option.bind_eq_bind, Option.bind_eq_some_iff] at read
  obtain ⟨line, signs, read⟩ := read
  split at read
  · cases read
  · simp only [Option.bind_eq_some_iff, Option.some.injEq, Prod.mk.injEq] at read
    obtain ⟨after, ended, -, rfl⟩ := read
    exact (consumes_of_signs signs).trans_suffix
      ((suffix_of_line_ends ended).trans (after_first_line_suffix _))

theorem suffix_of_underline {text rest : Text} (read : underline? text = some rest) :
    rest <:+ text := by
  simp only [underline?, Option.bind_eq_bind, Option.bind_eq_some_iff] at read
  obtain ⟨mark, -, read⟩ := read
  split at read
  · cases read
  · exact (suffix_of_line_ends read).trans <| (List.dropWhile_suffix _).trans <|
      (List.dropWhile_suffix _).trans (indent_suffix text)

theorem suffix_of_underlined_text {text front rest : Text}
    (read : underlinedText? text = some (front, rest)) : rest <:+ text := by
  induction text generalizing front with
  | nil => cases read
  | cons c inside induction =>
      have later {shift : Text × Text → Text × Text}
          (read : (underlinedText? inside).map shift = some (front, rest))
          (keeps : ∀ found, (shift found).2 = found.2) : rest <:+ c :: inside := by
        obtain ⟨⟨inner, left⟩, found, same⟩ := Option.map_eq_some_iff.mp read
        have kept := keeps (inner, left)
        rw [same] at kept
        cases kept
        exact (induction found).trans (List.suffix_cons c inside)
      rw [underlinedText?] at read
      split at read
      · split at read
        · cases read
          exact (suffix_of_underline ‹_›).trans (List.suffix_cons c inside)
        · split at read
          · cases read
          · exact later read fun _ => rfl
      · split at read
        · cases read
        · exact later read fun _ => rfl

theorem suffix_of_underlined {text content rest : Text}
    (read : underlined? text = some (content, rest)) : rest <:+ text := by
  unfold underlined? at read
  split at read
  · cases read
  · split at read
    · cases read
    · rename_i c inside _
      split at read
      · cases read
      · obtain ⟨⟨inner, left⟩, found, same⟩ := Option.map_eq_some_iff.mp read
        cases same
        exact (suffix_of_underlined_text found).trans (List.suffix_cons c inside)

end Heading

end LessonBook
