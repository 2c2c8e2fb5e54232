import LessonBook.Proofs.Admonition.Replacement
import LessonBook.Proofs.Markup.DirectiveBody
import LessonBook.Proofs.Text.Cut

/-!
The opening line of an admonition is read twice: as the opening of a directive,
and as the header that is written anew. Both readings find the same type and the
same title, but there is no header whose title goes on behind a Unicode line
terminator.
-/

namespace LessonBook

open Text Recognizer

namespace AdmonitionBracketing

open Directive (Opening isFenceMark isNameChar)

variable {spaces fence blanks type title : Text}

theorem not_blank_of_fence_mark {mark : Char} (isMark : isFenceMark mark = true) :
    isBlank mark = false := by
  simp only [isFenceMark, Bool.or_eq_true, beq_iff_eq] at isMark
  obtain (rfl | rfl) | rfl := isMark <;> decide

theorem fence_in_front (marks : ∀ c ∈ fence, isFenceMark c = true)
    (blank : ∀ c ∈ blanks, isBlank c = true) (back : Text) :
    (fence ++ (blanks ++ '\x7b' :: back)).takeWhile isFenceMark = fence ∧
      (fence ++ (blanks ++ '\x7b' :: back)).dropWhile isFenceMark = blanks ++ '\x7b' :: back := by
  cases blanks with
  | nil => exact ⟨take_while_in_front marks rfl back, drop_while_in_front marks rfl back⟩
  | cons c blanks =>
      have noMark : isFenceMark c = false := by
        cases isMark : isFenceMark c with
        | false => rfl
        | true =>
            have notBlank := not_blank_of_fence_mark isMark
            rw [blank c List.mem_cons_self] at notBlank
            cases notBlank
      exact ⟨take_while_in_front marks noMark _, drop_while_in_front marks noMark _⟩

theorem header_of_parts (space : ∀ c ∈ spaces, isBlank c = true)
    (marks : ∀ c ∈ fence, isFenceMark c = true) (long : 3 ≤ fence.length)
    (blank : ∀ c ∈ blanks, isBlank c = true) (present : type ≠ [])
    (inside : ∀ c ∈ type, (c != '\x7d') = true) :
    header? (spaces ++ (fence ++ (blanks ++ '\x7b' :: (type ++ '\x7d' :: title)))) =
      if (trim title).any isTerminator then none else some ⟨trim type, trim title⟩ := by
  obtain ⟨taken, left⟩ := fence_in_front marks blank (type ++ '\x7d' :: title)
  have start : skipBlanks (spaces ++ (fence ++ (blanks ++ '\x7b' :: (type ++ '\x7d' :: title)))) =
      fence ++ (blanks ++ '\x7b' :: (type ++ '\x7d' :: title)) := by
    cases fence with
    | nil => cases long
    | cons mark fence =>
        exact drop_while_in_front space (not_blank_of_fence_mark (marks mark List.mem_cons_self)) _
  have brace : skipBlanks (blanks ++ '\x7b' :: (type ++ '\x7d' :: title)) =
      '\x7b' :: (type ++ '\x7d' :: title) :=
    drop_while_in_front blank (by decide) _
  have opened := char_eq_some_iff.mpr brace
  have named := take_while_in_front inside (show ('\x7d' != '\x7d') = false by decide) title
  have closed := char_eq_some_iff.mpr
    (drop_while_in_front inside (show ('\x7d' != '\x7d') = false by decide) title)
  have occupied : type.isEmpty = false := by simpa using present
  simp only [header?, start, taken, left, if_pos long, opened, Option.bind_eq_bind,
    Option.bind_some, named, occupied, closed]
  rfl

/-- The header of a line that opens a directive. -/
theorem header_of_written {opening : Opening} {line : Text} (written : opening.IsWritten line) :
    header? line = if (trim opening.args).any isTerminator then none
      else some ⟨trim opening.name, trim opening.args⟩ := by
  obtain ⟨indentation, run, blanks, rfl, -, fence, long, isMark, blank, named, nameChars⟩ := written
  apply header_of_parts
  · intro c member
    rw [(List.mem_replicate.mp member).2]
    rfl
  · intro c member
    rw [fence] at member
    rwa [(List.mem_replicate.mp member).2]
  · rwa [fence, List.length_replicate]
  · intro c member
    obtain rfl | rfl := blank c member <;> rfl
  · exact named
  · intro c member
    have kept := nameChars c member
    simp only [isNameChar, Bool.and_eq_true] at kept
    exact kept.1.2

theorem any_terminator_eq_false_iff {text : Text} (noNewline : '\n' ∉ text)
    (noReturn : '\r' ∉ text) :
    text.any isTerminator = false ↔ '\u2028' ∉ text ∧ '\u2029' ∉ text := by
  have separator {c : Char} (member : c ∈ text) :
      isTerminator c = true ↔ c = '\u2028' ∨ c = '\u2029' := by
    have newline : c ≠ '\n' := fun same => noNewline (same ▸ member)
    have carriage : c ≠ '\r' := fun same => noReturn (same ▸ member)
    simp [isTerminator, newline, carriage, ← Char.toNat_inj]
  rw [List.any_eq_false]
  constructor
  · intro kept
    exact ⟨fun member => kept _ member (by decide), fun member => kept _ member (by decide)⟩
  · rintro ⟨noLine, noParagraph⟩ c member terminator
    rcases (separator member).mp terminator with rfl | rfl
    · exact noLine member
    · exact noParagraph member

theorem start_text_eq_if (type title : Text) : startText ⟨type, title⟩ =
    if title = [] then "**Start of ".toList ++ type ++ "**".toList
    else "**Start of ".toList ++ type ++ ": ".toList ++ title ++ "**".toList := by
  cases title with
  | nil => rfl
  | cons c title => rfl

/-- What is written in place of an opening line is the text for its header. -/
theorem text_at_start_of_apply_span {pageLines replaced : List (Text × Text)}
    {span : AdmonitionSpan} {line : Text} (here : textAt? pageLines span.startLine = some line)
    (apart : span.startLine ≠ span.endLine) (applied : applySpan pageLines span = .ok replaced) :
    ∃ header, header? line = some header ∧
      textAt? replaced span.startLine = some (startText header) := by
  obtain ⟨header, found, rfl⟩ := apply_span_eq_ok applied
  rw [openingHeader?, here, Option.bind_some] at found
  obtain ⟨shown, present, -⟩ := Option.map_eq_some_iff.mp here
  obtain ⟨inside, -⟩ := List.getElem?_eq_some_iff.mp present
  exact ⟨header, found, by rw [text_at_set_line_of_ne apart, text_at_set_line inside]⟩

end AdmonitionBracketing

theorem Directive.of_first_line {colonFence : Bool} {line left : Text} {below : List Text}
    {directive : Directive} {opening : Opening} (single : '\n' ∉ line)
    (opened : opening? line = some (opening, []))
    (read : read? colonFence (joinLines (line :: below)) = some (directive, left)) :
    directive.name = trim opening.name ∧ directive.args = trim opening.args := by
  have ended : atLineEnd (linesBelow below) = true := by cases below <;> rfl
  obtain ⟨others, cut⟩ := lines_first_line (joinLines (line :: below))
  have first : firstLine (joinLines (line :: below)) = line := by
    rw [join_lines_cons, first_line_before_end ended single]
  rw [first] at cut
  obtain ⟨found, alone, -, rfl⟩ := (read_iff_lines cut).mp ⟨left, read⟩
  rw [opened] at alone
  cases alone
  exact ⟨rfl, rfl⟩

open AdmonitionBracketing

variable {line rest : Text} {opening : Directive.Opening}

/-- A line that opens a directive is a header exactly when no Unicode line
terminator stands in the arguments. The type of the header is the name of the
directive, its title is the arguments, and these two are written. -/
theorem opening_line_is_header_iff (noNewline : '\n' ∉ line) (noReturn : '\r' ∉ line)
    (opened : Directive.opening? line = some (opening, rest)) :
    ((header? line).isSome = true ↔
        '\u2028' ∉ trim opening.args ∧ '\u2029' ∉ trim opening.args) ∧
      (∀ header, header? line = some header →
        header.type = trim opening.name ∧ header.title = trim opening.args) ∧
      (∀ colonFence below directive left,
        Directive.read? colonFence (joinLines (line :: below)) = some (directive, left) →
          directive.name = trim opening.name ∧ directive.args = trim opening.args) ∧
      ∀ pageLines replaced, ∀ span : AdmonitionSpan,
        textAt? pageLines span.startLine = some line → span.startLine ≠ span.endLine →
          applySpan pageLines span = .ok replaced → textAt? replaced span.startLine =
            some (if trim opening.args = [] then
                "**Start of ".toList ++ trim opening.name ++ "**".toList
              else "**Start of ".toList ++ trim opening.name ++ ": ".toList ++
                trim opening.args ++ "**".toList) := by
  have whole : firstLine line = line :=
    List.takeWhile_eq_self_iff.mpr (not_newline_of_single noNewline)
  have alone := (Directive.opening_first_line opened).1
  rw [whole] at alone
  have written := Directive.written_of_opening noNewline alone
  have argsInside : trim opening.args ⊆ line := by
    obtain ⟨indentation, run, blanks, shown, -⟩ := written
    intro c member
    rw [shown]
    simp [trim_subset _ member]
  have two := any_terminator_eq_false_iff (fun member => noNewline (argsInside member))
    (fun member => noReturn (argsInside member))
  have header := header_of_written written
  have found {shown : Header} (read : header? line = some shown) :
      shown = ⟨trim opening.name, trim opening.args⟩ := by
    rw [header] at read
    split at read
    · cases read
    · exact (Option.some.inj read).symm
  refine ⟨?_, ?_, ?_, ?_⟩
  · rw [← two, header]
    cases (trim opening.args).any isTerminator <;> simp
  · intro shown read
    rw [found read]
    exact ⟨rfl, rfl⟩
  · intro colonFence below directive left read
    exact Directive.of_first_line noNewline alone read
  · intro pageLines replaced span here apart applied
    obtain ⟨shown, read, text⟩ := text_at_start_of_apply_span here apart applied
    rw [text, found read, start_text_eq_if]

/-- Blanks and separators around the name and the title, which holds braces and a
fence; and a title that a separator cuts. -/
theorem opening_line_is_header_braces :
    let line := "  ~~~~\t\x7b note\u2028 \x7d \u3000A \x7bb\x7d :::\u2029".toList
    let opening : Directive.Opening :=
      ⟨'~', "~~~~".toList, " note\u2028 ".toList, " \u3000A \x7bb\x7d :::\u2029".toList⟩
    let cut := "```\x7btip\x7d a\u2028b".toList
    ('\n' ∉ line ∧ '\r' ∉ line ∧ Directive.opening? line = some (opening, []) ∧
      isAdmonitionName (trim opening.name) = true ∧ (header? line).isSome = true ∧
      ∀ header, header? line = some header →
        header.type = "note".toList ∧ header.title = "A \x7bb\x7d :::".toList) ∧
      ¬(header? cut).isSome = true := by
  intro line opening cut
  have noNewline : '\n' ∉ line := by decide
  have noReturn : '\r' ∉ line := by decide
  have opened : Directive.opening? line = some (opening, []) := by decide
  have agree := opening_line_is_header_iff noNewline noReturn opened
  have cutOpened : Directive.opening? cut =
      some (⟨'\x60', "```".toList, "tip".toList, " a\u2028b".toList⟩, []) := by decide
  have cutAgree := opening_line_is_header_iff (by decide) (by decide) cutOpened
  refine ⟨⟨noNewline, noReturn, opened, by decide, agree.1.mpr (by decide), fun header read => ?_⟩, ?_⟩
  · obtain ⟨type, title⟩ := agree.2.1 header read
    rw [type, title]
    exact ⟨by decide, by decide⟩
  · rw [cutAgree.1]
    decide

end LessonBook
