import LessonBook.Proofs.Admonition.LineEnds
import LessonBook.Proofs.Admonition.SpanSearch
import LessonBook.Proofs.Text.Trim

/-!
The lines of a page after its admonitions were replaced. No replacement reads a
line that an earlier one wrote, so an opening line is read as it was on the page;
a line that closes several admonitions names the last of them.
-/

namespace LessonBook

open Text Recognizer

namespace AdmonitionBracketing

open AdmonitionSpan

theorem header_of_star (rest : Text) : header? ('*' :: rest) = none := rfl

/-- A header has a brace, its type is a part of the line, and its title stays on one line. -/
theorem header_eq_some {line : Text} {header : Header} (found : header? line = some header) :
    '\x7b' ∈ line ∧ header.type ⊆ line ∧ header.title.any isTerminator = false := by
  simp only [header?, bind, Option.bind_eq_some_iff] at found
  obtain ⟨inside, opened, found⟩ := found
  have part : '\x7b' :: inside <:+ line := by
    rw [← char_eq_some_iff.mp opened]
    apply (List.dropWhile_suffix _).trans
    split
    · exact (List.dropWhile_suffix _).trans (List.dropWhile_suffix _)
    · exact List.dropWhile_suffix _
  refine ⟨part.subset List.mem_cons_self, ?_⟩
  split at found
  · cases found
  · rw [Option.bind_eq_some_iff] at found
    obtain ⟨after, -, found⟩ := found
    split at found
    · cases found
    · rename_i plain
      cases found
      refine ⟨fun c member => part.subset (List.mem_cons_of_mem _ ?_), Bool.eq_false_iff.mpr plain⟩
      exact (List.takeWhile_prefix _).subset (trim_subset _ member)

theorem plain_of_header {line : Text} {header : Header} (plain : IsPlain line)
    (found : header? line = some header) : IsPlain header.type ∧ IsPlain header.title := by
  obtain ⟨-, inside, title⟩ := header_eq_some found
  refine ⟨plain.subset inside, ?_⟩
  rw [List.any_eq_false] at title
  intro c member
  have kept := title c member
  refine ⟨?_, ?_⟩ <;> rintro rfl <;> exact kept (by decide)

theorem header_of_closing {line : Text} (closing : isClosingLine line = true) :
    header? line = none := by
  cases found : header? line with
  | none => rfl
  | some header =>
      have inside : '\x7b' ∈ trim line := mem_trim (by decide) (header_eq_some found).1
      simp only [isClosingLine, Bool.and_eq_true, List.all_eq_true] at closing
      exact absurd (closing.2 _ inside) (by decide)

theorem start_text_eq (header : Header) : ∃ rest, startText header = "**Start of ".toList ++ rest := by
  unfold startText
  split
  · exact ⟨header.type ++ ['*', '*'], by rw [List.append_assoc]⟩
  · exact ⟨header.type ++ [':', ' '] ++ header.title ++ ['*', '*'], by simp only [List.append_assoc]⟩

theorem header_of_start_text (header : Header) : header? (startText header) = none := by
  obtain ⟨rest, shown⟩ := start_text_eq header
  rw [shown]
  exact header_of_star _

theorem header_of_end_text (type : Text) : header? (endText type) = none :=
  header_of_star _

theorem plain_start_text {header : Header} (type : IsPlain header.type)
    (title : IsPlain header.title) : IsPlain (startText header) := by
  have around : IsPlain "**Start of ".toList ∧ IsPlain ['*', '*'] ∧ IsPlain [':', ' '] := by decide
  unfold startText
  split
  · exact plain_append.mpr ⟨plain_append.mpr ⟨around.1, type⟩, around.2.1⟩
  · simp only [plain_append]
    exact ⟨⟨⟨⟨around.1, type⟩, around.2.2⟩, title⟩, around.2.1⟩

theorem plain_end_text {type : Text} (plain : IsPlain type) : IsPlain (endText type) := by
  have around : IsPlain "**End of ".toList ∧ IsPlain ['*', '*'] := by decide
  unfold endText
  exact plain_append.mpr ⟨plain_append.mpr ⟨around.1, plain⟩, around.2⟩

/-! ### One line is replaced -/

variable {pageLines : List (Text × Text)} {text : Text} {index other : Nat}

theorem set_line_nil (index : Nat) (text : Text) : setLine index text [] = [] :=
  List.modify_nil ..

theorem set_line_zero (text : Text) (line : Text × Text) (others : List (Text × Text)) :
    setLine 0 text (line :: others) = (text, line.2) :: others :=
  rfl

theorem set_line_succ (index : Nat) (text : Text) (line : Text × Text)
    (others : List (Text × Text)) :
    setLine (index + 1) text (line :: others) = line :: setLine index text others :=
  rfl

theorem get_set_line (index : Nat) (text : Text) (pageLines : List (Text × Text)) :
    (setLine index text pageLines)[index]? =
      (pageLines[index]?).map fun line => (text, line.2) := by
  rw [setLine, List.getElem?_modify_eq]
  rfl

theorem get_set_line_of_ne (apart : other ≠ index) (text : Text) (pageLines : List (Text × Text)) :
    (setLine index text pageLines)[other]? = pageLines[other]? := by
  exact List.getElem?_modify_ne _ _ (Ne.symm apart)

theorem map_snd_set_line (index : Nat) (text : Text) (pageLines : List (Text × Text)) :
    (setLine index text pageLines).map Prod.snd = pageLines.map Prod.snd := by
  apply List.ext_getElem?
  intro other
  rw [List.getElem?_map, List.getElem?_map]
  by_cases same : other = index
  · rw [same, get_set_line, Option.map_map]
    rfl
  · rw [get_set_line_of_ne same]

theorem set_line_with_newlines (index : Nat) (text : Text) (pageLines : List (Text × Text)) :
    setLine index text (withNewlines pageLines) = withNewlines (setLine index text pageLines) := by
  apply List.ext_getElem?
  intro other
  by_cases same : other = index
  · rw [same, get_set_line, withNewlines, withNewlines, List.getElem?_map, List.getElem?_map,
      get_set_line, Option.map_map, Option.map_map]
    rfl
  · rw [get_set_line_of_ne same, withNewlines, withNewlines, List.getElem?_map, List.getElem?_map,
      get_set_line_of_ne same]

theorem IsLineEnd.of_head {ending rest rest' : Text} (isEnd : IsLineEnd ending rest)
    (kept : rest'.head? = some '\n' → rest.head? = some '\n') : IsLineEnd ending rest' := by
  rcases isEnd with rfl | rfl | ⟨rfl, alone⟩
  · exact .inl rfl
  · exact .inr (.inl rfl)
  · exact .inr (.inr ⟨rfl, fun newline => alone (kept newline)⟩)

theorem head_append_of_plain {front : Text} (plain : IsPlain front) (present : front ≠ [])
    (back : Text) : (front ++ back).head? ≠ some '\n' := by
  cases front with
  | nil => exact absurd rfl present
  | cons c front =>
      intro newline
      cases newline
      exact (plain '\n' List.mem_cons_self).1 rfl

theorem head_join_set_line (cut : AreLines pageLines) (plain : IsPlain text) (present : text ≠ [])
    (newline : (joinWithEnds (setLine index text pageLines)).head? = some '\n') :
    (joinWithEnds pageLines).head? = some '\n' := by
  cases cut with
  | @last line linePlain =>
      cases index with
      | zero =>
          rw [set_line_zero, join_with_ends_cons] at newline
          exact absurd newline (head_append_of_plain plain present _)
      | succ index =>
          rw [set_line_succ, set_line_nil] at newline
          exact newline
  | @cons line ending others linePlain isEnd below =>
      cases index with
      | zero =>
          rw [set_line_zero, join_with_ends_cons] at newline
          exact absurd newline (head_append_of_plain plain present _)
      | succ index =>
          rw [set_line_succ, join_with_ends_cons] at newline
          rw [join_with_ends_cons]
          rcases isEnd with rfl | rfl | ⟨rfl, -⟩ <;> cases line <;> exact newline

theorem AreLines.set_line (cut : AreLines pageLines) (plain : IsPlain text) (present : text ≠ [])
    (index : Nat) : AreLines (setLine index text pageLines) := by
  induction cut generalizing index with
  | last linePlain =>
      cases index with
      | zero => exact .last plain
      | succ index =>
          rw [set_line_succ, set_line_nil]
          exact .last linePlain
  | cons linePlain isEnd below induction =>
      cases index with
      | zero => exact .cons plain isEnd below
      | succ index =>
          exact .cons linePlain (isEnd.of_head (head_join_set_line below plain present))
            (induction index)

/-! ### One admonition is replaced -/

def textAt? (pageLines : List (Text × Text)) (index : Nat) : Option Text :=
  (pageLines[index]?).map Prod.fst

def openingHeader? (pageLines : List (Text × Text)) (span : AdmonitionSpan) : Option Header :=
  (textAt? pageLines span.startLine).bind header?

theorem text_at_set_line (inside : index < pageLines.length) :
    textAt? (setLine index text pageLines) index = some text := by
  rw [textAt?, get_set_line, List.getElem?_eq_getElem inside]
  rfl

theorem text_at_set_line_of_ne (apart : other ≠ index) :
    textAt? (setLine index text pageLines) other = textAt? pageLines other := by
  rw [textAt?, textAt?, get_set_line_of_ne apart]

theorem text_at_with_newlines (pageLines : List (Text × Text)) (index : Nat) :
    textAt? (withNewlines pageLines) index = textAt? pageLines index := by
  rw [textAt?, textAt?, ← List.getElem?_map, map_fst_with_newlines, List.getElem?_map]

theorem apply_span_eq (pageLines : List (Text × Text)) (span : AdmonitionSpan) :
    applySpan pageLines span =
      match openingHeader? pageLines span with
      | none => .error (.unexpectedHeader
          (trim ((textAt? pageLines span.startLine).getD [])) (span.startLine + 1))
      | some header => .ok (setLine span.endLine (endText header.type)
          (setLine span.startLine (startText header) pageLines)) := by
  rw [applySpan, openingHeader?, textAt?]
  cases pageLines[span.startLine]? with
  | none => rfl
  | some line => rfl

theorem apply_span_eq_ok {replaced : List (Text × Text)} {span : AdmonitionSpan}
    (applied : applySpan pageLines span = .ok replaced) :
    ∃ header, openingHeader? pageLines span = some header ∧
      replaced = setLine span.endLine (endText header.type)
        (setLine span.startLine (startText header) pageLines) := by
  rw [apply_span_eq] at applied
  split at applied
  · cases applied
  · rename_i header found
    cases applied
    exact ⟨header, found, rfl⟩

theorem apply_span_with_newlines (pageLines : List (Text × Text)) (span : AdmonitionSpan) :
    applySpan (withNewlines pageLines) span = (applySpan pageLines span).map withNewlines := by
  have header : openingHeader? (withNewlines pageLines) span = openingHeader? pageLines span := by
    rw [openingHeader?, openingHeader?, text_at_with_newlines]
  rw [apply_span_eq, apply_span_eq, header, text_at_with_newlines]
  cases openingHeader? pageLines span with
  | none => rfl
  | some header => simp only [set_line_with_newlines, Except.map]

theorem AreLines.apply_span {replaced : List (Text × Text)} {span : AdmonitionSpan}
    (cut : AreLines pageLines) (applied : applySpan pageLines span = .ok replaced) :
    AreLines replaced := by
  obtain ⟨header, found, rfl⟩ := apply_span_eq_ok applied
  rw [openingHeader?, textAt?, Option.bind_map, Option.bind_eq_some_iff] at found
  obtain ⟨line, inside, found⟩ := found
  obtain ⟨type, title⟩ := plain_of_header (cut.plain line (List.mem_of_getElem? inside)) found
  obtain ⟨rest, shown⟩ := start_text_eq header
  refine (cut.set_line (plain_start_text type title) ?_ _).set_line (plain_end_text type) ?_ _
  · rw [shown]
    exact List.cons_ne_nil _ _
  · exact List.cons_ne_nil _ _

/-! ### All admonitions are replaced -/

theorem apply_spans_append (pageLines : List (Text × Text)) (front back : List AdmonitionSpan) :
    applySpans pageLines (front ++ back) =
      (applySpans pageLines front).bind fun replaced => applySpans replaced back := by
  induction front generalizing pageLines with
  | nil => rfl
  | cons span front induction =>
      simp only [List.cons_append, applySpans]
      cases applySpan pageLines span with
      | error problem => rfl
      | ok replaced => exact induction replaced

theorem apply_spans_snoc {front : List AdmonitionSpan} {span : AdmonitionSpan}
    {replaced : List (Text × Text)} (applied : applySpans pageLines (front ++ [span]) = .ok replaced) :
    ∃ between, applySpans pageLines front = .ok between ∧ applySpan between span = .ok replaced := by
  rw [apply_spans_append] at applied
  cases first : applySpans pageLines front with
  | error problem =>
      rw [first] at applied
      cases applied
  | ok between =>
      refine ⟨between, rfl, ?_⟩
      rw [first] at applied
      rw [← applied]
      change _ = (applySpan between span).bind fun replaced => .ok replaced
      cases applySpan between span <;> rfl

theorem apply_spans_with_newlines (pageLines : List (Text × Text)) (spans : List AdmonitionSpan) :
    applySpans (withNewlines pageLines) spans =
      (applySpans pageLines spans).map withNewlines := by
  induction spans generalizing pageLines with
  | nil => rfl
  | cons span spans induction =>
      simp only [applySpans, apply_span_with_newlines]
      cases applySpan pageLines span with
      | error problem => rfl
      | ok replaced => exact induction replaced

theorem AreLines.apply_spans {replaced : List (Text × Text)} {spans : List AdmonitionSpan}
    (cut : AreLines pageLines) (applied : applySpans pageLines spans = .ok replaced) :
    AreLines replaced := by
  induction spans generalizing pageLines with
  | nil =>
      cases applied
      exact cut
  | cons span spans induction =>
      rw [applySpans] at applied
      cases here : applySpan pageLines span with
      | error problem =>
          rw [here] at applied
          cases applied
      | ok between =>
          rw [here] at applied
          exact induction (cut.apply_span here) applied

end AdmonitionBracketing

end LessonBook
