import LessonBook.Proofs.Admonition.ClosingLine
import LessonBook.Proofs.Markup.DirectiveShape

/-!
Where a text stands on a page. A text that is read at some depth stands below
its first line in the lines of the page, up to tabs, and so do the texts that
follow in it and the bodies of its directives.
-/

namespace LessonBook

open Text BlockReader

namespace Text

/-- Lines that begin and end in front of a text are cut from what is in front. -/
theorem mem_front_of_get_line {front back line : Text} {index : Nat}
    (above : index < newlineCount front) (found : (lines (front ++ back))[index]? = some line) :
    ∀ c ∈ line, c ∈ front := by
  induction front generalizing index line with
  | nil => cases above
  | cons c front induction =>
      by_cases newline : c = '\n'
      · subst newline
        rw [List.cons_append, lines_newline] at found
        cases index with
        | zero =>
            cases found
            simp
        | succ index =>
            rw [newline_count_newline] at above
            intro d member
            exact List.mem_cons_of_mem _ (induction (by omega) found d member)
      · rw [newline_count_cons newline] at above
        obtain ⟨first, others, cut, longer⟩ := lines_cons newline (front ++ back)
        rw [List.cons_append, longer] at found
        cases index with
        | zero =>
            cases found
            have inside : ∀ d ∈ first, d ∈ front := induction above (by rw [cut]; rfl)
            intro d member
            rcases List.mem_cons.mp member with rfl | member
            · simp
            · exact List.mem_cons_of_mem _ (inside d member)
        | succ index =>
            exact fun d member =>
              List.mem_cons_of_mem _ (induction above (by rw [cut]; exact found) d member)

theorem mem_lines_below {pieces : List Text} {piece : Text} {c : Char} (member : piece ∈ pieces)
    (inside : c ∈ piece) : c ∈ linesBelow pieces :=
  (infix_lines_below member).mem inside

theorem newline_count_join_lines {pieces : List Text} (present : pieces ≠ [])
    (single : ∀ piece ∈ pieces, '\n' ∉ piece) :
    newlineCount (joinLines pieces) + 1 = pieces.length := by
  rw [← length_lines, lines_join_lines present single]

end Text

def StandsAt (pageLines : List Text) (line : Nat) (text : Text) : Prop :=
  ∃ front, '\n' ∉ front ∧ ∀ index shown, (lines (front ++ text))[index]? = some shown →
    ∃ written, pageLines[line + index]? = some written ∧ TabsAsSpaces written shown

namespace StandsAt

variable {pageLines : List Text} {line : Nat} {text : Text}

theorem source (page : Text) :
    StandsAt (lines (normalizeLineEnds page)) 0 (expandLeadingTabs (normalizeLineEnds page)) := by
  refine ⟨[], by simp, ?_⟩
  intro index shown found
  rw [Nat.zero_add]
  exact (TabsAsSpaces.of_expand _).get_line found

theorem drop {raw rest : Text} (stands : StandsAt pageLines line (raw ++ rest)) :
    StandsAt pageLines (line + newlineCount raw) rest := by
  induction raw generalizing line with
  | nil => exact stands
  | cons c raw induction =>
      obtain ⟨front, single, shown⟩ := stands
      by_cases newline : c = '\n'
      · subst newline
        rw [newline_count_newline, Nat.add_comm (newlineCount raw), ← Nat.add_assoc]
        refine induction ⟨[], by simp, ?_⟩
        intro index line' found
        rw [Nat.add_assoc, Nat.add_comm 1]
        apply shown (index + 1) line'
        rw [List.cons_append, lines_append_newline, lines_of_no_newline single]
        exact found
      · rw [newline_count_cons newline]
        refine induction ⟨front ++ [c], by simp [single, Ne.symm newline], ?_⟩
        rw [List.append_assoc]
        exact shown

theorem first_line {first : Text} {others : List Text} (stands : StandsAt pageLines line text)
    (cut : lines text = first :: others) :
    ∃ front written, pageLines[line]? = some written ∧ TabsAsSpaces written (front ++ first) := by
  obtain ⟨front, single, shown⟩ := stands
  refine ⟨front, shown 0 (front ++ first) ?_⟩
  rw [lines_append_of_no_newline single cut]
  rfl

theorem line_below {first shown : Text} {others : List Text} {index : Nat}
    (stands : StandsAt pageLines line text) (cut : lines text = first :: others)
    (found : others[index]? = some shown) :
    ∃ written, pageLines[line + 1 + index]? = some written ∧ TabsAsSpaces written shown := by
  obtain ⟨front, single, standing⟩ := stands
  have below := standing (index + 1) shown (by
    rw [lines_append_of_no_newline single cut]
    exact found)
  rw [Nat.add_assoc, Nat.add_comm 1]
  exact below

theorem closing_below {first shown : Text} {others : List Text} {index : Nat}
    (stands : StandsAt pageLines line text) (cut : lines text = first :: others)
    (found : others[index]? = some shown) :
    (pageLines[line + 1 + index]?).any AdmonitionSpan.isClosingLine =
      AdmonitionSpan.isClosingLine shown := by
  obtain ⟨written, standing, same⟩ := stands.line_below cut found
  rw [standing, Option.any_some, AdmonitionSpan.is_closing_line_eq same]

theorem inner {first : Text} {inner after : List Text} (stands : StandsAt pageLines line text)
    (cut : lines text = first :: (inner ++ after)) (present : inner ≠ []) :
    StandsAt pageLines (line + 1) (expandLeadingTabs (joinLines inner)) := by
  refine ⟨[], by simp, ?_⟩
  intro index shown found
  obtain ⟨source, found', same⟩ := (TabsAsSpaces.of_expand (joinLines inner)).get_line found
  have single : ∀ piece ∈ inner, '\n' ∉ piece := fun piece member => by
    have inside : piece ∈ lines text := by rw [cut]; simp [member]
    exact no_newline_of_mem_lines inside
  rw [lines_join_lines present single] at found'
  have inside : (inner ++ after)[index]? = some source := by
    rw [List.getElem?_append_left (List.getElem?_eq_some_iff.mp found').1, found']
  obtain ⟨written, standing, first⟩ := stands.line_below cut inside
  exact ⟨written, standing, first.trans same⟩

end StandsAt

end LessonBook
