import LessonBook.Proofs.Exercise.LineRewrite

/-!
What the lines of a solution can change. They are hidden as long as none of them
holds a closing comment, apart from the attribute lines directly below the start
marker, and they keep their end marker as long as they do not all join these
attribute lines together with it.
-/

namespace LessonBook

open Text Recognizer ExerciseBracketing LineReading

/-- A line below the attribute lines of the start marker holds a closing comment. -/
def Leaks (interior : List Text) : Prop :=
  ∃ line ∈ interior.dropWhile isAttributeLine, solutionEnd <:+: line

theorem infix_lines_below_iff (first : Text) (lines : List Text) :
    solutionEnd <:+: first ++ linesBelow lines ↔
      solutionEnd <:+: first ∨ ∃ line ∈ lines, solutionEnd <:+: line := by
  obtain ⟨letters, finish, letter⟩ := solution_end_eq
  have fresh : '\n' ∉ '<' :: letters := by
    intro member
    rcases List.mem_cons.mp member with same | member
    · exact absurd same (by decide)
    · exact absurd (letter _ member).2 (by decide)
  rw [finish]
  induction lines generalizing first with
  | nil => simp
  | cons line lines induction =>
      have below := induction line
      simp [infix_append_cons_iff fresh, below]

theorem shown_below_text {lines : List Text}
    (untagged : ∀ reading ∈ ofLines .text lines, reading.tag = none) :
    shownBelow .text lines = linesBelow lines ∧ aboveBelow .text lines = .text := by
  induction lines with
  | nil => exact ⟨rfl, rfl⟩
  | cons line lines induction =>
      rw [of_lines_cons, List.forall_mem_cons] at untagged
      have here : ofText true line = ⟨line, none, .text⟩ := of_text_of_no_tag untagged.1
      rw [of_line_text, here] at untagged
      obtain ⟨shown, above⟩ := induction untagged.2
      rw [shown_below_cons, above_below_cons, of_line_text, here]
      exact ⟨by simp [behindNewline, shown], above⟩

/-- Lines without markers below a marker show a closing comment if they leak, and
only attribute lines leave the marker open for more of them. -/
theorem shown_below_marker {mark : Char} (isMark : Directive.isFenceMark mark = true)
    {interior : List Text} (single : ∀ line ∈ interior, '\n' ∉ line)
    (untagged : ∀ reading ∈ ofLines (.marker mark) interior, reading.tag = none) :
    (solutionEnd <:+: shownBelow (.marker mark) interior ↔ Leaks interior) ∧
      ((interior.all isAttributeLine = true ∧ shownBelow (.marker mark) interior = [] ∧
          aboveBelow (.marker mark) interior = .marker mark) ∨
        (interior.all isAttributeLine = false ∧ aboveBelow (.marker mark) interior = .text)) := by
  induction interior with
  | nil =>
      obtain ⟨letters, finish, -⟩ := solution_end_eq
      simp [Leaks, finish]
  | cons line interior induction =>
      have lineSingle := single line (by simp)
      rw [of_lines_cons, List.forall_mem_cons] at untagged
      rw [shown_below_cons, above_below_cons, Leaks, List.dropWhile_cons, List.all_cons]
      have named := is_attribute_line_eq line
      cases joins : isAttributeLine line with
      | true =>
          rw [joins] at named
          have reading := of_line_attribute mark named.symm
          rw [reading] at untagged ⊢
          simpa [Leaks] using
            induction (fun other member => single other (by simp [member])) untagged.2
      | false =>
          rw [joins] at named
          obtain ⟨dropped, kept, added, noDropped, noAdded, whole, reading⟩ :=
            of_line_of_unnamed lineSingle named.symm
              (.marker mark) (by rintro _ ⟨⟩; exact isMark)
          rw [reading] at untagged ⊢
          have here := of_text_of_no_tag untagged.1
          rw [here] at whole untagged ⊢
          obtain ⟨below, above⟩ := shown_below_text untagged.2
          have parts : line = dropped ++ kept := whole
          obtain ⟨letters, finish, -⟩ := solution_end_eq
          have same : solutionEnd <:+: added ++ kept ↔ solutionEnd <:+: line := by
            rw [finish, parts, infix_append_iff_of_not_mem noAdded,
              infix_append_iff_of_not_mem noDropped]
          simp only [below, above, infix_lines_below_iff, same]
          simp

/-- The attribute lines below a start marker reach as far as the line of its end marker. -/
def Swallows (interior : List Text) (finish : Text) : Prop :=
  interior.all isAttributeLine = true ∧ isAttributeLine finish = true

section

variable {mark : Char} {interior : List Text} {finish : Text}
  (isMark : Directive.isFenceMark mark = true)
  (single : ∀ line ∈ interior, '\n' ∉ line) (finishSingle : '\n' ∉ finish)
  (untagged : ∀ reading ∈ ofLines (.marker mark) interior, reading.tag = none)
include isMark single finishSingle untagged

/-- Behind lines that do not swallow it, a line says what it says by itself. -/
theorem of_line_behind_interior (kept : ¬Swallows interior finish) :
    ∃ dropped shown added, '<' ∉ dropped ∧ '<' ∉ added ∧
      (ofText true finish).shown = dropped ++ shown ∧
      ofLine (aboveBelow (.marker mark) interior) finish =
        { ofText true finish with shown := added ++ shown } ∧
      (shownBelow (.marker mark) interior = [] ∨ added = ['\n']) := by
  obtain ⟨-, ⟨all, hidden, above⟩ | ⟨-, above⟩⟩ := shown_below_marker isMark single untagged
  · have named := is_attribute_line_eq finish
    have joins : isAttributeLine finish = false := by
      rw [Bool.eq_false_iff]
      intro joins
      exact kept ⟨all, joins⟩
    rw [joins] at named
    obtain ⟨dropped, shown, added, noDropped, noAdded, whole, reading⟩ :=
      of_line_of_unnamed finishSingle named.symm
        (.marker mark) (by rintro _ ⟨⟩; exact isMark)
    rw [above]
    exact ⟨dropped, shown, added, noDropped, noAdded, whole, reading, .inl hidden⟩
  · rw [above, of_line_text]
    exact ⟨[], (ofText true finish).shown, ['\n'], by simp, by simp, rfl, rfl, .inr rfl⟩

theorem tags_behind_interior (kept : ¬Swallows interior finish) (below : List Text) :
    (ofLines (.marker mark) (interior ++ finish :: below)).filterMap tag =
      (ofText true finish).tag.toList ++
        (ofLines (ofText true finish).above below).filterMap tag := by
  obtain ⟨-, shown, added, -, -, -, reading, -⟩ :=
    of_line_behind_interior isMark single finishSingle untagged kept
  have quiet : (ofLines (.marker mark) interior).filterMap tag = [] :=
    List.filterMap_eq_nil_iff.mpr untagged
  rw [of_lines_append, List.filterMap_append, quiet, of_lines_cons, reading, List.nil_append]
  cases tagged : (ofText true finish).tag <;> simp [tagged]

theorem after_interior (kept : ¬Swallows interior finish) (below : List Text) {left : Text}
    (closed : afterSolution? ((ofText true finish).shown ++
      shownBelow (ofText true finish).above below) = some left) :
    (¬Leaks interior →
      afterSolution? (shownBelow (.marker mark) (interior ++ finish :: below)) = some left) ∧
    (Leaks interior → ∃ front, afterSolution?
      (shownBelow (.marker mark) (interior ++ finish :: below)) =
        some (front ++ (solutionEnd ++ left))) := by
  obtain ⟨dropped, shown, added, noDropped, noAdded, whole, reading, start⟩ :=
    of_line_behind_interior isMark single finishSingle untagged kept
  have leaks := (shown_below_marker isMark single untagged).1
  have split : shownBelow (.marker mark) (interior ++ finish :: below) =
      shownBelow (.marker mark) interior ++
        (added ++ (shown ++ shownBelow (ofText true finish).above below)) := by
    rw [shown_below_append, shown_below_cons, reading, List.append_assoc]
  rw [whole, List.append_assoc, after_solution_append_of_not_mem noDropped] at closed
  rw [← after_solution_append_of_not_mem noAdded] at closed
  rw [split, ← leaks]
  refine ⟨fun tight => ?_, fun leak => ?_⟩
  · rcases start with nothing | newline
    · rw [nothing]
      exact closed
    · have bounds : Bounds (added ++ (shown ++ shownBelow (ofText true finish).above below)) := by
        simp [Bounds, newline, isTerminator]
      rw [after_solution_append bounds tight, closed]
  · obtain ⟨behind, -, leaked⟩ := after_solution_of_closed leak
    obtain ⟨front, rest⟩ := split_of_after_solution closed
    exact ⟨behind ++ front, by rw [leaked, rest, List.append_assoc]⟩

end

end LessonBook
