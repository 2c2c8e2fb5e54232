import LessonBook.Page
import LessonBook.Proofs.Admonition.BracketedLines
import LessonBook.Proofs.Exercise.LineEnds

/-!
A page and the page with a newline for every line end. Their notebooks are the
same, and so are the problems reported, unless a carriage return stands alone in
a marker; in front of a misplaced marker such returns are not counted as lines.
-/

namespace LessonBook

open Text AdmonitionBracketing

theorem Notebook.of_text_normalize (text : Text) :
    Notebook.ofText (normalizeLineEnds text) = Notebook.ofText text := by
  rw [ofText, ofTextBy, ofTextBy, documentLines, documentLines, normalize_twice]

namespace Page

/-- What comes behind the exercises does not see which line ends it is given. -/
theorem to_notebook_of_normalized (reading : Reading) (kernel : Kernel) {page other : Text}
    (bracketed : bracketExercises other = (bracketExercises page).map normalizeLineEnds) :
    toNotebook reading kernel other = toNotebook reading kernel page ∧
      diagnostics reading other = diagnostics reading page := by
  cases exercises : bracketExercises page with
  | error problem =>
      rw [exercises] at bracketed
      simp only [toNotebook, Page.bracketed, diagnostics, bracketed, exercises, Except.map, and_self]
  | ok plain =>
      rw [exercises] at bracketed
      simp only [toNotebook, Page.bracketed, diagnostics, bracketed, exercises, Except.map,
        bracket_admonitions_normalize, Tree.of_text_normalize]
      cases bracketAdmonitions reading plain with
      | error problem => exact ⟨rfl, trivial⟩
      | ok output => simp only [Notebook.of_text_normalize, and_self]

theorem bracket_exercises_of_refused {reading : Reading} {kernel : Kernel} {page : Text}
    {problem : SequencingError}
    (refused : toNotebook reading kernel page = .error (.sequencing problem)) :
    bracketExercises page = .error problem := by
  rw [toNotebook, bracketed] at refused
  cases exercises : bracketExercises page with
  | error other =>
      rw [exercises] at refused
      cases refused
      rfl
  | ok plain =>
      simp only [exercises] at refused
      cases admonitions : bracketAdmonitions reading plain with
      | error other => simp [admonitions] at refused
      | ok output =>
          simp only [admonitions] at refused
          cases read : Notebook.ofText output with
          | error fault => simp [read] at refused
          | ok notebook => simp [read] at refused

theorem to_notebook_of_sequencing (reading : Reading) (kernel : Kernel) {page : Text}
    {problem : SequencingError} (refused : bracketExercises page = .error problem) :
    toNotebook reading kernel page = .error (.sequencing problem) ∧ diagnostics reading page = [] := by
  simp only [toNotebook, bracketed, diagnostics, refused, and_self]

/-- Line ends do not matter to a page without a lone carriage return in a marker,
except that the line of a misplaced marker counts no such returns in front of it. -/
theorem to_notebook_normalize (reading : Reading) (kernel : Kernel) {page : Text}
    (whole : Marker.Whole page) :
    diagnostics reading (normalizeLineEnds page) = diagnostics reading page ∧
      (toNotebook reading kernel (normalizeLineEnds page) = toNotebook reading kernel page ∨
        ∃ kind boundary region front back, page = front ++ back ∧ Apart front back ∧
          0 < loneReturns front ∧
          toNotebook reading kernel page =
            .error (.sequencing (.misplaced kind boundary (newlineCount front) region)) ∧
          toNotebook reading kernel (normalizeLineEnds page) =
            .error (.sequencing (.misplaced kind boundary
              (newlineCount front + loneReturns front) region))) := by
  rcases bracket_exercises_normalize whole with same | ⟨kind, boundary, region, front, back, split,
    cut, refused, otherRefused⟩
  · have agrees := to_notebook_of_normalized reading kernel same
    exact ⟨agrees.2, .inl agrees.1⟩
  · obtain ⟨failed, silent⟩ := to_notebook_of_sequencing reading kernel refused
    obtain ⟨otherFailed, otherSilent⟩ := to_notebook_of_sequencing reading kernel otherRefused
    refine ⟨otherSilent.trans silent.symm, ?_⟩
    rcases Nat.eq_zero_or_pos (loneReturns front) with none | some
    · exact .inl (by rw [otherFailed, failed, none, Nat.add_zero])
    · exact .inr ⟨kind, boundary, region, front, back, split, cut, some, failed, otherFailed⟩

/-- In a page that ends its lines with `\n` or `\r\n` the line ends do not matter at all. -/
theorem to_notebook_normalize_of_paired (reading : Reading) (kernel : Kernel) {page : Text}
    (paired : loneReturns page = 0) :
    diagnostics reading (normalizeLineEnds page) = diagnostics reading page ∧
      toNotebook reading kernel (normalizeLineEnds page) = toNotebook reading kernel page := by
  obtain ⟨reported, same | ⟨_, _, _, front, back, split, cut, some, -⟩⟩ :=
    to_notebook_normalize reading kernel (Marker.whole_of_paired paired)
  · exact ⟨reported, same⟩
  · rw [split, lone_returns_append_of_apart cut] at paired
    omega

/-- Carriage returns between the markers, and one of a pair inside of each. -/
theorem to_notebook_normalize_mixed :
    let page := ("```\x7bexercise-start\x7d\r\n```\rfirst\r:::\x7bnote\x7d\rsecond\r\n:::\n" ++
      "~~~\x7bexercise-end\x7d\n~~~\r\n").toList
    Marker.Whole page ∧ loneReturns page = 3 ∧
      diagnostics {} (normalizeLineEnds page) = diagnostics {} page ∧
      toNotebook {} {} (normalizeLineEnds page) = toNotebook {} {} page := by
  intro page
  have whole : Marker.Whole page := by decide +kernel
  have accepted : ∃ plain, bracketExercises page = .ok plain := ⟨_, rfl⟩
  obtain ⟨reported, same | ⟨_, _, _, _, _, _, _, _, refused, _⟩⟩ := to_notebook_normalize {} {} whole
  · exact ⟨whole, by decide +kernel, reported, same⟩
  · obtain ⟨plain, accepted⟩ := accepted
    rw [bracket_exercises_of_refused refused] at accepted
    cases accepted

/-- A marker line goes on behind a lone carriage return, so the page has no end
marker although there is one with a newline for every line end. -/
theorem to_notebook_lone_returns :
    let page := "```\x7bexercise-start\x7d\r```\rbody\r```\x7bexercise-end\x7d\r```\r".toList
    ¬Marker.Whole page ∧
      toNotebook {} {} page = .error (.sequencing (.unclosed (.inside .exercise))) ∧
      toNotebook {} {} (normalizeLineEnds page) ≠ toNotebook {} {} page := by
  intro page
  have refused : bracketExercises page = .error (.unclosed (.inside .exercise)) := rfl
  have accepted : ∃ plain, bracketExercises (normalizeLineEnds page) = .ok plain := ⟨_, rfl⟩
  obtain ⟨failed, -⟩ := to_notebook_of_sequencing {} {} refused
  refine ⟨by decide +kernel, failed, fun same => ?_⟩
  obtain ⟨plain, accepted⟩ := accepted
  rw [bracket_exercises_of_refused (same.trans failed)] at accepted
  cases accepted

end Page

end LessonBook
