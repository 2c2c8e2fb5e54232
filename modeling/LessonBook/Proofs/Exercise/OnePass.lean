import LessonBook.Proofs.Exercise.LineRewrite

/-!
Bracketing agrees with the pass over the lines, on every page whose only line
terminator is the newline and that holds no solution comment. The induction runs
over the lines: inside a solution it says what stands behind the first closing
comment, elsewhere what is shown.
-/

namespace LessonBook

open Text Recognizer ExerciseBracketing LineRewrite

structure Undisturbed (line : Text) : Prop where
  unbroken : ∀ c ∈ line, isTerminator c = false
  noStart : ¬solutionStart <:+: line
  noEnd : ¬solutionEnd <:+: line

def Above.mode : Above → Mode
  | .text => .copying
  | .marker mark => .below mark

@[simp] theorem Above.mode_text : Above.text.mode = .copying := rfl

@[simp] theorem Above.mode_marker (mark : Char) : (Above.marker mark).mode = .below mark := rfl

namespace Undisturbed

variable {line : Text} (undisturbed : Undisturbed line)
include undisturbed

theorem single : '\n' ∉ line := by
  intro member
  have broken := undisturbed.unbroken '\n' member
  simp [isTerminator] at broken

theorem below_no_start : ¬solutionStart <:+: '\n' :: line := by
  intro inside
  obtain ⟨letters, start, -⟩ := solution_start_eq
  rcases List.infix_cons_iff.mp inside with ⟨rest, same⟩ | inside
  · simp [start] at same
  · exact undisturbed.noStart inside

theorem below_no_end : ¬solutionEnd <:+: '\n' :: line := by
  intro inside
  obtain ⟨letters, finish, -⟩ := solution_end_eq
  rcases List.infix_cons_iff.mp inside with ⟨rest, same⟩ | inside
  · simp [finish] at same
  · exact undisturbed.noEnd inside

theorem of_text_eq : LineReading.ofText true line = match MarkerLine.ofLine? line with
    | none => ⟨line, none, .text⟩
    | some marker => ⟨replacement marker.kind marker.boundary,
        some (marker.kind, marker.boundary), .marker marker.mark⟩ := by
  rw [← MarkerLine.opening_eq undisturbed.single]
  cases line with
  | nil => rfl
  | cons c line =>
      cases opened : Marker.opening? (c :: line) with
      | some found => rw [LineReading.of_text_marker opened]; rfl
      | none =>
          have plain := undisturbed.unbroken c (by simp)
          have inside := LineReading.marker_eq_none
            fun d (member : d ∈ line) => undisturbed.unbroken d (by simp [member])
          have refused : (if true then Marker.opening? (c :: line) else none) = none := opened
          rw [LineReading.of_text_plain refused, plain, LineReading.ofText, inside]
          rfl

theorem reading_of_marker (above : Above) {marker : MarkerLine}
    (read : MarkerLine.ofLine? line = some marker) :
    LineReading.ofLine above line = ⟨'\n' :: replacement marker.kind marker.boundary,
        some (marker.kind, marker.boundary), .marker marker.mark⟩ ∧
      step above.mode line = rewriteLine line := by
  have alone := undisturbed.of_text_eq
  rw [read] at alone
  cases above with
  | text =>
      rw [LineReading.of_line_text, alone]
      exact ⟨rfl, rfl⟩
  | marker mark =>
      rw [← MarkerLine.opening_eq undisturbed.single, Option.map_eq_some_iff] at read
      obtain ⟨⟨opening, rest⟩, opened, -⟩ := read
      have unnamed := Marker.attribute_key_of_opening opened
      have refused := Marker.closing_of_opening mark opened
      have keyed := is_attribute_line_eq line
      have fence := closing_of_is_fence_line undisturbed.unbroken mark
      rw [unnamed] at keyed
      have noFence : isFenceLine mark line = false := by
        cases found : isFenceLine mark line with
        | false => rfl
        | true =>
            rw [refused, found] at fence
            cases fence
      rw [LineReading.of_line_behind (by simp [unnamed]) refused, alone]
      exact ⟨rfl, by simp [Above.mode, step, keyed, noFence]⟩

theorem reading_of_other (above : Above) (read : MarkerLine.ofLine? line = none) :
    (∃ next, LineReading.ofLine above line = ⟨[], none, next⟩ ∧
      step above.mode line = ([], next.mode)) ∨
    (LineReading.ofLine above line = ⟨'\n' :: line, none, .text⟩ ∧
      step above.mode line = ([line], .copying)) := by
  have alone := undisturbed.of_text_eq
  have written : rewriteLine line = ([line], .copying) := by rw [rewriteLine, read]
  rw [read] at alone
  cases above with
  | text =>
      refine .inr ⟨?_, written⟩
      rw [LineReading.of_line_text, alone]
      rfl
  | marker mark =>
      have keyed := is_attribute_line_eq line
      cases named : (Marker.attributeKey? line).isSome with
      | true =>
          rw [named] at keyed
          exact .inl ⟨.marker mark, LineReading.of_line_attribute mark named,
            by simp [Above.mode, step, keyed]⟩
      | false =>
          rw [named] at keyed
          have closing := closing_of_is_fence_line undisturbed.unbroken mark
          cases fence : isFenceLine mark line with
          | true =>
              rw [fence, if_pos rfl] at closing
              exact .inl ⟨.text, LineReading.of_line_closing named closing,
                by simp [Above.mode, step, keyed, fence]⟩
          | false =>
              rw [fence, if_neg (by simp)] at closing
              refine .inr ⟨?_, by simp [Above.mode, step, keyed, fence, written]⟩
              rw [LineReading.of_line_behind named closing, alone]
              rfl

/-- A line belongs to the marker above, or is kept, or is a marker. -/
theorem line_cases (above : Above) :
    (MarkerLine.ofLine? line = none ∧ ∃ next, LineReading.ofLine above line = ⟨[], none, next⟩ ∧
      step above.mode line = ([], next.mode)) ∨
    (MarkerLine.ofLine? line = none ∧ LineReading.ofLine above line = ⟨'\n' :: line, none, .text⟩ ∧
      step above.mode line = ([line], .copying)) ∨
    ∃ marker, MarkerLine.ofLine? line = some marker ∧
      LineReading.ofLine above line = ⟨'\n' :: replacement marker.kind marker.boundary,
        some (marker.kind, marker.boundary), .marker marker.mark⟩ ∧
      step above.mode line = rewriteLine line := by
  cases read : MarkerLine.ofLine? line with
  | none =>
      rcases undisturbed.reading_of_other above read with dropped | kept
      · exact .inl ⟨rfl, dropped⟩
      · exact .inr (.inl ⟨rfl, kept⟩)
  | some marker => exact .inr (.inr ⟨marker, rfl, undisturbed.reading_of_marker above read⟩)

end Undisturbed

theorem bounds_shown_below {lines : List Text} (undisturbed : ∀ line ∈ lines, Undisturbed line)
    (above : Above) : Bounds (LineReading.shownBelow above lines) := by
  induction lines generalizing above with
  | nil => simp [Bounds]
  | cons line lines induction =>
      have below := induction fun other member => undisturbed other (by simp [member])
      rw [LineReading.shown_below_cons]
      rcases (undisturbed line (by simp)).line_cases above with
        ⟨-, next, reading, -⟩ | ⟨-, reading, -⟩ | ⟨marker, -, reading, -⟩
      · rw [reading]
        exact below next
      · simp [reading, Bounds, isTerminator]
      · simp [reading, Bounds, isTerminator]

/-- What hiding the solutions leaves of a shown text. Inside a solution nothing is
left up to its closing comment, which has to be there. -/
def Region.Leaves (region : Region) (shown left : Text) : Prop :=
  match region with
  | .inside .solution => ∃ behind, afterSolution? shown = some behind ∧ collapse behind = left
  | _ => collapse shown = left

def Region.mode (region : Region) (above : Above) : Mode :=
  match region with
  | .inside .solution => .hiding
  | _ => above.mode

namespace Undisturbed

variable {line shown left : Text} {region : Region}

theorem leaves_below (undisturbed : Undisturbed line)
    (bounds : Bounds shown) (leaves : region.Leaves shown left) :
    region.Leaves ('\n' :: line ++ shown)
      (if region = .inside .solution then left else '\n' :: line ++ left) := by
  have kept := collapse_append bounds undisturbed.below_no_start
  have passed := after_solution_append bounds undisturbed.below_no_end
  match region, leaves with
  | .inside .solution, ⟨behind, closed, hidden⟩ =>
      exact ⟨behind, passed.trans closed, by simpa using hidden⟩
  | .inside .exercise, leaves =>
      simp only [Region.Leaves] at leaves ⊢
      simp [← leaves, ← kept]
  | .outside, leaves =>
      simp only [Region.Leaves] at leaves ⊢
      simp [← leaves, ← kept]

end Undisturbed

theorem exercise_start_plain : '<' ∉ '\n' :: exerciseStart := by decide

theorem exercise_end_plain : '<' ∉ '\n' :: exerciseEnd := by decide

/-- A well sequenced marker is left as its bracketing line or as the placeholder,
if what stands below it is left as the pass says. -/
theorem leaves_marker {line shown : Text} {lines : List Text} {above : Above} {mark : Char}
    {kind : RegionKind} {boundary : Boundary} {tags : List (RegionKind × Boundary)}
    {region : Region} (read : MarkerLine.ofLine? line = some ⟨mark, kind, boundary⟩)
    (written : step above.mode line = rewriteLine line)
    (sequenced : region.WellSequenced ((kind, boundary) :: tags))
    (below : ∀ next : Region, next.WellSequenced tags →
      next.Leaves shown (linesBelow (run (next.mode (.marker mark)) lines))) :
    region.Leaves ('\n' :: replacement kind boundary ++ shown)
      (linesBelow ((step (region.mode above) line).1 ++
        run (step (region.mode above) line).2 lines)) := by
  have wrote : rewriteLine line = rewriteMarker ⟨mark, kind, boundary⟩ := by rw [rewriteLine, read]
  match region, kind, boundary with
  | .outside, .exercise, .start =>
      have left := below (.inside .exercise) sequenced
      have kept := collapse_append_of_not_mem exercise_start_plain shown
      simp only [Region.Leaves, Region.mode, Above.mode_marker, replacement] at left ⊢
      rw [kept, left, written, wrote]
      rfl
  | .outside, .solution, .start =>
      obtain ⟨behind, closed, hidden⟩ := below (.inside .solution) sequenced
      simp only [Region.Leaves, Region.mode, replacement] at hidden ⊢
      rw [List.cons_append, collapse_newline, collapse_of_solution closed, hidden, written, wrote]
      rfl
  | .inside .exercise, .exercise, .finish =>
      have left := below .outside sequenced.2
      have kept := collapse_append_of_not_mem exercise_end_plain shown
      simp only [Region.Leaves, Region.mode, Above.mode_marker, replacement] at left ⊢
      rw [kept, left, written, wrote]
      rfl
  | .inside .solution, .solution, .finish =>
      have left := below .outside sequenced.2
      have closed := after_solution_append_of_not_mem (show '<' ∉ ['\n'] by decide)
        (solutionEnd ++ shown)
      rw [after_solution_end] at closed
      simp only [Region.Leaves, Region.mode, Above.mode_marker, replacement] at left ⊢
      refine ⟨_, closed, left.trans ?_⟩
      simp only [step, read]
      rfl
  | .outside, .exercise, .finish => exact absurd sequenced id
  | .outside, .solution, .finish => exact absurd sequenced id
  | .inside .exercise, _, .start => exact absurd sequenced id
  | .inside .solution, _, .start => exact absurd sequenced id
  | .inside .exercise, .solution, .finish => cases sequenced.1
  | .inside .solution, .exercise, .finish => cases sequenced.1

/-- Hiding the solutions of what lines show is the pass over these lines. -/
theorem leaves_run {lines : List Text} (undisturbed : ∀ line ∈ lines, Undisturbed line)
    (above : Above) (region : Region)
    (sequenced : region.WellSequenced
      ((LineReading.ofLines above lines).filterMap LineReading.tag)) :
    region.Leaves (LineReading.shownBelow above lines)
      (linesBelow (run (region.mode above) lines)) := by
  induction lines generalizing above region with
  | nil =>
      cases region with
      | outside => rfl
      | inside kind => exact absurd sequenced id
  | cons line lines induction =>
      have here := undisturbed line (by simp)
      have inside := fun other member => undisturbed other (List.mem_cons_of_mem line member)
      have bounds := bounds_shown_below inside
      rw [LineReading.of_lines_cons] at sequenced
      rw [LineReading.shown_below_cons, run_cons]
      rcases here.line_cases above with
        ⟨unread, next, reading, written⟩ | ⟨unread, reading, written⟩ |
          ⟨⟨mark, kind, boundary⟩, read, reading, written⟩
      · rw [reading] at sequenced ⊢
        have below := induction inside next region (by simpa using sequenced)
        match region with
        | .inside .solution => simpa [Region.mode, step, unread] using below
        | .inside .exercise => simpa [Region.mode, written] using below
        | .outside => simpa [Region.mode, written] using below
      · rw [reading] at sequenced ⊢
        have below := induction inside .text region (by simpa using sequenced)
        have leaves := here.leaves_below (bounds .text) below
        match region with
        | .inside .solution => simpa [Region.mode, step, unread] using leaves
        | .inside .exercise => simpa [Region.mode, written] using leaves
        | .outside => simpa [Region.mode, written] using leaves
      · rw [reading] at sequenced
        simp only [List.filterMap_cons] at sequenced
        rw [reading]
        exact leaves_marker read written sequenced
          fun next rest => induction inside (.marker mark) next rest

/-- On a page whose only line terminator is the newline and that holds no solution
comment, bracketing rewrites line by line. -/
theorem bracket_exercises_eq_rewrite (page : Text)
    (newlines : ∀ c ∈ page, isTerminator c = true → c = '\n')
    (noStart : ¬solutionStart <:+: page) (noEnd : ¬solutionEnd <:+: page)
    (sequenced : Region.outside.WellSequenced ((Marker.scan page).map Marker.tag)) :
    bracketExercises page = .ok (LineRewrite.rewrite page) := by
  have undisturbed : ∀ line ∈ lines page, Undisturbed line := by
    intro line member
    have inside := infix_of_mem_lines member
    refine ⟨fun c present => ?_, fun found => noStart (found.trans inside),
      fun found => noEnd (found.trans inside)⟩
    rw [Bool.eq_false_iff]
    intro terminator
    cases newlines c (inside.mem present) terminator
    exact no_newline_of_mem_lines member present
  rw [LineReading.scan_tags] at sequenced
  have left := leaves_run undisturbed .text .outside sequenced
  rw [LineReading.bracket_exercises_eq_ok_iff]
  refine ⟨sequenced, ?_⟩
  simp only [Region.Leaves, Region.mode, Above.mode_text] at left
  rw [LineRewrite.rewrite, ← Marker.lines_below_drop, ← left]
  exact LineReading.collapse_shown_page page

set_option maxRecDepth 8000 in
theorem bracket_exercises_of_lesson :
    let page := joinLines (["A", "", "```\x7bexercise-start\x7d 1", ":label: e", "```", "B",
      "~~~\x7bexercise-end\x7d", " ::: \x7bsolution-start\x7d", "C", "",
      ":::\x7bsolution-end\x7d", ":a: b", ":::::", "", "D"].map String.toList)
    bracketExercises page = .ok (joinLines (["A", "", "**Start of exercise**", "B",
      "**End of exercise**", "**See page for solution**", "", "D"].map String.toList)) := by
  intro page
  have noBracket : '<' ∉ page := by decide
  have absent {letters : Text} : ¬('<' :: letters) <:+: page :=
    fun inside => noBracket (inside.mem (by simp))
  have newlines : page.all (fun c => !isTerminator c || c == '\n') = true := by decide
  have only : ∀ c ∈ page, isTerminator c = true → c = '\n' := by
    intro c member terminator
    simpa [terminator] using List.all_eq_true.mp newlines c member
  rw [bracket_exercises_eq_rewrite page only absent absent (by decide)]
  exact congrArg Except.ok (by decide)

end LessonBook
