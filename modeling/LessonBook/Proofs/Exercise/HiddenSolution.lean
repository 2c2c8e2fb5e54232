import LessonBook.Proofs.Exercise.HiddenLines

/-!
Other lines in a solution give another page, but the same output, unless they
leak or swallow their end marker. All other lines of the page stay as they are,
so do their markers, and what is written for them.
-/

namespace LessonBook

open Text Recognizer ExerciseBracketing LineReading

def linesBetween (page : Text) (start finish : Marker) : List Text :=
  ((lines page).take finish.line).drop (start.line + 1)

def replaceBetween (page : Text) (start finish : Marker) (interior : List Text) : Text :=
  joinLines ((lines page).take (start.line + 1) ++ interior ++ (lines page).drop finish.line)

/-- Below `before` a line opens a solution; `front` is what the page shows up to its start. -/
structure Opens (before : List Text) (opening front : Text) (mark : Char) : Prop where
  isMark : Directive.isFenceMark mark = true
  reading : ofLine (aboveBelow .text before) opening =
    ⟨front ++ solutionStart, some (.solution, .start), .marker mark⟩

theorem surrounds_of_scan {page : Text} {earlier later : List Marker} {start finish : Marker}
    (markers : Marker.scan page = earlier ++ start :: finish :: later)
    (opens : start.tag = (.solution, .start)) :
    ∃ before opening interior closing below front mark,
      lines page = before ++ opening :: (interior ++ closing :: below) ∧
      start.line = before.length ∧ finish.line = before.length + 1 + interior.length ∧
      Opens before opening front mark ∧
      (∀ reading ∈ ofLines (.marker mark) interior, reading.tag = none) ∧
      (ofLine (aboveBelow (.marker mark) interior) closing).tag = some finish.tag := by
  have tags := tags_of_page page
  have kinds : start.kind = .solution ∧ start.boundary = .start := by
    simpa [Marker.tag] using opens
  rw [Piece.tags, ← Marker.scan, markers, List.map_append, List.map_cons, List.map_cons,
    kinds.1, kinds.2] at tags
  obtain ⟨front, reading, back, readings, place, tagged, -, behind⟩ := split_of_tags tags.symm
  obtain ⟨before, opening, rest, cut, rfl, rfl, rfl⟩ := split_of_lines readings
  obtain ⟨shown, mark, isMark, opened⟩ := of_line_of_tag tagged
  rw [opened] at behind
  obtain ⟨inside, reading, back, readings, place', tagged', quiet, -⟩ :=
    split_of_tags (show _ = [] ++ _ from behind)
  obtain ⟨interior, closing, below, rfl, rfl, rfl, -⟩ := split_of_lines readings
  refine ⟨before, opening, interior, closing, below, shown, mark, cut, ?_, ?_, ⟨isMark, opened⟩,
    untagged_of_tags_nil quiet, tagged'⟩
  · rw [place, length_of_lines]
    omega
  · rw [place', place, length_of_lines, length_of_lines]
    omega

/-- Lines without markers of their own bear none below a marker either. -/
theorem untagged_of_unmarked {mark : Char} (isMark : Directive.isFenceMark mark = true)
    {interior : List Text} (single : ∀ line ∈ interior, '\n' ∉ line)
    (unmarked : ∀ line ∈ interior, Marker.scan line = []) :
    ∀ reading ∈ ofLines (.marker mark) interior, reading.tag = none := by
  have alone : ∀ line ∈ interior, ofText true line = ⟨line, none, .text⟩ := by
    intro line member
    have kinds := scan_tags line
    rw [unmarked line member, ofPage, lines_of_no_newline (single line member)] at kinds
    exact of_text_of_no_tag (by simpa [behindNewline] using kinds.symm)
  clear unmarked
  have below : ∀ reading ∈ ofLines .text interior, reading.tag = none := by
    clear single
    induction interior with
    | nil => simp
    | cons line interior induction =>
        have here := alone line (by simp)
        rw [of_lines_cons, of_line_text, here, List.forall_mem_cons]
        exact ⟨rfl, induction fun other member => alone other (by simp [member])⟩
  induction interior with
  | nil => simp
  | cons line interior induction =>
      have here := alone line (by simp)
      rw [of_lines_cons, of_line_text, here, List.forall_mem_cons] at below
      rw [of_lines_cons, List.forall_mem_cons]
      cases named : (Marker.attributeKey? line).isSome with
      | true =>
          rw [of_line_attribute mark named]
          refine ⟨rfl, induction (fun other member => single other (by simp [member]))
            (fun other member => alone other (by simp [member])) below.2⟩
      | false =>
          obtain ⟨_, _, _, -, -, -, reading⟩ := of_line_of_unnamed (single line (by simp)) named
            (.marker mark) (by rintro _ ⟨⟩; exact isMark)
          rw [reading, here]
          exact ⟨rfl, below.2⟩

section

variable {before : List Text} {opening front : Text} {mark : Char}
  (opens : Opens before opening front mark)
  {interior : List Text} {closing : Text} (single : ∀ line ∈ interior, '\n' ∉ line)
  (untagged : ∀ reading ∈ ofLines (.marker mark) interior, reading.tag = none)
include opens single untagged

theorem tags_around (closingSingle : '\n' ∉ closing) (kept : ¬Swallows interior closing) (below : List Text) :
    (ofLines .text (before ++ opening :: (interior ++ closing :: below))).filterMap tag =
      (ofLines .text before).filterMap tag ++ (.solution, .start) ::
        ((ofText true closing).tag.toList ++
          (ofLines (ofText true closing).above below).filterMap tag) := by
  rw [of_lines_append, List.filterMap_append, of_lines_cons, opens.reading, List.filterMap_cons]
  simp only
  rw [tags_behind_interior opens.isMark single closingSingle untagged kept]

theorem tags_around_swallowed (swallowed : Swallows interior closing) {below : List Text}
    (belowSingle : ∀ line ∈ below, '\n' ∉ line) {kind : RegionKind} {boundary : Boundary}
    (closed : (ofText true closing).tag = some (kind, boundary)) :
    (ofLines .text (before ++ opening :: (interior ++ closing :: below))).filterMap tag =
      (ofLines .text before).filterMap tag ++ (.solution, .start) ::
        (ofLines (ofText true closing).above below).filterMap tag := by
  have quiet : (ofLines (.marker mark) interior).filterMap tag = [] :=
    List.filterMap_eq_nil_iff.mpr untagged
  obtain ⟨-, ⟨-, -, above⟩ | ⟨some, -⟩⟩ := shown_below_marker opens.isMark single untagged
  · have named := is_attribute_line_eq closing
    rw [swallowed.2] at named
    obtain ⟨_, finishMark, isFinish, reading⟩ := of_text_of_tag closed
    rw [of_lines_append, List.filterMap_append, of_lines_cons, opens.reading, List.filterMap_cons]
    simp only
    rw [of_lines_append, List.filterMap_append, quiet, above, of_lines_cons,
      of_line_attribute mark named.symm, List.filterMap_cons]
    simp only [List.nil_append]
    rw [reading, tags_below_marker opens.isMark isFinish belowSingle]
  · rw [swallowed.1] at some
    cases some

end

theorem collapse_around {before : List Text} {opening front : Text} {mark : Char}
    (opens : Opens before opening front mark) {closing : Text} (closingSingle : '\n' ∉ closing)
    (closed : (ofText true closing).tag = some (.solution, .finish)) (below : List Text) :
    ∃ written left, ∀ interior, (∀ line ∈ interior, '\n' ∉ line) →
      (∀ reading ∈ ofLines (.marker mark) interior, reading.tag = none) →
      ¬Swallows interior closing →
      let shown := shownBelow .text (before ++ opening :: (interior ++ closing :: below))
      (¬Leaks interior → collapse shown = written ++ collapse left) ∧
        (Leaks interior → ∃ leak,
          collapse shown = written ++ collapse (leak ++ (solutionEnd ++ left))) := by
  obtain ⟨lead, finishMark, -, reading⟩ := of_text_of_tag closed
  have ends : solutionEnd <:+: (ofText true closing).shown := by
    rw [reading]
    exact ⟨lead, [], by simp [replacement]⟩
  obtain ⟨behind, -, after⟩ := after_solution_of_closed ends
  have left := after (shownBelow (ofText true closing).above below)
  obtain ⟨written, writes⟩ := collapse_to_solution (shownBelow .text before ++ front)
  refine ⟨written, behind ++ shownBelow (ofText true closing).above below,
    fun interior single untagged kept => ?_⟩
  have split : shownBelow .text (before ++ opening :: (interior ++ closing :: below)) =
      shownBelow .text before ++ front ++
        (solutionStart ++ shownBelow (.marker mark) (interior ++ closing :: below)) := by
    rw [shown_below_append, shown_below_cons, opens.reading]
    simp
  obtain ⟨tight, leaky⟩ :=
    after_interior opens.isMark single closingSingle untagged kept below left
  refine ⟨fun sound => ?_, fun leaks => ?_⟩
  · rw [split, writes _ _ (tight sound)]
  · obtain ⟨leak, leaked⟩ := leaky leaks
    exact ⟨leak, by rw [split, writes _ _ leaked]⟩

theorem lines_around {page : Text} {start finish : Marker} {before hidden below : List Text}
    {opening closing : Text} (cut : lines page = before ++ opening :: (hidden ++ closing :: below))
    (startLine : start.line = before.length)
    (finishLine : finish.line = before.length + 1 + hidden.length) :
    linesBetween page start finish = hidden ∧ (lines page).getD finish.line [] = closing ∧
      ∀ interior, (∀ line ∈ interior, '\n' ∉ line) →
        lines (replaceBetween page start finish interior) =
          before ++ opening :: (interior ++ closing :: below) := by
  have upTo (lines : List Text) : before ++ opening :: (lines ++ closing :: below) =
      before ++ [opening] ++ lines ++ closing :: below := by simp
  have startCount : (before ++ [opening]).length = start.line + 1 := by simp [startLine]
  have finishCount : (before ++ [opening] ++ hidden).length = finish.line := by
    simp only [List.length_append, List.length_singleton, finishLine]
  have firstLines : (lines page).take (start.line + 1) = before ++ [opening] := by
    rw [cut, upTo, List.append_assoc, List.take_left' startCount]
  have lastLines : (lines page).drop finish.line = closing :: below := by
    rw [cut, upTo, List.drop_left' finishCount]
  refine ⟨?_, ?_, fun interior single => ?_⟩
  · rw [linesBetween, cut, upTo, List.take_left' finishCount, List.drop_left' startCount]
  · have first := congrArg List.head? lastLines
    rw [List.head?_drop] at first
    simp [List.getD, first]
  · rw [replaceBetween, firstLines, lastLines, upTo, lines_join_lines (by simp)]
    intro line member
    rcases List.mem_append.mp member with member | member
    · rcases List.mem_append.mp member with member | member
      · exact no_newline_of_mem_lines (List.mem_of_mem_take (firstLines ▸ member))
      · exact single line member
    · exact no_newline_of_mem_lines (List.mem_of_mem_drop (lastLines ▸ member))

/-- An end marker that is found is not swallowed, and is a marker by itself. -/
theorem closing_of_tag {mark : Char} (isMark : Directive.isFenceMark mark = true)
    {interior : List Text} (single : ∀ line ∈ interior, '\n' ∉ line)
    (untagged : ∀ reading ∈ ofLines (.marker mark) interior, reading.tag = none) {closing : Text}
    (closingSingle : '\n' ∉ closing) {tag : RegionKind × Boundary}
    (tagged : (ofLine (aboveBelow (.marker mark) interior) closing).tag = some tag) :
    ¬Swallows interior closing ∧ (ofText true closing).tag = some tag := by
  have kept : ¬Swallows interior closing := by
    intro swallowed
    have named := is_attribute_line_eq closing
    rw [swallowed.2] at named
    obtain ⟨-, ⟨-, -, above⟩ | ⟨others, -⟩⟩ := shown_below_marker isMark single untagged
    · rw [above, of_line_attribute mark named.symm] at tagged
      cases tagged
    · rw [swallowed.1] at others
      cases others
  obtain ⟨_, _, _, -, -, -, reading, -⟩ :=
    of_line_behind_interior isMark single closingSingle untagged kept
  rw [reading] at tagged
  exact ⟨kept, tagged⟩

/-- What is written around two interiors is the same just if neither leaks. -/
theorem same_iff_tight {hidden interior : List Text} {shown changed written left : Text}
    (tight : ¬Leaks hidden → shown = written ++ collapse left)
    (leaky : Leaks hidden → ∃ leak, shown = written ++ collapse (leak ++ (solutionEnd ++ left)))
    (tight' : ¬Leaks interior → changed = written ++ collapse left)
    (leaky' : Leaks interior → ∃ leak,
      changed = written ++ collapse (leak ++ (solutionEnd ++ left)))
    (oneTight : ¬Leaks hidden ∨ ¬Leaks interior) :
    changed = shown ↔ ¬Leaks hidden ∧ ¬Leaks interior := by
  by_cases hiddenLeaks : Leaks hidden
  · have interiorTight := oneTight.resolve_left (not_not_intro hiddenLeaks)
    obtain ⟨leak, shows⟩ := leaky hiddenLeaks
    have different := ne_of_leak (tight' interiorTight) shows
    constructor
    · intro same
      exact absurd same.symm different
    · intro both
      exact absurd hiddenLeaks both.1
  · by_cases interiorLeaks : Leaks interior
    · obtain ⟨leak, shows⟩ := leaky' interiorLeaks
      have different := ne_of_leak (tight hiddenLeaks) shows
      constructor
      · intro same
        exact absurd same different
      · intro both
        exact absurd interiorLeaks both.2
    · have same := (tight' interiorLeaks).trans (tight hiddenLeaks).symm
      exact iff_of_true same ⟨hiddenLeaks, interiorLeaks⟩

/-- Other lines in a solution are refused if they swallow its end marker, and give
the same output just if they do not leak. -/
theorem bracket_exercises_replace_between {page output : Text} {earlier later : List Marker}
    {start finish : Marker} (accepted : bracketExercises page = .ok output)
    (markers : Marker.scan page = earlier ++ start :: finish :: later)
    (opens : start.tag = (.solution, .start)) {interior : List Text}
    (single : ∀ line ∈ interior, '\n' ∉ line)
    (unmarked : ∀ line ∈ interior, Marker.scan line = []) :
    (Swallows interior ((lines page).getD finish.line []) →
      ∃ error, bracketExercises (replaceBetween page start finish interior) = .error error) ∧
    (¬Swallows interior ((lines page).getD finish.line []) →
      ∃ changed, bracketExercises (replaceBetween page start finish interior) = .ok changed ∧
        (¬Leaks (linesBetween page start finish) ∨ ¬Leaks interior →
          (changed = output ↔
            ¬Leaks (linesBetween page start finish) ∧ ¬Leaks interior))) := by
  obtain ⟨before, opening, hidden, closing, below, front, mark, cut, startLine, finishLine, opens',
    hiddenUntagged, finishTag⟩ := surrounds_of_scan markers opens
  obtain ⟨between, closingLine, replace⟩ := lines_around cut startLine finishLine
  have replaced := replace interior single
  have pageSingle : ∀ line ∈ before ++ opening :: (hidden ++ closing :: below), '\n' ∉ line :=
    fun line member => no_newline_of_mem_lines (cut ▸ member)
  have closingSingle := pageSingle closing (by simp)
  have hiddenSingle := fun line (member : line ∈ hidden) => pageSingle line (by simp [member])
  have belowSingle := fun line (member : line ∈ below) => pageSingle line (by simp [member])
  obtain ⟨hiddenKept, closingTag⟩ :=
    closing_of_tag opens'.isMark hiddenSingle hiddenUntagged closingSingle finishTag
  have untagged := untagged_of_unmarked opens'.isMark single unmarked
  obtain ⟨sequenced, whole⟩ := (LineReading.bracket_exercises_eq_ok_iff page output).mp accepted
  rw [ofPage, cut, tags_around opens' hiddenSingle hiddenUntagged closingSingle hiddenKept,
    closingTag] at sequenced
  obtain ⟨finishes, unfinished⟩ := Region.finish_of_start sequenced
  rw [closingLine, between]
  refine ⟨fun swallowed => ?_, fun kept => ?_⟩
  · cases result : bracketExercises (replaceBetween page start finish interior) with
    | error error => exact ⟨error, rfl⟩
    | ok changed =>
        obtain ⟨sequenced, -⟩ := (LineReading.bracket_exercises_eq_ok_iff _ _).mp result
        rw [ofPage, replaced, tags_around_swallowed opens' single untagged swallowed belowSingle
          closingTag] at sequenced
        exact absurd sequenced unfinished
  · obtain ⟨written, left, around⟩ :=
      collapse_around opens' closingSingle (closingTag.trans (congrArg some finishes)) below
    obtain ⟨tight, leaky⟩ := around hidden hiddenSingle hiddenUntagged hiddenKept
    obtain ⟨tight', leaky'⟩ := around interior single untagged kept
    have start := collapse_shown_page (replaceBetween page start finish interior)
    rw [cut] at whole
    rw [replaced] at start
    rw [whole] at tight leaky
    rw [start] at tight' leaky'
    refine ⟨_, (LineReading.bracket_exercises_eq_ok_iff _ _).mpr
      ⟨?_, by rw [replaced]; exact start⟩, ?_⟩
    · rw [ofPage, replaced, tags_around opens' single untagged closingSingle kept, closingTag]
      exact sequenced
    · intro oneTight
      have same := same_iff_tight tight leaky tight' leaky' oneTight
      rw [List.cons.injEq] at same
      exact (and_iff_right rfl).symm.trans same

set_option maxRecDepth 8000 in
/-- A closing comment between the markers of a solution shows what stands behind it. -/
theorem bracket_exercises_leak :
    let page := joinLines (["```\x7bsolution-start\x7d", "```", "A",
      "```\x7bsolution-end\x7d"].map String.toList)
    let start : Marker := ⟨.solution, .start, [], [], 0⟩
    let finish : Marker := ⟨.solution, .finish, [], [], 3⟩
    let interior := ["```", "<!-- end-solution -->", "B"].map String.toList
    ∃ changed, bracketExercises (replaceBetween page start finish interior) = .ok changed ∧
      changed ≠ placeholder := by
  intro page start finish interior
  have accepted : bracketExercises page = .ok placeholder := by rfl
  have markers : Marker.scan page = [] ++ start :: finish :: [] := by decide
  have single : ∀ line ∈ interior, '\n' ∉ line := by decide
  have replaced := bracket_exercises_replace_between accepted markers (by decide) single (by decide)
  obtain ⟨changed, written, same⟩ := replaced.2 (by unfold Swallows; decide)
  refine ⟨changed, written, ?_⟩
  intro unchanged
  have sound : ¬Leaks (linesBetween page start finish) := by
    rintro ⟨line, member, inside⟩
    have plain : ∀ line ∈ (linesBetween page start finish).dropWhile isAttributeLine,
        '<' ∉ line := by decide
    exact plain line member (inside.mem (by decide))
  have leaks : Leaks interior := ⟨solutionEnd, by decide, List.infix_refl _⟩
  exact ((same (.inl sound)).mp unchanged).2 leaks

end LessonBook
