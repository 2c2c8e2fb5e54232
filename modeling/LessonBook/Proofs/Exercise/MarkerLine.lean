import LessonBook.Exercise.Marker
import LessonBook.Proofs.Text.FirstLine
import LessonBook.Proofs.Text.Search

/-!
What a marker consists of, line by line. The opening line, an attribute line and
a closing fence are each read from one line, whatever stands below it.
-/

namespace LessonBook.Marker

open Text Recognizer

def fence? (text : Text) : Option (Char × Text) :=
  match skipUpTo isSpaceOrTab 3 text with
  | [] => none
  | mark :: rest =>
      if Directive.isFenceMark mark && 3 ≤ ((mark :: rest).takeWhile (· == mark)).length then
        some (mark, (mark :: rest).dropWhile (· == mark))
      else none

def tag? (text : Text) : Option ((RegionKind × Boundary) × Text) := do
  let named ← char '\x7b' text
  let (kind, afterKind) ← kind? named
  let (boundary, afterBoundary) ← boundary? (← char '-' afterKind)
  some ((kind, boundary), ← char '\x7d' afterBoundary)

def tagText (kind : RegionKind) (boundary : Boundary) : Text :=
  ['\x7b'] ++ kind.name ++ ['-'] ++ boundary.name ++ ['\x7d']

theorem opening_eq (text : Text) :
    opening? text = (fence? text).bind fun fenced =>
      (tag? (skipSpacesAndTabs fenced.2)).bind fun tagged =>
        (lineEnd (afterFirstLine tagged.2)).map fun rest =>
          (⟨fenced.1, tagged.1.1, tagged.1.2, firstLine tagged.2⟩, rest) := by
  unfold opening? fence?
  cases fenced : skipUpTo isSpaceOrTab 3 text with
  | nil => rfl
  | cons mark rest =>
      simp only [List.head?_cons, Option.bind_eq_bind, Option.bind_some]
      generalize ((mark :: rest).takeWhile (· == mark)).length = count
      generalize (mark :: rest).dropWhile (· == mark) = behind
      by_cases accepted : Directive.isFenceMark mark = true ∧ 3 ≤ count
      · have refused : ¬(count < 3) := Nat.not_lt.mpr accepted.2
        simp only [accepted.1, accepted.2, refused, tag?, Bool.not_true, decide_false,
          Bool.or_self, Bool.false_eq_true, if_false, decide_true, Bool.and_self, if_true,
          Option.bind_eq_bind, Option.bind_assoc, Option.bind_some, Option.map_eq_bind,
          Function.comp_def]
      · have refused : (!Directive.isFenceMark mark || decide (count < 3)) = true := by
          simp only [Bool.or_eq_true, Bool.not_eq_true', decide_eq_true_eq]
          by_contra kept
          rw [not_or, Bool.not_eq_false, Nat.not_lt] at kept
          exact accepted kept
        simp only [refused, if_true, Bool.and_eq_true, decide_eq_true_eq, accepted, if_false]
        rfl

theorem kind_eq_some_iff {text rest : Text} {kind : RegionKind} :
    kind? text = some (kind, rest) ↔ text = kind.name ++ rest := by
  constructor
  · intro read
    simp only [kind?, Option.or_eq_some_iff, Option.map_eq_some_iff] at read
    obtain ⟨after, found, same⟩ | ⟨-, after, found, same⟩ := read <;> cases same <;>
      exact word_eq_some_iff.mp found
  · rintro rfl
    cases kind <;> rfl

theorem boundary_eq_some_iff {text rest : Text} {boundary : Boundary} :
    boundary? text = some (boundary, rest) ↔ text = boundary.name ++ rest := by
  constructor
  · intro read
    simp only [boundary?, Option.or_eq_some_iff, Option.map_eq_some_iff] at read
    obtain ⟨after, found, same⟩ | ⟨-, after, found, same⟩ := read <;> cases same <;>
      exact word_eq_some_iff.mp found
  · rintro rfl
    cases boundary <;> rfl

theorem tag_eq_some_iff {text rest : Text} {tag : RegionKind × Boundary} :
    tag? text = some (tag, rest) ↔ text = tagText tag.1 tag.2 ++ rest := by
  constructor
  · intro read
    simp only [tag?, Option.bind_eq_bind, Option.bind_eq_some_iff, char_eq_some_iff] at read
    obtain ⟨named, rfl, ⟨kind, afterKind⟩, read, afterDash, rfl, ⟨boundary, afterBoundary⟩, read',
      closed, rfl, same⟩ := read
    cases same
    rw [kind_eq_some_iff.mp read, boundary_eq_some_iff.mp read']
    simp [tagText]
  · rintro rfl
    obtain ⟨kind, boundary⟩ := tag
    cases kind <;> cases boundary <;> rfl

/-! ### What is left is an end part -/

theorem suffix_of_fence {text rest : Text} {mark : Char}
    (read : fence? text = some (mark, rest)) : rest <:+ text := by
  unfold fence? at read
  have fencedSuffix := skip_up_to_suffix isSpaceOrTab 3 text
  split at read
  · cases read
  · rename_i fenced
    rw [fenced] at fencedSuffix
    split at read
    · cases read
      exact (List.dropWhile_suffix _).trans fencedSuffix
    · cases read

theorem suffix_of_tag {text rest : Text} {tag : RegionKind × Boundary}
    (read : tag? text = some (tag, rest)) : rest <:+ text :=
  ⟨tagText tag.1 tag.2, (tag_eq_some_iff.mp read).symm⟩

theorem suffix_of_attribute_key {text key rest : Text}
    (read : attributeKey? text = some (key, rest)) : rest <:+ text := by
  simp only [attributeKey?, Option.bind_eq_bind, Option.bind_eq_some_iff] at read
  obtain ⟨named, colon, read⟩ := read
  split at read
  · simp at read
  · simp only [Option.bind_eq_some_iff] at read
    obtain ⟨after, colon', same⟩ := read
    cases same
    exact (suffix_of_char colon').trans <| (List.dropWhile_suffix _).trans <|
      (suffix_of_char colon).trans (List.dropWhile_suffix _)

theorem suffix_of_attribute_line {text rest : Text} (read : attributeLine? text = some rest) :
    rest <:+ text := by
  simp only [attributeLine?, Option.bind_eq_bind, Option.bind_eq_some_iff] at read
  obtain ⟨named, key, ended⟩ := read
  exact (suffix_of_line_end ended).trans <| (after_first_line_suffix _).trans <|
    suffix_of_attribute_key key

theorem suffix_of_closing {mark : Char} {text rest : Text} (read : closing? mark text = some rest) :
    rest <:+ text := by
  have behind : skipSpacesAndTabs ((skipSpacesAndTabs text).dropWhile (· == mark)) <:+ text :=
    (List.dropWhile_suffix _).trans <| (List.dropWhile_suffix _).trans (List.dropWhile_suffix _)
  simp only [closing?] at read
  split at read
  · cases read
  · split at read
    · cases read
      exact List.nil_suffix
    · rename_i c after found
      rw [found] at behind
      split at read
      · cases read
        exact (List.suffix_cons c _).trans behind
      · split at read
        · cases read
          rw [found]
          exact behind
        · cases read

theorem shorter_of_attribute_line {text rest : Text} (read : attributeLine? text = some rest) :
    rest.length < text.length := by
  simp only [attributeLine?, attributeKey?, Option.bind_eq_bind, Option.bind_eq_some_iff] at read
  obtain ⟨⟨key, after⟩, ⟨named, colon, keyed⟩, ended⟩ := read
  split at keyed
  · simp at keyed
  · simp only [Option.bind_eq_some_iff] at keyed
    obtain ⟨after', colon', same⟩ := keyed
    cases same
    have left := (suffix_of_line_end ended).trans <| (after_first_line_suffix _).trans <|
      (suffix_of_char colon').trans (List.dropWhile_suffix _)
    have skipped := List.dropWhile_suffix (l := text) isSpaceOrTab
    rw [← skipSpacesAndTabs, char_eq_some_iff.mp colon] at skipped
    have bound := skipped.length_le
    have restBound := left.length_le
    simp only [List.length_cons] at bound
    omega

theorem rest_of_closing {mark : Char} {line rest : Text} (read : closing? mark line = some rest)
    (single : '\n' ∉ line) :
    skipSpacesAndTabs ((skipSpacesAndTabs line).dropWhile (· == mark)) = rest ∧
      (rest = [] ∨ ∃ c after, rest = c :: after ∧ isTerminator c = true) := by
  have behind : skipSpacesAndTabs ((skipSpacesAndTabs line).dropWhile (· == mark)) <:+ line :=
    (List.dropWhile_suffix _).trans <| (List.dropWhile_suffix _).trans (List.dropWhile_suffix _)
  simp only [closing?] at read
  split at read
  · cases read
  · split at read
    · rename_i found
      cases read
      exact ⟨found, .inl rfl⟩
    · rename_i c after found
      rw [found] at behind
      have plain : ¬c = '\n' := by
        rintro rfl
        exact single (behind.mem (by simp))
      rw [found] at read
      simp only [beq_iff_eq, plain, if_false] at read
      split at read
      · cases read
        exact ⟨found, .inr ⟨c, after, rfl, ‹_›⟩⟩
      · cases read

theorem closing_split {mark : Char} {line rest : Text} (read : closing? mark line = some rest)
    (single : '\n' ∉ line) :
    ∃ fence, line = fence ++ rest ∧ ∀ c ∈ fence, c = mark ∨ isSpaceOrTab c = true := by
  have blanks := List.takeWhile_append_dropWhile (p := isSpaceOrTab) (l := line)
  have run := List.takeWhile_append_dropWhile (p := (· == mark)) (l := line.dropWhile isSpaceOrTab)
  have more := List.takeWhile_append_dropWhile (p := isSpaceOrTab)
    (l := (line.dropWhile isSpaceOrTab).dropWhile (· == mark))
  have left := (rest_of_closing read single).1
  rw [skipSpacesAndTabs, skipSpacesAndTabs] at left
  rw [left] at more
  refine ⟨line.takeWhile isSpaceOrTab ++ ((line.dropWhile isSpaceOrTab).takeWhile (· == mark) ++
    ((line.dropWhile isSpaceOrTab).dropWhile (· == mark)).takeWhile isSpaceOrTab), ?_, ?_⟩
  · rw [List.append_assoc, List.append_assoc, more, run, blanks]
  · intro c member
    rcases List.mem_append.mp member with member | member
    · exact .inr (List.mem_takeWhile_imp member)
    · rcases List.mem_append.mp member with member | member
      · exact .inl (by simpa using List.mem_takeWhile_imp member)
      · exact .inr (List.mem_takeWhile_imp member)

theorem shorter_of_closing {mark : Char} {text rest : Text} (read : closing? mark text = some rest) :
    rest.length < text.length := by
  have fenceBound := (List.dropWhile_suffix (l := text) isSpaceOrTab).length_le
  rw [← skipSpacesAndTabs] at fenceBound
  have whole := congrArg List.length
    (List.takeWhile_append_dropWhile (p := (· == mark)) (l := skipSpacesAndTabs text))
  rw [List.length_append] at whole
  have restBound := (List.dropWhile_suffix (l := (skipSpacesAndTabs text).dropWhile (· == mark))
    isSpaceOrTab).length_le
  simp only [closing?] at read
  split at read
  · cases read
  · rename_i long
    split at read
    · cases read
      simp only [List.length_nil]
      omega
    · rename_i c after found
      rw [skipSpacesAndTabs] at found
      rw [found, List.length_cons] at restBound
      split at read
      · cases read
        omega
      · split at read
        · cases read
          rw [skipSpacesAndTabs, found, List.length_cons]
          omega
        · cases read

/-! ### One line is enough -/

variable {tail : Text}

theorem fence_before_end (ended : atLineEnd tail = true) (line : Text) :
    fence? (line ++ tail) = (fence? line).map fun fenced => (fenced.1, fenced.2 ++ tail) := by
  unfold fence?
  rw [skip_up_to_before_end _ (by decide) ended]
  cases fenced : skipUpTo isSpaceOrTab 3 line with
  | nil => obtain rfl | ⟨below, rfl⟩ := line_end_cases ended <;> simp [Directive.isFenceMark]
  | cons mark rest =>
      simp only [List.cons_append]
      by_cases isMark : Directive.isFenceMark mark = true
      · have inside : ('\n' == mark) = false := by
          rw [beq_eq_false_iff_ne]
          rintro rfl
          exact absurd isMark (by decide)
        rw [← List.cons_append, take_while_before_end (· == mark) inside ended,
          drop_while_before_end (· == mark) inside ended]
        split <;> rfl
      · simp [isMark]

theorem kind_before_end (ended : atLineEnd tail = true) (line : Text) :
    kind? (line ++ tail) = (kind? line).map fun found => (found.1, found.2 ++ tail) := by
  have exercise := word_before_end RegionKind.exercise.name (by decide) ended line
  have solution := word_before_end RegionKind.solution.name (by decide) ended line
  simp only [kind?, exercise, solution]
  cases word RegionKind.exercise.name line <;> cases word RegionKind.solution.name line <;> rfl

theorem boundary_before_end (ended : atLineEnd tail = true) (line : Text) :
    boundary? (line ++ tail) = (boundary? line).map fun found => (found.1, found.2 ++ tail) := by
  have start := word_before_end Boundary.start.name (by decide) ended line
  have finish := word_before_end Boundary.finish.name (by decide) ended line
  simp only [boundary?, start, finish]
  cases word Boundary.start.name line <;> cases word Boundary.finish.name line <;> rfl

theorem tag_before_end (ended : atLineEnd tail = true) (line : Text) :
    tag? (line ++ tail) = (tag? line).map fun tagged => (tagged.1, tagged.2 ++ tail) := by
  have opened := char_before_end '\x7b' (by decide) ended
  have dash := char_before_end '-' (by decide) ended
  have closed := char_before_end '\x7d' (by decide) ended
  simp [tag?, opened, dash, closed, kind_before_end ended, boundary_before_end ended,
    Option.map_eq_bind, Option.bind_assoc]

theorem opening_before_end (ended : atLineEnd tail = true) {line : Text} (single : '\n' ∉ line) :
    opening? (line ++ tail) = (opening? line).map fun found => (found.1, tail.drop 1) := by
  simp only [opening_eq, fence_before_end ended]
  cases fence : fence? line with
  | none => rfl
  | some fenced =>
      simp only [Option.map_some, Option.bind_some, skip_spaces_and_tabs_before_end ended,
        tag_before_end ended]
      cases named : tag? (skipSpacesAndTabs fenced.2) with
      | none => rfl
      | some tagged =>
          have suffixSingle : '\n' ∉ tagged.2 := single_of_suffix single <|
            (suffix_of_tag named).trans <| (List.dropWhile_suffix _).trans (suffix_of_fence fence)
          have alone := after_first_line_before_end (rfl : atLineEnd [] = true) suffixSingle
          have aloneFirst := first_line_before_end (rfl : atLineEnd [] = true) suffixSingle
          have endAlone : lineEnd [] = some [] := rfl
          rw [List.append_nil] at alone aloneFirst
          simp [after_first_line_before_end ended suffixSingle, line_end_of_end ended,
            first_line_before_end ended suffixSingle, alone, aloneFirst, endAlone]

theorem attribute_key_before_end (ended : atLineEnd tail = true) (line : Text) :
    attributeKey? (line ++ tail) =
      (attributeKey? line).map fun named => (named.1, named.2 ++ tail) := by
  have colon := char_before_end ':' (by decide) ended
  simp only [attributeKey?, Option.bind_eq_bind, skip_spaces_and_tabs_before_end ended, colon]
  cases char ':' (skipSpacesAndTabs line) with
  | none => rfl
  | some named =>
      simp only [Option.map_some, Option.bind_some,
        take_while_before_end FieldList.isKeyChar (by decide) ended,
        drop_while_before_end FieldList.isKeyChar (by decide) ended, colon]
      split
      · rfl
      · cases char ':' (named.dropWhile FieldList.isKeyChar) <;> rfl

theorem attribute_line_before_end (ended : atLineEnd tail = true) {line : Text}
    (single : '\n' ∉ line) : attributeLine? (line ++ tail) =
      if (attributeKey? line).isSome then some (tail.drop 1) else none := by
  simp only [attributeLine?, Option.bind_eq_bind, attribute_key_before_end ended]
  cases named : attributeKey? line with
  | none => rfl
  | some found =>
      have restSingle := single_of_suffix single (suffix_of_attribute_key named)
      simp [after_first_line_before_end ended restSingle, line_end_of_end ended]

theorem closing_before_end {mark : Char} (isMark : Directive.isFenceMark mark = true)
    (ended : atLineEnd tail = true) {line : Text} (single : '\n' ∉ line) :
    closing? mark (line ++ tail) = (closing? mark line).map fun rest =>
      if rest.isEmpty then tail.drop 1 else rest ++ tail := by
  have inside : ('\n' == mark) = false := by
    rw [beq_eq_false_iff_ne]
    rintro rfl
    exact absurd isMark (by decide)
  have behind : skipSpacesAndTabs ((skipSpacesAndTabs line).dropWhile (· == mark)) <:+ line :=
    (List.dropWhile_suffix _).trans <| (List.dropWhile_suffix _).trans (List.dropWhile_suffix _)
  simp only [closing?, skip_spaces_and_tabs_before_end ended,
    take_while_before_end (· == mark) inside ended, drop_while_before_end (· == mark) inside ended]
  split
  · rfl
  · cases rest : skipSpacesAndTabs ((skipSpacesAndTabs line).dropWhile (· == mark)) with
    | nil => obtain rfl | ⟨below, rfl⟩ := line_end_cases ended <;> simp
    | cons c after =>
        rw [rest] at behind
        have plain : c ≠ '\n' := by
          rintro rfl
          exact single (behind.mem (by simp))
        by_cases terminator : isTerminator c = true <;> simp [plain, terminator]

/-! ### A marker line is nothing else -/

theorem drop_while_of_skip_up_to {inClass : Char → Bool} {count : Nat} {text rest : Text}
    {c : Char} (skipped : skipUpTo inClass count text = c :: rest) (outside : inClass c = false) :
    text.dropWhile inClass = c :: rest := by
  induction count generalizing text with
  | zero =>
      simp only [skipUpTo] at skipped
      simp [skipped, outside]
  | succ count induction =>
      cases text with
      | nil => simp [skipUpTo] at skipped
      | cons d more =>
          simp only [skipUpTo] at skipped
          split at skipped
          · rename_i inside
            rw [List.dropWhile_cons, if_pos inside]
            exact induction skipped
          · cases skipped
            simp [outside]

theorem skip_of_fence {text rest : Text} {mark : Char} (read : fence? text = some (mark, rest)) :
    Directive.isFenceMark mark = true ∧ ∃ more,
      skipSpacesAndTabs text = mark :: mark :: mark :: more ∧
        (mark :: mark :: mark :: more).dropWhile (· == mark) = rest := by
  unfold fence? at read
  split at read
  · cases read
  · rename_i c behind fenced
    split at read
    · rename_i accepted
      cases read
      simp only [Bool.and_eq_true, decide_eq_true_eq] at accepted
      obtain ⟨isMark, long⟩ := accepted
      have notBlank : isSpaceOrTab mark = false := by
        revert isMark
        simp only [Directive.isFenceMark, isSpaceOrTab, Bool.or_eq_true, beq_iff_eq]
        rintro ((rfl | rfl) | rfl) <;> decide
      refine ⟨isMark, ?_⟩
      rw [skipSpacesAndTabs, drop_while_of_skip_up_to fenced notBlank]
      match behind, long with
      | [], long => simp at long
      | [d], long => by_cases same : d = mark <;> simp [same] at long
      | d :: e :: more, long =>
          by_cases second : d = mark
          · by_cases third : e = mark
            · subst second third
              exact ⟨more, rfl, rfl⟩
            · simp [second, third] at long
          · simp [second] at long
    · cases read

theorem fence_of_opening {text rest : Text} {opening : Opening}
    (read : opening? text = some (opening, rest)) : ∃ fenced named,
      fence? text = some (opening.mark, fenced) ∧ skipSpacesAndTabs fenced = '\x7b' :: named := by
  simp only [opening_eq, Option.bind_eq_some_iff, Option.map_eq_some_iff] at read
  obtain ⟨⟨mark, fenced⟩, fence, ⟨tag, tagged⟩, tagRead, after, ended, same⟩ := read
  cases same
  simp only [tag?, Option.bind_eq_bind, Option.bind_eq_some_iff] at tagRead
  obtain ⟨named, brace, -⟩ := tagRead
  exact ⟨fenced, named, fence, char_eq_some_iff.mp brace⟩

theorem attribute_key_of_opening {text rest : Text} {opening : Opening}
    (read : opening? text = some (opening, rest)) : attributeKey? text = none := by
  obtain ⟨fenced, named, fence, -⟩ := fence_of_opening read
  obtain ⟨-, more, skipped, -⟩ := skip_of_fence fence
  by_cases colon : opening.mark = ':'
  · simp [attributeKey?, skipped, colon, char, one, FieldList.isKeyChar, isWordChar]
  · simp [attributeKey?, skipped, colon, char, one]

theorem closing_of_opening {text rest : Text} {opening : Opening} (mark : Char)
    (read : opening? text = some (opening, rest)) : closing? mark text = none := by
  obtain ⟨fenced, named, fence, brace⟩ := fence_of_opening read
  obtain ⟨-, more, skipped, behind⟩ := skip_of_fence fence
  by_cases same : opening.mark = mark
  · subst same
    simp only [closing?, skipped, behind, brace]
    simp [isTerminator]
  · simp [closing?, skipped, same]

end LessonBook.Marker
