import LessonBook.Proofs.Exercise.LineEnds
import LessonBook.Proofs.Exercise.MarkerScan
import LessonBook.Proofs.Text.Trim

/-!
The markers of a page in which every carriage return has a newline behind it.
Read with newlines only, the same lines bear the same markers. Their attributes
differ, because an attribute line that ends with a carriage return says nothing.
-/

namespace LessonBook

open AdmonitionBracketing Text Recognizer

namespace Marker

def Opening.trimmed (opening : Opening) : Opening :=
  { opening with suffix := trim opening.suffix }

/-- The carriage return at the end of a line belongs to the blanks around its text. -/
theorem trim_first_line_return {line rest : Text} (plain : IsPlain line)
    (inside : rest <:+ line ++ ['\r']) :
    trim (firstLine (normalizeLineEnds rest)) = trim (firstLine rest) := by
  obtain rfl | ⟨front, last, rfl⟩ := List.eq_nil_or_concat rest
  · rfl
  · obtain ⟨taken, whole⟩ := inside
    rw [List.concat_eq_append, ← List.append_assoc] at whole
    obtain ⟨same, ended⟩ := List.append_inj' whole rfl
    cases ended
    have frontPlain : IsPlain front := plain.subset (same ▸ List.subset_append_right taken front)
    have frontSingle : '\n' ∉ front := fun member => (frontPlain _ member).1 rfl
    have single : '\n' ∉ front ++ ['\r'] := by simp [frontSingle]
    have whole := first_line_before_end (rfl : atLineEnd [] = true) single
    rw [List.append_nil] at whole
    have cut : firstLine (front ++ ['\n']) = front :=
      first_line_before_end (rfl : atLineEnd ['\n'] = true) frontSingle
    have normalized : normalizeLineEnds (front ++ ['\r']) = front ++ ['\n'] :=
      normalize_append frontPlain ['\r']
    rw [List.concat_eq_append, normalized, cut, whole, trim_append_blank (by simp [isBlank])]

variable {line : Text} (plain : IsPlain line)
include plain

theorem opening_return : (opening? (line ++ ['\r'])).map (·.1.trimmed) =
    (opening? line).map (·.1.trimmed) := by
  have single : '\n' ∉ line := fun member => (plain _ member).1 rfl
  have normalized : normalizeLineEnds (line ++ ['\r']) = line ++ ['\n'] :=
    normalize_append plain ['\r']
  have alone : (opening? (normalizeLineEnds (line ++ ['\r']))).map (·.1.trimmed) =
      (opening? line).map (·.1.trimmed) := by
    rw [normalized, opening_before_end rfl single, Option.map_map]
    rfl
  rw [← alone, opening_eq, opening_eq, fence_normalize]
  cases fence : fence? (line ++ ['\r']) with
  | none => rfl
  | some fenced =>
      simp only [Option.map_some, Option.bind_some, skip_spaces_and_tabs_normalize, tag_normalize]
      cases named : tag? (skipSpacesAndTabs fenced.2) with
      | none => rfl
      | some tagged =>
          have inside : tagged.2 <:+ line ++ ['\r'] :=
            (suffix_of_tag named).trans <| (List.dropWhile_suffix _).trans (suffix_of_fence fence)
          simp [line_end_after_first_line, Opening.trimmed, trim_first_line_return plain inside]

theorem attribute_key_return :
    (attributeKey? (line ++ ['\r'])).isSome = (attributeKey? line).isSome := by
  have same := attribute_key_normalize (line ++ ['\r'])
  rw [normalize_append plain] at same
  have named := attribute_key_before_end (rfl : atLineEnd ['\n'] = true) line
  simpa using congrArg Option.isSome (same.symm.trans named)

theorem attribute_return : attribute? (line ++ ['\r']) = none := by
  cases read : attributeKey? (line ++ ['\r']) with
  | none => rw [attribute?, read]; rfl
  | some named =>
      have same := attribute_key_normalize (line ++ ['\r'])
      have ended := attribute_key_before_end (rfl : atLineEnd ['\n'] = true) line
      rw [normalize_append plain, read] at same
      obtain ⟨other, -, rest⟩ := Option.map_eq_some_iff.mp (ended.symm.trans same)
      have present : named.2 ≠ [] := by
        intro nothing
        simp [nothing, normalizeLineEnds] at rest
      obtain ⟨taken, whole⟩ := suffix_of_attribute_key read
      obtain ⟨value, last, split⟩ := (List.eq_nil_or_concat named.2).resolve_left present
      rw [split, List.concat_eq_append, ← List.append_assoc] at whole
      cases (List.append_inj' whole rfl).2
      have member : '\r' ∈ skipSpacesAndTabs named.2 :=
        mem_drop_while (by decide) (by simp [split])
      have ended : (skipSpacesAndTabs named.2).any isTerminator = true :=
        List.any_eq_true.mpr ⟨'\r', member, by decide⟩
      simp only [attribute?, read, Option.bind_eq_bind, Option.bind_some, ended, if_true,
        Option.bind_none]

/-- The carriage return at the end of a line hides no marker. -/
theorem marker_return (atStart : Bool) :
    (LineReading.marker? atStart (line ++ ['\r'])).map (·.2.trimmed) =
      (LineReading.marker? atStart line).map (·.2.trimmed) := by
  induction line generalizing atStart with
  | nil =>
      have refused : opening? ['\r'] = none := opening_at_other (fun letter => by cases letter.2.2) []
      cases atStart <;> simp [LineReading.marker?, refused]
  | cons c line induction =>
      have below := induction (plain_cons.mp plain).2 (isTerminator c)
      have behind : ((LineReading.marker? (isTerminator c) (line ++ ['\r'])).map
          fun found => (c :: found.1, found.2)).map (·.2.trimmed) =
            ((LineReading.marker? (isTerminator c) line).map
              fun found => (c :: found.1, found.2)).map (·.2.trimmed) := by
        rw [Option.map_map, Option.map_map]
        exact below
      cases atStart with
      | false => exact behind
      | true =>
          have alike := opening_return plain
          rw [List.cons_append] at alike ⊢
          simp only [LineReading.marker?, if_true]
          cases ended : opening? (c :: (line ++ ['\r'])) with
          | none =>
              rw [ended, Option.map_none, eq_comm, Option.map_eq_none_iff] at alike
              rw [alike]
              exact behind
          | some found =>
              rw [ended] at alike
              cases opened : opening? (c :: line) with
              | none => rw [opened] at alike; cases alike
              | some other => rw [opened] at alike; exact alike

omit plain

/-! ### The lines of a page -/

/-- Whether a line bears a marker, and what the marker line says, does not depend on
the carriage return at its end; nor does whether it is an attribute line. -/
theorem line_without_returns {line : Text} (single : '\n' ∉ line) (ended : ReturnsLast line) :
    (attributeKey? line).isSome = (attributeKey? (withoutReturns line)).isSome ∧
      (LineReading.marker? true line).map (·.2.trimmed) =
        (LineReading.marker? true (withoutReturns line)).map (·.2.trimmed) := by
  have plain := without_returns_plain single
  rcases ended with same | same
  · rw [← same]
    exact ⟨rfl, rfl⟩
  · have named := attribute_key_return plain
    have found := marker_return plain true
    rw [← same] at named found
    exact ⟨named, found⟩

theorem attribute_lines_without_returns {pieces : List Text}
    (single : ∀ line ∈ pieces, '\n' ∉ line) (ended : ∀ line ∈ pieces, ReturnsLast line) :
    attributeLines (pieces.map withoutReturns) = (attributeLines pieces).map withoutReturns := by
  induction pieces with
  | nil => rfl
  | cons line pieces induction =>
      have named := (line_without_returns (single line (by simp)) (ended line (by simp))).1
      have below := induction (fun other member => single other (by simp [member]))
        fun other member => ended other (by simp [member])
      rw [attributeLines] at below ⊢
      rw [attributeLines, List.map_cons, List.takeWhile_cons, List.takeWhile_cons, ← named, below]
      split <;> rfl

theorem attributes_on_ended {pieces : List Text} (single : ∀ line ∈ pieces, '\n' ∉ line)
    (ended : ∀ line ∈ pieces, ReturnsLast line) :
    attributesOn pieces = attributesOn (pieces.filter fun line => '\r' ∉ line) := by
  have same : pieces.filterMap attribute? =
      (pieces.filter fun line => '\r' ∉ line).filterMap attribute? := by
    rw [List.filterMap_filter]
    refine List.filterMap_congr fun line member => ?_
    rcases ended line member with same | same
    · have clean : '\r' ∉ line := by
        rw [same]
        exact fun carriage => (without_returns_plain (single line member) _ carriage).2 rfl
      rw [if_pos (by simpa using clean)]
    · have carriage : '\r' ∈ line := by
        rw [same]
        exact List.mem_append_right _ (List.mem_singleton_self _)
      have nothing := attribute_return (without_returns_plain (single line member))
      rw [← same] at nothing
      rw [if_neg (by simpa using carriage), nothing]
  rw [attributesOn, same, attributesOn]

theorem attributes_of_mem {all : List Text} {behindMarker : Bool} {number : Nat} {found : Marker}
    (member : found ∈ ofLines behindMarker number (all.drop number)) :
    found.attributes = attributesOn (attributeLines (all.drop (found.line + 1))) := by
  induction pieces : all.drop number generalizing number behindMarker with
  | nil =>
      rw [pieces] at member
      cases member
  | cons line below induction =>
      have next : all.drop (number + 1) = below := by
        rw [← List.drop_drop, pieces]
        rfl
      rw [pieces, ofLines] at member
      split at member
      · exact induction (next ▸ member) next
      · split at member
        · exact induction (next ▸ member) next
        · rcases List.mem_cons.mp member with rfl | member
          · rw [← next]
            rfl
          · exact induction (next ▸ member) next

def withAttributesOn (run : List Text) (found : Marker) : Marker :=
  { found with attributes := attributesOn (run.map withoutReturns) }

theorem of_lines_without_returns {all : List Text} (single : ∀ line ∈ all, '\n' ∉ line)
    (ended : ∀ line ∈ all, ReturnsLast line) (behindMarker : Bool) (number : Nat) :
    ofLines behindMarker number ((all.drop number).map withoutReturns) =
      (ofLines behindMarker number (all.drop number)).map fun found =>
        found.withAttributesOn (attributeLines (all.drop (found.line + 1))) := by
  induction pieces : all.drop number generalizing number behindMarker with
  | nil => rfl
  | cons line below induction =>
      have next : all.drop (number + 1) = below := by
        rw [← List.drop_drop, pieces]
        rfl
      have member : ∀ {other}, other ∈ line :: below → other ∈ all :=
        fun present => List.mem_of_mem_drop (pieces ▸ present)
      have lineMember := member List.mem_cons_self
      obtain ⟨named, found⟩ := line_without_returns (single line lineMember) (ended line lineMember)
      rw [List.map_cons, ofLines, ofLines, ← named]
      split
      · exact induction true (number + 1) next
      · cases marked : LineReading.marker? true line with
        | none =>
            rw [marked, Option.map_none, eq_comm, Option.map_eq_none_iff] at found
            rw [found]
            exact induction false (number + 1) next
        | some marker =>
            rw [marked, Option.map_some, eq_comm, Option.map_eq_some_iff] at found
            obtain ⟨other, otherMarked, same⟩ := found
            have kind := congrArg Opening.kind same
            have boundary := congrArg Opening.boundary same
            have suffix := congrArg Opening.suffix same
            simp only [Opening.trimmed] at kind boundary suffix
            have run := attribute_lines_without_returns
              (fun other present => single other (member (List.mem_cons_of_mem line present)))
              fun other present => ended other (member (List.mem_cons_of_mem line present))
            rw [otherMarked, List.map_cons, induction true (number + 1) next]
            simp only [ofOpening, withAttributesOn, kind, boundary, suffix, run, next]

/-- In a page whose carriage returns all have a newline behind them, the markers
do not depend on the line ends, except that attribute lines which end with a
carriage return give no attribute. -/
theorem scan_of_paired {page : Text} (paired : loneReturns page = 0) :
    let below (found : Marker) := attributeLines ((lines page).drop (found.line + 1))
    scan (normalizeLineEnds page) =
        (scan page).map (fun found => found.withAttributesOn (below found)) ∧
      (∀ found ∈ scan page, found.attributes =
        attributesOn ((below found).filter fun line => '\r' ∉ line)) ∧
      (scan (normalizeLineEnds page) = scan page ↔ ∀ found ∈ scan page,
        attributesOn ((below found).map withoutReturns) =
          attributesOn ((below found).filter fun line => '\r' ∉ line)) := by
  intro below
  have single : ∀ line ∈ lines page, '\n' ∉ line := fun line => no_newline_of_mem_lines
  have ended : ∀ line ∈ lines page, ReturnsLast line := fun line => returns_last_of_mem_lines paired
  have normalized : scan (normalizeLineEnds page) =
      (scan page).map fun found => found.withAttributesOn (below found) := by
    rw [scan_eq_of_lines, scan_eq_of_lines, normalize_of_paired paired, lines_without_returns]
    exact of_lines_without_returns single ended false 0
  have attributes : ∀ found ∈ scan page, found.attributes =
      attributesOn ((below found).filter fun line => '\r' ∉ line) := by
    intro found member
    have inside : ∀ line ∈ below found, line ∈ lines page := fun line present =>
      List.mem_of_mem_drop ((List.takeWhile_prefix _).subset present)
    rw [← attributes_on_ended (fun line present => single line (inside line present))
      fun line present => ended line (inside line present)]
    rw [scan_eq_of_lines, ← List.drop_zero (l := lines page)] at member
    exact attributes_of_mem member
  refine ⟨normalized, attributes, ?_⟩
  have fixed := List.map_inj_left (l := scan page) (f := fun found =>
    found.withAttributesOn (below found)) (g := id)
  rw [List.map_id] at fixed
  rw [normalized, fixed]
  refine forall₂_congr fun found member => ?_
  rw [← attributes found member]
  exact ⟨congrArg Marker.attributes, fun same => by rw [withAttributesOn, same]; rfl⟩

/-- Of three attribute lines the last two end with a newline alone, and one of them
takes the key of the first. -/
theorem scan_of_paired_mixed :
    let page := "A\r\n```\x7bexercise-start\x7d one\r\n:label: x\r\n:a: b\n:a: c\n```\r\n".toList
    loneReturns page = 0 ∧
      (∀ found ∈ scan page, found.attributes =
        attributesOn ((attributeLines ((lines page).drop (found.line + 1))).filter
          fun line => '\r' ∉ line)) ∧
      scan page = [⟨.exercise, .start, "one".toList, [("a".toList, "c".toList)], 1⟩] ∧
      scan (normalizeLineEnds page) = [⟨.exercise, .start, "one".toList,
        [("label".toList, "x".toList), ("a".toList, "c".toList)], 1⟩] := by
  intro page
  have paired : loneReturns page = 0 := by decide
  exact ⟨paired, (scan_of_paired paired).2.1, by decide, by decide⟩

/-- The label of an exercise is lost where the lines end with a carriage return and a newline. -/
theorem scan_loses_label :
    let page := "```\x7bexercise-start\x7d\r\n:label: x\r\n```\r\n".toList
    loneReturns page = 0 ∧ scan page = [⟨.exercise, .start, [], [], 0⟩] ∧
      scan (normalizeLineEnds page) =
        [⟨.exercise, .start, [], [("label".toList, "x".toList)], 0⟩] := by
  decide

end Marker

end LessonBook
