import LessonBook.Proofs.Exercise.LineRewrite
import LessonBook.Proofs.Exercise.MarkerScan
import LessonBook.Proofs.Text.Trim

/-!
The markers of a page whose only line terminator is the newline. Each marker line
bears one, whatever stands above it, and no other line does.
-/

namespace LessonBook

open Text Recognizer

/-- A marker as its lines are written: the marker line, and the keys and values on
the attribute lines directly below it, from top to bottom. -/
structure WrittenMarker where
  kind : RegionKind
  boundary : Boundary
  suffix : Text
  entries : List (Text × Text)
  line : Nat
  deriving DecidableEq, Repr

namespace WrittenMarker

def behindTag (marker : MarkerLine) (line : Text) : Text :=
  let fence := line.dropWhile isSpaceOrTab
  let tag := (fence.dropWhile (· == marker.mark)).dropWhile isSpaceOrTab
  tag.drop (Marker.tagText marker.kind marker.boundary).length

def entryOn (line : Text) : Text × Text :=
  let named := (line.dropWhile isSpaceOrTab).drop 1
  (named.takeWhile FieldList.isKeyChar, trim ((named.dropWhile FieldList.isKeyChar).drop 1))

/-- Looks at every line by itself. -/
def ofLines (number : Nat) : List Text → List WrittenMarker
  | [] => []
  | line :: below =>
      match MarkerLine.ofLine? line with
      | none => ofLines (number + 1) below
      | some marker =>
          ⟨marker.kind, marker.boundary, trim (behindTag marker line),
            (below.takeWhile isAttributeLine).map entryOn, number⟩ :: ofLines (number + 1) below

end WrittenMarker

/-- A marker says what is written: of several values for one key the last, and
none for the reserved key. -/
structure Marker.Says (found : Marker) (written : WrittenMarker) : Prop where
  kind : found.kind = written.kind
  boundary : found.boundary = written.boundary
  suffix : found.suffix = written.suffix
  line : found.line = written.line
  distinct : (Record.keys found.attributes).Nodup
  attributes : ∀ key,
    Record.find? key found.attributes = Record.lastValue? key written.entries

namespace MarkerLine

theorem behind_tag_of_opening {line left : Text} {opening : Marker.Opening}
    (single : '\n' ∉ line) (opened : Marker.opening? line = some (opening, left)) :
    opening.suffix =
      WrittenMarker.behindTag ⟨opening.mark, opening.kind, opening.boundary⟩ line := by
  rw [Marker.opening_eq] at opened
  simp only [Option.bind_eq_some_iff, Option.map_eq_some_iff] at opened
  obtain ⟨⟨mark, fenced⟩, fence, ⟨⟨kind, boundary⟩, suffix⟩, named, rest, -, same⟩ := opened
  cases same
  have inside : '\n' ∉ suffix := single_of_suffix single <|
    (Marker.suffix_of_tag named).trans <| (List.dropWhile_suffix _).trans <|
      Marker.suffix_of_fence fence
  have whole : firstLine suffix = suffix := by
    have alone := first_line_before_end (rfl : atLineEnd [] = true) inside
    rwa [List.append_nil] at alone
  have behindFence : (line.dropWhile isSpaceOrTab).dropWhile (· == mark) = fenced := by
    rw [fence_eq] at fence
    split at fence
    · cases fence
    · rename_i other rest blanks
      split at fence
      · cases fence
        rw [blanks]
      · cases fence
  rw [WrittenMarker.behindTag, behindFence, ← skipSpacesAndTabs, Marker.tag_eq_some_iff.mp named,
    List.drop_left, whole]

theorem marker_of_unbroken {line : Text} (unbroken : ∀ c ∈ line, isTerminator c = false) :
    LineReading.marker? true line =
      (Marker.opening? line).map fun found => ([], found.1) := by
  cases line with
  | nil => rfl
  | cons c line =>
      rw [LineReading.marker?, if_pos rfl]
      cases opened : Marker.opening? (c :: line) with
      | some found => rfl
      | none =>
          have later := LineReading.marker_eq_none
            fun d (member : d ∈ line) => unbroken d (List.mem_cons_of_mem c member)
          rw [unbroken c List.mem_cons_self, later]
          rfl

end MarkerLine

theorem attribute_of_unbroken {line : Text} (unbroken : ∀ c ∈ line, isTerminator c = false)
    (named : isAttributeLine line = true) :
    Marker.attribute? line = some (WrittenMarker.entryOn line) := by
  rw [is_attribute_line_eq, Option.isSome_iff_exists] at named
  obtain ⟨⟨key, value⟩, read⟩ := named
  have inside := (Marker.suffix_of_attribute_key read).subset
  have plain : ∀ c ∈ skipSpacesAndTabs value, isTerminator c = false :=
    fun c member => unbroken c (inside ((List.dropWhile_suffix _).subset member))
  have entry : WrittenMarker.entryOn line = (key, trim value) := by
    simp only [Marker.attributeKey?, Option.bind_eq_bind, Option.bind_eq_some_iff] at read
    obtain ⟨named, colon, read⟩ := read
    split at read
    · simp at read
    · simp only [Option.bind_eq_some_iff, Option.some.injEq, Prod.mk.injEq] at read
      obtain ⟨rest, second, rfl, rfl⟩ := read
      rw [char_eq_some_iff, skipSpacesAndTabs] at colon
      rw [char_eq_some_iff] at second
      rw [WrittenMarker.entryOn, colon, List.drop_one, List.tail_cons, second]
      rfl
  have single : (skipSpacesAndTabs value).any isTerminator = false := by
    rw [List.any_eq_false]
    exact fun c member => by rw [plain c member]; exact Bool.false_ne_true
  simp only [Marker.attribute?, read, Option.bind_eq_bind, Option.bind_some, single,
    Bool.false_eq_true, if_false, entry, trim_skip_spaces_and_tabs]

section

variable {pieces : List Text} (unbroken : ∀ line ∈ pieces, ∀ c ∈ line, isTerminator c = false)
include unbroken

theorem attributes_say :
    let attributes := Marker.attributesOn (Marker.attributeLines pieces)
    (Record.keys attributes).Nodup ∧ ∀ key, Record.find? key attributes =
      Record.lastValue? key ((pieces.takeWhile isAttributeLine).map WrittenMarker.entryOn) := by
  have taken : Marker.attributeLines pieces = pieces.takeWhile isAttributeLine :=
    congrArg (pieces.takeWhile ·) (funext fun line => (is_attribute_line_eq line).symm)
  have entries : (pieces.takeWhile isAttributeLine).filterMap Marker.attribute? =
      (pieces.takeWhile isAttributeLine).map WrittenMarker.entryOn := by
    rw [← List.filterMap_eq_map]
    refine List.filterMap_congr fun line member => ?_
    exact attribute_of_unbroken (unbroken line ((List.takeWhile_prefix _).subset member))
      (List.mem_takeWhile_imp member)
  rw [taken, Marker.attributesOn, entries]
  exact Record.find_of_entries _

/-- Reading line by line says what is written, behind a marker or not: an attribute
line is never a marker line. -/
theorem of_lines_say (behindMarker : Bool) (number : Nat) :
    List.Forall₂ Marker.Says (Marker.ofLines behindMarker number pieces)
      (WrittenMarker.ofLines number pieces) := by
  induction pieces generalizing behindMarker number with
  | nil => exact .nil
  | cons line below induction =>
      have here := unbroken line List.mem_cons_self
      have later := fun other member => unbroken other (List.mem_cons_of_mem line member)
      have single : '\n' ∉ line := fun member => absurd (here _ member) (by decide)
      have formed := MarkerLine.opening_eq single
      have found := MarkerLine.marker_of_unbroken here
      cases opened : Marker.opening? line with
      | none =>
          rw [opened] at formed found
          have nothing : WrittenMarker.ofLines number (line :: below) =
              WrittenMarker.ofLines (number + 1) below := by
            rw [WrittenMarker.ofLines, ← formed]
            rfl
          rw [nothing, Marker.ofLines, found]
          split
          · exact induction later true (number + 1)
          · exact induction later false (number + 1)
      | some opening =>
          obtain ⟨opening, left⟩ := opening
          rw [opened] at formed found
          have unnamed : (Marker.attributeKey? line).isSome = false := by
            rw [Marker.attribute_key_of_opening opened]
            rfl
          obtain ⟨distinct, attributes⟩ := attributes_say later
          rw [WrittenMarker.ofLines, ← formed, Marker.of_lines_rest (.inr unnamed), Marker.ofRest,
            found]
          exact .cons ⟨rfl, rfl, congrArg trim (MarkerLine.behind_tag_of_opening single opened), rfl,
            distinct, attributes⟩ (induction later true (number + 1))

end

/-- On a page whose only line terminator is the newline, the scan finds what a look
at every single line finds. -/
theorem scan_says_lines (page : Text) (newlines : ∀ c ∈ page, isTerminator c = true → c = '\n') :
    List.Forall₂ Marker.Says (Marker.scan page) (WrittenMarker.ofLines 0 (lines page)) := by
  rw [Marker.scan_eq_of_lines]
  refine of_lines_say (fun line member c present => ?_) false 0
  rw [Bool.eq_false_iff]
  intro terminator
  have inside := (infix_of_mem_lines member).mem present
  cases newlines c inside terminator
  exact no_newline_of_mem_lines member present

set_option maxRecDepth 8000 in
theorem scan_says_lines_crowded :
    let page := joinLines (["A", "", " ```\x7bexercise-start\x7d  one ", ":label: e", ":__proto__: p",
      "\t:label:  f ", "```", "~~~~ \x7bexercise-end\x7d", ":::\x7bsolution-start\x7d", "::::",
      ":a: b", ":::\x7bsolution-end\x7d\t"].map String.toList)
    (∀ c ∈ page, isTerminator c = true → c = '\n') ∧
      List.Forall₂ Marker.Says (Marker.scan page) (WrittenMarker.ofLines 0 (lines page)) ∧
      Marker.scan page = [
        ⟨.exercise, .start, "one".toList, [("label".toList, "f".toList)], 2⟩,
        ⟨.exercise, .finish, [], [], 7⟩, ⟨.solution, .start, [], [], 8⟩,
        ⟨.solution, .finish, [], [], 11⟩] := by
  intro page
  have newlines : ∀ c ∈ page, isTerminator c = true → c = '\n' :=
    only_newlines_of_all (by decide)
  exact ⟨newlines, scan_says_lines page newlines, by decide⟩

end LessonBook
