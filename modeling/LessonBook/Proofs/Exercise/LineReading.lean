import LessonBook.Exercise.Bracketing
import LessonBook.Proofs.Exercise.MarkerLine
import LessonBook.Proofs.Text.Lines

/-!
A page read line by line. Each line is read by itself, with one thing known of
the lines above it: whether a marker stands there that may take the line as an
attribute line or as its closing fence.
-/

namespace LessonBook

open Text Recognizer

/-- What stands directly above a line: a marker, perhaps with attribute lines, or anything else. -/
inductive Above where
  | text
  | marker (mark : Char)
  deriving DecidableEq, Repr

/-- What becomes of one line: the text shown for it, the marker on it, and what
it is to the line below. -/
structure LineReading where
  shown : Text
  tag : Option (RegionKind × Boundary)
  above : Above
  deriving DecidableEq, Repr

namespace LineReading

/-- The first marker of a line with the text in front of it. A marker begins
where the line does, or behind one of the other line terminators. -/
def marker? (atStart : Bool) : Text → Option (Text × Marker.Opening)
  | [] => none
  | text@(c :: rest) =>
      match if atStart then Marker.opening? text else none with
      | some (opening, _) => some ([], opening)
      | none => (marker? (isTerminator c) rest).map fun (front, opening) => (c :: front, opening)

theorem marker_eq_none {line : Text} (unbroken : ∀ c ∈ line, isTerminator c = false) :
    marker? false line = none := by
  induction line with
  | nil => rfl
  | cons c line induction =>
      have plain := unbroken c (by simp)
      simp [marker?, plain, induction fun d member => unbroken d (by simp [member])]

def ofText (atStart : Bool) (line : Text) : LineReading :=
  match marker? atStart line with
  | none => ⟨line, none, .text⟩
  | some (front, opening) =>
      ⟨front ++ ExerciseBracketing.replacement opening.kind opening.boundary,
        some (opening.kind, opening.boundary), .marker opening.mark⟩

def behindNewline (reading : LineReading) : LineReading :=
  { reading with shown := '\n' :: reading.shown }

def ofLine (above : Above) (line : Text) : LineReading :=
  match above with
  | .text => (ofText true line).behindNewline
  | .marker mark =>
      if (Marker.attributeKey? line).isSome then ⟨[], none, .marker mark⟩
      else match Marker.closing? mark line with
        | some rest => ofText false rest
        | none => (ofText true line).behindNewline

def ofLines (above : Above) : List Text → List LineReading
  | [] => []
  | line :: lines => ofLine above line :: ofLines (ofLine above line).above lines

def shownBelow (above : Above) (lines : List Text) : Text :=
  (ofLines above lines).flatMap shown

def tagsFrom (first : Nat) : List LineReading → List (RegionKind × Boundary × Nat)
  | [] => []
  | reading :: readings =>
      (reading.tag.map fun tag => (tag.1, tag.2, first)).toList ++ tagsFrom (first + 1) readings

def ofPage (page : Text) : List LineReading :=
  ofLines .text (lines page)

@[simp] theorem of_text_nil (atStart : Bool) : ofText atStart [] = ⟨[], none, .text⟩ := rfl

theorem of_text_plain {atStart : Bool} {c : Char} {line : Text}
    (refused : (if atStart then Marker.opening? (c :: line) else none) = none) :
    ofText atStart (c :: line) =
      { ofText (isTerminator c) line with shown := c :: (ofText (isTerminator c) line).shown } := by
  simp only [ofText, marker?, refused]
  cases marker? (isTerminator c) line <;> rfl

theorem of_text_marker {c : Char} {line left : Text} {opening : Marker.Opening}
    (opened : Marker.opening? (c :: line) = some (opening, left)) :
    ofText true (c :: line) =
      ⟨ExerciseBracketing.replacement opening.kind opening.boundary,
        some (opening.kind, opening.boundary), .marker opening.mark⟩ := by
  simp [ofText, marker?, opened]

@[simp] theorem of_lines_nil (above : Above) : ofLines above [] = [] := rfl

@[simp] theorem of_lines_cons (above : Above) (line : Text) (lines : List Text) :
    ofLines above (line :: lines) =
      ofLine above line :: ofLines (ofLine above line).above lines := rfl

@[simp] theorem shown_below_nil (above : Above) : shownBelow above [] = [] := rfl

@[simp] theorem shown_below_cons (above : Above) (line : Text) (lines : List Text) :
    shownBelow above (line :: lines) =
      (ofLine above line).shown ++ shownBelow (ofLine above line).above lines := rfl

@[simp] theorem tags_from_nil (first : Nat) : tagsFrom first [] = [] := rfl

@[simp] theorem tags_from_cons (first : Nat) (reading : LineReading)
    (readings : List LineReading) : tagsFrom first (reading :: readings) =
      (reading.tag.map fun tag => (tag.1, tag.2, first)).toList ++
        tagsFrom (first + 1) readings := rfl

@[simp] theorem of_line_text (line : Text) :
    ofLine .text line = (ofText true line).behindNewline := rfl

theorem of_line_attribute (mark : Char) {line : Text}
    (named : (Marker.attributeKey? line).isSome = true) :
    ofLine (.marker mark) line = ⟨[], none, .marker mark⟩ := by
  simp [ofLine, named]

theorem of_line_closing {mark : Char} {line rest : Text}
    (unnamed : (Marker.attributeKey? line).isSome = false)
    (closed : Marker.closing? mark line = some rest) :
    ofLine (.marker mark) line = ofText false rest := by
  simp [ofLine, unnamed, closed]

theorem of_line_behind {mark : Char} {line : Text}
    (unnamed : (Marker.attributeKey? line).isSome = false)
    (refused : Marker.closing? mark line = none) :
    ofLine (.marker mark) line = (ofText true line).behindNewline := by
  simp [ofLine, unnamed, refused]

def aboveBelow (above : Above) : List Text → Above
  | [] => above
  | line :: lines => aboveBelow (ofLine above line).above lines

@[simp] theorem above_below_nil (above : Above) : aboveBelow above [] = above := rfl

@[simp] theorem above_below_cons (above : Above) (line : Text) (lines : List Text) :
    aboveBelow above (line :: lines) = aboveBelow (ofLine above line).above lines := rfl

theorem of_lines_append (above : Above) (front back : List Text) :
    ofLines above (front ++ back) = ofLines above front ++ ofLines (aboveBelow above front) back := by
  induction front generalizing above with
  | nil => rfl
  | cons line front induction => simp [induction]

theorem shown_below_append (above : Above) (front back : List Text) :
    shownBelow above (front ++ back) =
      shownBelow above front ++ shownBelow (aboveBelow above front) back := by
  simp [shownBelow, of_lines_append]

theorem length_of_lines (above : Above) (lines : List Text) :
    (ofLines above lines).length = lines.length := by
  induction lines generalizing above with
  | nil => rfl
  | cons line lines induction => simp [induction]

theorem of_text_of_no_tag {atStart : Bool} {line : Text}
    (untagged : (ofText atStart line).tag = none) : ofText atStart line = ⟨line, none, .text⟩ := by
  cases found : marker? atStart line with
  | none => simp [ofText, found]
  | some marker => simp [ofText, found] at untagged

theorem is_mark_of_marker {atStart : Bool} {line front : Text} {opening : Marker.Opening}
    (found : marker? atStart line = some (front, opening)) :
    Directive.isFenceMark opening.mark = true := by
  induction line generalizing atStart front with
  | nil => cases found
  | cons c line induction =>
      rw [marker?] at found
      split at found
      · rename_i opened
        cases found
        cases atStart with
        | false => cases opened
        | true =>
            obtain ⟨fenced, named, fence, -⟩ := Marker.fence_of_opening opened
            exact (Marker.skip_of_fence fence).1
      · simp only [Option.map_eq_some_iff] at found
        obtain ⟨⟨inner, other⟩, later, same⟩ := found
        cases same
        exact induction later

theorem of_text_of_tag {atStart : Bool} {line : Text} {kind : RegionKind} {boundary : Boundary}
    (tagged : (ofText atStart line).tag = some (kind, boundary)) : ∃ front mark,
      Directive.isFenceMark mark = true ∧
        ofText atStart line = ⟨front ++ ExerciseBracketing.replacement kind boundary,
          some (kind, boundary), .marker mark⟩ := by
  cases found : marker? atStart line with
  | none => simp [ofText, found] at tagged
  | some marker =>
      obtain ⟨front, opening⟩ := marker
      simp only [ofText, found, Option.some.injEq, Prod.mk.injEq] at tagged
      obtain ⟨rfl, rfl⟩ := tagged
      exact ⟨front, opening.mark, is_mark_of_marker found, by simp [ofText, found]⟩

theorem marker_append {fence : Text} (unbroken : ∀ c ∈ fence, isTerminator c = false)
    (rest : Text) : marker? false (fence ++ rest) =
      (marker? false rest).map fun found => (fence ++ found.1, found.2) := by
  induction fence with
  | nil => simp
  | cons c fence induction =>
      have plain := unbroken c (by simp)
      rw [List.cons_append, marker?, if_neg (by simp), plain,
        induction fun d member => unbroken d (by simp [member]), Option.map_map]
      rfl

theorem marker_of_closing {mark : Char} (isMark : Directive.isFenceMark mark = true)
    {line rest : Text} (closed : Marker.closing? mark line = some rest) (single : '\n' ∉ line) :
    ∃ fence, '<' ∉ fence ∧ '\n' ∉ fence ∧ line = fence ++ rest ∧ marker? true line =
      (marker? false rest).map fun found => (fence ++ found.1, found.2) := by
  obtain ⟨fence, rfl, taken⟩ := Marker.closing_split closed single
  have letter : ∀ c ∈ fence, c ≠ '<' ∧ isTerminator c = false := by
    intro c member
    have either : (Directive.isFenceMark c || isSpaceOrTab c) = true := by
      rcases taken c member with rfl | blank
      · simp [isMark]
      · simp [blank]
    simp only [Directive.isFenceMark, isSpaceOrTab, Bool.or_eq_true, beq_iff_eq] at either
    rcases either with ((rfl | rfl) | rfl) | (rfl | rfl) <;> decide
  refine ⟨fence, fun member => (letter _ member).1 rfl,
    fun member => single (List.mem_append_left rest member), rfl, ?_⟩
  cases fence with
  | nil => exact absurd (Marker.shorter_of_closing closed) (Nat.lt_irrefl _)
  | cons c fence =>
      have refused : (if true then Marker.opening? (c :: (fence ++ rest)) else none) = none := by
        cases opened : Marker.opening? (c :: (fence ++ rest)) with
        | none => rfl
        | some found =>
            rw [List.cons_append, Marker.closing_of_opening mark opened] at closed
            cases closed
      rw [← marker_append (fun d member => (letter d member).2), List.cons_append, marker?, marker?,
        refused]
      rfl

theorem of_text_of_closing {mark : Char} (isMark : Directive.isFenceMark mark = true)
    {line rest : Text} (closed : Marker.closing? mark line = some rest) (single : '\n' ∉ line) :
    ∃ fence, '<' ∉ fence ∧ line = fence ++ rest ∧ ofText true line =
      { ofText false rest with shown := fence ++ (ofText false rest).shown } := by
  obtain ⟨fence, plain, -, split, same⟩ := marker_of_closing isMark closed single
  refine ⟨fence, plain, split, ?_⟩
  rw [ofText, same, ofText]
  cases marker? false rest with
  | none => simp [split]
  | some found => simp

/-- A line that is no attribute line says the same below a marker as by itself,
but for its closing fence and the newline in front of it. -/
theorem of_line_of_unnamed {line : Text} (single : '\n' ∉ line)
    (unnamed : (Marker.attributeKey? line).isSome = false) (above : Above)
    (isFence : ∀ mark, above = .marker mark → Directive.isFenceMark mark = true) :
    ∃ dropped kept added, '<' ∉ dropped ∧ '<' ∉ added ∧
      (ofText true line).shown = dropped ++ kept ∧
      ofLine above line = { ofText true line with shown := added ++ kept } := by
  have alone : ∃ dropped kept added, '<' ∉ dropped ∧ '<' ∉ added ∧
      (ofText true line).shown = dropped ++ kept ∧
      (ofText true line).behindNewline = { ofText true line with shown := added ++ kept } :=
    ⟨[], (ofText true line).shown, ['\n'], by simp, by simp, rfl, rfl⟩
  cases above with
  | text => exact alone
  | marker mark =>
      cases closed : Marker.closing? mark line with
      | none =>
          rw [of_line_behind unnamed closed]
          exact alone
      | some rest =>
          obtain ⟨fence, plain, -, whole⟩ := of_text_of_closing (isFence mark rfl) closed single
          exact ⟨fence, (ofText false rest).shown, [], plain, by simp, by rw [whole],
            by rw [of_line_closing unnamed closed, whole]; rfl⟩

theorem kinds_of_tags (first : Nat) (readings : List LineReading) :
    (tagsFrom first readings).map (fun tag => (tag.1, tag.2.1)) = readings.filterMap tag := by
  induction readings generalizing first with
  | nil => rfl
  | cons reading readings induction =>
      rw [tags_from_cons, List.map_append, induction]
      cases tagged : reading.tag <;> simp [tagged]

/-- Every marker of some lines stands on a line of them. -/
theorem split_of_tags {first : Nat} {readings : List LineReading} {kind : RegionKind}
    {boundary : Boundary} {place : Nat} {earlier later : List (RegionKind × Boundary × Nat)}
    (tags : tagsFrom first readings = earlier ++ (kind, boundary, place) :: later) :
    ∃ front reading back, readings = front ++ reading :: back ∧ place = first + front.length ∧
      reading.tag = some (kind, boundary) ∧ tagsFrom first front = earlier ∧
      tagsFrom (place + 1) back = later := by
  induction readings generalizing first earlier with
  | nil => simp at tags
  | cons reading readings induction =>
      rw [tags_from_cons] at tags
      cases tagged : reading.tag with
      | none =>
          rw [tagged] at tags
          obtain ⟨front, other, back, rfl, rfl, here, before, behind⟩ := induction tags
          refine ⟨reading :: front, other, back, rfl, ?_, here, ?_, behind⟩
          · rw [List.length_cons]
            omega
          · simpa [tagged] using before
      | some tag =>
          rw [tagged] at tags
          cases earlier with
          | nil =>
              simp only [Option.map_some, Option.toList_some, List.singleton_append,
                List.nil_append, List.cons.injEq, Prod.mk.injEq] at tags
              obtain ⟨⟨rfl, rfl, rfl⟩, rfl⟩ := tags
              exact ⟨[], reading, readings, rfl, rfl, tagged, rfl, rfl⟩
          | cons entry earlier =>
              simp only [Option.map_some, Option.toList_some, List.cons_append,
                List.cons.injEq] at tags
              obtain ⟨rfl, tags⟩ := tags
              obtain ⟨front, other, back, rfl, rfl, here, before, behind⟩ := induction tags
              refine ⟨reading :: front, other, back, rfl, ?_, here, ?_, behind⟩
              · rw [List.length_cons]
                omega
              · simp [tagged, before]

theorem split_of_lines {above : Above} {lines : List Text} {front back : List LineReading}
    {reading : LineReading} (readings : ofLines above lines = front ++ reading :: back) :
    ∃ before line below, lines = before ++ line :: below ∧ front = ofLines above before ∧
      reading = ofLine (aboveBelow above before) line ∧ back = ofLines reading.above below := by
  induction front generalizing above lines with
  | nil =>
      cases lines with
      | nil => cases readings
      | cons line below =>
          rw [of_lines_cons, List.nil_append, List.cons.injEq] at readings
          obtain ⟨rfl, rfl⟩ := readings
          exact ⟨[], line, below, rfl, rfl, rfl, rfl⟩
  | cons other front induction =>
      cases lines with
      | nil => cases readings
      | cons line lines =>
          rw [of_lines_cons, List.cons_append, List.cons.injEq] at readings
          obtain ⟨rfl, readings⟩ := readings
          obtain ⟨before, marked, below, rfl, rfl, rfl, rfl⟩ := induction readings
          exact ⟨line :: before, marked, below, rfl, rfl, rfl, rfl⟩

theorem untagged_of_tags_nil {first : Nat} {readings : List LineReading}
    (tags : tagsFrom first readings = []) : ∀ reading ∈ readings, reading.tag = none := by
  rw [← List.filterMap_eq_nil_iff, ← kinds_of_tags first, tags]
  rfl

theorem of_line_of_tag {above : Above} {line : Text} {kind : RegionKind} {boundary : Boundary}
    (tagged : (ofLine above line).tag = some (kind, boundary)) : ∃ front mark,
      Directive.isFenceMark mark = true ∧
        ofLine above line = ⟨front ++ ExerciseBracketing.replacement kind boundary,
          some (kind, boundary), .marker mark⟩ := by
  have behind {atStart : Bool} (alone : (ofText atStart line).tag = some (kind, boundary)) :
      ∃ front mark, Directive.isFenceMark mark = true ∧
        (ofText atStart line).behindNewline =
          ⟨front ++ ExerciseBracketing.replacement kind boundary,
            some (kind, boundary), .marker mark⟩ := by
    obtain ⟨front, mark, isMark, reading⟩ := of_text_of_tag alone
    exact ⟨'\n' :: front, mark, isMark, by rw [reading]; rfl⟩
  cases above with
  | text => exact behind tagged
  | marker mark =>
      cases named : (Marker.attributeKey? line).isSome with
      | true =>
          rw [of_line_attribute mark named] at tagged
          cases tagged
      | false =>
          cases closed : Marker.closing? mark line with
          | none =>
              rw [of_line_behind named closed] at tagged ⊢
              exact behind tagged
          | some rest =>
              rw [of_line_closing named closed] at tagged ⊢
              exact of_text_of_tag tagged

theorem tags_below_marker {first second : Char} (isFirst : Directive.isFenceMark first = true)
    (isSecond : Directive.isFenceMark second = true) {lines : List Text}
    (single : ∀ line ∈ lines, '\n' ∉ line) :
    (ofLines (.marker first) lines).filterMap tag =
      (ofLines (.marker second) lines).filterMap tag := by
  induction lines with
  | nil => rfl
  | cons line lines induction =>
      have lineSingle := single line (by simp)
      rw [of_lines_cons, of_lines_cons]
      cases named : (Marker.attributeKey? line).isSome with
      | true =>
          rw [of_line_attribute first named, of_line_attribute second named]
          simpa using induction fun other member => single other (by simp [member])
      | false =>
          obtain ⟨_, _, _, -, -, -, reading⟩ := of_line_of_unnamed lineSingle named
            (.marker first) (by rintro _ ⟨⟩; exact isFirst)
          obtain ⟨_, _, _, -, -, -, reading'⟩ := of_line_of_unnamed lineSingle named
            (.marker second) (by rintro _ ⟨⟩; exact isSecond)
          rw [reading, reading']
          rfl

end LineReading

end LessonBook
