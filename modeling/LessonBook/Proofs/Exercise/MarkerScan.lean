import LessonBook.Proofs.Exercise.Attributes

/-!
The markers of a page with all that they say, line by line. A line bears at most
one marker, and none where it is an attribute line below another one; the
attributes of a marker stand on the attribute lines directly below its line.
-/

namespace LessonBook

open Text Recognizer

namespace Marker

def ofOpening (opening : Opening) (number : Nat) (below : List Text) : Marker :=
  ⟨opening.kind, opening.boundary, trim opening.suffix, attributesOn (attributeLines below), number⟩

/-- The markers of some lines, the first of which has the given number. Behind a
marker the attribute lines at the front belong to it. -/
def ofLines (behindMarker : Bool) (number : Nat) : List Text → List Marker
  | [] => []
  | line :: below =>
      if behindMarker && (attributeKey? line).isSome then ofLines true (number + 1) below
      else match LineReading.marker? true line with
        | none => ofLines false (number + 1) below
        | some (_, opening) => ofOpening opening number below :: ofLines true (number + 1) below

def ofRest (atStart : Bool) (number : Nat) (rest : Text) (below : List Text) : List Marker :=
  match LineReading.marker? atStart rest with
  | none => ofLines false (number + 1) below
  | some (_, opening) => ofOpening opening number below :: ofLines true (number + 1) below

theorem of_lines_attribute {line : Text} (named : (attributeKey? line).isSome = true)
    (number : Nat) (below : List Text) :
    ofLines true number (line :: below) = ofLines true (number + 1) below := by
  simp [ofLines, named]

theorem of_lines_rest {behindMarker : Bool} {line : Text}
    (other : behindMarker = false ∨ (attributeKey? line).isSome = false) (number : Nat)
    (below : List Text) : ofLines behindMarker number (line :: below) = ofRest true number line below := by
  rw [ofLines, if_neg, ofRest]
  rcases other with rfl | unnamed
  · simp
  · simp [unnamed]

theorem of_rest_plain {atStart : Bool} {c : Char} {rest : Text}
    (refused : (if atStart then opening? (c :: rest) else none) = none) (number : Nat)
    (below : List Text) : ofRest atStart number (c :: rest) below =
      ofRest (isTerminator c) number rest below := by
  rw [ofRest, LineReading.marker?, refused, ofRest]
  cases LineReading.marker? (isTerminator c) rest <;> rfl

theorem of_rest_marker {c : Char} {rest left : Text} {opening : Opening}
    (opened : opening? (c :: rest) = some (opening, left)) (number : Nat) (below : List Text) :
    ofRest true number (c :: rest) below =
      ofOpening opening number below :: ofLines true (number + 1) below := by
  rw [ofRest, LineReading.marker?, if_pos rfl, opened]

theorem of_rest_closing {mark : Char} (isMark : Directive.isFenceMark mark = true)
    {line rest : Text} (closed : closing? mark line = some rest) (single : '\n' ∉ line)
    (number : Nat) (below : List Text) :
    ofRest true number line below = ofRest false number rest below := by
  obtain ⟨fence, -, -, -, same⟩ := LineReading.marker_of_closing isMark closed single
  rw [ofRest, same, ofRest]
  cases LineReading.marker? false rest <;> rfl

theorem behind_suffix (mark : Char) (text : Text) : behind mark text <:+ text := by
  have lines := many_suffix suffix_of_attribute_line text
  rw [behind]
  cases closed : closing? mark (many attributeLine? text) with
  | none => exact lines
  | some rest => exact (suffix_of_closing closed).trans lines

theorem read_opening {text below : Text} {opening : Opening}
    (opened : opening? text = some (opening, below)) (line : Nat) :
    read? line text = some (⟨opening.kind, opening.boundary, trim opening.suffix,
      attributesOf (before below (many attributeLine? below)), line⟩, behind opening.mark below) := by
  rw [read?, opened]
  rfl

end Marker

namespace Piece

/-- Scanning the rest of a line and the lines below it finds what the lines say. -/
def FindsMarkers (atStart : Bool) (number : Nat) (line : Text) (below : List Text) : Prop :=
  (scan 0 number atStart (line ++ linesBelow below)).filterMap marker? =
    Marker.ofRest atStart number line below

/-- A closing fence that ends with its line leaves the lines below. -/
theorem finds_behind_line {first : Nat} {line taken consumed : Text} {below : List Text}
    (lineSingle : '\n' ∉ line)
    (finds : ∀ next others, below = next :: others →
      FindsMarkers true (first + newlineCount taken + 1 + 1) next others)
    (split : taken ++ linesBelow (line :: below) = consumed ++ joinLines below) :
    (scan 0 (first + newlineCount consumed) ((consumed.getLast?.map isTerminator).getD true)
      (joinLines below)).filterMap marker? =
      Marker.ofRest false (first + newlineCount taken + 1) [] below := by
  cases below with
  | nil => rfl
  | cons next others =>
      obtain rfl : consumed = taken ++ '\n' :: (line ++ ['\n']) := by
        rw [lines_below_cons, lines_below_of_cons next, List.append_cons line] at split
        have apart : taken ++ '\n' :: (line ++ ['\n']) ++ joinLines (next :: others) =
            consumed ++ joinLines (next :: others) := by simpa using split
        exact (List.append_cancel_right apart).symm
      have count : first + newlineCount (taken ++ '\n' :: (line ++ ['\n'])) =
          first + newlineCount taken + 1 + 1 := by
        simp [newline_count_append, newline_count_of_no_newline lineSingle, Nat.add_assoc]
      have last : (taken ++ '\n' :: (line ++ ['\n'])).getLast? = some '\n' := by
        rw [← List.cons_append, ← List.append_assoc, List.getLast?_concat]
      have here := finds next others rfl
      rw [FindsMarkers, ← join_lines_cons] at here
      rw [count, last, Marker.ofRest, LineReading.marker?]
      exact here

/-- Behind a marker the lines below are scanned as `Marker.ofLines` reads them. The
induction is on the attribute lines; `taken` is the text in front of those that are left. -/
theorem finds_below_marker {mark : Char} (isMark : Directive.isFenceMark mark = true)
    (first : Nat) (below : List Text) (single : ∀ line ∈ below, '\n' ∉ line)
    (finds : ∀ atStart number line lines, lines.length < below.length → '\n' ∉ line →
      (∀ other ∈ lines, '\n' ∉ other) → FindsMarkers atStart number line lines)
    (taken consumed : Text)
    (split : taken ++ linesBelow below = consumed ++ Marker.behind mark (joinLines below)) :
    (scan 0 (first + newlineCount consumed) ((consumed.getLast?.map isTerminator).getD true)
      (Marker.behind mark (joinLines below))).filterMap marker? =
      Marker.ofLines true (first + newlineCount taken + 1) below := by
  induction below generalizing taken with
  | nil => rfl
  | cons line below induction =>
      have lineSingle := single line (by simp)
      have belowSingle : ∀ other ∈ below, '\n' ∉ other :=
        fun other member => single other (by simp [member])
      have ended : isTerminator '\n' = true := by decide
      have here := finds true (first + newlineCount taken + 1) line below (by simp) lineSingle
        belowSingle
      cases named : (Marker.attributeKey? line).isSome with
      | true =>
          have count : newlineCount (taken ++ '\n' :: line) = newlineCount taken + 1 := by
            simp [newline_count_append, newline_count_of_no_newline lineSingle]
          rw [Marker.behind_attribute lineSingle below named] at split ⊢
          rw [Marker.of_lines_attribute named, induction belowSingle
            (fun atStart number line lines bound => finds atStart number line lines
              (Nat.lt_succ_of_lt bound)) (taken ++ '\n' :: line) (by simpa using split), count]
          rfl
      | false =>
          rw [Marker.of_lines_rest (.inr named)]
          cases closed : Marker.closing? mark line with
          | none =>
              rw [Marker.behind_text lineSingle below isMark named closed] at split ⊢
              obtain rfl : consumed = taken ++ ['\n'] := by
                rw [lines_below_of_cons, List.append_cons] at split
                exact (List.append_cancel_right split).symm
              rw [← here, join_lines_cons]
              simp [newline_count_append, ended, Nat.add_assoc]
          | some rest =>
              obtain ⟨fence, -, fenceSingle, apart, -⟩ :=
                LineReading.marker_of_closing isMark closed lineSingle
              rw [Marker.of_rest_closing isMark closed lineSingle]
              rw [Marker.behind_closing lineSingle below isMark named closed] at split ⊢
              obtain rfl | ⟨c, after, rfl, terminator⟩ := (Marker.rest_of_closing closed lineSingle).2
              · exact finds_behind_line lineSingle (fun next others same => finds true _ next others
                  (by simp only [same, List.length_cons]; omega) (belowSingle next (by simp [same]))
                  fun other member => belowSingle other (by simp [same, member])) split
              · obtain rfl : consumed = taken ++ '\n' :: fence := by
                  rw [apart, lines_below_cons, List.append_assoc, ← List.cons_append,
                    ← List.append_assoc] at split
                  exact (List.append_cancel_right split).symm
                have restSingle := single_of_suffix lineSingle ⟨fence, apart.symm⟩
                have left := finds false (first + newlineCount taken + 1) (c :: after) below (by simp)
                  restSingle belowSingle
                have count : first + newlineCount (taken ++ '\n' :: fence) =
                    first + newlineCount taken + 1 := by
                  simp [newline_count_append, newline_count_of_no_newline fenceSingle, Nat.add_assoc]
                rw [count, if_neg (by simp), List.cons_append, scan_at_terminator terminator]
                exact left

theorem finds_above_line {atStart : Bool} {number : Nat} {next : Text} {below : List Text}
    (finds : FindsMarkers true (number + 1) next below) :
    FindsMarkers atStart number [] (next :: below) := by
  have refused : (if atStart then Marker.opening? ('\n' :: (next ++ linesBelow below))
      else none) = none := by
    cases atStart <;> simp [newline_opens_nothing]
  rw [FindsMarkers, List.nil_append, lines_below_cons, scan_plain refused]
  exact finds

theorem finds_plain {atStart : Bool} {number : Nat} {c : Char} {line : Text} {below : List Text}
    (single : '\n' ∉ c :: line)
    (unopened : (if atStart then Marker.opening? (c :: line) else none) = none)
    (finds : FindsMarkers (isTerminator c) number line below) :
    FindsMarkers atStart number (c :: line) below := by
  have plain : c ≠ '\n' := fun newline => single (by simp [newline])
  have refused : (if atStart then Marker.opening? (c :: (line ++ linesBelow below))
      else none) = none := by
    cases atStart with
    | false => rfl
    | true =>
        simp only [if_true] at unopened ⊢
        rw [← List.cons_append, Marker.opening_before_end
          (Marker.lines_below_end below) single, unopened]
        rfl
  have count : newlineCount [c] = 0 := by simp [newline_count_cons plain]
  rw [FindsMarkers, List.cons_append, scan_plain refused, count, Marker.of_rest_plain unopened]
  exact finds

theorem finds_marker {number : Nat} {c : Char} {line left : Text} {opening : Marker.Opening}
    {below : List Text} (lineSingle : '\n' ∉ c :: line) (single : ∀ other ∈ below, '\n' ∉ other)
    (opened : Marker.opening? (c :: line) = some (opening, left))
    (finds : ∀ atStart number line lines, lines.length < below.length → '\n' ∉ line →
      (∀ other ∈ lines, '\n' ∉ other) → FindsMarkers atStart number line lines) :
    FindsMarkers true number (c :: line) below := by
  obtain ⟨fenced, -, fence, -⟩ := Marker.fence_of_opening opened
  obtain ⟨isMark, -⟩ := Marker.skip_of_fence fence
  have openedWhole : Marker.opening? (c :: line ++ linesBelow below) =
      some (opening, joinLines below) := by
    rw [Marker.opening_before_end (Marker.lines_below_end below) lineSingle, opened,
      ← Marker.lines_below_drop]
    rfl
  obtain ⟨taken, split⟩ := (Marker.behind_suffix opening.mark (joinLines below)).trans
    (Marker.lines_below_drop below ▸ List.drop_suffix 1 (linesBelow below))
  have apart : c :: line ++ linesBelow below =
      c :: line ++ taken ++ Marker.behind opening.mark (joinLines below) := by
    rw [List.append_assoc, split]
  have count := finds_below_marker isMark number below single finds (c :: line) _ apart
  rw [newline_count_of_no_newline lineSingle] at count
  rw [FindsMarkers, scan_read (Marker.read_opening openedWhole number) apart (by simp),
    Marker.of_rest_marker opened, Marker.ofOpening, ← Marker.attributes_below single]
  exact congrArg _ count

/-- The markers of a page, read off its lines. The induction is on the number of
lines below, and within a line on its characters. -/
theorem finds_markers (atStart : Bool) (number : Nat) (line : Text) (below : List Text)
    (lineSingle : '\n' ∉ line) (single : ∀ other ∈ below, '\n' ∉ other) :
    FindsMarkers atStart number line below := by
  induction length : below.length using Nat.strong_induction_on
    generalizing atStart number line below with
  | _ count shorter =>
  subst length
  induction line generalizing atStart with
  | nil =>
      cases below with
      | nil => rfl
      | cons next below =>
          apply finds_above_line
          exact shorter below.length (by simp) true (number + 1) next below
            (single next (by simp)) (fun other member => single other (by simp [member])) rfl
  | cons c line induction =>
      have restSingle : '\n' ∉ line := fun member => lineSingle (by simp [member])
      cases opened : if atStart then Marker.opening? (c :: line) else none with
      | none => exact finds_plain lineSingle opened (induction (isTerminator c) restSingle)
      | some found =>
          cases atStart with
          | false => cases opened
          | true =>
              apply finds_marker lineSingle single opened
              intro atStart number line lines bound lineSingle single
              exact shorter lines.length bound atStart number line lines lineSingle single rfl

end Piece

theorem Marker.scan_eq_of_lines (page : Text) : scan page = ofLines false 0 (lines page) := by
  cases cut : lines page with
  | nil => exact absurd cut (lines_ne_nil page)
  | cons line below =>
      have single : ∀ other ∈ line :: below, '\n' ∉ other :=
        fun other member => no_newline_of_mem_lines (cut ▸ member)
      have joined := join_lines_of_lines page
      rw [cut, join_lines_cons] at joined
      have finds := Piece.finds_markers true 0 line below (single line (by simp))
        fun other member => single other (by simp [member])
      rw [Piece.FindsMarkers, joined] at finds
      rw [of_lines_rest (.inl rfl), ← finds]
      rfl

end LessonBook
