import LessonBook.Proofs.Exercise.Collapse
import LessonBook.Proofs.Exercise.LineReading
import LessonBook.Proofs.Exercise.Sequencing

/-!
The pieces of a page show the same text and hold the same markers as its lines,
each read by itself. The induction runs over the rest of a line and the lines
below it; what a marker takes of them is one of its steps.
-/

namespace LessonBook

open Text Recognizer

namespace Piece

def tags (pieces : List Piece) : List (RegionKind × Boundary × Nat) :=
  (pieces.filterMap marker?).map fun found => (found.kind, found.boundary, found.line)

theorem scan_skip (consumed rest : Text) (line : Nat) (atStart : Bool) :
    scan consumed.length line atStart (consumed ++ rest) =
      scan 0 (line + newlineCount consumed)
        ((consumed.getLast?.map isTerminator).getD atStart) rest := by
  induction consumed generalizing line atStart with
  | nil => simp
  | cons c consumed induction =>
      rw [List.cons_append, List.length_cons, scan, induction]
      congr 1
      · by_cases newline : c = '\n'
        · subst newline
          simp
          omega
        · simp [newline_count_cons newline, newline]
      · cases consumed with
        | nil => simp
        | cons d consumed =>
            have last := List.getLast?_eq_some_getLast (List.cons_ne_nil d consumed)
            simp only [List.getLast?_cons_cons, last, Option.map_some, Option.getD_some]

theorem scan_cons (line : Nat) (atStart : Bool) (c : Char) (rest : Text) :
    scan 0 line atStart (c :: rest) =
      match if atStart then Marker.read? line (c :: rest) else none with
      | some (found, left) =>
          .marker found (endsWith ['\n'] (before (c :: rest) left)) ::
            scan ((c :: rest).length - left.length - 1)
              (if c == '\n' then line + 1 else line) (isTerminator c) rest
      | none =>
          .plain c :: scan 0 (if c == '\n' then line + 1 else line) (isTerminator c) rest := rfl

theorem scan_plain {line : Nat} {atStart : Bool} {c : Char} {rest : Text}
    (refused : (if atStart then Marker.opening? (c :: rest) else none) = none) :
    scan 0 line atStart (c :: rest) =
      .plain c :: scan 0 (line + newlineCount [c]) (isTerminator c) rest := by
  have unread : (if atStart then Marker.read? line (c :: rest) else none) = none := by
    cases atStart with
    | false => rfl
    | true =>
        simp only [if_true] at refused ⊢
        simp [Marker.read?, refused]
  rw [scan_cons, unread]
  by_cases newline : c = '\n' <;> simp [newline, newlineCount]

end Piece

namespace Marker

def behind (mark : Char) (below : Text) : Text :=
  (closing? mark (many attributeLine? below)).getD (many attributeLine? below)

theorem read_of_opening {text below : Text} {opening : Opening}
    (opened : opening? text = some (opening, below)) (line : Nat) : ∃ found : Marker,
      read? line text = some (found, behind opening.mark below) ∧
        found.kind = opening.kind ∧ found.boundary = opening.boundary ∧ found.line = line := by
  refine ⟨_, by rw [read?, opened]; rfl, rfl, rfl, rfl⟩

end Marker

namespace Marker

theorem lines_below_end (pieces : List Text) : atLineEnd (linesBelow pieces) = true := by
  cases pieces <;> rfl

theorem lines_below_drop (pieces : List Text) :
    (linesBelow pieces).drop 1 = joinLines pieces := by
  cases pieces with
  | nil => rfl
  | cons piece pieces => simp [join_lines_cons]

variable {mark : Char} {line : Text} (single : '\n' ∉ line) (below : List Text)
include single

theorem behind_attribute (named : (attributeKey? line).isSome = true) :
    behind mark (joinLines (line :: below)) = behind mark (joinLines below) := by
  have taken : many attributeLine? (joinLines (line :: below)) =
      many attributeLine? (joinLines below) := by
    rw [many_eq shorter_of_attribute_line, join_lines_cons,
      attribute_line_before_end (lines_below_end below) single, if_pos named, lines_below_drop]
  rw [behind, behind, taken]

theorem many_attribute_line (unnamed : (attributeKey? line).isSome = false) :
    many attributeLine? (joinLines (line :: below)) = joinLines (line :: below) := by
  rw [many_eq shorter_of_attribute_line, join_lines_cons,
    attribute_line_before_end (lines_below_end below) single, if_neg (by simp [unnamed])]

theorem behind_closing (isMark : Directive.isFenceMark mark = true)
    (unnamed : (attributeKey? line).isSome = false) {rest : Text}
    (closed : closing? mark line = some rest) : behind mark (joinLines (line :: below)) =
      if rest.isEmpty then joinLines below else rest ++ linesBelow below := by
  rw [behind, many_attribute_line single below unnamed, join_lines_cons,
    closing_before_end isMark (lines_below_end below) single, closed, lines_below_drop]
  rfl

theorem behind_text (isMark : Directive.isFenceMark mark = true)
    (unnamed : (attributeKey? line).isSome = false) (refused : closing? mark line = none) :
    behind mark (joinLines (line :: below)) = joinLines (line :: below) := by
  rw [behind, many_attribute_line single below unnamed, join_lines_cons,
    closing_before_end isMark (lines_below_end below) single, refused]
  rfl

end Marker

namespace Piece

theorem scan_read {text left consumed : Text} {found : Marker} {line : Nat}
    (read : Marker.read? line text = some (found, left)) (split : text = consumed ++ left)
    (taken : consumed ≠ []) :
    scan 0 line true text = .marker found (endsWith ['\n'] consumed) ::
      scan 0 (line + newlineCount consumed) ((consumed.getLast?.map isTerminator).getD true) left := by
  cases consumed with
  | nil => exact absurd rfl taken
  | cons c consumed =>
      subst split
      have length : (c :: consumed ++ left).length - left.length - 1 = consumed.length := by
        simp only [List.length_append, List.length_cons]
        omega
      rw [← scan_skip]
      rw [List.cons_append] at read length
      rw [List.cons_append, scan_cons, if_pos rfl, read]
      simp only [length]
      rw [← List.cons_append, before_append, List.length_cons, List.cons_append, scan]

theorem scan_marker {text below consumed : Text} {opening : Marker.Opening}
    (opened : Marker.opening? text = some (opening, below))
    (split : text = consumed ++ Marker.behind opening.mark below) (taken : consumed ≠ [])
    (line : Nat) : ∃ found : Marker,
      found.kind = opening.kind ∧ found.boundary = opening.boundary ∧ found.line = line ∧
        scan 0 line true text = .marker found (endsWith ['\n'] consumed) ::
          scan 0 (line + newlineCount consumed) ((consumed.getLast?.map isTerminator).getD true)
            (Marker.behind opening.mark below) := by
  obtain ⟨found, read, kind, boundary, place⟩ := Marker.read_of_opening opened line
  exact ⟨found, kind, boundary, place, scan_read read split taken⟩

/-- Scanning the rest of a line and the lines below it shows the same text, and
finds the same markers, as reading them line by line. -/
def Agrees (atStart : Bool) (first : Nat) (line : Text) (below : List Text) : Prop :=
  let pieces := scan 0 first atStart (line ++ linesBelow below)
  let reading := LineReading.ofText atStart line
  pieces.flatMap ExerciseBracketing.render =
      reading.shown ++ LineReading.shownBelow reading.above below ∧
    tags pieces = LineReading.tagsFrom first (reading :: LineReading.ofLines reading.above below)

theorem ends_with_newline (text : Text) : endsWith ['\n'] (text ++ ['\n']) = true := by
  simp [endsWith]

theorem not_ends_with_newline (front : Text) {line : Text} (present : line ≠ [])
    (single : '\n' ∉ line) : endsWith ['\n'] (front ++ line) = false := by
  obtain rfl | ⟨start, last, rfl⟩ := List.eq_nil_or_concat line
  · exact absurd rfl present
  · rw [List.concat_eq_append] at single ⊢
    rw [endsWith, Bool.eq_false_iff, ne_eq, List.isSuffixOf_iff_suffix, ← List.append_assoc,
      List.singleton_suffix_append_singleton_iff]
    rintro rfl
    exact single (by simp)

theorem opening_at_terminator {c : Char} (terminator : isTerminator c = true) (rest : Text) :
    Marker.opening? (c :: rest) = none := by
  have outside : isSpaceOrTab c = false ∧ Directive.isFenceMark c = false := by
    simp only [isTerminator, Bool.or_eq_true, beq_iff_eq] at terminator
    simp only [isSpaceOrTab, Directive.isFenceMark, Bool.or_eq_false_iff, beq_eq_false_iff_ne]
    refine ⟨⟨?_, ?_⟩, ⟨?_, ?_⟩, ?_⟩ <;> rintro rfl <;> simp at terminator
  simp [Marker.opening_eq, Marker.fence?, skipUpTo, outside]

theorem scan_at_terminator {c : Char} (terminator : isTerminator c = true) (rest : Text)
    (first : Nat) (atStart : Bool) :
    scan 0 first atStart (c :: rest) = scan 0 first false (c :: rest) := by
  have refused := opening_at_terminator terminator rest
  rw [scan_plain (by cases atStart <;> simp [refused]), scan_plain (by simp)]

/-- What is left behind `consumed` text shows, with the newline that a marker
leaves, what the lines below show, and holds their markers. -/
def Continues (first : Nat) (consumed left : Text) (line : Nat) (above : Above)
    (below : List Text) : Prop :=
  let pieces := scan 0 (first + newlineCount consumed)
    ((consumed.getLast?.map isTerminator).getD true) left
  (if endsWith ['\n'] consumed then ['\n'] else []) ++
      pieces.flatMap ExerciseBracketing.render = LineReading.shownBelow above below ∧
    tags pieces = LineReading.tagsFrom line (LineReading.ofLines above below)

theorem continues_nil (first line : Nat) (above : Above) {consumed : Text}
    (unended : endsWith ['\n'] consumed = false) : Continues first consumed [] line above [] := by
  simp [Continues, unended, scan, tags]

theorem continues_text {first : Nat} {line : Text} {below : List Text} (taken : Text)
    (agrees : Agrees true (first + newlineCount taken + 1) line below) :
    Continues first (taken ++ ['\n']) (joinLines (line :: below)) (first + newlineCount taken + 1)
      .text (line :: below) := by
  obtain ⟨shown, tags⟩ := agrees
  have ended : (taken ++ ['\n']).getLast?.map isTerminator = some true := by simp [isTerminator]
  have count : first + newlineCount (taken ++ ['\n']) = first + newlineCount taken + 1 := by
    simp [newline_count_append, Nat.add_assoc]
  rw [Continues, ended, count, ends_with_newline, join_lines_cons]
  refine ⟨?_, ?_⟩
  · simp only [Option.getD_some, shown]
    simp [LineReading.behindNewline]
  · simp only [Option.getD_some, tags]
    simp [LineReading.behindNewline]

theorem continues_of_dropped {first : Nat} {consumed left : Text} {number : Nat}
    {above next : Above} {line : Text} {below : List Text}
    (dropped : LineReading.ofLine above line = ⟨[], none, next⟩)
    (continues : Continues first consumed left (number + 1) next below) :
    Continues first consumed left number above (line :: below) := by
  simpa [Continues, dropped] using continues

theorem continues_behind_line {mark : Char} {line taken : Text} {below : List Text} {first : Nat}
    (lineSingle : '\n' ∉ line) (present : line ≠ [])
    (dropped : LineReading.ofLine (.marker mark) line = ⟨[], none, .text⟩)
    (agrees : ∀ next others, below = next :: others →
      Agrees true (first + newlineCount taken + 1 + 1) next others) :
    ∃ consumed, taken ++ '\n' :: (line ++ linesBelow below) = consumed ++ joinLines below ∧
      consumed ≠ [] ∧
      Continues first consumed (joinLines below) (first + newlineCount taken + 1) (.marker mark)
        (line :: below) := by
  have throughLine : newlineCount (taken ++ '\n' :: line) = newlineCount taken + 1 := by
    simp [newline_count_append, newline_count_of_no_newline lineSingle]
  have unended : endsWith ['\n'] (taken ++ '\n' :: line) = false := by
    simpa using not_ends_with_newline (taken ++ ['\n']) present lineSingle
  cases below with
  | nil =>
      exact ⟨taken ++ '\n' :: line, by simp [joinLines, intercalate], by simp,
        continues_of_dropped dropped (continues_nil first _ _ unended)⟩
  | cons next others =>
      have agreeing := agrees next others rfl
      rw [Nat.add_assoc first, ← throughLine] at agreeing
      have continues := continues_text (taken ++ '\n' :: line) agreeing
      rw [throughLine, ← Nat.add_assoc] at continues
      exact ⟨taken ++ '\n' :: line ++ ['\n'], by simp [join_lines_cons], by simp,
        continues_of_dropped dropped continues⟩

theorem continues_behind_fence {mark c : Char} {line taken after : Text} {below : List Text}
    {first : Nat} (lineSingle : '\n' ∉ line)
    (closed : Marker.closing? mark line = some (c :: after)) (terminator : isTerminator c = true)
    (reading : LineReading.ofLine (.marker mark) line =
      LineReading.ofText false (c :: after))
    (agrees : '\n' ∉ c :: after →
      Agrees false (first + newlineCount taken + 1) (c :: after) below) :
    ∃ consumed, taken ++ '\n' :: (line ++ linesBelow below) =
        consumed ++ (c :: after ++ linesBelow below) ∧
      consumed ≠ [] ∧
      Continues first consumed (c :: after ++ linesBelow below) (first + newlineCount taken + 1)
        (.marker mark) (line :: below) := by
  obtain ⟨fence, split⟩ := Marker.suffix_of_closing closed
  have fencePresent : fence ≠ [] := by
    rintro rfl
    have shorter := Marker.shorter_of_closing closed
    rw [← split] at shorter
    exact absurd shorter (Nat.lt_irrefl _)
  have fenceSingle : '\n' ∉ fence := fun member =>
    lineSingle (split ▸ List.mem_append_left _ member)
  have restSingle : '\n' ∉ c :: after := fun member =>
    lineSingle (split ▸ List.mem_append_right _ member)
  have fenceUnended := not_ends_with_newline (taken ++ ['\n']) fencePresent fenceSingle
  have throughFence : first + newlineCount (taken ++ '\n' :: fence) =
      first + newlineCount taken + 1 := by
    simp [newline_count_append, newline_count_of_no_newline fenceSingle, Nat.add_assoc]
  obtain ⟨shown, tags⟩ := agrees restSingle
  refine ⟨taken ++ '\n' :: fence, by simp [← split], by simp, ?_⟩
  rw [List.append_assoc, List.singleton_append] at fenceUnended
  rw [List.cons_append] at shown tags
  simp only [Continues, fenceUnended, throughFence, Bool.false_eq_true, if_false,
    List.nil_append, List.cons_append, LineReading.shown_below_cons,
    LineReading.of_lines_cons, reading]
  rw [scan_at_terminator terminator]
  exact ⟨shown, tags⟩

/-- Below a marker, what it takes and what is read behind it are what the lines
say. The induction follows the attribute lines; `taken` is the text before them. -/
theorem continues_below_marker {mark : Char} (isMark : Directive.isFenceMark mark = true)
    (first : Nat) (below : List Text) (single : ∀ line ∈ below, '\n' ∉ line)
    (agrees : ∀ atStart first line lines, lines.length < below.length → '\n' ∉ line →
      (∀ other ∈ lines, '\n' ∉ other) → Agrees atStart first line lines)
    (taken : Text) (present : taken ≠ []) (unended : endsWith ['\n'] taken = false) :
    ∃ consumed,
      taken ++ linesBelow below = consumed ++ Marker.behind mark (joinLines below) ∧
      consumed ≠ [] ∧
      Continues first consumed (Marker.behind mark (joinLines below))
        (first + newlineCount taken + 1) (.marker mark) below := by
  induction below generalizing taken with
  | nil => exact ⟨taken, rfl, present, continues_nil first _ _ unended⟩
  | cons line below induction =>
      have lineSingle := single line (by simp)
      have belowSingle : ∀ other ∈ below, '\n' ∉ other :=
        fun other member => single other (by simp [member])
      cases named : (Marker.attributeKey? line).isSome with
      | true =>
          have linePresent : line ≠ [] := by
            rintro rfl
            exact absurd named (by decide)
          have throughLine : newlineCount (taken ++ '\n' :: line) = newlineCount taken + 1 := by
            simp [newline_count_append, newline_count_of_no_newline lineSingle]
          have lineUnended := not_ends_with_newline (taken ++ ['\n']) linePresent lineSingle
          obtain ⟨consumed, split, consumedPresent, continues⟩ := induction belowSingle
            (fun atStart first line lines bound => agrees atStart first line lines
              (Nat.lt_succ_of_lt bound))
            (taken ++ '\n' :: line) (by simp) (by simpa using lineUnended)
          rw [throughLine, ← Nat.add_assoc] at continues
          rw [Marker.behind_attribute lineSingle below named]
          exact ⟨consumed, by simpa using split, consumedPresent,
            continues_of_dropped (LineReading.of_line_attribute mark named) continues⟩
      | false =>
          cases closed : Marker.closing? mark line with
          | none =>
              rw [Marker.behind_text lineSingle below isMark named closed]
              refine ⟨taken ++ ['\n'], by simp [join_lines_cons], by simp, ?_⟩
              have continues := continues_text taken (agrees true (first + newlineCount taken + 1)
                line below (by simp) lineSingle belowSingle)
              simpa [Continues, LineReading.of_line_behind named closed] using continues
          | some rest =>
              have reading := LineReading.of_line_closing named closed
              rw [Marker.behind_closing lineSingle below isMark named closed, lines_below_cons]
              obtain rfl | ⟨c, after, rfl, terminator⟩ := (Marker.rest_of_closing closed lineSingle).2
              · have linePresent : line ≠ [] := by
                  rintro rfl
                  exact absurd (Marker.shorter_of_closing closed) (Nat.not_lt_zero _)
                rw [LineReading.of_text_nil] at reading
                apply continues_behind_line lineSingle linePresent reading
                rintro next others rfl
                exact agrees true _ next others (by simp only [List.length_cons]; omega)
                  (belowSingle next (by simp)) fun other member => belowSingle other (by simp [member])
              · apply continues_behind_fence lineSingle closed terminator reading
                intro restSingle
                exact agrees false _ (c :: after) below (by simp) restSingle belowSingle

theorem tags_plain (c : Char) (pieces : List Piece) : tags (.plain c :: pieces) = tags pieces := rfl

theorem tags_marker (found : Marker) (endsLine : Bool) (pieces : List Piece) :
    tags (.marker found endsLine :: pieces) =
      (found.kind, found.boundary, found.line) :: tags pieces := rfl

theorem newline_opens_nothing (rest : Text) : Marker.opening? ('\n' :: rest) = none :=
  opening_at_terminator (by decide) rest

theorem agrees_above_line {atStart : Bool} {first : Nat} {next : Text} {below : List Text}
    (agrees : Agrees true (first + 1) next below) : Agrees atStart first [] (next :: below) := by
  obtain ⟨shown, tags⟩ := agrees
  have refused : (if atStart then Marker.opening? ('\n' :: (next ++ linesBelow below))
      else none) = none := by
    cases atStart <;> simp [newline_opens_nothing]
  have count : newlineCount ['\n'] = 1 := rfl
  have ended : isTerminator '\n' = true := by decide
  rw [Agrees, List.nil_append, lines_below_cons, scan_plain refused, count, ended]
  refine ⟨?_, ?_⟩
  · simp [shown, ExerciseBracketing.render, LineReading.behindNewline]
  · rw [tags_plain, tags]
    simp [LineReading.behindNewline]

theorem agrees_plain {atStart : Bool} {first : Nat} {c : Char} {line : Text} {below : List Text}
    (single : '\n' ∉ c :: line)
    (unopened : (if atStart then Marker.opening? (c :: line) else none) = none)
    (agrees : Agrees (isTerminator c) first line below) : Agrees atStart first (c :: line) below := by
  obtain ⟨shown, tags⟩ := agrees
  have plain : c ≠ '\n' := fun newline => single (by simp [newline])
  have refused : (if atStart then Marker.opening? (c :: (line ++ linesBelow below))
      else none) = none := by
    cases atStart with
    | false => rfl
    | true =>
        simp only [if_true] at unopened ⊢
        rw [← List.cons_append, Marker.opening_before_end
          (Marker.lines_below_end below) single, unopened]
        rfl
  have count : newlineCount [c] = 0 := by simp [newline_count_cons plain]
  have reading := LineReading.of_text_plain unopened
  rw [Agrees, List.cons_append, scan_plain refused, count, reading]
  refine ⟨?_, ?_⟩
  · simp only [Nat.add_zero, List.flatMap_cons, shown]
    simp [ExerciseBracketing.render]
  · rw [tags_plain, Nat.add_zero, tags]
    simp

theorem agrees_marker {first : Nat} {c : Char} {line left : Text} {opening : Marker.Opening}
    {below : List Text} (lineSingle : '\n' ∉ c :: line) (single : ∀ other ∈ below, '\n' ∉ other)
    (opened : Marker.opening? (c :: line) = some (opening, left))
    (agrees : ∀ atStart first line lines, lines.length < below.length → '\n' ∉ line →
      (∀ other ∈ lines, '\n' ∉ other) → Agrees atStart first line lines) :
    Agrees true first (c :: line) below := by
  obtain ⟨fenced, named, fence, -⟩ := Marker.fence_of_opening opened
  obtain ⟨isMark, -⟩ := Marker.skip_of_fence fence
  have present := List.cons_ne_nil c line
  obtain ⟨consumed, split, consumedPresent, shown, tags⟩ :=
    continues_below_marker isMark first below single agrees (c :: line) present
      (by simpa using not_ends_with_newline [] present lineSingle)
  have openedWhole : Marker.opening? (c :: line ++ linesBelow below) =
      some (opening, joinLines below) := by
    rw [Marker.opening_before_end (Marker.lines_below_end below) lineSingle, opened,
      ← Marker.lines_below_drop]
    rfl
  obtain ⟨found, kind, boundary, place, scanned⟩ :=
    scan_marker openedWhole split consumedPresent first
  have reading := LineReading.of_text_marker opened
  rw [newline_count_of_no_newline lineSingle, Nat.add_zero] at tags
  rw [Agrees, scanned, reading]
  refine ⟨?_, ?_⟩
  · rw [List.flatMap_cons, ← shown]
    simp [ExerciseBracketing.render, kind, boundary]
  · rw [tags_marker, tags]
    simp [kind, boundary, place]

/-- A page is what its lines say. The induction is on the number of lines below,
and within a line on its characters. -/
theorem agrees (atStart : Bool) (first : Nat) (line : Text) (below : List Text)
    (lineSingle : '\n' ∉ line) (single : ∀ other ∈ below, '\n' ∉ other) :
    Agrees atStart first line below := by
  induction length : below.length using Nat.strong_induction_on
    generalizing atStart first line below with
  | _ count shorter =>
  subst length
  induction line generalizing atStart with
  | nil =>
      cases below with
      | nil => exact ⟨rfl, rfl⟩
      | cons next below =>
          apply agrees_above_line
          exact shorter below.length (by simp) true (first + 1) next below
            (single next (by simp)) (fun other member => single other (by simp [member])) rfl
  | cons c line induction =>
      have restSingle : '\n' ∉ line := fun member => lineSingle (by simp [member])
      cases opened : if atStart then Marker.opening? (c :: line) else none with
      | none => exact agrees_plain lineSingle opened (induction (isTerminator c) restSingle)
      | some found =>
          cases atStart with
          | false => cases opened
          | true =>
              apply agrees_marker lineSingle single opened
              intro atStart first line lines bound lineSingle single
              exact shorter lines.length bound atStart first line lines lineSingle single rfl

end Piece

namespace LineReading

theorem agrees_page (page : Text) : ∃ line below, lines page = line :: below ∧
    page = line ++ linesBelow below ∧ Piece.Agrees true 0 line below := by
  cases pageLines : lines page with
  | nil => exact absurd pageLines (lines_ne_nil page)
  | cons line below =>
      have single : ∀ other ∈ line :: below, '\n' ∉ other :=
        fun other member => no_newline_of_mem_lines (pageLines ▸ member)
      have joined := join_lines_of_lines page
      rw [pageLines, join_lines_cons] at joined
      exact ⟨line, below, rfl, joined.symm, Piece.agrees true 0 line below (single line (by simp))
        fun other member => single other (by simp [member])⟩

theorem shown_of_page (page : Text) :
    (Piece.ofText page).flatMap ExerciseBracketing.render =
      (shownBelow .text (lines page)).drop 1 := by
  obtain ⟨line, below, pageLines, split, shown, -⟩ := agrees_page page
  rw [pageLines, Piece.ofText]
  rw [← split] at shown
  simp [shown, behindNewline]

theorem tags_of_page (page : Text) :
    Piece.tags (Piece.ofText page) = tagsFrom 0 (ofPage page) := by
  obtain ⟨line, below, pageLines, split, -, tags⟩ := agrees_page page
  rw [ofPage, pageLines, Piece.ofText]
  rw [← split] at tags
  simp [tags, behindNewline]

theorem scan_tags (page : Text) :
    (Marker.scan page).map Marker.tag = (ofPage page).filterMap tag := by
  rw [← kinds_of_tags 0, ← tags_of_page, Piece.tags, List.map_map]
  rfl

open ExerciseBracketing

theorem collapse_shown_page (page : Text) :
    collapse (shownBelow .text (lines page)) =
      '\n' :: (collapse (shownBelow .text (lines page))).drop 1 := by
  cases cut : lines page with
  | nil => exact absurd cut (lines_ne_nil page)
  | cons line below =>
      rw [shown_below_cons, of_line_text, behindNewline, List.cons_append, collapse_newline]
      rfl

theorem bracket_exercises_eq_ok_iff (page output : Text) :
    bracketExercises page = .ok output ↔
      Region.outside.WellSequenced ((ofPage page).filterMap tag) ∧
        collapse (shownBelow .text (lines page)) = '\n' :: output := by
  rw [LessonBook.bracket_exercises_eq_ok_iff, scan_tags, shown_of_page]
  cases cut : lines page with
  | nil => exact absurd cut (lines_ne_nil page)
  | cons line below =>
      rw [shown_below_cons, of_line_text, behindNewline, List.cons_append, collapse_newline]
      simp [eq_comm]

end LineReading

end LessonBook
