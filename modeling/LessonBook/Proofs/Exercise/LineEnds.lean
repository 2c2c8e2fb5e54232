import Mathlib.Data.List.Forall2
import LessonBook.Proofs.Exercise.PageReading
import LessonBook.Proofs.Exercise.SecondPass
import LessonBook.Proofs.Text.LineEnds

/-!
Exercises of a page and of the same page with a newline for every line end. A
marker counts newlines and takes its lines up to a newline, so the two agree as
long as no carriage return stands alone inside of a marker, but for the line that
an error names.
-/

namespace LessonBook

open Text Recognizer AdmonitionBracketing

namespace Marker

/-- The texts that the markers of a page are read from. `skipped` characters
still belong to the last one. -/
def textsFrom (skipped : Nat) (atStart : Bool) : Text → List Text
  | [] => []
  | text@(c :: rest) =>
      match skipped with
      | count + 1 => textsFrom count (isTerminator c) rest
      | 0 =>
          match if atStart then read? 0 text else none with
          | some (_, left) =>
              before text left :: textsFrom (text.length - left.length - 1) (isTerminator c) rest
          | none => textsFrom 0 (isTerminator c) rest

def texts (page : Text) : List Text :=
  textsFrom 0 true page

/-- No marker of the page holds a carriage return without a newline behind it. -/
def Whole (page : Text) : Prop :=
  ∀ text ∈ texts page, loneReturns text = 0

instance (page : Text) : Decidable (Whole page) :=
  inferInstanceAs (Decidable (∀ text ∈ texts page, loneReturns text = 0))

theorem texts_from_skip (consumed rest : Text) (atStart : Bool) :
    textsFrom consumed.length atStart (consumed ++ rest) =
      textsFrom 0 ((consumed.getLast?.map isTerminator).getD atStart) rest := by
  induction consumed generalizing atStart with
  | nil => rfl
  | cons c consumed induction =>
      rw [List.cons_append, List.length_cons, textsFrom, induction]
      congr 1
      cases consumed with
      | nil => rfl
      | cons d consumed =>
          have last := List.getLast?_eq_some_getLast (List.cons_ne_nil d consumed)
          simp only [List.getLast?_cons_cons, last, Option.map_some, Option.getD_some]

theorem texts_from_cons (atStart : Bool) (c : Char) (rest : Text) :
    textsFrom 0 atStart (c :: rest) =
      match if atStart then read? 0 (c :: rest) else none with
      | some (_, left) => before (c :: rest) left ::
          textsFrom ((c :: rest).length - left.length - 1) (isTerminator c) rest
      | none => textsFrom 0 (isTerminator c) rest := rfl

theorem texts_from_plain {atStart : Bool} {c : Char} {rest : Text}
    (refused : (if atStart then opening? (c :: rest) else none) = none) :
    textsFrom 0 atStart (c :: rest) = textsFrom 0 (isTerminator c) rest := by
  have unread : (if atStart then read? 0 (c :: rest) else none) = none := by
    cases atStart with
    | false => rfl
    | true =>
        simp only [if_true] at refused ⊢
        simp [read?, refused]
  rw [texts_from_cons, unread]

theorem texts_from_marker {text below consumed : Text} {opening : Opening}
    (opened : opening? text = some (opening, below))
    (split : text = consumed ++ behind opening.mark below) (taken : consumed ≠ []) :
    textsFrom 0 true text = consumed ::
      textsFrom 0 ((consumed.getLast?.map isTerminator).getD true) (behind opening.mark below) := by
  obtain ⟨found, read, -⟩ := read_of_opening opened 0
  cases consumed with
  | nil => exact absurd rfl taken
  | cons c consumed =>
      subst split
      have length : (c :: consumed ++ behind opening.mark below).length -
          (behind opening.mark below).length - 1 = consumed.length := by
        simp only [List.length_append, List.length_cons]
        omega
      rw [← texts_from_skip]
      rw [List.cons_append] at read length
      rw [List.cons_append, texts_from_cons, if_pos rfl, read]
      simp only [length]
      rw [← List.cons_append, before_append, List.length_cons, List.cons_append, textsFrom]

/-! ### What a marker consists of -/

theorem ne_fence_mark {mark c : Char} (isMark : Directive.isFenceMark mark = true)
    (other : Directive.isFenceMark c = false) : (c == mark) = false := by
  rw [beq_eq_false_iff_ne]
  rintro rfl
  rw [isMark] at other
  cases other

theorem fence_normalize (text : Text) :
    fence? (normalizeLineEnds text) =
      (fence? text).map fun fenced => (fenced.1, normalizeLineEnds fenced.2) := by
  unfold fence?
  rw [skip_up_to_normalize _ (by decide) (by decide)]
  cases skipUpTo isSpaceOrTab 3 text with
  | nil => rfl
  | cons mark rest =>
      by_cases carriage : mark = '\r'
      · subst carriage
        obtain ⟨below, head⟩ := normalize_carriage_head rest
        simp [head, Directive.isFenceMark]
      · by_cases isMark : Directive.isFenceMark mark = true
        · have kept := take_while_normalize (· == mark) (ne_fence_mark isMark rfl)
            (ne_fence_mark isMark rfl) (mark :: rest)
          have left := drop_while_normalize (· == mark) (ne_fence_mark isMark rfl)
            (ne_fence_mark isMark rfl) (mark :: rest)
          rw [normalize_cons carriage] at kept left ⊢
          simp only [kept, left]
          split <;> rfl
        · rw [normalize_cons carriage]
          simp [isMark]

theorem tag_normalize (text : Text) :
    tag? (normalizeLineEnds text) =
      (tag? text).map fun tagged => (tagged.1, normalizeLineEnds tagged.2) := by
  have kinds (text : Text) : kind? (normalizeLineEnds text) =
      (kind? text).map fun found => (found.1, normalizeLineEnds found.2) := by
    simp only [kind?, word_normalize (show IsPlain RegionKind.exercise.name by decide),
      word_normalize (show IsPlain RegionKind.solution.name by decide)]
    cases word RegionKind.exercise.name text <;> cases word RegionKind.solution.name text <;> rfl
  have boundaries (text : Text) : boundary? (normalizeLineEnds text) =
      (boundary? text).map fun found => (found.1, normalizeLineEnds found.2) := by
    simp only [boundary?, word_normalize (show IsPlain Boundary.start.name by decide),
      word_normalize (show IsPlain Boundary.finish.name by decide)]
    cases word Boundary.start.name text <;> cases word Boundary.finish.name text <;> rfl
  have opened := one_normalize (· == '\x7b') rfl rfl
  have dash := one_normalize (· == '-') rfl rfl
  have closed := one_normalize (· == '\x7d') rfl rfl
  simp [tag?, char, opened, dash, closed, kinds, boundaries, Option.map_eq_bind, Option.bind_assoc]

theorem skip_spaces_and_tabs_normalize (text : Text) :
    skipSpacesAndTabs (normalizeLineEnds text) = normalizeLineEnds (skipSpacesAndTabs text) :=
  drop_while_normalize _ (by decide) (by decide) text

/-- Whether a marker opens here, and which, does not depend on the line ends. -/
theorem opening_tag_normalize (text : Text) :
    (opening? (normalizeLineEnds text)).map (fun found => (found.1.mark, found.1.kind, found.1.boundary)) =
      (opening? text).map fun found => (found.1.mark, found.1.kind, found.1.boundary) := by
  rw [opening_eq, opening_eq, fence_normalize]
  cases fence? text with
  | none => rfl
  | some fenced =>
      simp only [Option.map_some, Option.bind_some, skip_spaces_and_tabs_normalize, tag_normalize]
      cases tag? (skipSpacesAndTabs fenced.2) with
      | none => rfl
      | some tagged =>
          simp [line_end_after_first_line]

theorem opening_alike {text below : Text} {opening : Opening}
    (opened : opening? text = some (opening, below)) :
    ReadsAlike (fun other => (opening? other).map Prod.snd) text below := by
  rw [opening_eq] at opened
  simp only [Option.bind_eq_some_iff, Option.map_eq_some_iff] at opened
  obtain ⟨fenced, fence, tagged, named, rest, read, same⟩ := opened
  cases same
  have inside : tagged.2 <:+ text :=
    (suffix_of_tag named).trans <| (List.dropWhile_suffix _).trans (suffix_of_fence fence)
  refine .of_suffix inside (rest_of_line_alike read) fun left otherRead => ?_
  simp [opening_eq, fence_normalize, fence, skip_spaces_and_tabs_normalize, tag_normalize, named,
    otherRead]

theorem attribute_key_normalize (text : Text) :
    attributeKey? (normalizeLineEnds text) =
      (attributeKey? text).map fun named => (named.1, normalizeLineEnds named.2) := by
  have colon := one_normalize (· == ':') rfl rfl
  simp only [attributeKey?, char, Option.bind_eq_bind, skip_spaces_and_tabs_normalize, colon]
  cases one (· == ':') (skipSpacesAndTabs text) with
  | none => rfl
  | some named =>
      simp only [Option.map_some, Option.bind_some, colon,
        take_while_normalize FieldList.isKeyChar (by decide) (by decide),
        drop_while_normalize FieldList.isKeyChar (by decide) (by decide)]
      split
      · rfl
      · cases one (· == ':') (named.dropWhile FieldList.isKeyChar) <;> rfl

theorem attribute_line_alike {text rest : Text} (read : attributeLine? text = some rest) :
    ReadsAlike attributeLine? text rest := by
  simp only [attributeLine?, Option.bind_eq_bind, Option.bind_eq_some_iff] at read
  obtain ⟨named, key, ended⟩ := read
  refine .of_suffix (suffix_of_attribute_key key) (rest_of_line_alike ended) fun left otherRead => ?_
  simp [attributeLine?, attribute_key_normalize, key, otherRead]

theorem attribute_line_eq_none_iff (text : Text) :
    attributeLine? text = none ↔ attributeKey? text = none := by
  rw [attributeLine?]
  cases attributeKey? text with
  | none => simp
  | some named => simp [line_end_after_first_line]

/-- The attribute lines below an opening line, up to what is left behind them. -/
theorem attribute_lines_alike (text : Text) : ∃ taken,
    text = taken ++ many attributeLine? text ∧ Apart taken (many attributeLine? text) ∧
      (loneReturns taken = 0 →
        many attributeLine? (normalizeLineEnds text) = normalizeLineEnds (many attributeLine? text)) := by
  induction length : text.length using Nat.strong_induction_on generalizing text with
  | _ count shorter =>
  subst length
  cases read : attributeLine? text with
  | none =>
      have otherRead : attributeLine? (normalizeLineEnds text) = none := by
        rw [attribute_line_eq_none_iff, attribute_key_normalize,
          (attribute_line_eq_none_iff text).mp read, Option.map_none]
      have kept (other : Text) (refused : attributeLine? other = none) :
          many attributeLine? other = other := by
        rw [many_eq shorter_of_attribute_line, refused]
      rw [kept text read, kept _ otherRead]
      exact ⟨[], rfl, apart_of_last nofun, fun _ => rfl⟩
  | some rest =>
      have step (other left : Text) (read : attributeLine? other = some left) :
          many attributeLine? other = many attributeLine? left := by
        rw [many_eq shorter_of_attribute_line, read]
      obtain ⟨first, split, ended, reads⟩ := attribute_line_alike read
      obtain ⟨others, below, apart, alike⟩ :=
        shorter rest.length (shorter_of_attribute_line read) rest rfl
      rw [step text rest read]
      have apartFirst : Apart first others := apart_of_ended ended below
      refine ⟨first ++ others, by rw [List.append_assoc, ← below, ← split], ?_, fun whole => ?_⟩
      · cases others with
        | nil =>
            rw [List.append_nil]
            exact apart_of_ended ended (below.trans (List.append_nil _).symm)
        | cons c others => exact apart.append (List.cons_ne_nil c others)
      · rw [lone_returns_append_of_apart apartFirst, Nat.add_eq_zero_iff] at whole
        rw [step _ _ (reads whole.1), alike whole.2]

/-- The blanks and the run of fence characters that a closing fence begins with. -/
theorem closing_fence_split {mark : Char} (isMark : Directive.isFenceMark mark = true) (text : Text) :
    ∃ fence, text = fence ++ skipSpacesAndTabs ((skipSpacesAndTabs text).dropWhile (· == mark)) ∧
      '\n' ∉ fence := by
  have skipped (inClass : Char → Bool) (outside : inClass '\n' = false) (text : Text) :
      ∃ front, text = front ++ text.dropWhile inClass ∧ '\n' ∉ front := by
    refine ⟨text.takeWhile inClass, List.takeWhile_append_dropWhile.symm, fun member => ?_⟩
    rw [List.mem_takeWhile_imp member] at outside
    cases outside
  obtain ⟨first, split, firstSingle⟩ := skipped isSpaceOrTab (by decide) text
  obtain ⟨second, split', secondSingle⟩ :=
    skipped (· == mark) (ne_fence_mark isMark rfl) (skipSpacesAndTabs text)
  obtain ⟨third, split'', thirdSingle⟩ :=
    skipped isSpaceOrTab (by decide) ((skipSpacesAndTabs text).dropWhile (· == mark))
  refine ⟨first ++ (second ++ third), ?_, by simp [firstSingle, secondSingle, thirdSingle]⟩
  rw [List.append_assoc, List.append_assoc]
  exact split.trans (congrArg _ (split'.trans (congrArg _ split'')))

theorem closing_normalize {mark : Char} (isMark : Directive.isFenceMark mark = true) (text : Text) :
    closing? mark (normalizeLineEnds text) =
      if ((skipSpacesAndTabs text).takeWhile (· == mark)).length < 3 then none
      else match normalizeLineEnds
          (skipSpacesAndTabs ((skipSpacesAndTabs text).dropWhile (· == mark))) with
        | [] => some []
        | c :: after => if c == '\n' then some after else if isTerminator c then some (c :: after) else none := by
  have newline := ne_fence_mark isMark (c := '\n') rfl
  have carriage := ne_fence_mark isMark (c := '\r') rfl
  rw [closing?]
  simp only [skip_spaces_and_tabs_normalize, drop_while_normalize (· == mark) newline carriage,
    take_while_normalize (· == mark) newline carriage]
  split
  · rfl
  · split <;> rename_i rest <;> simp [rest]

theorem closing_refused_normalize {mark : Char} (isMark : Directive.isFenceMark mark = true)
    {text : Text} (refused : closing? mark text = none) :
    closing? mark (normalizeLineEnds text) = none := by
  rw [closing_normalize isMark]
  simp only [closing?] at refused
  split at refused
  · rw [if_pos ‹_›]
  · rw [if_neg ‹_›]
    cases rest : skipSpacesAndTabs ((skipSpacesAndTabs text).dropWhile (· == mark)) with
    | nil => simp [rest] at refused
    | cons c after =>
        simp only [rest] at refused
        have other : c ≠ '\n' ∧ isTerminator c = false := by
          constructor
          · rintro rfl
            simp at refused
          · cases terminator : isTerminator c with
            | false => rfl
            | true => by_cases newline : c = '\n' <;> simp [newline, terminator] at refused
        have carriage : c ≠ '\r' := by
          rintro rfl
          exact absurd other.2 (by decide)
        simp [normalize_cons carriage, other]

/-- What is left behind a closing fence begins with the carriage return of its
line, if the line ends so; then a newline is taken in its place. -/
theorem closing_alike {mark : Char} (isMark : Directive.isFenceMark mark = true)
    {text left : Text} (closed : closing? mark text = some left) : ∃ taken,
    text = taken ++ left ∧ taken ≠ [] ∧ Apart taken left ∧
      (closing? mark (normalizeLineEnds text) = some (normalizeLineEnds left) ∨
        taken.getLast? ≠ some '\n' ∧ left.head? = some '\r' ∧
          closing? mark (normalizeLineEnds text) = some ((normalizeLineEnds left).drop 1)) := by
  obtain ⟨fence, split, single⟩ := closing_fence_split isMark text
  have shorter := shorter_of_closing closed
  have present (taken : Text) (split : text = taken ++ left) : taken ≠ [] := by
    rintro rfl
    rw [split, List.nil_append] at shorter
    exact Nat.lt_irrefl _ shorter
  have unended : fence.getLast? ≠ some '\n' := fun last => single (List.mem_of_getLast? last)
  rw [closing_normalize isMark]
  simp only [closing?] at closed
  generalize skipSpacesAndTabs ((skipSpacesAndTabs text).dropWhile (· == mark)) = rest at closed split
  split at closed
  · cases closed
  · rw [if_neg ‹_›]
    cases rest with
    | nil =>
        cases closed
        exact ⟨fence, split, present _ split, fun cut => (by cases cut.2), .inl rfl⟩
    | cons c after =>
        by_cases newline : c = '\n'
        · subst newline
          simp only [beq_self_eq_true, if_true, Option.some.injEq] at closed
          subst closed
          have whole : text = (fence ++ ['\n']) ++ after := by simp [split]
          refine ⟨fence ++ ['\n'], whole, present _ whole, apart_of_last (by simp), .inl ?_⟩
          simp [normalize_cons]
        · have terminator : isTerminator c = true ∧ c :: after = left := by
            simpa [newline] using closed
          obtain ⟨terminator, rfl⟩ := terminator
          refine ⟨fence, split, present _ split, fun cut => ?_, ?_⟩
          · exact newline (by simpa using cut.2)
          · by_cases carriage : c = '\r'
            · subst carriage
              obtain ⟨below, head⟩ := normalize_carriage_head after
              exact .inr ⟨unended, rfl, by simp [head]⟩
            · exact .inl (by simp [normalize_cons carriage, newline, terminator])

/-- Behind a marker the two texts go on alike, where one of them has the line end
of the closing fence still in front of it. -/
def GoesOn (consumed left other : Text) : Prop :=
  other = normalizeLineEnds left ∨
    consumed.getLast? ≠ some '\n' ∧ left.head? = some '\r' ∧ other = (normalizeLineEnds left).drop 1

theorem behind_alike {mark : Char} (isMark : Directive.isFenceMark mark = true) (below : Text) :
    ∃ taken, below = taken ++ behind mark below ∧ Apart taken (behind mark below) ∧
      (loneReturns taken = 0 →
        ∀ front, GoesOn (front ++ taken) (behind mark below) (behind mark (normalizeLineEnds below))) := by
  obtain ⟨lines, split, apart, alike⟩ := attribute_lines_alike below
  rw [behind]
  cases closed : closing? mark (many attributeLine? below) with
  | none =>
      refine ⟨lines, split, apart, fun whole front => .inl ?_⟩
      rw [behind, alike whole, closing_refused_normalize isMark closed]
      rfl
  | some left =>
      obtain ⟨fence, split', present, apartFence, closedAlike⟩ := closing_alike isMark closed
      rw [split'] at split apart
      refine ⟨lines ++ fence, by rw [List.append_assoc]; exact split, apartFence.append present, ?_⟩
      intro whole front
      rw [lone_returns_append_of_apart (apart.front present), Nat.add_eq_zero_iff] at whole
      rw [behind, alike whole.1]
      rcases closedAlike with same | ⟨unended, carriage, same⟩
      · exact .inl (by rw [same]; rfl)
      · refine .inr ⟨?_, carriage, by rw [same]; rfl⟩
        obtain ⟨last, ends⟩ := Option.ne_none_iff_exists'.mp (mt List.getLast?_eq_none_iff.mp present)
        rw [ends] at unended
        rwa [← List.append_assoc, List.getLast?_append, ends, Option.some_or]

/-- A marker and the marker that is read with a newline for every line end. -/
theorem marker_alike {text below : Text} {opening : Opening}
    (opened : opening? text = some (opening, below)) : ∃ consumed,
      text = consumed ++ behind opening.mark below ∧ consumed ≠ [] ∧
        Apart consumed (behind opening.mark below) ∧
        (loneReturns consumed = 0 → ∃ other otherBelow,
          opening? (normalizeLineEnds text) = some (other, otherBelow) ∧ other.kind = opening.kind ∧
            other.boundary = opening.boundary ∧
            GoesOn consumed (behind opening.mark below) (behind other.mark otherBelow)) := by
  obtain ⟨fenced, -, fence, -⟩ := fence_of_opening opened
  obtain ⟨isMark, -⟩ := skip_of_fence fence
  obtain ⟨line, split, ended, reads⟩ := opening_alike opened
  obtain ⟨taken, splitBelow, apart, goesOn⟩ := behind_alike isMark below
  have apartLine : Apart line taken := apart_of_ended ended splitBelow
  have present : line ≠ [] := by
    rintro rfl
    obtain rfl : below = [] := ended.resolve_right nofun
    rw [split] at opened
    cases opened
  refine ⟨line ++ taken, ?_, by simp [present], ?_, fun whole => ?_⟩
  · rw [List.append_assoc, ← splitBelow, split]
  · cases taken with
    | nil =>
        rw [List.append_nil]
        exact apart_of_ended ended (splitBelow.trans (List.append_nil _).symm)
    | cons c taken => exact apart.append (List.cons_ne_nil c taken)
  · rw [lone_returns_append_of_apart apartLine, Nat.add_eq_zero_iff] at whole
    obtain ⟨⟨other, otherBelow⟩, otherOpened, same⟩ := Option.map_eq_some_iff.mp (reads whole.1)
    have tags := opening_tag_normalize text
    simp only [opened, otherOpened, Option.map_some, Option.some.injEq, Prod.mk.injEq] at tags same
    obtain ⟨mark, kind, boundary⟩ := tags
    refine ⟨other, otherBelow, otherOpened, kind, boundary, ?_⟩
    rw [same, mark]
    exact goesOn whole.2 line

/-- Two markers that differ in their lines at most, which count the newlines of
the page in front of them, and the line ends. -/
def Alike (page : Text) (first second : Marker) : Prop :=
  first.kind = second.kind ∧ first.boundary = second.boundary ∧
    ∃ front back, page = front ++ back ∧ Apart front back ∧ first.line = newlineCount front ∧
      second.line = newlineCount (normalizeLineEnds front)

end Marker

namespace Piece

/-- The pieces of a text behind the front of its page, and those of the text with
a newline for every line end: they show the same text, so normalised, and hold the
same markers. -/
def ScansAlike (above : Text) (atStart : Bool) (text : Text) : Prop :=
  let pieces := scan 0 (newlineCount above) atStart text
  let others := scan 0 (newlineCount (normalizeLineEnds above)) atStart (normalizeLineEnds text)
  others.flatMap ExerciseBracketing.render =
      normalizeLineEnds (pieces.flatMap ExerciseBracketing.render) ∧
    List.Forall₂ (Marker.Alike (above ++ text)) (pieces.filterMap marker?) (others.filterMap marker?)

theorem scans_alike_nil (above : Text) (atStart : Bool) : ScansAlike above atStart [] :=
  ⟨rfl, .nil⟩

theorem scan_newline (line : Nat) (atStart : Bool) (rest : Text) :
    scan 0 line atStart ('\n' :: rest) = .plain '\n' :: scan 0 (line + 1) true rest := by
  rw [scan_plain (by cases atStart <;> simp [newline_opens_nothing])]
  rfl

theorem scan_carriage (line : Nat) (atStart : Bool) (rest : Text) :
    scan 0 line atStart ('\r' :: rest) = .plain '\r' :: scan 0 line true rest := by
  have refused := opening_at_terminator (c := '\r') (by decide) rest
  rw [scan_plain (by cases atStart <;> simp [refused])]
  rfl

theorem shown_plain (c : Char) (pieces : List Piece) :
    (Piece.plain c :: pieces).flatMap ExerciseBracketing.render =
      c :: pieces.flatMap ExerciseBracketing.render := rfl

theorem head_of_shown {line : Nat} {atStart : Bool} {text : Text}
    (head : ((scan 0 line atStart text).flatMap ExerciseBracketing.render).head? = some '\n') :
    text.head? = some '\n' := by
  cases text with
  | nil => exact head
  | cons c rest =>
      rw [scan_cons] at head
      split at head
      · rename_i found left _
        obtain ⟨first, letters, text, -, unbroken⟩ := replacement_letters found.kind found.boundary
        rw [List.flatMap_cons, ExerciseBracketing.render, text] at head
        have newline := unbroken first (by simp)
        obtain rfl : first = '\n' := by simpa using head
        exact absurd newline (by decide)
      · rw [shown_plain] at head
        simpa using head

variable {above rest : Text} {atStart : Bool}

theorem newline_count_normalize_append {front back : Text} (apart : Apart front back) :
    newlineCount (normalizeLineEnds (front ++ back)) =
      newlineCount (normalizeLineEnds front) + newlineCount (normalizeLineEnds back) := by
  rw [normalize_append_of_apart apart, newline_count_append]

theorem scans_alike_plain {c : Char} (carriage : c ≠ '\r') (apart : Apart above (c :: rest))
    (refused : (if atStart then Marker.opening? (c :: rest) else none) = none)
    (alike : ScansAlike (above ++ [c]) (isTerminator c) rest) : ScansAlike above atStart (c :: rest) := by
  obtain ⟨shown, found⟩ := alike
  have otherRefused : (if atStart then Marker.opening? (c :: normalizeLineEnds rest) else none) =
      none := by
    cases atStart with
    | false => rfl
    | true =>
        have tags := Marker.opening_tag_normalize (c :: rest)
        rw [if_pos rfl] at refused
        rw [refused, normalize_cons carriage] at tags
        simpa using tags
  have single : normalizeLineEnds [c] = [c] := normalize_cons carriage []
  have count := newline_count_normalize_append (apart.front (List.cons_ne_nil c []))
  rw [single] at count
  rw [newline_count_append, count] at shown found
  rw [List.append_assoc, List.singleton_append] at found
  rw [ScansAlike, normalize_cons carriage, scan_plain refused, scan_plain otherRefused]
  refine ⟨?_, found⟩
  rw [shown_plain, shown_plain, normalize_cons carriage, shown]

theorem scans_alike_carriage (alone : rest.head? ≠ some '\n')
    (alike : ScansAlike (above ++ ['\r']) true rest) : ScansAlike above atStart ('\r' :: rest) := by
  obtain ⟨shown, found⟩ := alike
  have apart : Apart above ['\r'] := fun cut => by cases cut.2
  have count := newline_count_normalize_append apart
  have single : newlineCount (normalizeLineEnds ['\r']) = 1 := rfl
  have none : newlineCount ['\r'] = 0 := rfl
  rw [single] at count
  simp only [newline_count_append, count, none, Nat.add_zero, List.append_assoc,
    List.singleton_append] at shown found
  rw [ScansAlike, normalize_carriage alone, scan_carriage, scan_newline]
  refine ⟨?_, found⟩
  rw [shown_plain, shown_plain, normalize_carriage (fun head => alone (head_of_shown head)), shown]

theorem scans_alike_pair (alike : ScansAlike (above ++ ['\r', '\n']) true rest) :
    ScansAlike above atStart ('\r' :: '\n' :: rest) := by
  obtain ⟨shown, found⟩ := alike
  have apart : Apart above ['\r', '\n'] := fun cut => by cases cut.2
  have count := newline_count_normalize_append apart
  have single : newlineCount (normalizeLineEnds ['\r', '\n']) = 1 := rfl
  have one : newlineCount ['\r', '\n'] = 1 := rfl
  rw [single] at count
  rw [newline_count_append, count, one] at shown found
  rw [List.append_assoc, List.cons_append, List.singleton_append] at found
  rw [ScansAlike, normalizeLineEnds, scan_carriage, scan_newline, scan_newline]
  refine ⟨?_, found⟩
  rw [shown_plain, shown_plain, shown_plain, normalizeLineEnds, shown]

theorem ends_with_newline_iff (text : Text) :
    endsWith ['\n'] text = true ↔ text.getLast? = some '\n' := by
  rw [endsWith, List.isSuffixOf_iff_suffix, List.getLast?_eq_some_iff]
  exact exists_congr fun front => eq_comm

/-- A marker with its line ends as newlines is read as one piece, and what is
left behind it as what was left, normalised. -/
theorem scan_goes_on {consumed left below : Text} {opening : Marker.Opening}
    (present : consumed ≠ []) (cut : Apart consumed left) (whole : loneReturns consumed = 0)
    (opened : Marker.opening? (normalizeLineEnds (consumed ++ left)) = some (opening, below))
    (goesOn : Marker.GoesOn consumed left (Marker.behind opening.mark below)) (line : Nat) :
    ∃ found : Marker, found.kind = opening.kind ∧ found.boundary = opening.boundary ∧
      found.line = line ∧
      let pieces := scan 0 line true (normalizeLineEnds (consumed ++ left))
      let others := scan 0 (line + newlineCount (normalizeLineEnds consumed))
        ((consumed.getLast?.map isTerminator).getD true) (normalizeLineEnds left)
      pieces.flatMap ExerciseBracketing.render =
          ExerciseBracketing.replacement opening.kind opening.boundary ++
            ((if endsWith ['\n'] consumed then ['\n'] else []) ++
              others.flatMap ExerciseBracketing.render) ∧
        pieces.filterMap marker? = found :: others.filterMap marker? := by
  have last := get_last_normalize whole
  have otherPresent : normalizeLineEnds consumed ≠ [] := by
    rintro empty
    rw [empty] at last
    exact present (List.getLast?_eq_none_iff.mp last.symm)
  have joined := normalize_append_of_apart cut
  rcases goesOn with same | ⟨unended, carriage, same⟩
  · obtain ⟨found, kind, boundary, place, scanned⟩ :=
      scan_marker opened (joined.trans (congrArg _ same.symm)) otherPresent line
    have ended : endsWith ['\n'] (normalizeLineEnds consumed) = endsWith ['\n'] consumed := by
      rw [Bool.eq_iff_iff, ends_with_newline_iff, ends_with_newline_iff, last]
    refine ⟨found, kind, boundary, place, ?_⟩
    rw [scanned, last, same, ended]
    exact ⟨by simp [ExerciseBracketing.render, kind, boundary], rfl⟩
  · obtain ⟨after, rfl⟩ := List.head?_eq_some_iff.mp carriage
    obtain ⟨next, head⟩ := normalize_carriage_head after
    rw [head, List.drop_succ_cons, List.drop_zero] at same
    have split : normalizeLineEnds (consumed ++ '\r' :: after) =
        (normalizeLineEnds consumed ++ ['\n']) ++ Marker.behind opening.mark below := by
      rw [joined, head, same, List.append_assoc, List.singleton_append]
    obtain ⟨found, kind, boundary, place, scanned⟩ := scan_marker opened split (by simp) line
    have open_ended : endsWith ['\n'] consumed = false := by
      rwa [Bool.eq_false_iff, ne_eq, ends_with_newline_iff]
    have count : line + newlineCount (normalizeLineEnds consumed ++ ['\n']) =
        line + newlineCount (normalizeLineEnds consumed) + 1 := by
      rw [newline_count_append, Nat.add_assoc]
      rfl
    have ended : (normalizeLineEnds consumed ++ ['\n']).getLast?.map isTerminator = some true := by
      simp [isTerminator]
    refine ⟨found, kind, boundary, place, ?_⟩
    rw [scanned, ended, count, ends_with_newline, same, head, scan_newline, open_ended]
    exact ⟨by simp [ExerciseBracketing.render, kind, boundary], rfl⟩

theorem scans_alike_marker {consumed left below : Text} {opening : Marker.Opening}
    (apart : Apart above (consumed ++ left))
    (opened : Marker.opening? (consumed ++ left) = some (opening, below))
    (taken : Marker.behind opening.mark below = left) (present : consumed ≠ [])
    (cut : Apart consumed left) (whole : loneReturns consumed = 0)
    {other : Marker.Opening} {otherBelow : Text}
    (otherOpened : Marker.opening? (normalizeLineEnds (consumed ++ left)) = some (other, otherBelow))
    (kind : other.kind = opening.kind) (boundary : other.boundary = opening.boundary)
    (goesOn : Marker.GoesOn consumed left (Marker.behind other.mark otherBelow))
    (alike : ScansAlike (above ++ consumed) ((consumed.getLast?.map isTerminator).getD true) left) :
    ScansAlike above true (consumed ++ left) := by
  obtain ⟨shown, markers⟩ := alike
  obtain ⟨found, foundKind, foundBoundary, place, scanned⟩ :=
    scan_marker opened (congrArg _ taken.symm) present (newlineCount above)
  obtain ⟨otherFound, otherKind, otherBoundary, otherPlace, otherShown, otherMarkers⟩ :=
    scan_goes_on present cut whole otherOpened goesOn (newlineCount (normalizeLineEnds above))
  have count := newline_count_normalize_append (apart.front present)
  rw [newline_count_append, count] at shown markers
  rw [List.append_assoc] at markers
  have plain : IsPlain (ExerciseBracketing.replacement opening.kind opening.boundary) := by
    cases opening.kind <;> cases opening.boundary <;> decide
  rw [ScansAlike, otherShown, otherMarkers, scanned, taken, kind, boundary]
  refine ⟨?_, .cons ⟨foundKind.trans (kind.symm.trans otherKind.symm),
    foundBoundary.trans (boundary.symm.trans otherBoundary.symm), above, consumed ++ left, rfl, apart,
    place, otherPlace⟩ markers⟩
  rw [List.flatMap_cons, ExerciseBracketing.render, foundKind, foundBoundary, List.append_assoc,
    normalize_append plain, shown]
  cases endsWith ['\n'] consumed with
  | false => rfl
  | true => simp [normalize_cons]

theorem scans_alike (text : Text) (apart : Apart above text) (atStart : Bool)
    (whole : ∀ part ∈ Marker.textsFrom 0 atStart text, loneReturns part = 0) :
    ScansAlike above atStart text := by
  induction length : text.length using Nat.strong_induction_on generalizing above atStart text with
  | _ count shorter =>
  subst length
  cases text with
  | nil => exact scans_alike_nil above atStart
  | cons c rest =>
      cases opened : if atStart then Marker.opening? (c :: rest) else none with
      | none =>
          rw [Marker.texts_from_plain opened] at whole
          by_cases carriage : c = '\r'
          · subst carriage
            by_cases alone : rest.head? = some '\n'
            · obtain ⟨rest, rfl⟩ := List.head?_eq_some_iff.mp alone
              rw [Marker.texts_from_plain (by simp [newline_opens_nothing])] at whole
              exact scans_alike_pair (shorter rest.length (by simp only [List.length_cons]; omega)
                rest (apart_of_last (by simp)) true whole rfl)
            · exact scans_alike_carriage alone (shorter rest.length (by simp) rest
                (fun cut => alone cut.2) true whole rfl)
          · refine scans_alike_plain carriage apart opened (shorter rest.length (by simp) rest
              (apart_of_last ?_) (isTerminator c) whole rfl)
            simpa using carriage
      | some found =>
          cases atStart with
          | false => cases opened
          | true =>
              rw [if_pos rfl] at opened
              obtain ⟨consumed, split, present, cut, alike⟩ := Marker.marker_alike opened
              rw [Marker.texts_from_marker opened split present] at whole
              rw [List.forall_mem_cons] at whole
              obtain ⟨other, otherBelow, otherOpened, kind, boundary, goesOn⟩ := alike whole.1
              have positive := List.length_pos_iff.mpr present
              have bound : (Marker.behind found.1.mark found.2).length < (c :: rest).length := by
                rw [split, List.length_append]
                omega
              rw [split] at apart opened otherOpened ⊢
              exact scans_alike_marker apart opened rfl present cut whole.1 otherOpened kind boundary
                goesOn (shorter _ bound _ (cut.append present) _ whole.2 rfl)

end Piece

namespace Marker

/-- A marker takes no part of a line end, so its text holds no more such returns
than the page does. -/
theorem lone_returns_texts_from (text : Text) (atStart : Bool) :
    ∀ part ∈ textsFrom 0 atStart text, loneReturns part ≤ loneReturns text := by
  induction length : text.length using Nat.strong_induction_on generalizing atStart text with
  | _ count shorter =>
  subst length
  cases text with
  | nil => exact fun part member => absurd member List.not_mem_nil
  | cons c rest =>
      cases opened : if atStart then opening? (c :: rest) else none with
      | none =>
          rw [texts_from_plain opened]
          exact fun part member =>
            (shorter rest.length (by simp) rest _ rfl part member).trans (lone_returns_le_cons c rest)
      | some found =>
          cases atStart with
          | false => cases opened
          | true =>
              rw [if_pos rfl] at opened
              obtain ⟨consumed, split, present, cut, -⟩ := marker_alike opened
              rw [texts_from_marker opened split present]
              have positive := List.length_pos_iff.mpr present
              have bound : (behind found.1.mark found.2).length < (c :: rest).length := by
                rw [split, List.length_append]
                omega
              have further := shorter _ bound _ ((consumed.getLast?.map isTerminator).getD true) rfl
              rw [split, lone_returns_append_of_apart cut]
              refine List.forall_mem_cons.mpr ⟨by omega, fun part member => ?_⟩
              exact (further part member).trans (by omega)

theorem whole_of_paired {page : Text} (paired : loneReturns page = 0) : Whole page :=
  fun part member => Nat.le_zero.mp (paired ▸ lone_returns_texts_from page true part member)

end Marker

namespace Region

theorem advance_all_alike {page : Text} {markers others : List Marker}
    (alike : List.Forall₂ (Marker.Alike page) markers others) (region : Region) :
    region.advanceAll others = region.advanceAll markers ∨
      ∃ kind boundary behind front back, page = front ++ back ∧ Apart front back ∧
        region.advanceAll markers = .error (.misplaced kind boundary (newlineCount front) behind) ∧
        region.advanceAll others =
          .error (.misplaced kind boundary (newlineCount (normalizeLineEnds front)) behind) := by
  induction alike generalizing region with
  | nil => exact .inl rfl
  | @cons marker other markers others same alike induction =>
      obtain ⟨kind, boundary, front, back, split, apart, line, otherLine⟩ := same
      rw [advanceAll, advanceAll, advance, advance, ← kind, ← boundary]
      cases region.next? marker.kind.name marker.boundary.name with
      | none =>
          exact .inr ⟨_, _, _, front, back, split, apart, by rw [line]; rfl, by rw [otherLine]; rfl⟩
      | some next => exact induction next

end Region

namespace ExerciseBracketing

theorem after_solution_normalize (text : Text) :
    afterSolution? (normalizeLineEnds text) = (afterSolution? text).map normalizeLineEnds := by
  fun_induction normalizeLineEnds text with
  | case1 => rfl
  | case2 rest induction =>
      have pair : afterSolution? (['\r', '\n'] ++ rest) = _ :=
        after_solution_append_of_not_mem (by decide) rest
      have newline : afterSolution? (['\n'] ++ normalizeLineEnds rest) = _ :=
        after_solution_append_of_not_mem (by decide) _
      exact newline.trans (induction.trans (congrArg _ pair.symm))
  | case3 rest alone induction =>
      have carriage : afterSolution? (['\r'] ++ rest) = _ :=
        after_solution_append_of_not_mem (by decide) rest
      have newline : afterSolution? (['\n'] ++ normalizeLineEnds rest) = _ :=
        after_solution_append_of_not_mem (by decide) _
      exact newline.trans (induction.trans (congrArg _ carriage.symm))
  | case4 c rest _ plain induction =>
      have step (c : Char) (rest : Text) : afterSolution? (c :: rest) =
          (word solutionEnd (c :: rest)).or (afterSolution? rest) := by
        rw [afterSolution?, firstMatch]
        cases word solutionEnd (c :: rest) with
        | none => simp [afterSolution?, Option.map_map, Function.comp_def]
        | some left => rfl
      have read := word_normalize (show IsPlain solutionEnd by decide) (c :: rest)
      rw [normalize_cons fun carriage => plain carriage] at read
      rw [step, step, read, induction]
      cases word solutionEnd (c :: rest) <;> rfl

theorem solution_normalize (text : Text) :
    solution? (normalizeLineEnds text) = (solution? text).map normalizeLineEnds := by
  have steps (text : Text) : solution? text = (word solutionStart text).bind afterSolution? := rfl
  rw [steps, steps, word_normalize (show IsPlain solutionStart by decide)]
  cases word solutionStart text with
  | none => rfl
  | some inside => exact after_solution_normalize inside

theorem head_of_collapse {text : Text} (head : (collapse text).head? = some '\n') :
    text.head? = some '\n' := by
  cases text with
  | nil => exact head
  | cons c rest =>
      rcases collapse_cases c rest with ⟨inside, left, -, -, hidden⟩ | ⟨-, kept⟩
      · rw [hidden] at head
        cases head
      · rw [kept] at head
        simpa using head

theorem collapse_normalize (text : Text) :
    collapse (normalizeLineEnds text) = normalizeLineEnds (collapse text) := by
  induction length : text.length using Nat.strong_induction_on generalizing text with
  | _ count shorter =>
  subst length
  cases text with
  | nil => rfl
  | cons c rest =>
      rcases collapse_cases c rest with ⟨inside, left, split, closed, hidden⟩ | ⟨unsolved, kept⟩
      · have again := shorter left.length (split ▸ shorter_of_after_solution closed) left rfl
        have otherClosed : afterSolution? (normalizeLineEnds inside) = some (normalizeLineEnds left) := by
          rw [after_solution_normalize, closed, Option.map_some]
        rw [hidden, split, normalize_append (by decide), collapse_of_solution otherClosed, again,
          normalize_append (by decide)]
      · by_cases carriage : c = '\r'
        · subst carriage
          by_cases alone : rest.head? = some '\n'
          · obtain ⟨rest, rfl⟩ := List.head?_eq_some_iff.mp alone
            have again := shorter rest.length (by simp only [List.length_cons]; omega) rest rfl
            rw [kept, collapse_newline, normalizeLineEnds, normalizeLineEnds, ← again, collapse_newline]
          · have again := shorter rest.length (by simp) rest rfl
            rw [kept, normalize_carriage alone, normalize_carriage fun head => alone (head_of_collapse head),
              ← again, collapse_newline]
        · have again := shorter rest.length (by simp) rest rfl
          have otherUnsolved := solution_normalize (c :: rest)
          rw [unsolved, normalize_cons carriage] at otherUnsolved
          rw [kept, normalize_cons carriage, normalize_cons carriage, ← again, collapse_cons,
            otherUnsolved]
          rfl

end ExerciseBracketing

/-- With a newline for every line end the same exercises are bracketed, if no marker
holds a carriage return that stands alone; an error counts those in front of it. -/
theorem bracket_exercises_normalize {page : Text} (whole : Marker.Whole page) :
    bracketExercises (normalizeLineEnds page) = (bracketExercises page).map normalizeLineEnds ∨
      ∃ kind boundary behind front back, page = front ++ back ∧ Apart front back ∧
        bracketExercises page = .error (.misplaced kind boundary (newlineCount front) behind) ∧
        bracketExercises (normalizeLineEnds page) =
          .error (.misplaced kind boundary (newlineCount front + loneReturns front) behind) := by
  have apart : Apart [] page := fun cut => by cases cut.1
  obtain ⟨shown, alike⟩ := Piece.scans_alike page apart true whole
  have shownPage : (Piece.ofText (normalizeLineEnds page)).flatMap ExerciseBracketing.render =
      normalizeLineEnds ((Piece.ofText page).flatMap ExerciseBracketing.render) := shown
  have steps (page : Text) : bracketExercises page =
      (Region.outside.advanceAll (Marker.scan page)).bind fun region =>
        region.finish.bind fun _ =>
          .ok (ExerciseBracketing.collapse ((Piece.ofText page).flatMap ExerciseBracketing.render)) := by
    rw [bracketExercises, ExerciseBracketing.bracket, Marker.scan]
    cases Region.outside.advanceAll ((Piece.ofText page).filterMap Piece.marker?) with
    | error problem => rfl
    | ok region => cases region <;> rfl
  rw [steps, steps]
  rcases Region.advance_all_alike alike .outside with same | ⟨kind, boundary, behind, front, back,
    split, cut, refused, otherRefused⟩
  · left
    have sameMarkers : Region.outside.advanceAll (Marker.scan (normalizeLineEnds page)) =
        Region.outside.advanceAll (Marker.scan page) := same
    rw [sameMarkers, shownPage, ExerciseBracketing.collapse_normalize]
    cases Region.outside.advanceAll (Marker.scan page) with
    | error problem => rfl
    | ok region => cases region <;> rfl
  · right
    refine ⟨kind, boundary, behind, front, back, split, cut, ?_, ?_⟩
    · have refusedPage : Region.outside.advanceAll (Marker.scan page) = _ := refused
      rw [refusedPage]
      rfl
    · have refusedOther : Region.outside.advanceAll (Marker.scan (normalizeLineEnds page)) = _ :=
        otherRefused
      rw [refusedOther, newline_count_normalize]
      rfl

end LessonBook
