import LessonBook.Proofs.Exercise.LineRewrite

/-!
Bracketing leaves nothing for a second time. No line of a bracketed page starts
with the head of a marker, and no solution comment in it has a closing one behind
it, whatever line terminators the page holds.
-/

namespace LessonBook

open Text Recognizer ExerciseBracketing

namespace Marker

theorem not_blank_of_mark {mark : Char} (isMark : Directive.isFenceMark mark = true) :
    isSpaceOrTab mark = false := by
  simp only [Directive.isFenceMark, Bool.or_eq_true, beq_iff_eq] at isMark
  rcases isMark with (rfl | rfl) | rfl <;> rfl

/-- A fence is the whole run of its character. -/
theorem fence_eq_some_iff {text fenced : Text} {mark : Char} :
    fence? text = some (mark, fenced) ↔ ∃ blanks count,
      blanks.length ≤ 3 ∧ (∀ c ∈ blanks, isSpaceOrTab c = true) ∧
      Directive.isFenceMark mark = true ∧ 3 ≤ count ∧ fenced.head? ≠ some mark ∧
      text = blanks ++ (List.replicate count mark ++ fenced) := by
  constructor
  · intro read
    have split := List.takeWhile_append_dropWhile (p := isSpaceOrTab) (l := text)
    rw [MarkerLine.fence_eq] at read
    cases behind : text.dropWhile isSpaceOrTab with
    | nil => simp [behind] at read
    | cons other rest =>
        simp only [behind, Option.ite_none_right_eq_some, Option.some.injEq, Prod.mk.injEq,
          Bool.and_eq_true, decide_eq_true_eq] at read
        obtain ⟨⟨⟨few, isMark⟩, long⟩, rfl, rfl⟩ := read
        have run := List.takeWhile_append_dropWhile (p := (· == other)) (l := other :: rest)
        have same : (other :: rest).takeWhile (· == other) =
            List.replicate ((other :: rest).takeWhile (· == other)).length other :=
          List.eq_replicate_of_mem fun c member => by simpa using List.mem_takeWhile_imp member
        refine ⟨text.takeWhile isSpaceOrTab, _, few, fun c => List.mem_takeWhile_imp, isMark, long,
          ?_, ?_⟩
        · intro head
          have stops := List.head?_dropWhile_not (· == other) (other :: rest)
          rw [head] at stops
          simp at stops
        · rw [← same, run, ← behind, split]
  · rintro ⟨blanks, count, few, blank, isMark, long, stops, rfl⟩
    obtain ⟨more, rfl⟩ : ∃ more, count = more + 1 := ⟨count - 1, by omega⟩
    have outside := not_blank_of_mark isMark
    have taken : (blanks ++ (List.replicate (more + 1) mark ++ fenced)).takeWhile isSpaceOrTab =
        blanks := by
      rw [List.takeWhile_append_of_pos blank]
      simp [List.replicate_succ, outside]
    have dropped : (blanks ++ (List.replicate (more + 1) mark ++ fenced)).dropWhile isSpaceOrTab =
        mark :: (List.replicate more mark ++ fenced) := by
      rw [List.dropWhile_append_of_pos blank]
      simp [List.replicate_succ, outside]
    have run : ∀ c ∈ List.replicate (more + 1) mark, (c == mark) = true := by
      simp [List.mem_replicate]
    have behind : fenced.takeWhile (· == mark) = [] ∧ fenced.dropWhile (· == mark) = fenced := by
      cases fenced with
      | nil => exact ⟨rfl, rfl⟩
      | cons c rest =>
          have other : c ≠ mark := by simpa using stops
          simp [other]
    rw [MarkerLine.fence_eq, taken, dropped]
    simp only
    rw [← List.cons_append, ← List.replicate_succ, List.takeWhile_append_of_pos run,
      List.dropWhile_append_of_pos run, behind.1, behind.2]
    simp [few, isMark, long]

/-- What a line has to start with to be read as a marker: at most three blanks, a
fence, blanks, and a tag in braces. -/
inductive IsHead : Text → Prop where
  | intro {blanks spaces : Text} {mark : Char} {count : Nat} {kind : RegionKind}
      {boundary : Boundary} (few : blanks.length ≤ 3) (blank : ∀ c ∈ blanks, isSpaceOrTab c = true)
      (isMark : Directive.isFenceMark mark = true) (long : 3 ≤ count)
      (apart : ∀ c ∈ spaces, isSpaceOrTab c = true) :
      IsHead (blanks ++ (List.replicate count mark ++ (spaces ++ tagText kind boundary)))

def IsHeadLetter (c : Char) : Prop :=
  c ≠ '*' ∧ c ≠ '<' ∧ isTerminator c = false

theorem head_letter_of_blank {c : Char} (blank : isSpaceOrTab c = true) : IsHeadLetter c := by
  simp only [isSpaceOrTab, Bool.or_eq_true, beq_iff_eq] at blank
  rcases blank with rfl | rfl <;> exact ⟨by decide, by decide, by decide⟩

theorem head_letter_of_mark {c : Char} (isMark : Directive.isFenceMark c = true) :
    IsHeadLetter c := by
  simp only [Directive.isFenceMark, Bool.or_eq_true, beq_iff_eq] at isMark
  rcases isMark with (rfl | rfl) | rfl <;> exact ⟨by decide, by decide, by decide⟩

theorem head_letter_of_tag {kind : RegionKind} {boundary : Boundary} {c : Char}
    (member : c ∈ tagText kind boundary) : IsHeadLetter c := by
  have letters : (tagText kind boundary).all
      (fun d => d != '*' && d != '<' && !isTerminator d) = true := by
    cases kind <;> cases boundary <;> rfl
  have letter := List.all_eq_true.mp letters c member
  simpa [IsHeadLetter, and_assoc] using letter

theorem IsHead.letters {head : Text} (isHead : IsHead head) : ∀ c ∈ head, IsHeadLetter c := by
  obtain ⟨-, blank, isMark, -, apart⟩ := isHead
  intro c member
  simp only [List.mem_append, List.mem_replicate] at member
  rcases member with member | ⟨-, rfl⟩ | member | member
  · exact head_letter_of_blank (blank c member)
  · exact head_letter_of_mark isMark
  · exact head_letter_of_blank (apart c member)
  · exact head_letter_of_tag member

theorem IsHead.ne_nil {head : Text} (isHead : IsHead head) : head ≠ [] := by
  obtain ⟨-, -, -, -, -⟩ := isHead
  simp [tagText]

theorem line_end_after_first_line (text : Text) :
    lineEnd (afterFirstLine text) = some ((afterFirstLine text).drop 1) := by
  apply line_end_of_end
  cases behind : afterFirstLine text with
  | nil => rfl
  | cons c rest =>
      have stops := List.head?_dropWhile_not notNewline text
      rw [← afterFirstLine, behind] at stops
      simpa [notNewline, atLineEnd] using stops

theorem opening_is_some_iff (text : Text) :
    (opening? text).isSome = true ↔ ∃ head, IsHead head ∧ head <+: text := by
  constructor
  · intro opened
    obtain ⟨found, opened⟩ := Option.isSome_iff_exists.mp opened
    simp only [opening_eq, Option.bind_eq_some_iff] at opened
    obtain ⟨⟨mark, fenced⟩, fence, ⟨tag, suffix⟩, read, -⟩ := opened
    obtain ⟨blanks, count, few, blank, isMark, long, -, rfl⟩ := fence_eq_some_iff.mp fence
    have spaces := List.takeWhile_append_dropWhile (p := isSpaceOrTab) (l := fenced)
    have named := tag_eq_some_iff.mp read
    rw [skipSpacesAndTabs] at named
    have isHead : IsHead (blanks ++ (List.replicate count mark ++
        (fenced.takeWhile isSpaceOrTab ++ tagText tag.1 tag.2))) :=
      .intro few blank isMark long fun c => List.mem_takeWhile_imp
    refine ⟨_, isHead, suffix, ?_⟩
    simp only [List.append_assoc, ← named, spaces]
  · rintro ⟨head, isHead, suffix, rfl⟩
    obtain @⟨blanks, spaces, mark, count, kind, boundary, few, blank, isMark, long, apart⟩ := isHead
    obtain ⟨letters, brace⟩ : ∃ letters, tagText kind boundary = '\x7b' :: letters := ⟨_, rfl⟩
    have fence : fence? (blanks ++ (List.replicate count mark ++ (spaces ++ tagText kind boundary)) ++
        suffix) = some (mark, spaces ++ (tagText kind boundary ++ suffix)) := by
      refine fence_eq_some_iff.mpr ⟨blanks, count, few, blank, isMark, long, ?_, by simp⟩
      cases spaces with
      | nil =>
          rw [brace]
          simp only [List.nil_append, List.cons_append, List.head?_cons, ne_eq, Option.some.injEq]
          rintro rfl
          cases isMark
      | cons c spaces =>
          simp only [List.cons_append, List.head?_cons, ne_eq, Option.some.injEq]
          rintro rfl
          exact absurd (apart c (by simp)) (by simp [not_blank_of_mark isMark])
    have skipped : skipSpacesAndTabs (spaces ++ (tagText kind boundary ++ suffix)) =
        tagText kind boundary ++ suffix := by
      rw [skipSpacesAndTabs, List.dropWhile_append_of_pos apart, brace]
      rfl
    have read : tag? (tagText kind boundary ++ suffix) = some ((kind, boundary), suffix) :=
      tag_eq_some_iff.mpr rfl
    rw [opening_eq, fence]
    simp [skipped, read, line_end_after_first_line]

theorem opening_eq_none_of {text other : Text} (refused : opening? text = none)
    (shared : ∀ head, head ≠ [] → (∀ c ∈ head, IsHeadLetter c) → head <+: other → head <+: text) :
    opening? other = none := by
  rw [← Option.not_isSome_iff_eq_none, opening_is_some_iff] at refused ⊢
  rintro ⟨head, isHead, inside⟩
  exact refused ⟨head, isHead, shared head isHead.ne_nil isHead.letters inside⟩

theorem opening_at_other {c : Char} (other : ¬IsHeadLetter c) (rest : Text) :
    opening? (c :: rest) = none := by
  rw [← Option.not_isSome_iff_eq_none, opening_is_some_iff]
  rintro ⟨head, isHead, inside⟩
  cases head with
  | nil => exact isHead.ne_nil rfl
  | cons d head =>
      rw [List.cons_prefix_cons] at inside
      exact other (inside.1 ▸ isHead.letters d (by simp))

/-- No marker is read in the text; `atStart` tells whether a line starts with it. -/
def Absent (atStart : Bool) : Text → Prop
  | [] => True
  | c :: rest => (atStart = true → opening? (c :: rest) = none) ∧ Absent (isTerminator c) rest

@[simp] theorem absent_nil (atStart : Bool) : Absent atStart [] := trivial

theorem absent_cons {atStart : Bool} {c : Char} {rest : Text} : Absent atStart (c :: rest) ↔
    (atStart = true → opening? (c :: rest) = none) ∧ Absent (isTerminator c) rest :=
  Iff.rfl

theorem Absent.inside {atStart : Bool} {text : Text} (absent : Absent atStart text) :
    Absent false text := by
  cases text with
  | nil => trivial
  | cons c rest => exact ⟨nofun, absent.2⟩

theorem Absent.of_append {atStart : Bool} {front text : Text}
    (absent : Absent atStart (front ++ text)) : Absent false text := by
  induction front generalizing atStart with
  | nil => exact absent.inside
  | cons c front induction => exact induction absent.2

theorem Absent.append {front text : Text} (unbroken : ∀ c ∈ front, isTerminator c = false)
    (absent : Absent false text) : Absent false (front ++ text) := by
  induction front with
  | nil => exact absent
  | cons c front induction =>
      rw [List.cons_append, absent_cons, unbroken c (by simp)]
      exact ⟨nofun, induction fun d member => unbroken d (by simp [member])⟩

theorem Absent.at_start {text : Text} (absent : Absent false text)
    (other : ∀ c ∈ text.head?, ¬IsHeadLetter c) (atStart : Bool) : Absent atStart text := by
  cases text with
  | nil => trivial
  | cons c rest => exact ⟨fun _ => opening_at_other (other c rfl) rest, absent.2⟩

end Marker

open Marker

theorem Piece.scan_of_absent {atStart : Bool} {text : Text} (absent : Absent atStart text)
    (line : Nat) : Piece.scan 0 line atStart text = text.map .plain := by
  induction text generalizing atStart line with
  | nil => rfl
  | cons c rest induction =>
      have refused : (if atStart then opening? (c :: rest) else none) = none := by
        cases atStart with
        | false => rfl
        | true => exact absent.1 rfl
      rw [Piece.scan_plain refused, induction absent.2]
      rfl

theorem not_head_letter_of_terminator {c : Char} (terminator : isTerminator c = true) :
    ¬IsHeadLetter c := by
  rintro ⟨-, -, plain⟩
  rw [terminator] at plain
  cases plain

theorem replacement_letters (kind : RegionKind) (boundary : Boundary) :
    ∃ c letters, replacement kind boundary = c :: letters ∧ (c = '*' ∨ c = '<') ∧
      ∀ d ∈ c :: letters, isTerminator d = false := by
  have plain : (replacement kind boundary).all (fun d => !isTerminator d) = true := by
    cases kind <;> cases boundary <;> rfl
  have unbroken : ∀ d ∈ replacement kind boundary, isTerminator d = false := by
    intro d member
    simpa using List.all_eq_true.mp plain d member
  cases kind <;> cases boundary <;> exact ⟨_, _, rfl, by decide, unbroken⟩

namespace LineReading

def Broken (text : Text) : Prop :=
  ∀ c ∈ text.head?, isTerminator c = true

variable {tail : Text} (broken : Broken tail)
include broken

/-- A head that begins a shown line begins the line. -/
theorem prefix_of_prefix_shown {head line : Text} {atStart : Bool}
    (letters : ∀ c ∈ head, IsHeadLetter c) (inside : head <+: (ofText atStart line).shown ++ tail) :
    head <+: line := by
  induction line generalizing head atStart with
  | nil =>
      cases head with
      | nil => exact List.nil_prefix
      | cons c head =>
          obtain ⟨rest, same⟩ := inside
          have start := broken c (by rw [← show _ = tail from same]; rfl)
          exact absurd (letters c (by simp)) (not_head_letter_of_terminator start)
  | cons d line induction =>
      cases head with
      | nil => exact List.nil_prefix
      | cons c head =>
          cases opened : if atStart then opening? (d :: line) else none with
          | none =>
              rw [of_text_plain opened] at inside
              simp only [List.cons_append, List.cons_prefix_cons] at inside ⊢
              exact ⟨inside.1, induction (fun e member => letters e (by simp [member])) inside.2⟩
          | some found =>
              cases atStart with
              | false => cases opened
              | true =>
                  rw [of_text_marker (if_pos rfl ▸ opened)] at inside
                  obtain ⟨first, others, text, start, -⟩ :=
                    replacement_letters found.1.kind found.1.boundary
                  rw [text, List.cons_append, List.cons_prefix_cons] at inside
                  obtain ⟨star, bracket, -⟩ := letters c (by simp)
                  rw [inside.1] at star bracket
                  rcases start with rfl | rfl <;> contradiction

theorem absent_shown {line : Text} (absent : Absent false tail) (atStart : Bool) :
    Absent atStart ((ofText atStart line).shown ++ tail) := by
  induction line generalizing atStart with
  | nil => exact absent.at_start (fun c head => not_head_letter_of_terminator (broken c head)) atStart
  | cons d line induction =>
      cases opened : if atStart then opening? (d :: line) else none with
      | none =>
          have shown (head : Text) (letters : ∀ c ∈ head, IsHeadLetter c)
              (inside : head <+: (ofText atStart (d :: line)).shown ++ tail) : head <+: d :: line :=
            prefix_of_prefix_shown broken letters inside
          rw [of_text_plain opened] at shown ⊢
          refine ⟨fun start => ?_, induction (isTerminator d)⟩
          rw [if_pos start] at opened
          exact opening_eq_none_of opened fun head _ => shown head
      | some found =>
          cases atStart with
          | false => cases opened
          | true =>
              rw [of_text_marker (if_pos rfl ▸ opened)]
              obtain ⟨first, others, text, start, unbroken⟩ :=
                replacement_letters found.1.kind found.1.boundary
              rw [text]
              refine (Absent.append unbroken absent).at_start ?_ true
              rintro c ⟨⟩
              rintro ⟨star, bracket, -⟩
              rcases start with rfl | rfl <;> contradiction

omit broken

/-- Whatever stands above, no marker is read in what some lines show. -/
theorem absent_shown_below {lines : List Text} (single : ∀ line ∈ lines, '\n' ∉ line)
    (above : Above) :
    Absent false (shownBelow above lines) ∧ Broken (shownBelow above lines) := by
  induction lines generalizing above with
  | nil => exact ⟨trivial, by simp [Broken]⟩
  | cons line lines induction =>
      obtain ⟨absent, broken⟩ := induction (fun other member => single other (by simp [member]))
        (ofLine above line).above
      have newline : isTerminator '\n' = true := by decide
      have behind (reading : (ofLine above line).shown = '\n' :: (ofText true line).shown) :
          Absent false (shownBelow above (line :: lines)) ∧ Broken (shownBelow above (line :: lines)) := by
        rw [shown_below_cons, reading, List.cons_append, absent_cons, newline]
        exact ⟨⟨nofun, absent_shown broken absent true⟩, by simp [Broken, newline]⟩
      cases above with
      | text => exact behind rfl
      | marker mark =>
          cases named : (attributeKey? line).isSome with
          | true =>
              rw [shown_below_cons, of_line_attribute mark named] at *
              exact ⟨absent, broken⟩
          | false =>
              cases closed : closing? mark line with
              | none =>
                  apply behind
                  rw [of_line_behind named closed]
                  rfl
              | some rest =>
                  rw [shown_below_cons, of_line_closing named closed] at *
                  refine ⟨absent_shown broken absent false, ?_⟩
                  obtain rfl | ⟨c, after, rfl, terminator⟩ :=
                    (rest_of_closing closed (single line (by simp))).2
                  · exact broken
                  · rw [of_text_plain (by simp)]
                    simp [Broken, terminator]

end LineReading

namespace ExerciseBracketing

/-- No word without a star begins in the placeholder, so each word that begins a
text with its solutions hidden begins the text. -/
theorem prefix_of_prefix_collapse {letters text : Text} (plain : '*' ∉ letters)
    (inside : letters <+: collapse text) : letters <+: text := by
  induction text generalizing letters with
  | nil => exact inside
  | cons c rest induction =>
      cases letters with
      | nil => exact List.nil_prefix
      | cons d letters =>
          simp only [List.mem_cons, not_or] at plain
          obtain ⟨word, star⟩ : ∃ word, placeholder = '*' :: word := ⟨_, rfl⟩
          rw [collapse_cons] at inside
          split at inside
          · rw [star, List.cons_append, List.cons_prefix_cons] at inside
            exact absurd inside.1.symm plain.1
          · rw [List.cons_prefix_cons] at inside ⊢
            exact ⟨inside.1, induction plain.2 inside.2⟩

theorem collapse_cases (c : Char) (rest : Text) :
    (∃ inside left, c :: rest = solutionStart ++ inside ∧ afterSolution? inside = some left ∧
      collapse (c :: rest) = placeholder ++ collapse left) ∨
    (solution? (c :: rest) = none ∧ collapse (c :: rest) = c :: collapse rest) := by
  cases found : solution? (c :: rest) with
  | none => exact .inr ⟨rfl, by rw [collapse_cons, found]⟩
  | some left =>
      simp only [solution?, Option.bind_eq_bind, Option.bind_eq_some_iff, word_eq_some_iff] at found
      obtain ⟨inside, split, closed⟩ := found
      exact .inl ⟨inside, left, split, closed, by rw [split, collapse_of_solution closed]⟩

theorem suffix_of_after_solution {text left : Text} (closed : afterSolution? text = some left) :
    ∃ front, text = front ++ left := by
  obtain ⟨front, split⟩ := split_of_after_solution closed
  exact ⟨front ++ solutionEnd, by rw [split, List.append_assoc]⟩

theorem shorter_of_after_solution {inside left : Text} (closed : afterSolution? inside = some left) :
    left.length < (solutionStart ++ inside).length := by
  obtain ⟨front, split⟩ := suffix_of_after_solution closed
  have present : 0 < solutionStart.length := by decide
  simp only [split, List.length_append]
  omega

theorem placeholder_unbroken : ∀ c ∈ placeholder, isTerminator c = false := by
  intro c member
  simpa using List.all_eq_true.mp (show placeholder.all (fun d => !isTerminator d) = true from rfl)
    c member

theorem absent_collapse {atStart : Bool} {text : Text} (absent : Absent atStart text) :
    Absent atStart (collapse text) := by
  induction length : text.length using Nat.strong_induction_on generalizing atStart text with
  | _ count shorter =>
  subst length
  cases text with
  | nil => trivial
  | cons c rest =>
      rcases collapse_cases c rest with ⟨inside, left, split, closed, hidden⟩ | ⟨-, kept⟩
      · obtain ⟨front, cut⟩ := suffix_of_after_solution closed
        have absentLeft : Absent false left := by
          rw [split, cut, ← List.append_assoc] at absent
          exact absent.of_append
        have hiddenLeft := shorter left.length (split ▸ shorter_of_after_solution closed)
          absentLeft rfl
        rw [hidden]
        refine (Absent.append placeholder_unbroken hiddenLeft).at_start ?_ atStart
        rintro _ ⟨⟩ ⟨star, -⟩
        exact star rfl
      · have keptRest := shorter rest.length (by simp) absent.2 rfl
        refine kept ▸ ⟨fun start => ?_, keptRest⟩
        refine opening_eq_none_of (absent.1 start) fun head _ letters inside => ?_
        rw [← kept] at inside
        exact prefix_of_prefix_collapse (fun star => (letters _ star).1 rfl) inside

theorem collapse_of_no_end {text : Text} (unclosed : ¬solutionEnd <:+: text) :
    collapse text = text := by
  induction text with
  | nil => rfl
  | cons c rest induction =>
      rcases collapse_cases c rest with ⟨inside, left, split, closed, -⟩ | ⟨-, kept⟩
      · obtain ⟨front, cut⟩ := split_of_after_solution closed
        exact absurd ⟨solutionStart ++ front, left, by simp [split, cut]⟩ unclosed
      · rw [kept, induction fun inside => unclosed (inside.trans (List.suffix_cons c rest).isInfix)]

/-- Behind a start comment that opens no solution there is no closing one. -/
theorem no_end_of_unsolved {c : Char} {rest : Text} (unsolved : solution? (c :: rest) = none)
    (opened : solutionStart <+: c :: rest) : ¬solutionEnd <:+: rest := by
  obtain ⟨inside, split⟩ := opened
  obtain ⟨letters, start, letter⟩ := solution_start_eq
  obtain ⟨endLetters, finish, -⟩ := solution_end_eq
  have behind : rest = letters ++ inside := by
    rw [start, List.cons_append, List.cons.injEq] at split
    exact split.2.symm
  intro closed
  rw [behind, finish, infix_append_iff_of_not_mem fun member => (letter _ member).1 rfl,
    ← finish] at closed
  obtain ⟨left, -, after⟩ := after_solution_of_closed closed
  have found := after []
  rw [List.append_nil] at found
  simp [← split, solution?, word_append, ← afterSolution?.eq_1, found] at unsolved

theorem collapse_collapse (text : Text) : collapse (collapse text) = collapse text := by
  induction length : text.length using Nat.strong_induction_on generalizing text with
  | _ count shorter =>
  subst length
  cases text with
  | nil => rfl
  | cons c rest =>
      have plain : '<' ∉ placeholder := by decide
      rcases collapse_cases c rest with ⟨inside, left, split, closed, hidden⟩ | ⟨unsolved, kept⟩
      · have again := shorter left.length (split ▸ shorter_of_after_solution closed) left rfl
        rw [hidden, collapse_append_of_not_mem plain, again]
      · have again := shorter rest.length (by simp) rest rfl
        rw [kept]
        by_cases opened : solutionStart <+: c :: collapse rest
        · -- The comment stood there before, without a closing one: nothing behind it was hidden.
          rw [← kept] at opened
          have whole := collapse_of_no_end (no_end_of_unsolved unsolved
            (prefix_of_prefix_collapse (by decide) opened))
          rw [whole, kept, whole]
        · rw [collapse_of_no_solution opened, again]

end ExerciseBracketing

theorem Marker.absent_shown_page (page : Text) :
    Absent true ((Piece.ofText page).flatMap render) := by
  have single : ∀ line ∈ lines page, '\n' ∉ line := fun line => no_newline_of_mem_lines
  rw [LineReading.shown_of_page]
  cases cut : lines page with
  | nil => exact absurd cut (lines_ne_nil page)
  | cons line below =>
      have absent := (LineReading.absent_shown_below (cut ▸ single) .text).1
      rw [LineReading.shown_below_cons, LineReading.of_line_text, LineReading.behindNewline,
        List.cons_append] at absent ⊢
      exact absent.2

theorem bracket_exercises_of_absent {page : Text} (absent : Absent true page) :
    Marker.scan page = [] ∧ bracketExercises page = .ok (collapse page) := by
  have pieces : Piece.ofText page = page.map .plain := Piece.scan_of_absent absent 0
  have shown : (page.map Piece.plain).flatMap render = page := by
    simp [List.flatMap_map, render]
  have none : Marker.scan page = [] := by
    rw [Marker.scan, pieces, List.filterMap_eq_nil_iff]
    simp [Piece.marker?]
  refine ⟨none, (bracket_exercises_eq_ok_iff page _).mpr ⟨?_, ?_⟩⟩
  · rw [none]
    trivial
  · rw [pieces, shown]

/-- A bracketed page holds no markers, and bracketing it again changes nothing. -/
theorem bracket_exercises_twice {page output : Text}
    (accepted : bracketExercises page = .ok output) :
    Marker.scan output = [] ∧ bracketExercises output = .ok output := by
  obtain ⟨-, shown⟩ := (bracket_exercises_eq_ok_iff page output).mp accepted
  have absent : Absent true output := shown ▸ absent_collapse (Marker.absent_shown_page page)
  have again := bracket_exercises_of_absent absent
  rwa [shown, collapse_collapse, ← shown] at again

set_option maxRecDepth 8000 in
theorem bracket_exercises_twice_broken_lines :
    let page := joinLines (["```\x7bsolution-start\x7d\r", "A\u2028~~~\x7bsolution-end\x7d",
      ":key: b", ":::\x7bexercise-start\x7d", ":::\r~~~\x7bexercise-end\x7d"].map String.toList)
    let output := joinLines [placeholder, exerciseStart ++ '\r' :: exerciseEnd]
    bracketExercises page = .ok output ∧
      Marker.scan output = [] ∧ bracketExercises output = .ok output := by
  intro page output
  have accepted : bracketExercises page = .ok output := by rfl
  exact ⟨accepted, bracket_exercises_twice accepted⟩

end LessonBook
