import LessonBook.Proofs.Admonition.LineEnds
import LessonBook.Proofs.Exercise.Collapse
import LessonBook.Proofs.Exercise.Sequencing

/-!
What bracketing the exercises of a page writes. The characters of its output are
marked as written or as kept from the page; the written ones stand together in
words, and no word is ever cut.
-/

namespace LessonBook

open Text Recognizer

/-- A text with a mark at each character that was written into it. -/
abbrev MarkedText := List (Char × Bool)

namespace MarkedText

def text (marked : MarkedText) : Text :=
  marked.map Prod.fst

def written (word : Text) : MarkedText :=
  word.map fun c => (c, true)

def isTouched (marked : MarkedText) : Bool :=
  marked.any Prod.snd

def isWritten (marked : MarkedText) : Bool :=
  !marked.isEmpty && marked.all Prod.snd

def lines : MarkedText → List MarkedText
  | [] => [[]]
  | ('\r', _) :: ('\n', _) :: rest => [] :: lines rest
  | (c, mark) :: rest =>
      if c == '\n' || c == '\r' then [] :: lines rest
      else match lines rest with
        | [] => [[(c, mark)]]
        | line :: others => ((c, mark) :: line) :: others

@[simp] theorem text_nil : text [] = [] := rfl

@[simp] theorem text_cons (c : Char) (mark : Bool) (rest : MarkedText) :
    text ((c, mark) :: rest) = c :: text rest := rfl

@[simp] theorem text_append (front back : MarkedText) :
    text (front ++ back) = text front ++ text back :=
  List.map_append

@[simp] theorem text_written (word : Text) : text (written word) = word := by
  rw [text, written, List.map_map]
  exact List.map_id word

theorem text_drop (count : Nat) (marked : MarkedText) :
    text (marked.drop count) = (text marked).drop count :=
  List.map_drop

@[simp] theorem length_text (marked : MarkedText) : (text marked).length = marked.length :=
  List.length_map _

theorem lines_text (marked : MarkedText) :
    (lines marked).map text = (AdmonitionBracketing.linesWithEnds marked.text).map Prod.fst := by
  fun_induction lines marked with
  | case1 => rfl
  | case2 mark mark' rest induction =>
      rw [List.map_cons, induction]
      rfl
  | case3 c mark rest other isEnd induction =>
      obtain ⟨ending, cut⟩ : ∃ ending, AdmonitionBracketing.linesWithEnds (c :: text rest) =
          ([], ending) :: AdmonitionBracketing.linesWithEnds (text rest) := by
        simp only [Bool.or_eq_true, beq_iff_eq] at isEnd
        rcases isEnd with rfl | rfl
        · exact ⟨_, AdmonitionBracketing.lines_with_ends_newline _⟩
        · refine ⟨_, AdmonitionBracketing.lines_with_ends_carriage ?_⟩
          intro newline
          match rest with
          | [] => cases newline
          | (d, mark') :: below =>
              cases newline
              exact other mark' below rfl rfl
      rw [text_cons, cut, List.map_cons, List.map_cons, induction]
      rfl
  | case4 c mark rest other plain empty induction =>
      rw [empty] at induction
      obtain ⟨line, ending, others, cut, -⟩ := AdmonitionBracketing.lines_with_ends_cons
        (c := c) (by simpa using plain) (text rest)
      rw [cut] at induction
      cases induction
  | case5 c mark rest other plain line others found induction =>
      obtain ⟨shown, ending, below, cut, longer⟩ := AdmonitionBracketing.lines_with_ends_cons
        (c := c) (by simpa using plain) (text rest)
      rw [found, cut, List.map_cons, List.map_cons, List.cons.injEq] at induction
      rw [text_cons, longer, List.map_cons, List.map_cons, text_cons, induction.1, induction.2]

theorem lines_ne_nil (marked : MarkedText) : lines marked ≠ [] := by
  intro empty
  have shown := lines_text marked
  rw [empty] at shown
  exact (AdmonitionBracketing.are_lines marked.text).map_fst_ne_nil shown.symm

theorem lines_cons {c : Char} (plain : c ≠ '\n' ∧ c ≠ '\r') (mark : Bool) (rest : MarkedText) :
    ∃ line others, lines rest = line :: others ∧
      lines ((c, mark) :: rest) = ((c, mark) :: line) :: others := by
  cases cut : lines rest with
  | nil => exact absurd cut (lines_ne_nil rest)
  | cons line others =>
      refine ⟨line, others, rfl, ?_⟩
      rw [lines]
      · rw [if_neg (by simp [plain]), cut]
      · exact fun _ _ _ carriage => plain.2 carriage

theorem lines_newline (mark : Bool) (rest : MarkedText) :
    lines (('\n', mark) :: rest) = [] :: lines rest := by
  rw [lines]
  · rfl
  · exact fun _ _ _ carriage => absurd carriage (by decide)

theorem mem_lines_of_end {c : Char} (isEnd : ¬(c ≠ '\n' ∧ c ≠ '\r')) {mark : Bool}
    {rest line : MarkedText} (member : line ∈ lines ((c, mark) :: rest)) :
    line = [] ∨ line ∈ lines rest := by
  by_cases newline : c = '\n'
  · subst newline
    rw [lines_newline] at member
    exact List.mem_cons.mp member
  · obtain rfl : c = '\r' := not_not.mp fun other => isEnd ⟨newline, other⟩
    by_cases paired : ∃ mark' below, rest = ('\n', mark') :: below
    · obtain ⟨mark', below, rfl⟩ := paired
      rw [lines] at member
      rw [lines_newline]
      exact (List.mem_cons.mp member).imp_right (List.mem_cons_of_mem _)
    · rw [lines, if_pos (by decide)] at member
      · exact List.mem_cons.mp member
      · exact fun mark' below same _ => paired ⟨mark', below, same⟩

theorem lines_written {word : Text} (plain : AdmonitionBracketing.IsPlain word)
    (rest : MarkedText) :
    ∃ line others, lines rest = line :: others ∧
      lines (written word ++ rest) = (written word ++ line) :: others := by
  induction word with
  | nil =>
      cases cut : lines rest with
      | nil => exact absurd cut (lines_ne_nil rest)
      | cons line others => exact ⟨line, others, rfl, cut⟩
  | cons c word induction =>
      rw [AdmonitionBracketing.plain_cons] at plain
      obtain ⟨line, others, cut, longer⟩ := induction plain.2
      obtain ⟨first, below, same, whole⟩ := lines_cons plain.1 true (written word ++ rest)
      rw [longer, List.cons.injEq] at same
      obtain ⟨rfl, rfl⟩ := same
      exact ⟨line, others, cut, whole⟩

end MarkedText

namespace ExerciseBracketing

def mark : Piece → MarkedText
  | .plain c => [(c, false)]
  | .marker marker endsLine =>
      .written (replacement marker.kind marker.boundary ++ if endsLine then ['\n'] else [])

def collapseMarked (skipped : Nat) : MarkedText → MarkedText
  | [] => []
  | marked@((c, mark) :: rest) =>
      match skipped with
      | count + 1 => collapseMarked count rest
      | 0 =>
          match solution? marked.text with
          | some left =>
              .written placeholder ++ collapseMarked (marked.length - left.length - 1) rest
          | none => (c, mark) :: collapseMarked 0 rest

def markedText (page : Text) : MarkedText :=
  collapseMarked 0 ((Piece.ofText page).flatMap mark)

theorem text_collapse_marked (skipped : Nat) (marked : MarkedText) :
    (collapseMarked skipped marked).text = collapseFrom skipped marked.text := by
  induction marked generalizing skipped with
  | nil => rfl
  | cons first rest induction =>
      obtain ⟨c, mark⟩ := first
      cases skipped with
      | succ count => exact induction count
      | zero =>
          rw [collapseMarked, MarkedText.text_cons, collapseFrom]
          cases solution? (c :: MarkedText.text rest) with
          | none => rw [MarkedText.text_cons, induction]
          | some left =>
              rw [MarkedText.text_append, MarkedText.text_written, induction, List.length_cons,
                List.length_cons, MarkedText.length_text]

theorem text_mark (piece : Piece) : (mark piece).text = render piece := by
  cases piece with
  | plain => rfl
  | marker => exact MarkedText.text_written _

theorem text_of_bracketed {page output : Text} (accepted : bracketExercises page = .ok output) :
    (markedText page).text = output := by
  obtain ⟨-, rfl⟩ := (bracket_exercises_eq_ok_iff page output).mp accepted
  have shown (pieces : List Piece) :
      MarkedText.text (pieces.flatMap mark) = pieces.flatMap render := by
    rw [MarkedText.text, List.map_flatMap]
    exact congrArg (List.flatMap · pieces) (funext text_mark)
  rw [markedText, text_collapse_marked, shown]
  rfl

/-- What is written: bracketing lines, comments around solutions, and the placeholder. -/
def words : List Text :=
  [exerciseStart, exerciseEnd, solutionStart, solutionEnd, placeholder]

def comments : List Text := [solutionStart, solutionEnd]

/-- The text consists of kept characters and of whole words, with a newline
behind some of them. -/
inductive Composed : MarkedText → Prop
  | nil : Composed []
  | kept (c : Char) {rest : MarkedText} (composed : Composed rest) : Composed ((c, false) :: rest)
  | newline {rest : MarkedText} (composed : Composed rest) : Composed (('\n', true) :: rest)
  | word {word : Text} {rest : MarkedText} (member : word ∈ words) (composed : Composed rest) :
      Composed (.written word ++ rest)

namespace Composed

open MarkedText

variable {marked : MarkedText}

theorem append {front back : MarkedText} (first : Composed front) (second : Composed back) :
    Composed (front ++ back) := by
  induction first with
  | nil => exact second
  | kept c _ induction => exact .kept c induction
  | newline _ induction => exact .newline induction
  | word member _ induction =>
      rw [List.append_assoc]
      exact .word member induction

theorem of_piece (piece : Piece) : Composed (mark piece) := by
  cases piece with
  | plain c => exact .kept c .nil
  | marker marker endsLine =>
      have member : replacement marker.kind marker.boundary ∈ words := by
        cases marker.kind <;> cases marker.boundary <;> decide
      have split : mark (.marker marker endsLine) =
          .written (replacement marker.kind marker.boundary) ++
            .written (if endsLine then ['\n'] else []) := List.map_append
      rw [split]
      apply Composed.word member
      cases endsLine with
      | false => exact .nil
      | true => exact .newline .nil

theorem of_pieces (pieces : List Piece) : Composed (pieces.flatMap mark) := by
  induction pieces with
  | nil => exact .nil
  | cons piece pieces induction => exact (of_piece piece).append induction

/-- Words hold a bracket at most as their first character. -/
theorem word_eq {word : Text} (member : word ∈ words) :
    ∃ c letters, word = c :: letters ∧ (c = '*' ∨ c = '<') ∧ '<' ∉ letters ∧
      AdmonitionBracketing.IsPlain word := by
  simp only [words, List.mem_cons, List.not_mem_nil, or_false] at member
  rcases member with rfl | rfl | rfl | rfl | rfl <;> exact ⟨_, _, rfl, by decide⟩

theorem behind {front back : MarkedText} {flag : Bool}
    (composed : Composed (front ++ ('<', flag) :: back)) : Composed (('<', flag) :: back) := by
  generalize whole : front ++ ('<', flag) :: back = marked at composed
  induction composed generalizing front with
  | nil => simp at whole
  | kept c composed induction =>
      cases front with
      | nil =>
          rw [List.nil_append] at whole
          rw [whole]
          exact .kept c composed
      | cons first front => exact induction (List.cons.inj whole).2
  | newline composed induction =>
      cases front with
      | nil => cases whole
      | cons first front => exact induction (List.cons.inj whole).2
  | @word word rest member composed induction =>
      rcases List.append_eq_append_iff.mp whole with ⟨between, split, left⟩ | ⟨between, split, left⟩
      · cases between with
        | nil =>
            rw [List.nil_append] at left
            rw [left]
            exact composed
        | cons first between =>
            obtain ⟨c, letters, shape, -, unbracketed, -⟩ := word_eq member
            rw [List.cons_append, List.cons.injEq] at left
            obtain ⟨rfl, rfl⟩ := left
            cases front with
            | nil =>
                rw [List.nil_append] at split
                rw [← List.cons_append, ← split]
                exact .word member composed
            | cons first front =>
                have inside := congrArg text split
                rw [text_written, shape, List.cons_append] at inside
                refine absurd ?_ unbracketed
                rw [(List.cons.inj inside).2]
                simp
      · exact induction left.symm

theorem drop_letters {letters left : Text} (composed : Composed marked)
    (shown : marked.text = letters ++ left)
    (plain : '*' ∉ letters ∧ '<' ∉ letters ∧ '\n' ∉ letters) :
    Composed (marked.drop letters.length) := by
  induction letters generalizing marked with
  | nil => exact composed
  | cons d letters induction =>
      simp only [List.mem_cons, not_or] at plain
      obtain ⟨⟨star, stars⟩, ⟨bracket, brackets⟩, newline, newlines⟩ := plain
      cases composed with
      | nil => cases shown
      | kept c composed => exact induction composed (List.cons.inj shown).2 ⟨stars, brackets, newlines⟩
      | newline => exact absurd (List.cons.inj shown).1 newline
      | word member composed =>
          obtain ⟨c, others, rfl, begins, -⟩ := word_eq member
          rw [text_append, text_written, List.cons_append, List.cons_append,
            List.cons.injEq] at shown
          rw [shown.1] at begins
          exact absurd begins (not_or.mpr ⟨Ne.symm star, Ne.symm bracket⟩)

theorem comment_eq {comment : Text} (isComment : comment ∈ comments) :
    ∃ letters, comment = '<' :: letters ∧ '*' ∉ letters ∧ '<' ∉ letters ∧ '\n' ∉ letters := by
  simp only [comments, List.mem_cons, List.not_mem_nil, or_false] at isComment
  rcases isComment with rfl | rfl <;> exact ⟨_, rfl, by decide⟩

theorem word_of_comment {word comment behind left : Text} (member : word ∈ words)
    (isComment : comment ∈ comments) (shown : word ++ behind = comment ++ left) :
    word = comment := by
  have apart : ∀ word ∈ words, ∀ comment ∈ comments,
      word <+: comment ∨ comment <+: word → word = comment := by decide
  apply apart word member comment isComment
  exact List.prefix_or_prefix_of_prefix (List.prefix_append word behind)
    (shown ▸ List.prefix_append comment left)

theorem drop_comment {comment left : Text} (isComment : comment ∈ comments)
    (composed : Composed marked) (shown : marked.text = comment ++ left) :
    Composed (marked.drop comment.length) := by
  obtain ⟨letters, shape, plain⟩ := comment_eq isComment
  cases composed with
  | nil =>
      rw [shape] at shown
      cases shown
  | kept c composed =>
      rw [shape] at shown ⊢
      exact composed.drop_letters (List.cons.inj shown).2 plain
  | newline =>
      rw [shape] at shown
      cases (List.cons.inj shown).1
  | @word word rest member composed =>
      rw [text_append, text_written] at shown
      have length : comment.length = (written word).length := by
        rw [← word_of_comment member isComment shown, written, List.length_map]
      rw [length, List.drop_left]
      exact composed

end Composed

/-! ### Hiding solutions cuts no word -/

section

open MarkedText

variable {marked : MarkedText} {left : Text}

theorem split_of_solution {text : Text} (found : solution? text = some left) :
    ∃ inside, text = solutionStart ++ (inside ++ (solutionEnd ++ left)) := by
  simp only [solution?, Option.bind_eq_bind, Option.bind_eq_some_iff, word_eq_some_iff] at found
  obtain ⟨below, rfl, closed⟩ := found
  obtain ⟨inside, rfl⟩ := split_of_after_solution closed
  exact ⟨inside, rfl⟩

theorem shorter_of_solution {text : Text} (found : solution? text = some left) :
    left.length < text.length := by
  obtain ⟨inside, split⟩ := split_of_solution found
  have present : 0 < solutionStart.length := by decide
  simp only [split, List.length_append]
  omega

theorem collapse_marked_skip (count : Nat) (marked : MarkedText) :
    collapseMarked count marked = collapseMarked 0 (marked.drop count) := by
  induction marked generalizing count with
  | nil =>
      rw [List.drop_nil]
      rfl
  | cons first rest induction =>
      cases count with
      | zero => rfl
      | succ count => exact induction count

theorem collapse_marked_of_solution (found : solution? marked.text = some left) :
    collapseMarked 0 marked =
      .written placeholder ++ collapseMarked 0 (marked.drop (marked.length - left.length)) := by
  cases marked with
  | nil => cases found
  | cons first rest =>
      obtain ⟨c, mark⟩ := first
      have shorter := shorter_of_solution found
      rw [length_text, List.length_cons] at shorter
      obtain ⟨count, same⟩ := Nat.exists_eq_add_of_lt shorter
      have taken : rest.length + 1 - left.length = count + 1 := by omega
      rw [collapseMarked, found]
      simp only [List.length_cons, taken, Nat.add_sub_cancel]
      rw [collapse_marked_skip, List.drop_succ_cons]

theorem collapse_marked_of_none {c : Char} {mark : Bool} {rest : MarkedText}
    (refused : solution? (c :: rest.text) = none) :
    collapseMarked 0 ((c, mark) :: rest) = (c, mark) :: collapseMarked 0 rest := by
  rw [collapseMarked, text_cons, refused]

theorem collapse_marked_append {front : Text} (plain : '<' ∉ front) (rest : MarkedText) :
    collapseMarked 0 (.written front ++ rest) = .written front ++ collapseMarked 0 rest := by
  induction front with
  | nil => rfl
  | cons c front induction =>
      rw [List.mem_cons, not_or] at plain
      have refused : solution? (c :: text (.written front ++ rest)) = none := by
        cases found : solution? (c :: text (.written front ++ rest)) with
        | none => rfl
        | some left =>
            obtain ⟨inside, split⟩ := split_of_solution found
            exact absurd (List.cons.inj split).1.symm plain.1
      exact (collapse_marked_of_none refused).trans (congrArg _ (induction plain.2))

/-- What is left behind a solution begins with a whole word. -/
theorem Composed.behind_solution (composed : Composed marked)
    (found : solution? marked.text = some left) :
    Composed (marked.drop (marked.length - left.length)) := by
  obtain ⟨inside, split⟩ := split_of_solution found
  have opened := composed.drop_comment (by simp [comments]) split
  have shown : text ((marked.drop solutionStart.length).drop inside.length) =
      solutionEnd ++ left := by
    rw [text_drop, text_drop, split, List.drop_left, List.drop_left]
  have boundary : Composed ((marked.drop solutionStart.length).drop inside.length) := by
    have isComment : solutionEnd ∈ comments := by simp [comments]
    obtain ⟨letters, shape, -⟩ := comment_eq isComment
    rw [← List.take_append_drop inside.length (marked.drop solutionStart.length)] at opened
    generalize (marked.drop solutionStart.length).drop inside.length = rest at opened shown ⊢
    cases rest with
    | nil =>
        rw [shape] at shown
        cases shown
    | cons first rest =>
        obtain ⟨c, mark⟩ := first
        rw [shape, text_cons] at shown
        obtain ⟨rfl, -⟩ := List.cons.inj shown
        exact opened.behind
  have closed := boundary.drop_comment (by simp [comments]) shown
  have count : marked.length - left.length =
      solutionStart.length + (inside.length + solutionEnd.length) := by
    have length := congrArg List.length split
    rw [length_text] at length
    simp only [List.length_append] at length
    omega
  rw [count, ← List.drop_drop, ← List.drop_drop]
  exact closed

theorem Composed.collapse (composed : Composed marked) : Composed (collapseMarked 0 marked) := by
  induction length : marked.length using Nat.strong_induction_on generalizing marked with
  | _ count shorter =>
  subst length
  cases found : solution? marked.text with
  | some left =>
      have less : (marked.drop (marked.length - left.length)).length < marked.length := by
        have shorter := shorter_of_solution found
        rw [length_text] at shorter
        rw [List.length_drop]
        omega
      rw [collapse_marked_of_solution found]
      apply Composed.word (by simp [words])
      exact shorter _ less (composed.behind_solution found) rfl
  | none =>
      cases composed with
      | nil => exact .nil
      | kept c composed =>
          rw [collapse_marked_of_none found]
          exact .kept c (shorter _ (Nat.lt_succ_self _) composed rfl)
      | newline composed =>
          rw [collapse_marked_of_none found]
          exact .newline (shorter _ (Nat.lt_succ_self _) composed rfl)
      | @word word rest member composed =>
          obtain ⟨c, letters, rfl, -, plain, -⟩ := word_eq member
          have less : rest.length < (written (c :: letters) ++ rest).length := by
            rw [List.length_append, written, List.length_map, List.length_cons]
            omega
          have kept : collapseMarked 0 (written (c :: letters) ++ rest) =
              written (c :: letters) ++ collapseMarked 0 rest :=
            (collapse_marked_of_none found).trans (congrArg _ (collapse_marked_append plain rest))
          rw [kept]
          exact .word member (shorter _ less composed rfl)

theorem composed_marked_text (page : Text) : Composed (markedText page) :=
  (Composed.of_pieces _).collapse

/-- No word is cut where lines are. -/
theorem Composed.of_lines (composed : Composed marked) :
    ∀ line ∈ MarkedText.lines marked, Composed line := by
  induction composed with
  | nil =>
      intro line member
      rw [MarkedText.lines, List.mem_singleton] at member
      rw [member]
      exact .nil
  | @kept c rest composed induction =>
      intro line member
      by_cases plain : c ≠ '\n' ∧ c ≠ '\r'
      · obtain ⟨first, others, cut, longer⟩ := lines_cons plain false rest
        rw [cut, List.forall_mem_cons] at induction
        rw [longer] at member
        rcases List.mem_cons.mp member with rfl | member
        · exact .kept c induction.1
        · exact induction.2 line member
      · rcases mem_lines_of_end plain member with rfl | member
        · exact .nil
        · exact induction line member
  | newline composed induction =>
      intro line member
      rcases mem_lines_of_end (fun plain => plain.1 rfl) member with rfl | member
      · exact .nil
      · exact induction line member
  | @word word rest inWords composed induction =>
      intro line member
      obtain ⟨_, _, -, -, -, plain⟩ := word_eq inWords
      obtain ⟨first, others, cut, longer⟩ := lines_written plain rest
      rw [cut, List.forall_mem_cons] at induction
      rw [longer] at member
      rcases List.mem_cons.mp member with rfl | member
      · exact .word inWords induction.1
      · exact induction.2 line member

end

end ExerciseBracketing

end LessonBook
