import LessonBook.Exercise.Bracketing
import LessonBook.Proofs.Text.Search

/-!
Laws of hiding solutions. Text without an opening comment is kept, a solution
between its comments becomes the placeholder, and of what stands behind an
opening comment only the text behind the first closing one counts.
-/

namespace LessonBook.ExerciseBracketing

open Text Recognizer

def afterSolution? (text : Text) : Option Text :=
  (firstMatch (word solutionEnd) text).map Prod.snd

theorem collapse_from_skip (consumed rest : Text) :
    collapseFrom consumed.length (consumed ++ rest) = collapse rest := by
  induction consumed with
  | nil => rfl
  | cons c consumed induction => simpa [collapseFrom] using induction

theorem collapse_cons (c : Char) (rest : Text) :
    collapse (c :: rest) = match solution? (c :: rest) with
      | some left => placeholder ++ collapseFrom ((c :: rest).length - left.length - 1) rest
      | none => c :: collapse rest := by
  rw [collapse, collapseFrom]
  rfl

theorem collapse_of_no_solution {c : Char} {rest : Text} (absent : ¬solutionStart <+: c :: rest) :
    collapse (c :: rest) = c :: collapse rest := by
  have none : solution? (c :: rest) = none := by
    simp [solution?, word_of_absent absent]
  rw [collapse_cons, none]

theorem collapse_of_solution {text left : Text} (closed : afterSolution? text = some left) :
    collapse (solutionStart ++ text) = placeholder ++ collapse left := by
  have found : solution? (solutionStart ++ text) = some left := by
    rw [solution?, word_append]
    exact closed
  obtain ⟨front, suffix⟩ : left <:+ text := by
    simp only [afterSolution?, Option.map_eq_some_iff] at closed
    obtain ⟨⟨front, back⟩, matched, same⟩ := closed
    cases same
    exact suffix_of_first_match suffix_of_word matched
  obtain ⟨tail, start⟩ : ∃ tail, solutionStart = '<' :: tail := ⟨_, rfl⟩
  have length : ('<' :: (tail ++ text)).length - left.length - 1 = (tail ++ front).length := by
    simp only [← suffix, List.length_cons, List.length_append]
    omega
  rw [start, List.cons_append] at found ⊢
  rw [collapse_cons, found]
  simp only [length]
  rw [← suffix, ← List.append_assoc, collapse_from_skip]

theorem letters_of_all {letters : Text}
    (all : letters.all (fun d => d != '<' && !isTerminator d) = true) :
    ∀ d ∈ letters, d ≠ '<' ∧ isTerminator d = false := by
  intro d member
  have letter := List.all_eq_true.mp all d member
  rw [Bool.and_eq_true, bne_iff_ne, Bool.not_eq_true'] at letter
  exact letter

theorem solution_start_eq : ∃ letters, solutionStart = '<' :: letters ∧
    ∀ d ∈ letters, d ≠ '<' ∧ isTerminator d = false :=
  ⟨_, rfl, letters_of_all rfl⟩

theorem solution_end_eq : ∃ letters, solutionEnd = '<' :: letters ∧
    ∀ d ∈ letters, d ≠ '<' ∧ isTerminator d = false :=
  ⟨_, rfl, letters_of_all rfl⟩

def Bounds (text : Text) : Prop :=
  ∀ d ∈ text.head?, d = '<' ∨ isTerminator d = true

theorem fresh_of_bounds {letters back : Text} {d : Char} (bounds : Bounds (d :: back))
    (letter : ∀ e ∈ letters, e ≠ '<' ∧ isTerminator e = false) : d ∉ letters := by
  intro member
  rcases bounds d rfl with rfl | terminator
  · exact (letter _ member).1 rfl
  · rw [(letter d member).2] at terminator
    cases terminator

theorem not_opened_of_bounds {front tail : Text} (bounds : Bounds tail) (present : front ≠ [])
    (absent : ¬solutionStart <+: front) : ¬solutionStart <+: front ++ tail := by
  cases tail with
  | nil => simpa using absent
  | cons d back =>
      obtain ⟨letters, start, letter⟩ := solution_start_eq
      rw [start] at absent ⊢
      intro found
      exact absent
        (prefix_of_prefix_append (fresh_of_bounds bounds letter) present found)

theorem collapse_append {front tail : Text} (bounds : Bounds tail)
    (absent : ¬solutionStart <:+: front) : collapse (front ++ tail) = front ++ collapse tail := by
  induction front with
  | nil => rfl
  | cons c front induction =>
      have unopened := not_opened_of_bounds bounds (List.cons_ne_nil c front)
        fun found => absent found.isInfix
      rw [List.cons_append] at unopened ⊢
      rw [collapse_of_no_solution unopened, List.cons_append, induction]
      intro inside
      exact absent (inside.trans (List.suffix_cons c front).isInfix)

theorem after_solution_append {front tail : Text} (bounds : Bounds tail)
    (absent : ¬solutionEnd <:+: front) : afterSolution? (front ++ tail) = afterSolution? tail := by
  cases tail with
  | nil =>
      rw [List.append_nil, afterSolution?, first_match_none absent]
      rfl
  | cons d back =>
      obtain ⟨letters, finish, letter⟩ := solution_end_eq
      have fresh := fresh_of_bounds bounds letter
      rw [finish] at absent
      rw [afterSolution?, finish, first_match_append fresh absent, Option.map_map, afterSolution?,
        finish]
      rfl

theorem after_solution_end (back : Text) : afterSolution? (solutionEnd ++ back) = some back := by
  rw [afterSolution?, first_match_word]
  rfl

theorem after_solution_start (back : Text) :
    afterSolution? (solutionStart ++ back) = afterSolution? back := by
  obtain ⟨startLetters, start, letter⟩ := solution_start_eq
  have noBracket : '<' ∉ startLetters := fun member => (letter _ member).1 rfl
  have refused : word solutionEnd (solutionStart ++ back) = none := rfl
  rw [start, List.cons_append] at refused ⊢
  rw [afterSolution?, firstMatch]
  simp only [refused]
  obtain ⟨letters, finish, -⟩ := solution_end_eq
  rw [finish, first_match_append_of_not_mem noBracket, afterSolution?, finish]
  simp [Option.map_map, Function.comp_def]

theorem collapse_newline (text : Text) : collapse ('\n' :: text) = '\n' :: collapse text := by
  obtain ⟨letters, start, -⟩ := solution_start_eq
  exact collapse_of_no_solution (by simp [start])

theorem after_solution_append_of_not_mem {front : Text} (plain : '<' ∉ front) (back : Text) :
    afterSolution? (front ++ back) = afterSolution? back := by
  obtain ⟨letters, finish, -⟩ := solution_end_eq
  rw [afterSolution?, finish, first_match_append_of_not_mem plain, Option.map_map, afterSolution?,
    finish]
  rfl

theorem split_of_after_solution {text left : Text} (closed : afterSolution? text = some left) :
    ∃ front, text = front ++ (solutionEnd ++ left) := by
  simp only [afterSolution?, Option.map_eq_some_iff] at closed
  obtain ⟨⟨front, rest⟩, found, rfl⟩ := closed
  exact ⟨front, first_match_split found⟩

theorem collapse_append_of_not_mem {front : Text} (plain : '<' ∉ front) (back : Text) :
    collapse (front ++ back) = front ++ collapse back := by
  obtain ⟨letters, start, -⟩ := solution_start_eq
  induction front with
  | nil => rfl
  | cons c front induction =>
      simp only [List.mem_cons, not_or] at plain
      rw [List.cons_append, collapse_of_no_solution, induction plain.2, List.cons_append]
      simp [start, plain.1]

theorem bounds_solution_start (text : Text) : Bounds (solutionStart ++ text) := by
  obtain ⟨letters, start, -⟩ := solution_start_eq
  simp [Bounds, start]

theorem bounds_solution_end (text : Text) : Bounds (solutionEnd ++ text) := by
  obtain ⟨letters, finish, -⟩ := solution_end_eq
  simp [Bounds, finish]

theorem after_solution_of_closed {text : Text} (occurs : solutionEnd <:+: text) :
    ∃ behind, behind.length < text.length ∧
      ∀ tail, afterSolution? (text ++ tail) = some (behind ++ tail) := by
  obtain ⟨letters, finish, -⟩ := solution_end_eq
  rw [finish] at occurs
  obtain ⟨inside, behind, split, absent⟩ := first_occurrence occurs
  rw [← finish] at split absent
  refine ⟨behind, ?_, fun tail => ?_⟩
  · simp only [split, finish, List.length_append, List.length_cons]
    omega
  · rw [split, List.append_assoc, List.append_assoc,
      after_solution_append (bounds_solution_end _) absent, after_solution_end]

theorem after_solution_cases (front : Text) :
    (∃ behind, behind.length < front.length ∧
      ∀ tail, afterSolution? (front ++ tail) = some (behind ++ tail)) ∨
    ∀ tail, Bounds tail → afterSolution? (front ++ tail) = afterSolution? tail := by
  by_cases closed : solutionEnd <:+: front
  · exact .inl (after_solution_of_closed closed)
  · exact .inr fun tail bounds => after_solution_append bounds closed

theorem collapse_to_solution (front : Text) : ∃ written, ∀ text left,
    afterSolution? text = some left →
      collapse (front ++ (solutionStart ++ text)) = written ++ collapse left := by
  induction length : front.length using Nat.strong_induction_on generalizing front with
  | _ count shorter =>
  subst length
  cases front with
  | nil => exact ⟨placeholder, fun text left closed => collapse_of_solution closed⟩
  | cons c rest =>
      by_cases opened : solutionStart <+: c :: rest
      · obtain ⟨inside, split⟩ := opened
        rcases after_solution_cases inside with ⟨behind, bound, closed⟩ | unclosed
        · have less : behind.length < (c :: rest).length := by
            rw [← split, List.length_append]
            omega
          obtain ⟨written, hidden⟩ := shorter behind.length less behind rfl
          refine ⟨placeholder ++ written, ?_⟩
          intro text left after
          rw [← split, List.append_assoc, collapse_of_solution (closed _), hidden text left after,
            List.append_assoc]
        · refine ⟨placeholder, ?_⟩
          intro text left after
          rw [← split, List.append_assoc]
          apply collapse_of_solution
          rw [unclosed _ (bounds_solution_start text), after_solution_start, after]
      · obtain ⟨written, hidden⟩ := shorter rest.length (by simp) rest rfl
        refine ⟨c :: written, ?_⟩
        intro text left after
        have absent := not_opened_of_bounds (bounds_solution_start text)
          (List.cons_ne_nil c rest) opened
        rw [List.cons_append] at absent ⊢
        rw [collapse_of_no_solution absent, hidden text left after, List.cons_append]

/-- What stands in front of a closing comment is never hidden together with it. -/
theorem shorter_collapse (front back : Text) :
    (collapse back).length < (collapse (front ++ (solutionEnd ++ back))).length := by
  induction length : front.length using Nat.strong_induction_on generalizing front with
  | _ count shorter =>
  subst length
  cases front with
  | nil =>
      obtain ⟨letters, finish, letter⟩ := solution_end_eq
      have plain : '<' ∉ letters := fun member => (letter _ member).1 rfl
      have absent : ¬solutionStart <+: solutionEnd ++ back := by
        rintro ⟨rest, same⟩
        have read := word_append solutionStart rest
        rw [same] at read
        exact absurd read (by rw [show word solutionStart (solutionEnd ++ back) = none from rfl]; simp)
      rw [finish, List.cons_append] at absent
      rw [List.nil_append, finish, List.cons_append, collapse_of_no_solution absent,
        collapse_append_of_not_mem plain]
      simp only [List.length_cons, List.length_append]
      omega
  | cons c rest =>
      by_cases opened : solutionStart <+: c :: rest
      · obtain ⟨inside, split⟩ := opened
        have hides {left : Text} (closed : afterSolution? (inside ++ (solutionEnd ++ back)) = some left) :
            collapse (c :: rest ++ (solutionEnd ++ back)) = placeholder ++ collapse left := by
          rw [← split, List.append_assoc, collapse_of_solution closed]
        rcases after_solution_cases inside with ⟨behind, bound, closed⟩ | unclosed
        · have less : behind.length < (c :: rest).length := by
            rw [← split, List.length_append]
            omega
          have grows := shorter behind.length less behind rfl
          rw [hides (closed _), List.length_append]
          omega
        · have closed := unclosed _ (bounds_solution_end back)
          have present : 0 < placeholder.length := by decide
          rw [after_solution_end] at closed
          rw [hides closed, List.length_append]
          omega
      · have grows := shorter rest.length (by simp) rest rfl
        have absent := not_opened_of_bounds (bounds_solution_end back)
          (List.cons_ne_nil c rest) opened
        rw [List.cons_append] at absent ⊢
        rw [collapse_of_no_solution absent, List.length_cons]
        omega

theorem ne_of_leak {written left leak sound leaking : Text}
    (hides : sound = written ++ collapse left)
    (shows : leaking = written ++ collapse (leak ++ (solutionEnd ++ left))) :
    leaking ≠ sound := by
  have less := shorter_collapse leak left
  rintro rfl
  rw [List.append_cancel_left (hides.symm.trans shows)] at less
  exact absurd less (Nat.lt_irrefl _)

end LessonBook.ExerciseBracketing
