import LessonBook.Admonition.Bracketing
import LessonBook.Proofs.Text.Lines

/-!
Lines with the line ends behind them. There is one way to cut a page into such
lines, so replacing a line keeps the cut, and writing every line end as a newline
changes nothing but the line ends.
-/

namespace LessonBook

open Text

namespace AdmonitionBracketing

def IsPlain (text : Text) : Prop :=
  ∀ c ∈ text, c ≠ '\n' ∧ c ≠ '\r'

instance (text : Text) : Decidable (IsPlain text) :=
  List.decidableBAll _ text

def IsLineEnd (ending rest : Text) : Prop :=
  ending = ['\n'] ∨ ending = ['\r', '\n'] ∨ ending = ['\r'] ∧ rest.head? ≠ some '\n'

/-- Lines as they are cut from a page. A carriage return ends a line alone only
where no newline follows it. -/
inductive AreLines : List (Text × Text) → Prop
  | last {line : Text} (plain : IsPlain line) : AreLines [(line, [])]
  | cons {line ending : Text} {others : List (Text × Text)} (plain : IsPlain line)
      (isEnd : IsLineEnd ending (joinWithEnds others)) (below : AreLines others) :
      AreLines ((line, ending) :: others)

def withNewlines (pageLines : List (Text × Text)) : List (Text × Text) :=
  pageLines.map fun line => (line.1, if line.2.isEmpty then [] else ['\n'])

theorem plain_nil : IsPlain [] := by
  intro c member
  cases member

theorem plain_cons {c : Char} {text : Text} :
    IsPlain (c :: text) ↔ (c ≠ '\n' ∧ c ≠ '\r') ∧ IsPlain text := by
  simp only [IsPlain, List.mem_cons, forall_eq_or_imp]

theorem plain_append {front back : Text} :
    IsPlain (front ++ back) ↔ IsPlain front ∧ IsPlain back := by
  constructor
  · exact fun plain => ⟨fun c member => plain c (List.mem_append_left _ member),
      fun c member => plain c (List.mem_append_right _ member)⟩
  · rintro ⟨first, second⟩ c member
    exact (List.mem_append.mp member).elim (first c) (second c)

theorem IsPlain.subset {text part : Text} (plain : IsPlain text) (inside : part ⊆ text) :
    IsPlain part :=
  fun c member => plain c (inside member)

@[simp] theorem join_with_ends_nil : joinWithEnds [] = [] := rfl

@[simp] theorem join_with_ends_cons (line : Text × Text) (others : List (Text × Text)) :
    joinWithEnds (line :: others) = line.1 ++ (line.2 ++ joinWithEnds others) := by
  rw [joinWithEnds, List.flatMap_cons, List.append_assoc]
  rfl

theorem lines_with_ends_cons {c : Char} (plain : c ≠ '\n' ∧ c ≠ '\r') (rest : Text) :
    ∃ line ending others, linesWithEnds rest = (line, ending) :: others ∧
      linesWithEnds (c :: rest) = (c :: line, ending) :: others := by
  have present : linesWithEnds rest ≠ [] := by
    fun_cases linesWithEnds rest <;> simp_all
  cases pieces : linesWithEnds rest with
  | nil => exact absurd pieces present
  | cons first others =>
      obtain ⟨line, ending⟩ := first
      refine ⟨line, ending, others, rfl, ?_⟩
      rw [linesWithEnds]
      · rw [if_neg (by simp [plain]), pieces]
      · rintro rest rfl
        exact absurd rfl plain.2

theorem lines_with_ends_newline (rest : Text) :
    linesWithEnds ('\n' :: rest) = ([], ['\n']) :: linesWithEnds rest := by
  simp [linesWithEnds]

theorem lines_with_ends_carriage {rest : Text} (alone : rest.head? ≠ some '\n') :
    linesWithEnds ('\r' :: rest) = ([], ['\r']) :: linesWithEnds rest := by
  rw [linesWithEnds]
  · rw [if_pos (by simp)]
  · rintro rest _ rfl
    exact alone rfl

theorem are_lines (page : Text) : AreLines (linesWithEnds page) := by
  fun_induction linesWithEnds page with
  | case1 => exact .last plain_nil
  | case2 rest induction => exact .cons plain_nil (.inr (.inl rfl)) induction
  | case3 c rest other isEnd induction =>
      refine .cons plain_nil ?_ induction
      simp only [Bool.or_eq_true, beq_iff_eq] at isEnd
      rcases isEnd with rfl | rfl
      · exact .inl rfl
      · refine .inr (.inr ⟨rfl, fun newline => ?_⟩)
        rw [join_lines_with_ends] at newline
        obtain ⟨rest, rfl⟩ := List.head?_eq_some_iff.mp newline
        exact other rest rfl rfl
  | case4 c rest _ notEnd empty induction =>
      rw [empty] at induction
      cases induction
  | case5 c rest _ notEnd line ending others found induction =>
      have plain : c ≠ '\n' ∧ c ≠ '\r' := by simpa using notEnd
      rw [found] at induction
      cases induction with
      | last line_plain => exact .last (plain_cons.mpr ⟨plain, line_plain⟩)
      | cons line_plain isEnd below => exact .cons (plain_cons.mpr ⟨plain, line_plain⟩) isEnd below

theorem lines_with_ends_append {line rest : Text} {ending : Text} {others : List (Text × Text)}
    (plain : IsPlain line) (cut : linesWithEnds rest = ([], ending) :: others) :
    linesWithEnds (line ++ rest) = (line, ending) :: others := by
  induction line with
  | nil => exact cut
  | cons c line induction =>
      rw [plain_cons] at plain
      obtain ⟨_, _, _, rest_cut, cons_cut⟩ := lines_with_ends_cons plain.1 (line ++ rest)
      rw [induction plain.2, List.cons.injEq, Prod.mk.injEq] at rest_cut
      obtain ⟨⟨rfl, rfl⟩, rfl⟩ := rest_cut
      exact cons_cut

theorem lines_with_ends_of_line_end {ending rest : Text} (isEnd : IsLineEnd ending rest) :
    linesWithEnds (ending ++ rest) = ([], ending) :: linesWithEnds rest := by
  rcases isEnd with rfl | rfl | ⟨rfl, alone⟩
  · exact lines_with_ends_newline rest
  · simp [linesWithEnds]
  · exact lines_with_ends_carriage alone

theorem with_newlines_cons {line ending rest : Text} {others : List (Text × Text)}
    (isEnd : IsLineEnd ending rest) :
    withNewlines ((line, ending) :: others) = (line, ['\n']) :: withNewlines others := by
  rcases isEnd with rfl | rfl | ⟨rfl, -⟩ <;> rfl

theorem with_newlines_twice (pageLines : List (Text × Text)) :
    withNewlines (withNewlines pageLines) = withNewlines pageLines := by
  rw [withNewlines, withNewlines, List.map_map]
  refine List.map_congr_left fun line member => ?_
  simp only [Function.comp_apply]
  cases line.2 <;> rfl

theorem map_fst_with_newlines (pageLines : List (Text × Text)) :
    (withNewlines pageLines).map Prod.fst = pageLines.map Prod.fst := by
  rw [withNewlines, List.map_map]
  rfl

theorem normalize_cons {c : Char} (plain : c ≠ '\r') (rest : Text) :
    normalizeLineEnds (c :: rest) = c :: normalizeLineEnds rest := by
  rw [normalizeLineEnds]
  · rintro rest rfl
    exact absurd rfl plain
  · intro carriage
    exact absurd carriage plain

theorem normalize_append {line : Text} (plain : IsPlain line) (rest : Text) :
    normalizeLineEnds (line ++ rest) = line ++ normalizeLineEnds rest := by
  induction line with
  | nil => rfl
  | cons c line induction =>
      rw [plain_cons] at plain
      rw [List.cons_append, normalize_cons plain.1.2, induction plain.2, List.cons_append]

theorem normalize_line_end {ending rest : Text} (isEnd : IsLineEnd ending rest) :
    normalizeLineEnds (ending ++ rest) = '\n' :: normalizeLineEnds rest := by
  rcases isEnd with rfl | rfl | ⟨rfl, alone⟩
  · exact normalize_cons (by decide) rest
  · rfl
  · rw [List.singleton_append, normalizeLineEnds]
    rintro rest rfl
    exact alone rfl

namespace AreLines

variable {pageLines : List (Text × Text)}

theorem plain (cut : AreLines pageLines) : ∀ line ∈ pageLines, IsPlain line.1 := by
  induction cut with
  | last plain =>
      intro line member
      rw [List.mem_singleton] at member
      rw [member]
      exact plain
  | cons plain isEnd below induction =>
      intro line member
      rcases List.mem_cons.mp member with rfl | member
      · exact plain
      · exact induction line member

theorem lines_of_join (cut : AreLines pageLines) :
    linesWithEnds (joinWithEnds pageLines) = pageLines := by
  induction cut with
  | @last line plain =>
      rw [join_with_ends_cons]
      exact lines_with_ends_append plain rfl
  | cons plain isEnd below induction =>
      rw [join_with_ends_cons]
      refine lines_with_ends_append plain ?_
      rw [lines_with_ends_of_line_end isEnd, induction]

theorem map_fst_ne_nil (cut : AreLines pageLines) : pageLines.map Prod.fst ≠ [] := by
  cases cut <;> simp

theorem with_newlines (cut : AreLines pageLines) : AreLines (withNewlines pageLines) := by
  induction cut with
  | last plain => exact .last plain
  | cons plain isEnd below induction =>
      rw [with_newlines_cons isEnd]
      exact .cons plain (.inl rfl) induction

theorem normalize (cut : AreLines pageLines) :
    normalizeLineEnds (joinWithEnds pageLines) = joinWithEnds (withNewlines pageLines) := by
  induction cut with
  | @last line plain =>
      rw [join_with_ends_cons, normalize_append plain]
      simp [withNewlines, normalizeLineEnds]
  | cons plain isEnd below induction =>
      rw [join_with_ends_cons, normalize_append plain, normalize_line_end isEnd, induction,
        with_newlines_cons isEnd, join_with_ends_cons]
      rfl

theorem join_with_newlines (cut : AreLines pageLines) :
    joinWithEnds (withNewlines pageLines) = joinLines (pageLines.map Prod.fst) := by
  induction cut with
  | last plain => simp [withNewlines, joinLines, intercalate]
  | cons plain isEnd below induction =>
      rw [with_newlines_cons isEnd, join_with_ends_cons, induction, List.map_cons, join_lines_cons,
        lines_below_of_ne_nil below.map_fst_ne_nil]
      rfl

end AreLines

theorem lines_normalize (page : Text) :
    lines (normalizeLineEnds page) = (linesWithEnds page).map Prod.fst := by
  have cut := are_lines page
  have single : ∀ line ∈ (linesWithEnds page).map Prod.fst, '\n' ∉ line := by
    intro line member newline
    obtain ⟨written, inside, rfl⟩ := List.mem_map.mp member
    exact (cut.plain written inside _ newline).1 rfl
  rw [← lines_join_lines cut.map_fst_ne_nil single, ← cut.join_with_newlines, ← cut.normalize,
    join_lines_with_ends]

theorem lines_with_ends_normalize (page : Text) :
    linesWithEnds (normalizeLineEnds page) = withNewlines (linesWithEnds page) := by
  have cut := are_lines page
  rw [← cut.with_newlines.lines_of_join, ← cut.normalize, join_lines_with_ends]

theorem normalize_twice (page : Text) :
    normalizeLineEnds (normalizeLineEnds page) = normalizeLineEnds page := by
  have cut := are_lines page
  rw [← join_lines_with_ends page, cut.normalize, cut.with_newlines.normalize,
    with_newlines_twice]

end AdmonitionBracketing

end LessonBook
