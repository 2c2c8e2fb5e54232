import LessonBook.Proofs.Markup.DirectiveShape

/-!
A directive read by its lines: the first line opens it, and its body goes on to
the first line that closes it, or to the end of the text where there is none.
-/

namespace LessonBook.Directive

open Text Recognizer

variable {text first : Text} {below : List Text} {colonFence : Bool} {directive : Directive}

def ofLines (opening : Opening) (below : List Text) : Directive where
  name := trim opening.name
  args := trim opening.args
  fence := opening.fence
  body := joinLines (below.takeWhile (!closes opening.mark opening.fence.length ·))
  closed := below.any (closes opening.mark opening.fence.length)

theorem closes_nil {mark : Char} {count : Nat} (long : 3 ≤ count) : closes mark count [] = false := by
  have none : ¬count ≤ 0 := by omega
  simp [closes, indent, skipUpTo, none]

theorem split_at_line_eq (isClosing : Text → Bool) (pieces : List Text) :
    splitAtLine isClosing pieces =
      if pieces.any isClosing then
        some (pieces.takeWhile (!isClosing ·), (pieces.dropWhile (!isClosing ·)).drop 1)
      else none := by
  induction pieces with
  | nil => rfl
  | cons line pieces induction =>
      cases closing : isClosing line with
      | true => simp [splitAtLine, closing]
      | false =>
          rw [splitAtLine, closing, induction]
          by_cases later : pieces.any isClosing = true <;> simp [later, closing]

theorem before_last_newline {line : Text} (single : '\n' ∉ line) (rest : Text) :
    ((before (line ++ '\n' :: rest) rest).getLast? == some '\n') = true ∧
      ((before line []).getLast? == some '\n') = false := by
  constructor
  · have front : before (line ++ '\n' :: rest) rest = line ++ ['\n'] := by
      rw [← List.singleton_append, ← List.append_assoc, before_append]
    rw [front]
    simp
  · have whole : before line [] = line := by simp [before]
    rw [whole, beq_eq_false_iff_ne]
    intro last
    exact single (List.mem_of_getLast? last)

/-- A directive is read where the first line is an opening line, and then it is
what its lines make. -/
theorem read_iff_lines (cut : lines text = first :: below) :
    (∃ rest, read? colonFence text = some (directive, rest)) ↔
      ∃ opening, opening? first = some (opening, []) ∧
        (opening.mark = ':' → colonFence = true) ∧ directive = ofLines opening below := by
  have whole := join_lines_of_lines text
  have single : '\n' ∉ first := no_newline_of_mem_lines (by rw [cut]; exact List.mem_cons_self)
  rw [cut, join_lines_cons] at whole
  have ended : atLineEnd (linesBelow below) = true := by cases below <;> rfl
  have opened := opening_before_end ended single
  rw [whole] at opened
  rw [read?, opened]
  cases alone : opening? first with
  | none => simp
  | some found =>
      obtain ⟨opening, left⟩ := found
      obtain ⟨-, nothing⟩ := opening_first_line alone
      have rest : left = [] := by
        rw [nothing, ← List.append_nil (first), after_first_line_before_end rfl single]
        rfl
      subst rest
      have newline := before_last_newline single ((linesBelow below).drop 1)
      simp only [Option.map_some, Option.bind_eq_bind, Option.bind_some, Option.some.injEq,
        Prod.mk.injEq, and_true, exists_eq_left']
      by_cases refused : (opening.mark == ':' && !colonFence) = true
      · rw [if_pos refused]
        simp only [Bool.and_eq_true, beq_iff_eq, Bool.not_eq_true'] at refused
        simp [refused.1, refused.2]
      · rw [if_neg refused]
        have allowed : opening.mark = ':' → colonFence = true := by simpa using refused
        have made {found : Directive} {behind : Text} :
            (∃ rest, some (found, behind) = some (directive, rest)) ↔ directive = found := by
          simp [eq_comm]
        rw [and_iff_right allowed]
        cases below with
        | nil =>
            rw [lines_below_nil, List.append_nil] at whole
            rw [lines_below_nil, List.drop_nil, ← whole, newline.2]
            exact made
        | cons line below =>
            have joined := lines_below_of_cons line below
            rw [joined, List.drop_one, List.tail_cons] at newline
            have inner : lines (joinLines (line :: below)) = line :: below := by
              apply lines_join_lines (List.cons_ne_nil line below)
              intro piece member
              exact no_newline_of_mem_lines (by rw [cut]; exact List.mem_cons_of_mem _ member)
            rw [joined] at whole
            rw [joined, List.drop_one, List.tail_cons, ← whole, newline.1, if_pos rfl, inner,
              split_at_line_eq, ofLines]
            cases closed : (line :: below).any (closes opening.mark opening.fence.length) with
            | true => exact made
            | false =>
                have same : (line :: below).takeWhile
                    (!closes opening.mark opening.fence.length ·) = line :: below := by
                  rw [List.takeWhile_eq_self_iff]
                  intro piece member
                  simpa using List.any_eq_false.mp closed piece member
                rw [same]
                exact made

end LessonBook.Directive
