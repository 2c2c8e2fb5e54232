import LessonBook.Proofs.Text.Trim

/-!
Texts made of pieces: a run of one class in front of a character of another, pieces
between separators, and pieces with blanks around them. Each is found again.
-/

namespace LessonBook.Text

variable {inClass isCut : Char → Bool} {front text : Text} {c : Char}

/-! ### A run in front of another character -/

theorem take_while_in_front (inside : ∀ d ∈ front, inClass d = true) (outside : inClass c = false)
    (back : Text) : (front ++ c :: back).takeWhile inClass = front := by
  rw [List.takeWhile_append_of_pos inside, List.takeWhile_cons_of_neg (by simp [outside]),
    List.append_nil]

theorem drop_while_in_front (inside : ∀ d ∈ front, inClass d = true) (outside : inClass c = false)
    (back : Text) : (front ++ c :: back).dropWhile inClass = c :: back := by
  rw [List.dropWhile_append_of_pos inside, List.dropWhile_cons_of_neg (by simp [outside])]

/-! ### Pieces between separators -/

theorem split_at_ne_nil (isCut : Char → Bool) (text : Text) : splitAt isCut text ≠ [] := by
  cases text with
  | nil => exact List.cons_ne_nil _ _
  | cons c text =>
      rw [splitAt]
      split
      · exact List.cons_ne_nil _ _
      · split <;> exact List.cons_ne_nil _ _

theorem split_at_cut (cut : isCut c = true) (text : Text) :
    splitAt isCut (c :: text) = [] :: splitAt isCut text := by
  rw [splitAt, if_pos cut]

theorem split_at_kept (kept : isCut c = false) (text : Text) : ∃ first others,
    splitAt isCut text = first :: others ∧ splitAt isCut (c :: text) = (c :: first) :: others := by
  cases pieces : splitAt isCut text with
  | nil => exact absurd pieces (split_at_ne_nil isCut text)
  | cons first others =>
      refine ⟨first, others, rfl, ?_⟩
      rw [splitAt, if_neg (by simp [kept]), pieces]

theorem split_at_whole (whole : ∀ d ∈ text, isCut d = false) : splitAt isCut text = [text] := by
  induction text with
  | nil => rfl
  | cons c text induction =>
      obtain ⟨kept, below⟩ := List.forall_mem_cons.mp whole
      obtain ⟨first, others, pieces, here⟩ := split_at_kept kept text
      rw [induction below] at pieces
      cases pieces
      exact here

theorem split_at_in_front (whole : ∀ d ∈ front, isCut d = false) (cut : isCut c = true)
    (back : Text) : splitAt isCut (front ++ c :: back) = front :: splitAt isCut back := by
  induction front with
  | nil => exact split_at_cut cut back
  | cons d front induction =>
      obtain ⟨kept, below⟩ := List.forall_mem_cons.mp whole
      obtain ⟨first, others, pieces, here⟩ := split_at_kept kept (front ++ c :: back)
      rw [induction below] at pieces
      cases pieces
      exact here

theorem not_cut_of_mem_split_at {piece : Text} (member : piece ∈ splitAt isCut text) :
    ∀ d ∈ piece, isCut d = false := by
  induction text generalizing piece with
  | nil =>
      rw [splitAt, List.mem_singleton] at member
      rw [member]
      exact List.forall_mem_nil _
  | cons c text induction =>
      by_cases cut : isCut c = true
      · rw [split_at_cut cut] at member
        rcases List.mem_cons.mp member with rfl | member
        · exact List.forall_mem_nil _
        · exact induction member
      · have kept : isCut c = false := Bool.eq_false_iff.mpr cut
        obtain ⟨first, others, pieces, here⟩ := split_at_kept kept text
        rw [here] at member
        rcases List.mem_cons.mp member with rfl | member
        · exact List.forall_mem_cons.mpr ⟨kept, induction (by rw [pieces]; exact List.mem_cons_self)⟩
        · exact induction (by rw [pieces]; exact List.mem_cons_of_mem _ member)

/-! ### Blanks around a piece -/

theorem trim_head (first : c ∈ (trim text).head?) : isBlank c = false := by
  obtain ⟨back, whole, -⟩ := drop_end_while_split isBlank (trimStart text)
  obtain ⟨below, shown⟩ := List.head?_eq_some_iff.mp first
  have start : trimStart text = c :: (below ++ back) := by
    rw [← whole, ← List.cons_append, ← shown]
    rfl
  have edge := List.head?_dropWhile_not isBlank text
  rw [← trimStart, start] at edge
  exact edge

theorem trim_of_edges (first : ∀ d ∈ text.head?, isBlank d = false)
    (last : ∀ d ∈ text.getLast?, isBlank d = false) : trim text = text := by
  have start : trimStart text = text := by
    cases text with
    | nil => rfl
    | cons c text => exact List.dropWhile_cons_of_neg (by simp [first c rfl])
  obtain ⟨back, whole, dropped⟩ := drop_end_while_split isBlank text
  have nothing : back = [] := by
    rcases List.eq_nil_or_concat back with rfl | ⟨blanks, d, rfl⟩
    · rfl
    · rw [List.concat_eq_append] at whole dropped
      have blank := dropped d (by simp)
      rw [last d (by rw [← whole]; simp)] at blank
      cases blank
  rw [nothing, List.append_nil] at whole
  rw [trim, start, trimEnd, whole]

theorem trim_blank_cons (blank : isBlank c = true) (text : Text) : trim (c :: text) = trim text := by
  rw [trim, trimStart, List.dropWhile_cons_of_pos blank, ← trimStart, trim]

end LessonBook.Text
