import LessonBook.Proofs.Markup.BlockStart
import LessonBook.Proofs.Markup.InnerText

/-!
Every step of reading blocks takes another character than a space, or all that
is left of the text.
-/

namespace LessonBook

open Text Recognizer

/-- The text begins with spaces and goes on with something written on the same line. -/
structure FirstWritten (text : Text) (c : Char) (more : Text) : Prop where
  split : ∃ spaces, text = spaces ++ c :: more ∧ ∀ s ∈ spaces, s = ' '
  written : c ≠ ' '
  onLine : c ≠ '\n'

namespace FirstWritten

variable {text rest more : Text} {c : Char}

theorem consumes (first : FirstWritten text c more) (left : rest <:+ more) : Consumes text rest := by
  obtain ⟨⟨spaces, rfl, -⟩, written, -⟩ := first
  exact ⟨c, more, written, List.suffix_append spaces _, left⟩

/-- An end part of the text is behind the first written character or holds it. -/
theorem behind_or_holds (first : FirstWritten text c more) (left : rest <:+ text) :
    rest <:+ more ∨ ∃ front, rest = front ++ c :: more ∧ ∀ s ∈ front, s = ' ' := by
  obtain ⟨⟨spaces, rfl, blank⟩, -, -⟩ := first
  rcases Nat.lt_or_ge more.length rest.length with long | short
  · right
    obtain ⟨front, rfl⟩ := List.suffix_of_suffix_length_le (List.suffix_append spaces (c :: more))
      left (by rw [List.length_cons]; exact long)
    obtain ⟨taken, whole⟩ := left
    rw [← List.append_assoc] at whole
    have inside := List.append_cancel_right whole
    exact ⟨front, rfl, fun s member => blank s (inside ▸ List.mem_append_right taken member)⟩
  · left
    exact List.suffix_of_suffix_length_le left
      ((List.suffix_cons c more).trans (List.suffix_append spaces _)) short

theorem consumes_of_ends_line (first : FirstWritten text c more) (left : rest <:+ text)
    (ends : EndsLine text rest) : rest = [] ∨ Consumes text rest := by
  rcases ends with ended | behind
  · rcases line_end_cases ended with nothing | ⟨below, newline⟩
    · exact .inl nothing
    · right
      rcases first.behind_or_holds left with behind | ⟨front, same, blank⟩
      · exact first.consumes behind
      · rw [newline] at same
        cases front with
        | nil =>
            cases same
            exact absurd rfl first.onLine
        | cons s front =>
            rw [List.cons_append, List.cons.injEq] at same
            rw [← same.1] at blank
            exact absurd (blank '\n' List.mem_cons_self) (by decide)
  · exact .inr ⟨'\n', rest, by decide, behind, List.suffix_refl rest⟩

end FirstWritten

namespace BlockReader

theorem space_lines_from_spaces {spaces : Text} (blank : ∀ s ∈ spaces, s = ' ') (lineStart rest : Text) :
    spaceLinesFrom lineStart (spaces ++ rest) = spaceLinesFrom lineStart rest := by
  induction spaces with
  | nil => rfl
  | cons s spaces induction =>
      rw [List.cons_append, spaceLinesFrom, if_pos (by simp [blank s]),
        induction fun other member => blank other (by simp [member])]

/-- Where there is no space, the first line has something written on it. -/
theorem first_written_of_space_none {progress : Progress} {text : Text} (present : text ≠ [])
    (refused : spaceStep progress text = none) : ∃ c more, FirstWritten text c more := by
  have split := List.takeWhile_append_dropWhile (p := (· == ' ')) (l := text)
  have blank : ∀ s ∈ text.takeWhile (· == ' '), s = ' ' := fun s member => by
    simpa using List.mem_takeWhile_imp member
  have kept : ¬(skipSpaceLines text).length < text.length := by
    simpa [spaceStep] using refused
  have skipped : skipSpaceLines text = spaceLinesFrom text (text.dropWhile (· == ' ')) := by
    conv => lhs; rw [skipSpaceLines]; arg 2; rw [← split]
    exact space_lines_from_spaces blank text _
  rw [skipped] at kept
  cases written : text.dropWhile (· == ' ') with
  | nil =>
      rw [written] at kept
      exact absurd (List.length_pos_iff.mpr present) kept
  | cons c more =>
      have notSpace : c ≠ ' ' := by
        have head := List.head?_dropWhile_not (· == ' ') text
        rw [written] at head
        simpa using head
      refine ⟨c, more, ⟨_, written ▸ split.symm, blank⟩, notSpace, ?_⟩
      rintro rfl
      rw [written, spaceLinesFrom, if_neg (by decide), if_pos (by decide)] at kept
      have shorter := (skip_space_lines_suffix more).length_le
      have bound := (written ▸ List.dropWhile_suffix (l := text) (· == ' ') : _ <:+ text).length_le
      rw [List.length_cons] at bound
      exact kept (Nat.lt_of_le_of_lt shorter bound)

variable {enabled : List Extension} {inner : Inner} {progress next : Progress} {text rest more : Text}
  {c : Char}

/-- Another character than a space is taken, or the whole text. -/
def Progresses (text rest : Text) : Prop :=
  rest = [] ∨ Consumes text rest

theorem progresses_of_directive {colonFence : Bool} {directive : Directive}
    (read : Directive.read? colonFence text = some (directive, rest)) : Progresses text rest := by
  cases closed : directive.closed with
  | false => exact .inl (Directive.rest_of_unclosed read closed)
  | true =>
      obtain ⟨opening, first, body, last, -, rfl, -⟩ := Directive.closed_of_read read closed
      refine .inr (consumes_append_iff.mpr ⟨'\n', ?_, by decide⟩)
      rw [join_lines_cons, lines_below_append]
      simp

theorem progresses_of_leaf_step {Content : Type} {read : Text → Option (Content × Text)}
    {leaf : Content → Leaf}
    (consumes : ∀ {content : Content}, read text = some (content, rest) → Progresses text rest)
    (taken : leafStep read leaf progress text = some (next, rest)) : Progresses text rest := by
  obtain ⟨content, found, -⟩ := leaf_step_eq_some taken
  exact consumes found

theorem progresses_of_early_step {step : Step} (member : step ∈ earlySteps enabled inner)
    (taken : step progress text = some (next, rest)) : Progresses text rest := by
  simp only [earlySteps, List.mem_cons, List.not_mem_nil, or_false] at member
  rcases member with rfl | rfl | rfl | rfl | rfl | rfl | rfl
  · exact progresses_of_leaf_step (fun read => .inr (ImageElement.consumes_of_read read)) (of_when taken)
  · exact progresses_of_leaf_step (fun read => .inr (FieldList.consumes_of_read read)) (of_when taken)
  · exact progresses_of_leaf_step (fun read => .inr (DefinitionList.consumes_of_read read))
      (of_when taken)
  · exact progresses_of_leaf_step (fun read => .inr (Formula.consumes_of_environment read))
      (of_when taken)
  · exact progresses_of_leaf_step (fun read => .inr (Formula.consumes_of_dollar read)) (of_when taken)
  · obtain ⟨directive, read, -⟩ := directive_step_eq_some taken
    exact progresses_of_directive read
  · simp only [frontMatterStep] at taken
    split at taken
    · exact progresses_of_leaf_step (fun read => .inr (FrontMatter.consumes_of_read read)) taken
    · cases taken

theorem progresses_of_space_step (taken : spaceStep progress text = some (next, rest)) :
    Progresses text rest := by
  simp only [spaceStep] at taken
  split at taken
  · rename_i shorter
    cases taken
    obtain ⟨raw, split, -, ends⟩ : ∃ raw, raw ++ skipSpaceLines text = text ∧
        (∀ c ∈ raw, c = ' ' ∨ c = '\n') ∧
        (raw = [] ∨ skipSpaceLines text = [] ∨ raw.getLast? = some '\n') :=
      space_lines_split [] rfl (by simp)
    rcases ends with rfl | nothing | last
    · rw [List.nil_append] at split
      rw [split] at shorter
      exact absurd shorter (Nat.lt_irrefl _)
    · exact .inl nothing
    · right
      have consumes : Consumes (raw ++ skipSpaceLines text) (skipSpaceLines text) :=
        consumes_append_iff.mpr ⟨'\n', List.mem_of_getLast? last, by decide⟩
      rwa [split] at consumes
  · cases taken

theorem progresses_of_indented (first : FirstWritten text c more) {content : Text}
    (read : IndentedCode.read? text = some (content, rest)) : Progresses text rest :=
  first.consumes_of_ends_line (IndentedCode.suffix_of_read read) (IndentedCode.ends_line_of_read read)

theorem first_written_take {index : Nat} (first : FirstWritten text c more)
    (ends : EndsBefore (text.drop 1) index) : ∃ more, FirstWritten (text.take (index + 1)) c more := by
  obtain ⟨⟨spaces, split, blank⟩, written, onLine⟩ := first
  obtain ⟨front, d, below, cut, isEnd, rfl⟩ := ends
  have kept : d ∈ text.take (front.length + 1 + 1) := by
    rw [Nat.add_comm _ 1, List.take_add, cut, List.append_cons,
      List.take_left' (by simp : (front ++ [d]).length = front.length + 1)]
    simp
  have begins : spaces ++ [c] <+: text := ⟨more, by simp [split]⟩
  rcases Nat.lt_or_ge spaces.length (text.take (front.length + 1 + 1)).length with longer | short
  · obtain ⟨more, whole⟩ := List.prefix_of_prefix_length_le begins (List.take_prefix _ text)
      (by rw [List.length_append]; exact longer)
    exact ⟨more, ⟨spaces, by rw [← whole, List.append_assoc]; rfl, blank⟩, written, onLine⟩
  · have inside := List.prefix_of_prefix_length_le (List.take_prefix _ text)
      ((List.prefix_append spaces [c]).trans begins) short
    rw [blank d (inside.subset kept)] at isEnd
    exact absurd isEnd (by decide)

theorem written_before_rest {tables : Bool} {raw : Text} (first : FirstWritten (raw ++ rest) c more)
    (read : Paragraph.rest? tables (raw ++ rest) = some rest) : ∃ d ∈ raw, d ≠ ' ' := by
  have ended : EndsLine (raw ++ rest) rest := .inl (Paragraph.ends_of_rest read)
  rcases first.consumes_of_ends_line (List.suffix_append raw rest) ended with rfl | consumes
  · obtain ⟨⟨spaces, split, -⟩, written, -⟩ := first
    rw [List.append_nil] at split
    exact ⟨c, by simp [split], written⟩
  · exact consumes_append_iff.mp consumes

theorem progresses_of_paragraph_step (first : FirstWritten text c more)
    (taken : paragraphStep enabled progress text = some (next, rest)) : Progresses text rest := by
  obtain ⟨visible, raw, left, shown, read, rfl, same, -⟩ := paragraph_step_eq_some taken
  have begun : ∃ more, FirstWritten (raw ++ left) c more := by
    rcases shown with whole | ⟨index, cut, whole⟩
    · exact ⟨more, whole ▸ first⟩
    · rw [whole]
      exact first_written_take first (interruption_ends_before cut)
  have part : raw ++ left <+: text := by
    rcases shown with whole | ⟨index, -, whole⟩
    · exact whole ▸ List.prefix_refl _
    · exact whole ▸ List.take_prefix _ text
  obtain ⟨more, begun⟩ := begun
  obtain ⟨back, rfl⟩ := part
  rw [List.append_assoc, List.drop_left] at same
  rw [same, List.append_assoc]
  exact .inr (consumes_append_iff.mpr (written_before_rest begun read))

theorem progresses_of_line_step (first : FirstWritten text c more)
    (taken : lineStep progress text = some (next, rest)) : Progresses text rest := by
  simp only [lineStep] at taken
  split at taken
  · cases taken
  · cases taken
    rw [drop_first_line]
    exact first.consumes_of_ends_line (after_first_line_suffix text)
      (.inl (Directive.after_first_line_ends text))

/-- Of the kinds that are tried where there is no space, the fourth is a thematic break. -/
theorem late_steps_eq (enabled : List Extension) (inner : Inner) : lateSteps enabled inner =
    (lateSteps enabled inner).take 3 ++ ruleStep :: (lateSteps enabled inner).drop 4 := rfl

theorem progresses_of_code_or_heading_step {step : Step} (first : FirstWritten text c more)
    (member : step ∈ (lateSteps enabled inner).take 3)
    (taken : step progress text = some (next, rest)) : Progresses text rest := by
  simp only [lateSteps, List.take, List.mem_cons, List.not_mem_nil, or_false] at member
  rcases member with rfl | rfl | rfl
  · obtain ⟨content, read, -⟩ := indented_step_eq_some taken
    exact progresses_of_indented first read
  · exact progresses_of_leaf_step (fun read => .inr (FencedCode.consumes_of_read read)) taken
  · exact progresses_of_leaf_step (fun read => .inr (Heading.consumes_of_read read)) taken

/-- A list takes nothing where its first line is a thematic break. -/
theorem progresses_of_late_step {step : Step} (first : FirstWritten text c more)
    (unruled : ruleStep progress text = none) (member : step ∈ (lateSteps enabled inner).drop 4)
    (taken : step progress text = some (next, rest)) : Progresses text rest := by
  simp only [lateSteps, List.drop, List.mem_cons, List.not_mem_nil, or_false] at member
  rcases member with rfl | rfl | rfl | rfl | rfl | rfl | rfl
  · obtain ⟨content, read, -⟩ := quote_step_eq_some taken
    exact .inr (Quote.consumes_of_read read)
  · obtain ⟨contents, read, -⟩ := list_step_eq_some taken
    have refused : ThematicBreak.read? text = none := by
      cases ruled : ThematicBreak.read? text with
      | none => rfl
      | some below => simp [ruleStep, ruled] at unruled
    exact .inr (ListItem.consumes_of_read_list read refused)
  · exact .inr (Html.consumes_of_read (html_step_eq_some taken).1)
  · exact progresses_of_leaf_step (fun read => .inr (Table.consumes_of_read read)) (of_when taken)
  · exact progresses_of_leaf_step (fun read => first.consumes_of_ends_line
      (Heading.suffix_of_underlined read) (Heading.ends_line_of_underlined read)) taken
  · exact progresses_of_paragraph_step first taken
  · exact progresses_of_line_step first taken

/-- Every step takes a character other than a space, or all that is left. -/
theorem first_step_progresses (present : text ≠ [])
    (found : firstStep progress text (steps enabled inner) = some (next, rest)) :
    Progresses text rest := by
  rw [steps_eq] at found
  rcases first_step_split found with ⟨step, member, taken⟩ | taken | ⟨refused, later⟩
  · exact progresses_of_early_step member taken
  · exact progresses_of_space_step taken
  · obtain ⟨c, more, first⟩ := first_written_of_space_none present refused
    rw [late_steps_eq] at later
    rcases first_step_split later with ⟨step, member, taken⟩ | taken | ⟨unruled, last⟩
    · exact progresses_of_code_or_heading_step first member taken
    · exact .inr (ThematicBreak.consumes_of_read (rule_step_eq_some taken).1)
    · obtain ⟨step, member, taken⟩ := first_step_mem last
      exact progresses_of_late_step first unruled member taken

end BlockReader

end LessonBook
