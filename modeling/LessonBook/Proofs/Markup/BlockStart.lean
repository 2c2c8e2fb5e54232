import LessonBook.Proofs.Markup.BlockBoundary
import LessonBook.Proofs.Markup.LineAccounting

/-!
Where blocks begin. Every step leaves off in front of a place at which a block
may begin, so all blocks of a page were read at such places.
-/

namespace LessonBook

open Text Recognizer BlockReader

namespace BlockReader

variable {enabled : List Extension} {inner : Inner} {progress next : Progress} {text rest : Text}

def EndsBefore (text : Text) (index : Nat) : Prop :=
  ∃ front c rest, text = front ++ c :: rest ∧ isTerminator c = true ∧ index = front.length + 1

theorem start_from_behind {read : Text → Option (Bool × Text)} {skipped index place : Nat}
    {atStart : Bool} (found : startFrom read skipped index atStart text = some place) :
    (place = index ∧ atStart = true ∧ 0 < index) ∨
      ∃ below, place = index + below ∧ EndsBefore text below := by
  induction text generalizing skipped index atStart with
  | nil => cases found
  | cons c text induction =>
      have later {skipped : Nat}
          (found : startFrom read skipped (index + 1) (isTerminator c) text = some place) :
          ∃ below, place = index + below ∧ EndsBefore (c :: text) below := by
        rcases induction found with
          ⟨here, isEnd, -⟩ | ⟨below, here, front, d, rest, split, isEnd, same⟩
        · exact ⟨1, here, [], c, text, rfl, isEnd, rfl⟩
        · refine ⟨below + 1, by omega, c :: front, d, rest, ?_, isEnd, ?_⟩
          · rw [split]
            rfl
          · rw [same]
            rfl
      unfold startFrom at found
      split at found
      · exact .inr (later found)
      · split at found
        · rename_i accepted left reading
          split at found
          · rename_i taken
            cases found
            refine .inl ⟨rfl, ?_, ?_⟩
            · by_contra other
              rw [if_neg other] at reading
              cases reading
            · simp only [Bool.and_eq_true, decide_eq_true_eq] at taken
              exact taken.2
          · exact .inr (later found)
        · exact .inr (later found)

theorem start_ends_before {read : Text → Option (Bool × Text)} {place : Nat}
    (found : startFrom read 0 0 true text = some place) : EndsBefore text place := by
  rcases start_from_behind found with ⟨-, -, positive⟩ | ⟨below, here, behind⟩
  · cases positive
  · rw [here, Nat.zero_add]
    exact behind

theorem least_cases {first second : Option Nat} {place : Nat}
    (found : least? first second = some place) : first = some place ∨ second = some place := by
  unfold least? at found
  split at found
  · rename_i a b
    cases found
    rcases Nat.le_total a b with smaller | smaller
    · exact .inl (by rw [Nat.min_eq_left smaller])
    · exact .inr (by rw [Nat.min_eq_right smaller])
  · exact .inl found
  · exact .inr found

/-- Where a paragraph is cut, a line begins. -/
theorem interruption_ends_before {place : Nat} (found : interruption? enabled text = some place) :
    EndsBefore text place := by
  rcases least_cases found with directive | found
  · exact start_ends_before directive
  · rcases least_cases found with dollar | environment
    · split at dollar
      · exact start_ends_before dollar
      · cases dollar
    · split at environment
      · exact start_ends_before environment
      · cases environment

theorem EndsBefore.behind {index : Nat} (ends : EndsBefore text index) :
    ∃ c, isTerminator c = true ∧ c :: text.drop index <:+ text := by
  obtain ⟨front, c, rest, rfl, isEnd, rfl⟩ := ends
  refine ⟨c, isEnd, front, ?_⟩
  rw [← List.drop_drop, List.drop_left]
  rfl

theorem leaves_off_of_paragraph_step
    (taken : paragraphStep enabled progress text = some (next, rest)) : LeavesOff text rest := by
  obtain ⟨visible, raw, left, shown, read, split, same, -⟩ := paragraph_step_eq_some taken
  have ended := Paragraph.ends_of_rest read
  rcases shown with rfl | ⟨index, cut, rfl⟩
  · rw [same, ← split, List.drop_left]
    exact EndsLine.leaves_off (.inl ended)
  · have whole : rest = left ++ text.drop (index + 1) := by
      have parts : raw ++ (left ++ text.drop (index + 1)) = text := by
        rw [← List.append_assoc, split, List.take_append_drop]
      exact same.trans (drop_of_split parts)
    rcases line_end_cases ended with nothing | ⟨below, newline⟩
    · obtain ⟨c, isEnd, behind⟩ := (interruption_ends_before cut).behind
      rw [whole, nothing, List.nil_append, Nat.add_comm, ← List.drop_drop]
      exact .inr ⟨c, .inl isEnd, behind.trans (List.drop_suffix 1 text)⟩
    · rw [whole, newline]
      exact EndsLine.leaves_off (.inl rfl)

theorem leaves_off_of_line_step (taken : lineStep progress text = some (next, rest)) :
    LeavesOff text rest := by
  simp only [lineStep] at taken
  split at taken
  · cases taken
  · cases taken
    rw [drop_first_line]
    exact EndsLine.leaves_off (.inl (Directive.after_first_line_ends text))

theorem ends_line_of_leaf_step {Content : Type} {read : Text → Option (Content × Text)}
    {leaf : Content → Leaf}
    (ends : ∀ {text content rest}, read text = some (content, rest) → EndsLine text rest)
    (taken : leafStep read leaf progress text = some (next, rest)) : EndsLine text rest := by
  obtain ⟨content, found, -⟩ := leaf_step_eq_some taken
  exact ends found

theorem ends_line_of_early_step {step : Step} (member : step ∈ earlySteps enabled inner)
    (taken : step progress text = some (next, rest)) : EndsLine text rest := by
  simp only [earlySteps, List.mem_cons, List.not_mem_nil, or_false] at member
  rcases member with rfl | rfl | rfl | rfl | rfl | rfl | rfl
  · exact ends_line_of_leaf_step ImageElement.ends_line_of_read (of_when taken)
  · exact ends_line_of_leaf_step FieldList.ends_line_of_read (of_when taken)
  · exact ends_line_of_leaf_step DefinitionList.ends_line_of_read (of_when taken)
  · exact ends_line_of_leaf_step (fun read => .inl (Formula.ends_of_environment read))
      (of_when taken)
  · exact ends_line_of_leaf_step (fun read => .inl (Formula.ends_of_dollar read)) (of_when taken)
  · obtain ⟨directive, read, -⟩ := directive_step_eq_some taken
    exact Directive.ends_line_of_read read
  · simp only [frontMatterStep] at taken
    split at taken
    · exact ends_line_of_leaf_step FrontMatter.ends_line_of_read taken
    · cases taken

theorem leaves_off_of_late_step {step : Step} (member : step ∈ lateSteps enabled inner)
    (taken : step progress text = some (next, rest)) : rest = text ∨ LeavesOff text rest := by
  simp only [lateSteps, List.mem_cons, List.not_mem_nil, or_false] at member
  rcases member with rfl | rfl | rfl | rfl | rfl | rfl | rfl | rfl | rfl | rfl | rfl
  · obtain ⟨content, read, -⟩ := indented_step_eq_some taken
    exact .inr (IndentedCode.ends_line_of_read read).leaves_off
  · exact .inr (ends_line_of_leaf_step FencedCode.ends_line_of_read taken).leaves_off
  · exact .inr (ends_line_of_leaf_step Heading.ends_line_of_read taken).leaves_off
  · exact .inr (ThematicBreak.ends_line_of_read (rule_step_eq_some taken).1).leaves_off
  · obtain ⟨content, read, -⟩ := quote_step_eq_some taken
    exact .inr (Quote.ends_line_of_read read).leaves_off
  · obtain ⟨contents, read, -⟩ := list_step_eq_some taken
    exact ListItem.leaves_off_of_read_list read
  · exact .inr (Html.leaves_off_of_read (html_step_eq_some taken).1)
  · exact .inr (ends_line_of_leaf_step Table.ends_line_of_read (of_when taken)).leaves_off
  · exact .inr (ends_line_of_leaf_step Heading.ends_line_of_underlined taken).leaves_off
  · exact .inr (leaves_off_of_paragraph_step taken)
  · exact .inr (leaves_off_of_line_step taken)

theorem leaves_off_of_space_step (taken : spaceStep progress text = some (next, rest)) :
    LeavesOff text rest := by
  simp only [spaceStep] at taken
  split at taken
  · rename_i shorter
    cases taken
    rcases skip_space_lines_ends text with same | ends
    · rw [same] at shorter
      exact absurd shorter (Nat.lt_irrefl _)
    · exact ends.leaves_off
  · cases taken

theorem first_step_leaves_off
    (found : firstStep progress text (steps enabled inner) = some (next, rest)) :
    rest = text ∨ LeavesOff text rest := by
  rw [steps_eq] at found
  rcases first_step_split found with ⟨step, member, taken⟩ | taken | ⟨-, later⟩
  · exact .inr (ends_line_of_early_step member taken).leaves_off
  · exact .inr (leaves_off_of_space_step taken)
  · obtain ⟨step, member, taken⟩ := first_step_mem later
    exact leaves_off_of_late_step member taken

end BlockReader

structure Begins (source here : Text) : Prop where
  inside : here <:+ source
  behind : here = source ∨ LeavesOff source here

theorem Begins.next {source text rest : Text} (begun : Begins source text) (left : rest <:+ text)
    (leaves : rest = text ∨ LeavesOff text rest) : Begins source rest := by
  rcases leaves with rfl | leaves
  · exact begun
  · exact ⟨left.trans begun.inside, .inr (leaves.of_suffix begun.inside)⟩

/-- A directive or a block of HTML that was read where a block may begin. Newlines
may have been added to its raw text. -/
def Block.BegunIn (colonFence : Bool) (source : Text) : Block → Prop
  | .directive _ opened _ =>
      ∃ here rest, Begins source here ∧ Directive.read? colonFence here = some (opened, rest)
  | .leaf raw (.html _) =>
      ∃ here taken below, Begins source here ∧ taken <+: here ∧ raw = taken ++ below ∧
        ∀ c ∈ below, c = '\n'
  | _ => True

namespace BlockReader

variable {enabled : List Extension} {colonFence : Bool} {inner : Inner} {progress next : Progress}
  {source text rest : Text}

theorem begun_in_extend {block : Block} (begun : block.BegunIn colonFence source) :
    (block.extendRaw ['\n']).BegunIn colonFence source := by
  cases block with
  | leaf raw content =>
      cases content with
      | html =>
          obtain ⟨here, taken, below, place, front, rfl, newlines⟩ := begun
          refine ⟨here, taken, below ++ ['\n'], place, front, List.append_assoc _ _ _, ?_⟩
          intro c member
          rcases List.mem_append.mp member with member | member
          · exact newlines c member
          · exact List.mem_singleton.mp member
      | _ => trivial
  | directive => exact begun
  | quote => trivial
  | list => trivial

theorem begun_in_of_fresh {block : Block} (place : Begins source text)
    (taken : block.raw ++ rest = text) (fresh : IsFresh colonFence inner progress text rest block) :
    block.BegunIn colonFence source := by
  cases block with
  | leaf raw content =>
      cases content with
      | html =>
          refine ⟨text, raw, [], place, ⟨rest, taken⟩, (List.append_nil raw).symm, ?_⟩
          intro c member
          cases member
      | _ => trivial
  | directive => exact ⟨text, rest, place, fresh.1⟩
  | quote => trivial
  | list => trivial

theorem advance_begun (advance : Advance colonFence inner progress text next rest)
    (place : Begins source text)
    (begun : ∀ block ∈ progress.blocks, block.BegunIn colonFence source) :
    ∀ block ∈ next.blocks, block.BegunIn colonFence source := by
  cases advance with
  | pushed block blocks taken fresh plain =>
      rw [blocks, List.forall_mem_cons]
      exact ⟨begun_in_of_fresh place taken fresh, begun⟩
  | space raw taken present blank ends step =>
      rcases add_space_cases raw progress with blocks | ⟨c, last, earlier, -, blocks, blocks'⟩
      · rw [blocks, List.forall_mem_cons]
        exact ⟨trivial, begun⟩
      · rw [blocks, List.forall_mem_cons] at begun
        rw [blocks', List.forall_mem_cons]
        exact ⟨begun_in_extend begun.1, begun.2⟩
  | joined front raw leaf extended earlier blocks blocks' notSpace taken refused prose =>
      rw [blocks, List.forall_mem_cons] at begun
      rw [blocks', List.forall_mem_cons]
      refine ⟨?_, begun.2⟩
      obtain ⟨text, rfl | rfl⟩ := prose <;> trivial

/-- All blocks of a run begin where a block may begin. -/
theorem read_from_begun (fuel : Nat) (place : Begins source text)
    (begun : ∀ block ∈ progress.blocks, block.BegunIn (enabled.contains .colonFence) source) :
    ∀ block ∈ (readFrom enabled fuel progress text).blocks,
      block.BegunIn (enabled.contains .colonFence) source := by
  induction fuel generalizing progress text with
  | zero => exact begun
  | succ fuel induction =>
      rw [read_from_succ]
      split
      · exact begun
      · split
        · rename_i next rest found
          have advance := first_step_advance found
          have left : rest <:+ text := by
            cases advance with
            | pushed block blocks taken => exact ⟨block.raw, taken⟩
            | space raw taken => exact ⟨raw, taken⟩
            | joined front raw leaf extended earlier blocks blocks' notSpace taken =>
                exact ⟨raw, taken⟩
          exact induction (place.next left (first_step_leaves_off found))
            (advance_begun advance place begun)
        · exact begun

end BlockReader

theorem Block.of_text_begun (enabled : List Extension) (page : Text) :
    ∀ block ∈ Block.ofText enabled page,
      block.BegunIn (enabled.contains .colonFence) (source page) := by
  intro block member
  rw [ofText, List.mem_reverse] at member
  refine read_from_begun _ ⟨List.suffix_refl _, .inl rfl⟩ ?_ block member
  intro other none
  cases none

end LessonBook
