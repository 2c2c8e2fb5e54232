import LessonBook.Proofs.Notebook.Rendering

/-!
The blocks of loose lines said without the loop that cuts them: blocks of lines with
blank lines around them, at least two between one block and the next. Every list of
lines divides like that in one way, and the loop finds it.
-/

namespace LessonBook.Notebook

/-- A block begins and ends with a line that is not blank, and holds no two blank
lines together. -/
structure IsBlock (block : List Text) : Prop where
  present : block ≠ []
  filled : FilledEnds block
  chain : block.IsChain fun line next => ¬(isBlankLine line = true ∧ isBlankLine next = true)

/-- Lines that are some blocks in their order, and blank outside of these. In front of
the first block stand at least `least` blank lines, in front of each other one at least two. -/
inductive Blocked : Nat → List Text → List (List Text) → Prop where
  | blank {least : Nat} {lines : List Text} (blank : ∀ line ∈ lines, isBlankLine line = true) :
      Blocked least lines []
  | block {least : Nat} {gap block rest : List Text} {blocks : List (List Text)}
      (blank : ∀ line ∈ gap, isBlankLine line = true) (apart : least ≤ gap.length)
      (isBlock : IsBlock block) (behind : Blocked 2 rest blocks) :
      Blocked least (gap ++ (block ++ rest)) (block :: blocks)

/-! ### There is such a division -/

theorem is_block_line {line : Text} (present : isBlankLine line = false) : IsBlock [line] where
  present := List.cons_ne_nil _ _
  filled := by simp [FilledEnds, present]
  chain := .singleton line

/-- A line goes into the block below it if at most one blank line is between them. -/
theorem IsBlock.below {line : Text} (present : isBlankLine line = false) {gap block : List Text}
    (near : gap.length < 2) (isBlock : IsBlock block) : IsBlock (line :: (gap ++ block)) where
  present := List.cons_ne_nil _ _
  filled := by
    refine ⟨by simp [present], ?_⟩
    rw [← List.cons_append, List.getLast?_append_of_ne_nil _ isBlock.present]
    exact isBlock.filled.2
  chain := by
    have first := isBlock.filled.1
    match gap, near with
    | [], _ => exact isBlock.chain.cons fun next _ => by simp [present]
    | [blank], _ =>
        refine (isBlock.chain.cons fun next head => ?_).cons fun next _ => by simp [present]
        simp [first next head]

theorem Blocked.at_start {block rest : List Text} {blocks : List (List Text)}
    (isBlock : IsBlock block) (behind : Blocked 2 rest blocks) :
    Blocked 0 (block ++ rest) (block :: blocks) :=
  .block (List.forall_mem_nil _) (Nat.le_refl 0) isBlock behind

theorem Blocked.line {line : Text} {rest : List Text} {blocks : List (List Text)}
    (blocked : Blocked 0 rest blocks) : ∃ blocks', Blocked 0 (line :: rest) blocks' := by
  cases present : isBlankLine line with
  | true =>
      cases blocked with
      | blank blank => exact ⟨[], .blank (List.forall_mem_cons.mpr ⟨present, blank⟩)⟩
      | block blank apart isBlock behind =>
          exact ⟨_, .block (List.forall_mem_cons.mpr ⟨present, blank⟩) (Nat.zero_le _) isBlock behind⟩
  | false =>
      have alone := is_block_line present
      cases blocked with
      | blank blank => exact ⟨_, .at_start alone (.blank blank)⟩
      | @block _ gap block rest blocks blank apart isBlock behind =>
          rcases Nat.lt_or_ge gap.length 2 with near | far
          · have joined := Blocked.at_start (isBlock.below present near) behind
            exact ⟨_, by simpa using joined⟩
          · exact ⟨_, .at_start alone (.block blank far isBlock behind)⟩

theorem exists_blocked (lines : List Text) : ∃ blocks, Blocked 0 lines blocks := by
  induction lines with
  | nil => exact ⟨[], .blank nofun⟩
  | cons line lines induction =>
      obtain ⟨blocks, blocked⟩ := induction
      exact blocked.line

/-! ### The blocks that are cut are those of any division -/

theorem prose_blocks_behind {gap : List Text} (blank : ∀ line ∈ gap, isBlankLine line = true)
    (rest : List Text) : proseBlocks (gap ++ rest) = proseBlocks rest := by
  induction gap with
  | nil => rfl
  | cons line gap induction =>
      obtain ⟨first, others⟩ := List.forall_mem_cons.mp blank
      have held : ∀ other ∈ [line], isBlankLine other = true := by simpa using first
      rw [List.cons_append, ← blocks_from_zero, blocks_from_blank first, blocks_from_all_blank held,
        induction others]

theorem blocks_from_before {tail : List Text} (blank : ∀ line ∈ tail, isBlankLine line = true)
    (blankRun : Nat) (current front : List Text) :
    blocksFrom blankRun current (front ++ tail) = blocksFrom blankRun current front := by
  have atEnd (blankRun : Nat) (current : List Text) :
      blocksFrom blankRun current tail = blocksFrom blankRun current [] := by
    induction tail generalizing blankRun current with
    | nil => rfl
    | cons line tail induction =>
        obtain ⟨first, others⟩ := List.forall_mem_cons.mp blank
        have held : ∀ other ∈ [line], isBlankLine other = true := by simpa using first
        rw [blocks_from_blank first, induction others, blocks_from_nil, List.reverse_cons,
          without_outer_blanks_before _ held, ← blocks_from_nil]
  induction front generalizing blankRun current with
  | nil => exact atEnd blankRun current
  | cons line front induction =>
      rw [List.cons_append]
      cases present : isBlankLine line with
      | true => rw [blocks_from_blank present, blocks_from_blank present, induction]
      | false =>
          rcases Nat.lt_or_ge blankRun 2 with few | many
          · rw [blocks_from_joined present few, blocks_from_joined present few, induction]
          · rw [blocks_from_apart present many, blocks_from_apart present many, induction]

theorem IsBlock.prose_blocks_eq {block : List Text} (isBlock : IsBlock block) :
    proseBlocks block = [block] :=
  prose_blocks_of_block isBlock.present isBlock.filled isBlock.chain

/-- However lines divide into blocks, these are the blocks that they are cut into. -/
theorem Blocked.prose_blocks_eq {least : Nat} {lines : List Text} {blocks : List (List Text)}
    (blocked : Blocked least lines blocks) : proseBlocks lines = blocks := by
  induction blocked with
  | blank blank =>
      have none := prose_blocks_behind blank []
      rwa [List.append_nil] at none
  | @block least gap block rest blocks blank apart isBlock behind induction =>
      rw [prose_blocks_behind blank]
      cases behind with
      | blank blank =>
          rw [← blocks_from_zero, blocks_from_before blank, blocks_from_zero, isBlock.prose_blocks_eq]
      | @block _ between next below others blankBetween far nextBlock behind =>
          -- the first two blank lines end the block, and what stands behind them is cut by itself
          match between, far with
          | first :: second :: more, _ =>
              obtain ⟨firstBlank, secondBlank, moreBlank⟩ := by
                simpa only [List.forall_mem_cons] using blankBetween
              rw [prose_blocks_behind blankBetween] at induction
              rw [List.cons_append, List.cons_append, prose_blocks_append _ firstBlank secondBlank,
                isBlock.prose_blocks_eq, prose_blocks_behind moreBlank, induction]
              rfl

/-- Loose lines divide into blocks in exactly one way, and are cut into these blocks. -/
theorem prose_blocks_eq_iff (lines : List Text) (blocks : List (List Text)) :
    proseBlocks lines = blocks ↔ Blocked 0 lines blocks := by
  constructor
  · rintro rfl
    obtain ⟨blocks, blocked⟩ := exists_blocked lines
    rwa [blocked.prose_blocks_eq]
  · exact Blocked.prose_blocks_eq

end LessonBook.Notebook
