import LessonBook.Notebook.Reader
import Mathlib.Data.List.TakeWhile

/-!
Cutting loose lines into blocks. No line that is not blank is lost, and two blank
lines cut wherever they stand, so the blocks on both sides are found apart.
-/

namespace LessonBook.Notebook

def filled (lines : List Text) : List Text :=
  lines.filter (!isBlankLine ·)

@[simp] theorem filled_nil : filled [] = [] := rfl

theorem filled_append (front back : List Text) : filled (front ++ back) = filled front ++ filled back :=
  List.filter_append ..

theorem filled_reverse (lines : List Text) : filled lines.reverse = (filled lines).reverse :=
  List.filter_reverse

theorem filled_of_blank {lines : List Text} (blank : ∀ line ∈ lines, isBlankLine line = true) :
    filled lines = [] := by
  rw [filled, List.filter_eq_nil_iff]
  intro line member
  simp [blank line member]

theorem filled_drop_while (lines : List Text) : filled (lines.dropWhile isBlankLine) = filled lines := by
  have split := List.takeWhile_append_dropWhile (p := isBlankLine) (l := lines)
  have blank : filled (lines.takeWhile isBlankLine) = [] :=
    filled_of_blank fun line => List.mem_takeWhile_imp
  calc filled (lines.dropWhile isBlankLine)
      = filled (lines.takeWhile isBlankLine ++ lines.dropWhile isBlankLine) := by
        rw [filled_append, blank, List.nil_append]
    _ = filled lines := by rw [split]

theorem filled_without_outer_blanks (lines : List Text) :
    filled (withoutOuterBlanks lines) = filled lines := by
  rw [withoutOuterBlanks, filled_reverse, filled_drop_while, filled_reverse, List.reverse_reverse,
    filled_drop_while]

theorem filled_flatten_blocks (blocks : List (List Text)) :
    filled ((blocks.map withoutOuterBlanks).filter (!·.isEmpty)).flatten = filled blocks.flatten := by
  induction blocks with
  | nil => rfl
  | cons block blocks induction =>
      rw [List.map_cons, List.filter_cons, List.flatten_cons, filled_append, ← induction]
      cases trimmed : withoutOuterBlanks block with
      | nil =>
          have none := filled_without_outer_blanks block
          rw [trimmed] at none
          simp [← none]
      | cons line lines =>
          have same := filled_without_outer_blanks block
          rw [if_pos (by simp), List.flatten_cons, filled_append, ← trimmed, same]

theorem flatten_cut_blocks (blankRun : Nat) (current lines : List Text) :
    (cutBlocks blankRun current lines).flatten = current.reverse ++ lines := by
  induction lines generalizing blankRun current with
  | nil => simp [cutBlocks]
  | cons line lines induction =>
      rw [cutBlocks]
      split
      · simp [induction]
      · split <;> simp [induction]

theorem filled_prose_blocks (lines : List Text) :
    filled (proseBlocks lines).flatten = filled lines := by
  rw [proseBlocks, filled_flatten_blocks, flatten_cut_blocks]
  rfl

/-! ### Blank lines around blocks -/

theorem without_outer_blanks_of_blank {lines : List Text}
    (blank : ∀ line ∈ lines, isBlankLine line = true) : withoutOuterBlanks lines = [] := by
  rw [withoutOuterBlanks, List.dropWhile_eq_nil_iff.mpr blank]
  rfl

theorem without_outer_blanks_behind {blanks : List Text}
    (blank : ∀ line ∈ blanks, isBlankLine line = true) (lines : List Text) :
    withoutOuterBlanks (blanks ++ lines) = withoutOuterBlanks lines := by
  rw [withoutOuterBlanks, List.dropWhile_append_of_pos blank]
  rfl

theorem without_outer_blanks_before (lines : List Text) {blanks : List Text}
    (blank : ∀ line ∈ blanks, isBlankLine line = true) :
    withoutOuterBlanks (lines ++ blanks) = withoutOuterBlanks lines := by
  by_cases allBlank : ∀ line ∈ lines, isBlankLine line = true
  · rw [without_outer_blanks_of_blank allBlank, without_outer_blanks_of_blank]
    intro line member
    rcases List.mem_append.mp member with member | member
    · exact allBlank line member
    · exact blank line member
  · have present : lines.dropWhile isBlankLine ≠ [] := by
      rwa [ne_eq, List.dropWhile_eq_nil_iff]
    rw [withoutOuterBlanks, List.dropWhile_append]
    simp only [List.isEmpty_iff, present, if_false, List.reverse_append]
    rw [List.dropWhile_append_of_pos fun line member => blank line (List.mem_reverse.mp member)]
    rfl

theorem without_outer_blanks_of_filled {lines : List Text}
    (first : ∀ line ∈ lines.head?, isBlankLine line = false)
    (last : ∀ line ∈ lines.getLast?, isBlankLine line = false) : withoutOuterBlanks lines = lines := by
  have kept {others : List Text} (start : ∀ line ∈ others.head?, isBlankLine line = false) :
      others.dropWhile isBlankLine = others := by
    cases others with
    | nil => rfl
    | cons line others => simp [start line rfl]
  rw [withoutOuterBlanks, kept first, kept (by simpa using last), List.reverse_reverse]

def blocksFrom (blankRun : Nat) (current lines : List Text) : List (List Text) :=
  ((cutBlocks blankRun current lines).map withoutOuterBlanks).filter (!·.isEmpty)

theorem blocks_from_zero (lines : List Text) : blocksFrom 0 [] lines = proseBlocks lines := rfl

theorem blocks_from_nil (blankRun : Nat) (current : List Text) :
    blocksFrom blankRun current [] = [withoutOuterBlanks current.reverse].filter (!·.isEmpty) := rfl

theorem blocks_from_blank {line : Text} (blank : isBlankLine line = true) (blankRun : Nat)
    (current rest : List Text) :
    blocksFrom blankRun current (line :: rest) = blocksFrom (blankRun + 1) (line :: current) rest := by
  rw [blocksFrom, cutBlocks, if_pos blank, blocksFrom]

theorem blocks_from_apart {line : Text} (present : isBlankLine line = false) {blankRun : Nat}
    (many : 2 ≤ blankRun) (current rest : List Text) : blocksFrom blankRun current (line :: rest) =
      blocksFrom blankRun current [] ++ blocksFrom 0 [line] rest := by
  rw [blocksFrom, cutBlocks, if_neg (by simp [present]), if_pos many, List.map_cons,
    ← List.singleton_append, List.filter_append, blocks_from_nil, ← blocksFrom]

theorem blocks_from_joined {line : Text} (present : isBlankLine line = false) {blankRun : Nat}
    (few : blankRun < 2) (current rest : List Text) : blocksFrom blankRun current (line :: rest) =
      blocksFrom 0 (line :: current) rest := by
  rw [blocksFrom, cutBlocks, if_neg (by simp [present]), if_neg (Nat.not_le.mpr few), blocksFrom]

theorem blocks_from_behind {blanks : List Text} (blank : ∀ line ∈ blanks, isBlankLine line = true)
    (blankRun : Nat) (current rest : List Text) :
    blocksFrom blankRun (current ++ blanks) rest = blocksFrom blankRun current rest := by
  have held (blankRun : Nat) (current : List Text) :
      blocksFrom blankRun (current ++ blanks) [] = blocksFrom blankRun current [] := by
    rw [blocks_from_nil, List.reverse_append, without_outer_blanks_behind, blocks_from_nil]
    exact fun line member => blank line (List.mem_reverse.mp member)
  induction rest generalizing blankRun current with
  | nil => exact held blankRun current
  | cons line rest induction =>
      have joined := fun blankRun => induction blankRun (line :: current)
      simp only [List.cons_append] at joined
      cases present : isBlankLine line with
      | true => rw [blocks_from_blank present, blocks_from_blank present, joined]
      | false =>
          rcases Nat.lt_or_ge blankRun 2 with few | many
          · rw [blocks_from_joined present few, blocks_from_joined present few, joined]
          · rw [blocks_from_apart present many, blocks_from_apart present many, held]

theorem blocks_from_all_blank {current : List Text}
    (blank : ∀ line ∈ current, isBlankLine line = true) (blankRun : Nat) (rest : List Text) :
    blocksFrom blankRun current rest = proseBlocks rest := by
  have held {current : List Text} (blank : ∀ line ∈ current, isBlankLine line = true)
      (blankRun : Nat) : blocksFrom blankRun current [] = [] := by
    rw [blocks_from_nil, without_outer_blanks_of_blank]
    · rfl
    · exact fun line member => blank line (List.mem_reverse.mp member)
  induction rest generalizing blankRun current with
  | nil => exact held blank blankRun
  | cons line rest induction =>
      rw [← blocks_from_zero]
      cases present : isBlankLine line with
      | true =>
          rw [blocks_from_blank present, blocks_from_blank present,
            induction (by simpa [present] using blank), induction (by simpa using present)]
      | false =>
          rw [blocks_from_joined present (show 0 < 2 by decide)]
          rcases Nat.lt_or_ge blankRun 2 with few | many
          · rw [blocks_from_joined present few, ← List.singleton_append, blocks_from_behind blank]
          · rw [blocks_from_apart present many, held blank, List.nil_append]

theorem blocks_from_broken {blankRun : Nat} (many : 2 ≤ blankRun) (current rest : List Text) :
    blocksFrom blankRun current rest = blocksFrom blankRun current [] ++ proseBlocks rest := by
  induction rest generalizing blankRun current with
  | nil => exact (List.append_nil _).symm
  | cons line rest induction =>
      cases present : isBlankLine line with
      | true =>
          have blank : ∀ other ∈ [line], isBlankLine other = true := by simpa using present
          rw [← blocks_from_zero, blocks_from_blank present, blocks_from_blank present,
            blocks_from_all_blank blank, induction (by omega), blocks_from_nil, List.reverse_cons,
            without_outer_blanks_before _ blank, ← blocks_from_nil]
      | false =>
          rw [blocks_from_apart present many, ← blocks_from_zero,
            blocks_from_joined present (show 0 < 2 by decide)]

theorem blocks_from_append (blankRun : Nat) (current front : List Text) {first second : Text}
    (firstBlank : isBlankLine first = true) (secondBlank : isBlankLine second = true)
    (back : List Text) : blocksFrom blankRun current (front ++ first :: second :: back) =
      blocksFrom blankRun current front ++ proseBlocks back := by
  induction front generalizing blankRun current with
  | nil =>
      have blank : ∀ line ∈ [first, second], isBlankLine line = true := by
        simp [firstBlank, secondBlank]
      rw [List.nil_append, blocks_from_blank firstBlank, blocks_from_blank secondBlank,
        blocks_from_broken (by omega), blocks_from_nil, List.reverse_cons, List.reverse_cons,
        List.append_assoc, List.singleton_append, without_outer_blanks_before _ blank,
        ← blocks_from_nil]
  | cons line front induction =>
      rw [List.cons_append]
      cases present : isBlankLine line with
      | true => rw [blocks_from_blank present, blocks_from_blank present, induction]
      | false =>
          rcases Nat.lt_or_ge blankRun 2 with few | many
          · rw [blocks_from_joined present few, blocks_from_joined present few, induction]
          · rw [blocks_from_apart present many, blocks_from_apart present many, induction,
              List.append_assoc]

/-- Two blank lines cut, whatever stands in front of them and behind. -/
theorem prose_blocks_append (front : List Text) {first second : Text}
    (firstBlank : isBlankLine first = true) (secondBlank : isBlankLine second = true)
    (back : List Text) :
    proseBlocks (front ++ first :: second :: back) = proseBlocks front ++ proseBlocks back :=
  blocks_from_append 0 [] front firstBlank secondBlank back

end LessonBook.Notebook
