import LessonBook.Proofs.Admonition.Placement
import LessonBook.Proofs.Markup.BlockReading

/-!
The levels of a page: its blocks, and the blocks inside each admonition. On a
level whose blocks hold all its text, a closed directive stands on the lines
from its opening line to the first line that closes it.
-/

namespace LessonBook

open Text Recognizer BlockReader

namespace Block

mutual

/-- No admonition is written in HTML, and each one is closed and has blocks that
hold all the text of its body. -/
def isAccounted (enabled : List Extension) : Block → Bool
  | .leaf raw content => (content.admonition? enabled raw).isNone
  | .directive _ opened body =>
      !isAdmonitionName opened.name ||
        (opened.closed && raws body == expandLeadingTabs opened.body && areAccounted enabled body)
  | .quote .. | .list .. => true

def areAccounted (enabled : List Extension) : List Block → Bool
  | [] => true
  | block :: blocks => isAccounted enabled block && areAccounted enabled blocks

end

/-- The blocks of a page hold all of its text, and so do those inside admonitions. -/
def isPageAccounted (enabled : List Extension) (page : Text) : Bool :=
  raws (ofText enabled page) == source page && areAccounted enabled (ofText enabled page)

def isAdmonition : Block → Bool
  | .directive _ opened _ => isAdmonitionName opened.name
  | .leaf .. | .quote .. | .list .. => false

def closingOffset (raw fence : Text) : Nat :=
  1 + ((lines raw).drop 1).findIdx (Directive.closes (fence.headD '`') fence.length)

@[simp] theorem raws_block (block : Block) (blocks : List Block) :
    raws (block :: blocks) = block.raw ++ raws blocks :=
  List.flatMap_cons

end Block

structure Fenced (directive : Directive) (raw below : Text) (opening : Directive.Opening)
    (first : Text) (inner : List Text) (last : Text) (after : List Text) : Prop where
  closed : Directive.Closed directive opening first inner last
  cut : lines (raw ++ below) = first :: (inner ++ last :: after)
  newlines : ∃ tail, raw = joinLines (first :: (inner ++ [last])) ++ tail ∧
    (∀ c ∈ tail, c = '\n') ∧ tail ++ below = linesBelow after

namespace Fenced

variable {directive : Directive} {raw below first last : Text} {opening : Directive.Opening}
  {inner after : List Text}

theorem of_read {enabled : List Extension} {body : List Block}
    (read : Block.IsReadDirective enabled (raw ++ below) raw directive body)
    (closed : directive.closed = true) :
    ∃ opening first inner last after, Fenced directive raw below opening first inner last after := by
  obtain ⟨taken, rest, tail, -, -, found, split, whole, newlines, -⟩ := read
  obtain ⟨opening, first, inner, last, shape, split', ended⟩ :=
    Directive.closed_of_read found closed
  have same : taken = joinLines (first :: (inner ++ [last])) :=
    List.append_cancel_right (split.symm.trans split')
  have single := shape.single
  obtain ⟨after, below_eq, clean⟩ : ∃ after, rest = linesBelow after ∧
      ∀ line ∈ after, '\n' ∉ line := by
    rcases line_end_cases ended with rfl | ⟨more, rfl⟩
    · exact ⟨[], rfl, by simp⟩
    · refine ⟨lines more, ?_, fun line => no_newline_of_mem_lines⟩
      rw [lines_below_of_ne_nil (lines_ne_nil more), join_lines_of_lines]
  refine ⟨opening, first, inner, last, after, shape, ?_, tail, by rw [whole, same], newlines, ?_⟩
  · have joined : raw ++ below = joinLines (first :: (inner ++ last :: after)) := by
      rw [split, same, below_eq, join_lines_cons, join_lines_cons, List.append_assoc,
        ← lines_below_append, List.append_assoc, List.singleton_append]
    rw [joined, lines_join_lines (by simp)]
    intro line member
    rcases List.mem_cons.mp member with rfl | member
    · exact single _ (by simp)
    · rcases List.mem_append.mp member with member | member
      · exact single _ (by simp [member])
      · rcases List.mem_cons.mp member with rfl | member
        · exact single _ (by simp)
        · exact clean _ member
  · rw [← below_eq]
    rw [whole, List.append_assoc] at split
    exact List.append_cancel_left split

theorem newline_count_raw (fenced : Fenced directive raw below opening first inner last after)
    {tail : Text} (whole : raw = joinLines (first :: (inner ++ [last])) ++ tail) :
    newlineCount raw = inner.length + 1 + newlineCount tail := by
  have count := newline_count_join_lines (by simp) fenced.closed.single
  rw [whole, newline_count_append]
  simp only [List.length_cons, List.length_append, List.length_nil] at count
  omega

theorem closing_offset_eq
    (fenced : Fenced directive raw below opening first inner last after) :
    Block.closingOffset raw directive.fence = 1 + inner.length := by
  obtain ⟨tail, whole, newlines, -⟩ := fenced.newlines
  obtain ⟨-, long, marks⟩ := Directive.fence_of_opening fenced.closed.opens
  have mark : opening.fence.headD '`' = opening.mark := by
    cases fence : opening.fence with
    | nil =>
        rw [fence, List.length_nil] at long
        omega
    | cons c fence' => exact marks c (by simp [fence])
  obtain ⟨more, cut⟩ : ∃ more, lines raw = first :: (inner ++ last :: more) := by
    have joined := lines_join_lines (by simp) fenced.closed.single
    cases tail with
    | nil =>
        rw [List.append_nil] at whole
        exact ⟨[], whole ▸ joined⟩
    | cons c tail =>
        rw [newlines c (by simp)] at whole
        refine ⟨lines tail, ?_⟩
        rw [whole, lines_append_newline, joined]
        simp
  have index : (inner ++ last :: more).findIdx (Directive.closes opening.mark
      opening.fence.length) = inner.length := by
    refine (List.findIdx_eq (by simp)).mpr ⟨?_, fun other above => ?_⟩
    · simpa using fenced.closed.closing
    · rw [List.getElem_append_left above]
      exact fenced.closed.inside _ (List.getElem_mem above)
  rw [Block.closingOffset, fenced.closed.fence, mark, cut, List.drop_one, List.tail_cons, index]

theorem lines_raws {body blocks : List Block}
    (fenced : Fenced directive raw (Block.raws blocks) opening first inner last after) :
    lines (Block.raws (.directive raw directive body :: blocks)) =
      first :: (inner ++ last :: after) := by
  rw [Block.raws_block]
  exact fenced.cut

end Fenced

/-- Blocks that hold all the text that stands from the given line of a page on. -/
structure Level (enabled : List Extension) (pageLines : List Text) (line : Nat)
    (blocks : List Block) : Prop where
  read : ∀ front block others, blocks = front ++ block :: others →
    block.AsRead enabled (Block.raws (block :: others))
  accounted : Block.areAccounted enabled blocks = true
  stands : StandsAt pageLines line (Block.raws blocks)

namespace Level

variable {enabled : List Extension} {pageLines : List Text} {line : Nat} {block : Block}
  {blocks body : List Block} {raw : Text} {directive : Directive}

theorem of_page {page : Text} (accounted : Block.isPageAccounted enabled page = true) :
    Level enabled (lines (normalizeLineEnds page)) 0 (Block.ofText enabled page) := by
  rw [Block.isPageAccounted, Bool.and_eq_true, beq_iff_eq] at accounted
  obtain ⟨whole, accounted⟩ := accounted
  refine ⟨fun front block others cut => ?_, accounted, whole ▸ StandsAt.source page⟩
  exact as_read_of_whole enabled _ true cut (cut ▸ whole)

theorem first (level : Level enabled pageLines line (block :: blocks)) :
    block.AsRead enabled (block.raw ++ Block.raws blocks) :=
  Block.raws_block block blocks ▸ level.read [] block blocks rfl

theorem below (level : Level enabled pageLines line (block :: blocks)) :
    Level enabled pageLines (line + newlineCount block.raw) blocks := by
  refine ⟨fun front other others cut => ?_, ?_, ?_⟩
  · exact level.read (block :: front) other others (by rw [cut, List.cons_append])
  · have accounted := level.accounted
    rw [Block.areAccounted, Bool.and_eq_true] at accounted
    exact accounted.2
  · exact (Block.raws_block block blocks ▸ level.stands).drop

theorem admonition_accounted
    (level : Level enabled pageLines line (.directive raw directive body :: blocks))
    (isAdmonition : isAdmonitionName directive.name = true) :
    directive.closed = true ∧ Block.raws body = expandLeadingTabs directive.body ∧
      Block.areAccounted enabled body = true := by
  have accounted := level.accounted
  rw [Block.areAccounted, Block.isAccounted, isAdmonition] at accounted
  simp only [Bool.not_true, Bool.false_or, Bool.and_eq_true, beq_iff_eq] at accounted
  exact ⟨accounted.1.1.1, accounted.1.1.2, accounted.1.2⟩

theorem fenced (level : Level enabled pageLines line (.directive raw directive body :: blocks))
    (isAdmonition : isAdmonitionName directive.name = true) :
    ∃ opening first inner last after,
      Fenced directive raw (Block.raws blocks) opening first inner last after :=
  Fenced.of_read level.first.2.2 (level.admonition_accounted isAdmonition).1

/-- The blocks inside an admonition are a level one line below its opening line;
without lines inside there are none. -/
theorem inside (level : Level enabled pageLines line (.directive raw directive body :: blocks))
    (isAdmonition : isAdmonitionName directive.name = true) :
    body = [] ∨ Level enabled pageLines (line + 1) body := by
  obtain ⟨closed, whole, accounted⟩ := level.admonition_accounted isAdmonition
  obtain ⟨opening, first, inner, last, after, fenced⟩ := level.fenced isAdmonition
  obtain ⟨-, -, -, fuel, paragraphs, -, -, -, -, read⟩ := level.first.2.2
  replace read := read isAdmonition
  rw [fenced.closed.content] at read whole
  cases inner with
  | nil =>
      -- nothing is read from an empty body
      left
      rw [read]
      cases fuel <;> rfl
  | cons line' inner =>
      refine .inr ⟨fun front block others cut => ?_, accounted, ?_⟩
      · exact as_read_of_whole enabled fuel paragraphs (read ▸ cut) (cut ▸ whole)
      · rw [whole]
        exact level.stands.inner fenced.lines_raws (by simp)

theorem newline_count_inside
    (level : Level enabled pageLines line (.directive raw directive body :: blocks))
    (isAdmonition : isAdmonitionName directive.name = true) :
    newlineCount (Block.raws body) + 2 = max 2 (Block.closingOffset raw directive.fence) := by
  obtain ⟨-, whole, -⟩ := level.admonition_accounted isAdmonition
  obtain ⟨opening, first, inner, last, after, fenced⟩ := level.fenced isAdmonition
  rw [fenced.closing_offset_eq, whole, fenced.closed.content,
    (TabsAsSpaces.of_expand _).newline_count]
  cases inner with
  | nil => rfl
  | cons line' inner =>
      have single : ∀ piece ∈ line' :: inner, '\n' ∉ piece :=
        fun piece member => fenced.closed.single piece
          (List.mem_cons_of_mem _ (List.mem_append_left _ member))
      have count := newline_count_join_lines (by simp) single
      omega

theorem closing_offset_within
    (level : Level enabled pageLines line (.directive raw directive body :: blocks))
    (isAdmonition : isAdmonitionName directive.name = true) :
    1 ≤ Block.closingOffset raw directive.fence ∧
      Block.closingOffset raw directive.fence ≤ newlineCount raw := by
  obtain ⟨opening, first, inner, last, after, fenced⟩ := level.fenced isAdmonition
  obtain ⟨tail, whole, -⟩ := fenced.newlines
  rw [fenced.closing_offset_eq, fenced.newline_count_raw whole]
  omega

/-- What holds of a level follows from the blocks below its first one, and for an
admonition also from the blocks inside it. -/
theorem induction {line : Nat} {blocks : List Block}
    (level : Level enabled pageLines line blocks) {motive : Nat → List Block → Prop}
    (nil : ∀ line, motive line [])
    (other : ∀ line block blocks, Level enabled pageLines line (block :: blocks) →
      block.isAdmonition = false → motive (line + newlineCount block.raw) blocks →
      motive line (block :: blocks))
    (admonition : ∀ line raw directive body blocks,
      Level enabled pageLines line (.directive raw directive body :: blocks) →
      isAdmonitionName directive.name = true → motive (line + 1) body →
      motive (line + newlineCount raw) blocks → motive line (.directive raw directive body :: blocks)) :
    motive line blocks := by
  match blocks with
  | [] => exact nil line
  | .directive raw directive body :: blocks =>
      have later := level.below.induction nil other admonition
      by_cases isAdmonition : isAdmonitionName directive.name = true
      · refine admonition line raw directive body blocks level isAdmonition ?_ later
        rcases level.inside isAdmonition with rfl | inside
        · exact nil _
        · exact inside.induction nil other admonition
      · exact other line _ blocks level (Bool.eq_false_iff.mpr isAdmonition) later
  | .leaf raw content :: blocks =>
      exact other line _ blocks level rfl (level.below.induction nil other admonition)
  | .quote raw text body :: blocks =>
      exact other line _ blocks level rfl (level.below.induction nil other admonition)
  | .list raw items :: blocks =>
      exact other line _ blocks level rfl (level.below.induction nil other admonition)
termination_by sizeOf blocks

end Level

end LessonBook
