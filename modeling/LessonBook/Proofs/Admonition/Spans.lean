import LessonBook.Proofs.Admonition.Search

/-!
The spans of the admonitions of a page, read off its blocks: each begins with
the opening line of its directive and ends with the line that closed it. Locating
finds these spans, or the first admonition that has no line inside.
-/

namespace LessonBook

open Text BlockReader

namespace AdmonitionSpan

mutual

def ofBlock (line : Nat) : Block → List AdmonitionSpan
  | .directive raw opened body =>
      if isAdmonitionName opened.name then
        ⟨line, line + Block.closingOffset raw opened.fence, opened.name,
          if opened.args.isEmpty then none else some opened.args⟩ :: ofBlocks (line + 1) body
      else []
  | .leaf .. | .quote .. | .list .. => []

def ofBlocks (line : Nat) : List Block → List AdmonitionSpan
  | [] => []
  | block :: blocks => ofBlock line block ++ ofBlocks (line + newlineCount block.raw) blocks

end

def isBare (span : AdmonitionSpan) : Bool :=
  span.endLine == span.startLine + 1

def refuseBare (spans : List AdmonitionSpan) : Except StructureError (List AdmonitionSpan) :=
  match spans.find? isBare with
  | some span => .error (.unfinishedAdmonition (span.startLine + 1))
  | none => .ok spans

theorem refuse_bare_append (front back : List AdmonitionSpan) :
    refuseBare (front ++ back) =
      (refuseBare front).bind fun spans => (refuseBare back).map fun more => spans ++ more := by
  unfold refuseBare
  rw [List.find?_append]
  cases front.find? isBare with
  | some span => rfl
  | none =>
      rw [Option.none_or]
      cases back.find? isBare <;> rfl

theorem refuse_bare_cons {span : AdmonitionSpan} (wide : isBare span = false)
    (spans : List AdmonitionSpan) :
    refuseBare (span :: spans) = (refuseBare spans).map fun inner => span :: inner := by
  unfold refuseBare
  rw [List.find?_cons_of_neg (by rw [wide]; simp)]
  cases spans.find? isBare <;> rfl

theorem of_block_of_other {block : Block} (other : block.isAdmonition = false) (line : Nat) :
    ofBlock line block = [] := by
  cases block with
  | directive raw opened body => exact if_neg (Bool.eq_false_iff.mp other)
  | leaf => rfl
  | quote => rfl
  | list => rfl

theorem of_blocks_of_other {block : Block} (other : block.isAdmonition = false) (line : Nat)
    (blocks : List Block) :
    ofBlocks line (block :: blocks) = ofBlocks (line + newlineCount block.raw) blocks := by
  rw [ofBlocks, of_block_of_other other, List.nil_append]

variable {enabled : List Extension} {pageLines : List Text} {line : Nat} {blocks body : List Block}
  {raw : Text} {directive : Directive} {insideLink : Bool}

theorem node_of_admonition (isAdmonition : isAdmonitionName directive.name = true) :
    (Node.ofBlock enabled line insideLink (.directive raw directive body)).1 =
      some (.admonition directive.name
        (if directive.args.isEmpty then none else some directive.args) .fence line
        (Node.ofBlocks enabled (line + 1) insideLink body).1) := by
  rw [Node.ofBlock, if_pos isAdmonition]

theorem node_of_other {block : Block} {node : Node}
    (accounted : block.isAccounted enabled = true) (other : block.isAdmonition = false)
    (found : (Node.ofBlock enabled line insideLink block).1 = some node) :
    (∃ name args body, node = .directive name args body line) ∨
      ∃ kind text names, node = .block kind text names line := by
  cases block with
  | leaf raw content =>
      rw [Block.isAccounted, Option.isNone_iff_eq_none] at accounted
      simp only [Node.ofBlock, accounted] at found
      split at found
      · cases found
      · cases found
        exact .inr ⟨_, _, _, rfl⟩
  | directive raw opened body =>
      have otherName : ¬isAdmonitionName opened.name = true := Bool.eq_false_iff.mp other
      rw [Node.ofBlock, if_neg otherName] at found
      cases found
      exact .inl ⟨_, _, _, rfl⟩
  | quote raw text body =>
      cases found
      exact .inr ⟨_, _, _, rfl⟩
  | list raw items =>
      cases found
      exact .inr ⟨_, _, _, rfl⟩

theorem nodes_cons (enabled : List Extension) (line : Nat) (insideLink : Bool) (block : Block)
    (blocks : List Block) :
    (Node.ofBlocks enabled (line + 1) insideLink (block :: blocks)).1 =
      (Node.ofBlock enabled (line + 1) insideLink block).1.toList ++
        (Node.ofBlocks enabled (line + newlineCount block.raw + 1)
          (Node.ofBlock enabled (line + 1) insideLink block).2 blocks).1 := by
  rw [Node.of_blocks_cons, Nat.add_right_comm]

theorem of_nodes_of_other {block : Block} {bound : Nat} (bound' : Nat)
    (accounted : block.isAccounted enabled = true) (other : block.isAdmonition = false)
    (same : bound = bound') :
    ofNodes pageLines bound (Node.ofBlocks enabled (line + 1) insideLink (block :: blocks)).1 =
      ofNodes pageLines bound' (Node.ofBlocks enabled (line + newlineCount block.raw + 1)
        (Node.ofBlock enabled (line + 1) insideLink block).2 blocks).1 := by
  rw [nodes_cons, same]
  cases found : (Node.ofBlock enabled (line + 1) insideLink block).1 with
  | none => rfl
  | some node =>
      have none (above : Nat) : ofNode pageLines above node = .ok [] := by
        rcases node_of_other accounted other found with
          ⟨name, args, body, rfl⟩ | ⟨kind, text, names, rfl⟩ <;> rfl
      rw [Option.toList_some, List.singleton_append, of_nodes_cons, none]
      generalize ofNodes pageLines bound' _ = more
      cases more <;> rfl

/-- The span of an admonition is found, unless it is bare, and then those inside it. -/
theorem of_node_of_admonition
    (level : Level enabled pageLines line (.directive raw directive body :: blocks))
    (isAdmonition : isAdmonitionName directive.name = true) (link : Bool)
    (inside : ofNodes pageLines (line + 1 + newlineCount (Block.raws body))
      (Node.ofBlocks enabled (line + 1 + 1) insideLink body).1 =
        refuseBare (ofBlocks (line + 1) body)) :
    ofNode pageLines
        (boundAbove (line + newlineCount (Block.raws (.directive raw directive body :: blocks)))
          (Node.ofBlocks enabled (line + newlineCount raw + 1) link blocks).1)
        (.admonition directive.name
          (if directive.args.isEmpty then none else some directive.args) .fence (line + 1)
          (Node.ofBlocks enabled (line + 1 + 1) insideLink body).1) =
      refuseBare (ofBlock line (.directive raw directive body)) := by
  rw [ofNode, Nat.add_sub_cancel, level.closing_line isAdmonition, ofBlock, if_pos isAdmonition]
  by_cases bare : Block.closingOffset raw directive.fence = 1
  · rw [if_pos bare, bare, refuseBare, List.find?_cons_of_pos (by simp [isBare])]
  · have count := level.newline_count_inside isAdmonition
    have wide := (level.closing_offset_within isAdmonition).1
    have bound : line + Block.closingOffset raw directive.fence - 1 =
        line + 1 + newlineCount (Block.raws body) := by omega
    rw [if_neg bare, refuse_bare_cons (by simp [isBare, bare])]
    simp only [bound, inside]
    cases refuseBare (ofBlocks (line + 1) body) <;> rfl

theorem of_nodes_eq (level : Level enabled pageLines line blocks) (insideLink : Bool) :
    ofNodes pageLines (line + newlineCount (Block.raws blocks))
        (Node.ofBlocks enabled (line + 1) insideLink blocks).1 =
      refuseBare (ofBlocks line blocks) := by
  refine level.induction (motive := fun line blocks => ∀ insideLink,
    ofNodes pageLines (line + newlineCount (Block.raws blocks))
        (Node.ofBlocks enabled (line + 1) insideLink blocks).1 =
      refuseBare (ofBlocks line blocks)) ?_ ?_ ?_ insideLink
  · intro line insideLink
    rfl
  · intro line block blocks level other later insideLink
    have accounted := level.accounted
    rw [Block.areAccounted, Bool.and_eq_true] at accounted
    have bound : line + newlineCount (Block.raws (block :: blocks)) =
        line + newlineCount block.raw + newlineCount (Block.raws blocks) := by
      rw [Block.raws_block, newline_count_append, Nat.add_assoc]
    rw [of_nodes_of_other _ accounted.1 other bound, of_blocks_of_other other, later]
  · intro line raw directive body blocks level isAdmonition inside later insideLink
    have bound : line + newlineCount (Block.raws (.directive raw directive body :: blocks)) =
        line + newlineCount raw + newlineCount (Block.raws blocks) := by
      rw [Block.raws_block, newline_count_append, Nat.add_assoc]
      rfl
    rw [nodes_cons, node_of_admonition isAdmonition, Option.toList_some, List.singleton_append,
      of_nodes_cons, ofBlocks, refuse_bare_append]
    simp only [Block.raw]
    rw [of_node_of_admonition level isAdmonition _ (inside insideLink), bound, later]

end AdmonitionSpan

end LessonBook
