import LessonBook.Proofs.Admonition.Spans

/-!
Locating the admonitions of a page agrees with reading it: there is one span for
each admonition of the tree, it ends where the directive was closed, and spans
are apart or one stands inside the other.
-/

namespace LessonBook

open Text BlockReader

def Node.opening? : Node → Option (Nat × Text × Option Text)
  | .admonition type title _ line _ => some (line, type, title)
  | .directive .. | .block .. => none

theorem Node.preorder_all_append (front back : List Node) :
    preorderAll (front ++ back) = preorderAll front ++ preorderAll back := by
  induction front with
  | nil => rfl
  | cons node front induction =>
      rw [List.cons_append, preorderAll, preorderAll, induction, List.append_assoc]

namespace AdmonitionSpan

def Precedes (outer inner : AdmonitionSpan) : Prop :=
  outer.endLine < inner.startLine ∨
    (outer.startLine < inner.startLine ∧ inner.endLine < outer.endLine)

/-- The span goes from a line that ends with the opening line of a directive to
the first line below it that closes the directive. -/
def StandsIn (pageLines : List Text) (span : AdmonitionSpan) : Prop :=
  ∃ front opening first inner last,
    Directive.opening? first = some (opening, []) ∧ span.type = trim opening.name ∧
      span.title = (if (trim opening.args).isEmpty then none else some (trim opening.args)) ∧
      span.endLine = span.startLine + 1 + inner.length ∧
      (∃ written, pageLines[span.startLine]? = some written ∧
        TabsAsSpaces written (front ++ first)) ∧
      (∀ index line, (inner ++ [last])[index]? = some line →
        ∃ written, pageLines[span.startLine + 1 + index]? = some written ∧
          TabsAsSpaces written line) ∧
      (∀ line ∈ inner, Directive.closes opening.mark opening.fence.length line = false) ∧
      Directive.closes opening.mark opening.fence.length last = true

variable {enabled : List Extension} {pageLines : List Text} {line : Nat} {blocks body : List Block}
  {raw : Text} {directive : Directive} {span : AdmonitionSpan}

/-- There is one span for each admonition, in the order of the tree. -/
theorem openings_eq (level : Level enabled pageLines line blocks) (insideLink : Bool) :
    (Node.preorderAll (Node.ofBlocks enabled (line + 1) insideLink blocks).1).filterMap
        Node.opening? =
      (ofBlocks line blocks).map fun span => (span.startLine + 1, span.type, span.title) := by
  refine level.induction (motive := fun line blocks => ∀ insideLink,
    (Node.preorderAll (Node.ofBlocks enabled (line + 1) insideLink blocks).1).filterMap
        Node.opening? =
      (ofBlocks line blocks).map fun span => (span.startLine + 1, span.type, span.title))
    ?_ ?_ ?_ insideLink
  · intro line insideLink
    rfl
  · intro line block blocks level other later insideLink
    have accounted := level.accounted
    rw [Block.areAccounted, Bool.and_eq_true] at accounted
    rw [nodes_cons, of_blocks_of_other other, Node.preorder_all_append, List.filterMap_append,
      later]
    cases found : (Node.ofBlock enabled (line + 1) insideLink block).1 with
    | none => rfl
    | some node =>
        rcases node_of_other accounted.1 other found with
          ⟨name, args, body, rfl⟩ | ⟨kind, text, names, rfl⟩ <;> rfl
  · intro line raw directive body blocks level isAdmonition inside later insideLink
    rw [nodes_cons, node_of_admonition isAdmonition, Node.preorder_all_append,
      List.filterMap_append, ofBlocks, List.map_append, ofBlock, if_pos isAdmonition]
    simp only [Block.raw]
    rw [later, Option.toList_some, Node.preorderAll, Node.preorderAll, List.append_nil,
      Node.preorder, List.filterMap_cons, inside]
    rfl

theorem of_blocks_within (level : Level enabled pageLines line blocks) :
    ∀ span ∈ ofBlocks line blocks, line ≤ span.startLine ∧ span.startLine < span.endLine ∧
      span.endLine ≤ line + newlineCount (Block.raws blocks) := by
  refine level.induction (motive := fun line blocks => ∀ span ∈ ofBlocks line blocks,
    line ≤ span.startLine ∧ span.startLine < span.endLine ∧
      span.endLine ≤ line + newlineCount (Block.raws blocks)) ?_ ?_ ?_
  · intro line span member
    cases member
  · intro line block blocks level other later span member
    rw [of_blocks_of_other other] at member
    have within := later span member
    rw [Block.raws_block, newline_count_append]
    omega
  · intro line raw directive body blocks level isAdmonition inside later span member
    have offset := level.closing_offset_within isAdmonition
    have count := level.newline_count_inside isAdmonition
    rw [ofBlocks, ofBlock, if_pos isAdmonition, List.cons_append, List.mem_cons,
      List.mem_append] at member
    rw [Block.raws_block, newline_count_append]
    simp only [Block.raw] at member ⊢
    rcases member with rfl | member | member
    · simp only []
      omega
    · have within := inside span member
      omega
    · have within := later span member
      omega

theorem first_node_above (level : Level enabled pageLines line blocks)
    (member : span ∈ ofBlocks line blocks) (insideLink : Bool) :
    ∃ next others, (Node.ofBlocks enabled (line + 1) insideLink blocks).1 = next :: others ∧
      next.line ≤ span.startLine + 1 := by
  induction blocks generalizing line insideLink with
  | nil => cases member
  | cons block blocks induction =>
      have here := Block.node_line enabled (line + 1) insideLink block
      rw [nodes_cons]
      cases space : block.isSpace with
      | true =>
          have other : block.isAdmonition = false := by
            cases block with
            | directive => cases space
            | leaf => rfl
            | quote => rfl
            | list => rfl
          rw [space, if_pos rfl, Option.map_eq_none_iff] at here
          rw [of_blocks_of_other other] at member
          rw [here, Option.toList_none, List.nil_append]
          exact induction level.below member _
      | false =>
          rw [space, if_neg (by simp), Option.map_eq_some_iff] at here
          obtain ⟨node, found, line_eq⟩ := here
          have within := of_blocks_within level span member
          rw [found, Option.toList_some, List.singleton_append]
          exact ⟨node, _, rfl, by omega⟩

theorem closing_line_above
    (level : Level enabled pageLines line (.directive raw directive body :: blocks))
    (isAdmonition : isAdmonitionName directive.name = true)
    (member : span ∈ ofBlocks (line + newlineCount raw) blocks) :
    line + Block.closingOffset raw directive.fence < span.startLine := by
  obtain ⟨opening, first, inner, last, after, fenced⟩ := level.fenced isAdmonition
  obtain ⟨reached, -⟩ := level.blank_until_bound fenced false
  obtain ⟨next, others, nodes, above⟩ := first_node_above level.below member false
  simp only [Block.raw] at nodes
  rw [nodes, boundAbove] at reached
  rw [fenced.closing_offset_eq]
  omega

/-- Of two spans the second is below the first one or inside it. -/
theorem of_blocks_pairwise (level : Level enabled pageLines line blocks) :
    (ofBlocks line blocks).Pairwise Precedes := by
  refine level.induction (motive := fun line blocks => (ofBlocks line blocks).Pairwise Precedes)
    ?_ ?_ ?_
  · intro line
    exact .nil
  · intro line block blocks level other later
    rw [of_blocks_of_other other]
    exact later
  · intro line raw directive body blocks level isAdmonition inside later
    have count := level.newline_count_inside isAdmonition
    have within : ∀ span ∈ ofBlocks (line + 1) body, line + 1 ≤ span.startLine ∧
        span.startLine < span.endLine ∧
        span.endLine ≤ line + 1 + newlineCount (Block.raws body) := by
      rcases level.inside isAdmonition with rfl | level'
      · intro span member
        cases member
      · exact of_blocks_within level'
    -- its span encloses those of its body, and all of these end above what follows
    rw [ofBlocks, ofBlock, if_pos isAdmonition, List.pairwise_append, List.pairwise_cons]
    refine ⟨⟨fun span member => ?_, inside⟩, later, fun span member other below => .inl ?_⟩
    · have here := within span member
      refine .inr ⟨?_, ?_⟩
      · simp only []
        omega
      · simp only []
        omega
    · have above := closing_line_above level isAdmonition below
      rcases List.mem_cons.mp member with rfl | member
      · exact above
      · have here := within span member
        omega

theorem of_blocks_stand (level : Level enabled pageLines line blocks) :
    ∀ span ∈ ofBlocks line blocks, StandsIn pageLines span := by
  refine level.induction (motive := fun line blocks =>
    ∀ span ∈ ofBlocks line blocks, StandsIn pageLines span) ?_ ?_ ?_
  · intro line span member
    cases member
  · intro line block blocks level other later span member
    rw [of_blocks_of_other other] at member
    exact later span member
  · intro line raw directive body blocks level isAdmonition inside later span member
    rw [ofBlocks, ofBlock, if_pos isAdmonition, List.cons_append, List.mem_cons,
      List.mem_append] at member
    rcases member with rfl | member | member
    · obtain ⟨opening, first, inner, last, after, fenced⟩ := level.fenced isAdmonition
      obtain ⟨front, written, found, same⟩ := level.stands.first_line fenced.lines_raws
      refine ⟨front, opening, first, inner, last, fenced.closed.opens, fenced.closed.name, ?_, ?_,
        ⟨written, found, same⟩, ?_, fenced.closed.inside, fenced.closed.closing⟩
      · rw [← fenced.closed.args]
      · rw [fenced.closing_offset_eq, Nat.add_assoc]
      · intro index shown found
        have inside : (inner ++ last :: after)[index]? = some shown := by
          rw [← List.singleton_append, ← List.append_assoc, List.getElem?_append_left
            (List.getElem?_eq_some_iff.mp found).1, found]
        exact level.stands.line_below fenced.lines_raws inside
    · exact inside span member
    · exact later span member

/-- Locating finds one span for each admonition, from its opening line to the
line that closed it, unless one has no line inside; then the first such is the error. -/
theorem locate_of_accounted (enabled : List Extension) (page : Text) (tree : Tree)
    (accounted : Block.isPageAccounted enabled page = true)
    (read : Tree.ofText ⟨enabled, .severe⟩ page = .ok tree) :
    let spans := ofBlocks 0 (Block.ofText enabled page)
    locate ⟨enabled, .severe⟩ page =
        (match spans.find? isBare with
        | some span => .error (.unfinishedAdmonition (span.startLine + 1))
        | none => .ok spans) ∧
      (Node.preorderAll tree.nodes).filterMap Node.opening? =
        spans.map (fun span => (span.startLine + 1, span.type, span.title)) ∧
      (∀ span ∈ spans, StandsIn (lines (normalizeLineEnds page)) span) ∧
      spans.Pairwise Precedes := by
  intro spans
  have level := Level.of_page accounted
  rw [Tree.of_text_severe] at read
  cases read
  refine ⟨?_, openings_eq level false, of_blocks_stand level, of_blocks_pairwise level⟩
  have whole : Block.raws (Block.ofText enabled page) = Block.source page := by
    rw [Block.isPageAccounted, Bool.and_eq_true, beq_iff_eq] at accounted
    exact accounted.1
  have bound : (lines (normalizeLineEnds page)).length - 1 =
      0 + newlineCount (Block.raws (Block.ofText enabled page)) := by
    rw [length_lines, whole, Block.source, (TabsAsSpaces.of_expand _).newline_count]
    omega
  have found := of_nodes_eq level false
  rw [← bound] at found
  rw [locate, Tree.of_text_severe]
  exact found

/-- The inner admonition is closed by its own fence, and the last one by the last line. -/
theorem locate_nested :
    locate {} ":::\x7bnote\x7d Outer\n```\x7btip\x7d\ninner\n```\n:::\n\n```\x7bwarning\x7d\nlater\n```\n".toList =
      .ok [⟨0, 4, "note".toList, some "Outer".toList⟩, ⟨1, 3, "tip".toList, none⟩,
        ⟨6, 8, "warning".toList, none⟩] := by
  refine (locate_of_accounted Extension.all _ _ ?_ (Tree.of_text_severe ..)).1.trans ?_
  · decide +kernel
  · decide +kernel

end AdmonitionSpan

end LessonBook
