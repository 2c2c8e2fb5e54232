import LessonBook.Proofs.Admonition.Level

/-!
The search for the end of an admonition, upwards from the next block or from the
end of its level, stops at the line that closed its directive: between the two
there is nothing but space.
-/

namespace LessonBook

open Text BlockReader

namespace AdmonitionSpan

def boundAbove (bound : Nat) : List Node → Nat
  | [] => bound
  | next :: _ => next.line - 2

theorem of_nodes_cons (pageLines : List Text) (bound : Nat) (node : Node) (nodes : List Node) :
    ofNodes pageLines bound (node :: nodes) =
      (ofNode pageLines (boundAbove bound nodes) node).bind fun spans =>
        (ofNodes pageLines bound nodes).map fun more => spans ++ more := by
  cases nodes with
  | nil =>
      rw [ofNodes, boundAbove, ofNodes]
      cases ofNode pageLines bound node with
      | error problem => rfl
      | ok spans => exact congrArg Except.ok (List.append_nil spans).symm
  | cons next others =>
      rw [ofNodes, boundAbove]
      cases ofNode pageLines (next.line - 2) node <;>
        cases ofNodes pageLines bound (next :: others) <;> rfl

end AdmonitionSpan

theorem blank_of_space {c : Char} (space : c = ' ' ∨ c = '\n') : isBlank c = true := by
  rcases space with rfl | rfl <;> decide

namespace Fenced

variable {directive : Directive} {raw below blank rest first last : Text}
  {opening : Directive.Opening} {inner after : List Text}

theorem blank_below (fenced : Fenced directive raw below opening first inner last after)
    (blanks : ∀ c ∈ below, c = ' ' ∨ c = '\n') :
    ∀ shown ∈ after, ∀ c ∈ shown, isBlank c = true := by
  obtain ⟨tail, -, newlines, whole⟩ := fenced.newlines
  intro shown among c member
  have inside := mem_lines_below among member
  rw [← whole] at inside
  apply blank_of_space
  rcases List.mem_append.mp inside with inside | inside
  · exact .inr (newlines c inside)
  · exact blanks c inside

/-- Down to the next text that is no space, the lines below a directive are blank;
this text begins on a line of its own. -/
theorem blank_above (fenced : Fenced directive raw (blank ++ rest) opening first inner last after)
    (blanks : ∀ c ∈ blank, c = ' ' ∨ c = '\n') (present : rest ≠ [])
    (plain : rest.head? ≠ some '\n') :
    inner.length + 1 < newlineCount raw + newlineCount blank ∧
      ∀ index, inner.length + 2 + index < newlineCount raw + newlineCount blank →
        ∃ shown, after[index]? = some shown ∧ ∀ c ∈ shown, isBlank c = true := by
  obtain ⟨tail, raw_eq, newlines, whole⟩ := fenced.newlines
  have count := fenced.newline_count_raw raw_eq
  have spaces : ∀ c ∈ tail ++ blank, c = ' ' ∨ c = '\n' := fun c member => by
    rcases List.mem_append.mp member with member | member
    · exact .inr (newlines c member)
    · exact blanks c member
  have total := newline_count_append tail blank
  rw [← List.append_assoc] at whole
  generalize tail ++ blank = space at spaces total whole
  cases after with
  | nil =>
      rw [lines_below_nil, List.append_eq_nil_iff] at whole
      exact absurd whole.2 present
  | cons line after =>
      rw [lines_below_of_cons] at whole
      cases space with
      | nil =>
          rw [List.nil_append] at whole
          rw [whole] at plain
          exact absurd rfl plain
      | cons c space =>
          -- the space begins with the newline that ends the closing line
          rw [List.cons_append, List.cons.injEq] at whole
          obtain ⟨rfl, whole⟩ := whole
          rw [newline_count_newline] at total
          refine ⟨by omega, ?_⟩
          intro index above
          have single : ∀ piece ∈ line :: after, '\n' ∉ piece := fun piece member => by
            have among : piece ∈ lines (raw ++ (blank ++ rest)) := by
              rw [fenced.cut]
              simp [List.mem_cons.mp member]
            exact no_newline_of_mem_lines among
          have cut := lines_join_lines (by simp) single
          rw [← whole] at cut
          have inside : index < (lines (space ++ rest)).length := by
            rw [length_lines, newline_count_append]
            omega
          refine ⟨(lines (space ++ rest))[index], ?_, fun c member => ?_⟩
          · rw [← cut]
            exact List.getElem?_eq_getElem inside
          · have above : index < newlineCount space := by omega
            refine blank_of_space (spaces c (List.mem_cons_of_mem _ ?_))
            exact mem_front_of_get_line above (List.getElem?_eq_getElem inside) c member

end Fenced

namespace Level

open AdmonitionSpan

variable {enabled : List Extension} {pageLines : List Text} {line : Nat} {block : Block}
  {blocks body : List Block} {raw : Text} {directive : Directive}

theorem next_node (level : Level enabled pageLines line blocks) (insideLink : Bool) :
    ((Node.ofBlocks enabled (line + 1) insideLink blocks).1 = [] ∧
      ∀ c ∈ Block.raws blocks, c = ' ' ∨ c = '\n') ∨
    ∃ next others blank rest,
      (Node.ofBlocks enabled (line + 1) insideLink blocks).1 = next :: others ∧
        Block.raws blocks = blank ++ rest ∧ (∀ c ∈ blank, c = ' ' ∨ c = '\n') ∧
        rest ≠ [] ∧ rest.head? ≠ some '\n' ∧ next.line = line + 1 + newlineCount blank := by
  induction blocks generalizing line insideLink with
  | nil => exact .inl ⟨rfl, by simp [Block.raws]⟩
  | cons block blocks induction =>
      obtain ⟨present, plain, same⟩ := level.first
      have standing := Block.node_line enabled (line + 1) insideLink block
      have later := induction level.below (Node.ofBlock enabled (line + 1) insideLink block).2
      rw [Nat.add_right_comm] at later
      rw [Node.of_blocks_cons, Block.raws_block]
      cases space : block.isSpace with
      | false =>
          rw [space, if_neg (by simp), Option.map_eq_some_iff] at standing
          obtain ⟨node, node_eq, here⟩ := standing
          rw [node_eq]
          exact .inr ⟨node, _, [], _, rfl, rfl, by simp, present, plain space, here⟩
      | true =>
          rw [space, if_pos rfl, Option.map_eq_none_iff] at standing
          have blank : ∀ c ∈ block.raw, c = ' ' ∨ c = '\n' := by
            cases block with
            | leaf raw content => exact same (of_decide_eq_true space)
            | directive => cases space
            | quote => cases space
            | list => cases space
          rw [standing]
          rcases later with ⟨none, blanks⟩ | ⟨next, others, front, rest, nodes, split, blanks,
            present', plain', here⟩
          · refine .inl ⟨none, ?_⟩
            intro c member
            rcases List.mem_append.mp member with member | member
            · exact blank c member
            · exact blanks c member
          · refine .inr ⟨next, others, block.raw ++ front, rest, nodes, by simp [split], ?_,
              present', plain', by rw [here, newline_count_append]; omega⟩
            intro c member
            rcases List.mem_append.mp member with member | member
            · exact blank c member
            · exact blanks c member

/-- Between the line that closes an admonition and the next node stand only blank lines. -/
theorem blank_until_bound {opening : Directive.Opening} {first last : Text}
    {inner after : List Text}
    (level : Level enabled pageLines line (.directive raw directive body :: blocks))
    (fenced : Fenced directive raw (Block.raws blocks) opening first inner last after)
    (insideLink : Bool) :
    let bound := boundAbove (line + newlineCount (Block.raws (.directive raw directive body :: blocks)))
      (Node.ofBlocks enabled (line + newlineCount raw + 1) insideLink blocks).1
    line + 1 + inner.length ≤ bound ∧
      ∀ index, line + 1 + inner.length + 1 + index ≤ bound →
        ∃ shown, after[index]? = some shown ∧ ∀ c ∈ shown, isBlank c = true := by
  intro bound
  have below := level.below.next_node insideLink
  simp only [Block.raw] at below
  rcases below with
    ⟨none, blanks⟩ | ⟨next, others, blank, rest, nodes, split, blanks, present, plain, here⟩
  · have length := length_lines (raw ++ Block.raws blocks)
    rw [fenced.cut] at length
    simp only [List.length_cons, List.length_append] at length
    have bound_eq : bound = line + newlineCount (raw ++ Block.raws blocks) := by
      simp only [bound, none, boundAbove, Block.raws_block, Block.raw]
    refine ⟨by omega, ?_⟩
    intro index above
    have within : index < after.length := by omega
    exact ⟨after[index], List.getElem?_eq_getElem within,
      fenced.blank_below blanks _ (List.getElem_mem within)⟩
  · obtain ⟨above, blank_lines⟩ :=
      (split ▸ fenced : Fenced directive raw (blank ++ rest) ..).blank_above blanks present plain
    have bound_eq : bound = line + newlineCount raw + 1 + newlineCount blank - 2 := by
      simp only [bound, nodes, boundAbove, here]
    exact ⟨by omega, fun index within => blank_lines index (by omega)⟩

theorem closing_line (level : Level enabled pageLines line (.directive raw directive body :: blocks))
    (isAdmonition : isAdmonitionName directive.name = true) (insideLink : Bool) :
    closingLine? pageLines line
        (boundAbove (line + newlineCount (Block.raws (.directive raw directive body :: blocks)))
          (Node.ofBlocks enabled (line + newlineCount raw + 1) insideLink blocks).1) =
      if Block.closingOffset raw directive.fence = 1 then none
      else some (line + Block.closingOffset raw directive.fence) := by
  obtain ⟨opening, first, inner, last, after, fenced⟩ := level.fenced isAdmonition
  obtain ⟨reached, blank⟩ := level.blank_until_bound fenced insideLink
  obtain ⟨isMark, long, -⟩ := Directive.fence_of_opening fenced.closed.opens
  have last_line : (inner ++ last :: after)[inner.length]? = some last := by simp
  have closing : (pageLines[line + 1 + inner.length]?).any isClosingLine = true := by
    rw [level.stands.closing_below fenced.lines_raws last_line]
    exact closing_of_closes isMark long fenced.closed.closing
  rw [closing_line_eq (by omega) reached closing, fenced.closing_offset_eq, Nat.add_assoc]
  · refine if_congr (by omega) rfl rfl
  · intro other lower upper
    obtain ⟨index, rfl⟩ := Nat.exists_eq_add_of_le (Nat.succ_le_of_lt lower)
    obtain ⟨shown, found, all⟩ := blank index upper
    have blank_line : (inner ++ last :: after)[inner.length + 1 + index]? = some shown := by
      rw [List.getElem?_append_right (by omega), Nat.add_assoc, Nat.add_sub_cancel_left,
        Nat.add_comm 1, List.getElem?_cons_succ, found]
    have standing := level.stands.closing_below fenced.lines_raws blank_line
    rw [not_closing_of_blank all, ← Nat.add_assoc, ← Nat.add_assoc] at standing
    exact standing

end Level

end LessonBook
