import LessonBook.Proofs.Admonition.BracketedLines
import LessonBook.Proofs.Markup.BlockStart
import LessonBook.Proofs.Text.TabExpansion

/-!
A second pass over a page whose admonitions were replaced. It finds nothing when
no line was kept or written on which an admonition may begin.
-/

namespace LessonBook

open Text Recognizer BlockReader

def divisionTag : Text := ['<', 'd', 'i', 'v']

/-- A line that opens an admonition stands at the front, or the tag of a division
that can be one. -/
def opensAdmonition (enabled : List Extension) (here : Text) : Bool :=
  ((Directive.opening? here).any fun (opening, _) =>
    isAdmonitionName (trim opening.name) &&
      (enabled.contains .colonFence || opening.mark != ':')) ||
  (enabled.contains .htmlAdmonition && (wordAnyCase divisionTag (indent here)).isSome)

def placesBehind : Text → List Text
  | [] => []
  | c :: rest =>
      if isTerminator c || c == '>' then rest :: placesBehind rest else placesBehind rest

def mayOpenAdmonition (enabled : List Extension) (line : Text) : Bool :=
  let shown := expandLeadingTabs line
  (shown :: placesBehind shown).any (opensAdmonition enabled)

variable {enabled : List Extension} {source here line : Text}

theorem mem_places_behind {c : Char} (isEnd : isTerminator c = true ∨ c = '>')
    (behind : c :: here <:+ line) : here ∈ placesBehind line := by
  induction line with
  | nil => cases List.suffix_nil.mp behind
  | cons d line induction =>
      rw [placesBehind]
      rcases List.suffix_cons_iff.mp behind with whole | inside
      · cases whole
        rw [if_pos (by simpa using isEnd)]
        exact List.mem_cons_self
      · split
        · exact List.mem_cons_of_mem _ (induction inside)
        · exact induction inside

theorem division_tag_before_end {tail : Text} (ended : atLineEnd tail = true) (line : Text) :
    wordAnyCase divisionTag (indent (line ++ tail)) =
      (wordAnyCase divisionTag (indent line)).map (· ++ tail) := by
  have left : indent (line ++ tail) = indent line ++ tail :=
    skip_up_to_before_end _ (by decide) ended 3 line
  rw [left]
  exact word_any_case_before_end _ (by simp [divisionTag]) ended _

theorem opens_first_line (opens : opensAdmonition enabled here = true) :
    opensAdmonition enabled (firstLine here) = true := by
  rw [opensAdmonition, Bool.or_eq_true, Bool.and_eq_true, Option.any_eq_true] at opens ⊢
  rcases opens with ⟨⟨opening, below⟩, read, named⟩ | ⟨html, tag⟩
  · exact .inl ⟨(opening, []), (Directive.opening_first_line read).1, named⟩
  · refine .inr ⟨html, ?_⟩
    have ended := Directive.after_first_line_ends here
    rw [← first_line_append_after here, division_tag_before_end ended, Option.isSome_map] at tag
    exact tag

theorem lower_of_blank {c : Char} (blank : isBlank c = true) : c.toLower = c := by
  apply dif_neg
  intro letter
  have lower : 65 ≤ c.toNat := UInt32.le_iff_toNat_le.mp letter.1
  have upper : c.toNat ≤ 90 := UInt32.le_iff_toNat_le.mp letter.2
  simp only [isBlank, Bool.or_eq_true, Bool.and_eq_true, decide_eq_true_eq, beq_iff_eq] at blank
  omega

theorem not_opens_of_blank (blank : ∀ c ∈ line, isBlank c = true) :
    opensAdmonition enabled line = false := by
  have inside : ∀ c ∈ indent line, isBlank c = true :=
    fun c member => blank c ((indent_suffix line).mem member)
  rw [Bool.eq_false_iff]
  intro opens
  rw [opensAdmonition, Bool.or_eq_true, Bool.and_eq_true, Option.any_eq_true] at opens
  rcases opens with ⟨⟨opening, below⟩, read, -⟩ | ⟨-, tag⟩
  · simp only [Directive.opening?, Option.bind_eq_bind, Option.bind_eq_some_iff] at read
    obtain ⟨mark, first, read⟩ := read
    split at read
    · cases read
    · rename_i isMark
      rw [Bool.not_eq_true', Bool.not_eq_false] at isMark
      have other := AdmonitionSpan.mark_not_blank isMark
      rw [inside mark (List.mem_of_head? first)] at other
      cases other
  · cases shown : indent line with
    | nil =>
        rw [shown] at tag
        cases tag
    | cons c rest =>
        have isBlank := inside c (by rw [shown]; exact List.mem_cons_self)
        rw [shown, divisionTag, wordAnyCase, lower_of_blank isBlank] at tag
        split at tag
        · rename_i same
          rw [beq_iff_eq] at same
          rw [← same] at isBlank
          cases isBlank
        · cases tag

/-- Where a block may begin that opens an admonition, a line may open one. -/
theorem Begins.line_opens (begun : Begins source here)
    (opens : opensAdmonition enabled here = true) :
    ∃ line ∈ lines source,
      (line :: placesBehind line).any (opensAdmonition enabled) = true := by
  have first := opens_first_line opens
  have at_front (member : firstLine here ∈ lines source) : ∃ line ∈ lines source,
      (line :: placesBehind line).any (opensAdmonition enabled) = true := by
    refine ⟨_, member, ?_⟩
    rw [List.any_cons, first, Bool.true_or]
  rcases begun.behind with rfl | blank | ⟨c, isEnd, behind⟩
  · exact at_front (first_line_mem_lines here)
  · rw [not_opens_of_blank blank] at first
    cases first
  · by_cases newline : c = '\n'
    · rw [newline] at behind
      obtain ⟨front, rfl⟩ := behind
      apply at_front
      rw [lines_append_newline]
      exact List.mem_append_right _ (first_line_mem_lines here)
    · obtain ⟨line, member, inside⟩ := first_line_suffix_line behind
      have longer : firstLine (c :: here) = c :: firstLine here := by
        rw [firstLine, List.takeWhile_cons, if_pos (by simpa [notNewline] using newline)]
        rfl
      rw [longer] at inside
      refine ⟨line, member, List.any_eq_true.mpr ⟨firstLine here, ?_, first⟩⟩
      exact List.mem_cons_of_mem _ (mem_places_behind isEnd inside)

theorem Directive.opening_of_read {colonFence : Bool} {text rest : Text} {directive : Directive}
    (read : read? colonFence text = some (directive, rest)) :
    ∃ opening below, opening? text = some (opening, below) ∧ directive.name = trim opening.name ∧
      (colonFence || opening.mark != ':') = true := by
  simp only [read?, Option.bind_eq_bind, Option.bind_eq_some_iff] at read
  obtain ⟨⟨opening, below⟩, opened, read⟩ := read
  refine ⟨opening, below, opened, ?_⟩
  split at read
  · cases read
  · rename_i enabled
    have allowed : (colonFence || opening.mark != ':') = true := by
      cases colonFence <;> simp_all
    split at read <;> cases read <;> exact ⟨rfl, allowed⟩

/-- The tag at the front of the raw text of a block stands where the block was read. -/
theorem division_tag_of_raw {taken below : Text} (front : taken <+: here)
    (newlines : ∀ c ∈ below, c = '\n')
    (tag : (wordAnyCase divisionTag (indent (taken ++ below))).isSome = true) :
    (wordAnyCase divisionTag (indent here)).isSome = true := by
  obtain ⟨rest, rfl⟩ := front
  have ended : atLineEnd below = true := by
    cases below with
    | nil => rfl
    | cons c below => simpa [atLineEnd] using newlines c List.mem_cons_self
  rw [division_tag_before_end ended, Option.isSome_map, Option.isSome_iff_exists] at tag
  obtain ⟨left, read⟩ := tag
  have present : indent taken ≠ [] := by
    intro nothing
    rw [nothing] at read
    cases read
  have longer : indent (taken ++ rest) = indent taken ++ rest := skip_up_to_append rest present
  rw [longer, word_any_case_append rest read]
  rfl

theorem Leaf.html_of_admonition {raw : Text} {content : Leaf} {found : HtmlAdmonition}
    (shown : content.admonition? enabled raw = some found) :
    (∃ text, content = .html text) ∧ enabled.contains .htmlAdmonition = true ∧
      HtmlAdmonition.ofHtml? raw = some found := by
  cases content with
  | html text =>
      simp only [admonition?] at shown
      split at shown
      · exact ⟨⟨text, rfl⟩, ‹_›, shown⟩
      · cases shown
  | _ => cases shown

theorem division_tag_of_html {raw : Text} {found : HtmlAdmonition}
    (read : HtmlAdmonition.ofHtml? raw = some found) :
    (wordAnyCase divisionTag (indent raw)).isSome = true := by
  simp only [HtmlAdmonition.ofHtml?, HtmlAdmonition.classes?, HtmlAdmonition.tag?,
    Option.bind_eq_bind, Option.bind_eq_some_iff] at read
  obtain ⟨classes, ⟨inside, ⟨rest, tag, -⟩, -⟩, -⟩ := read
  rw [divisionTag, tag]
  rfl

/-- A block that becomes an admonition was read where one opens. -/
theorem opens_of_block {line : Nat} {insideLink : Bool} {block : Block} {node : Node}
    (begun : block.BegunIn (enabled.contains .colonFence) source)
    (read : (Node.ofBlock enabled line insideLink block).1 = some node)
    (isAdmonition : node.isAdmonition = true) :
    ∃ here, Begins source here ∧ opensAdmonition enabled here = true := by
  cases block with
  | leaf raw content =>
      cases shown : content.admonition? enabled raw with
      | none =>
          simp only [Node.ofBlock, shown] at read
          split at read
          · cases read
          · cases read
            cases isAdmonition
      | some found =>
          obtain ⟨⟨text, rfl⟩, html, division⟩ := Leaf.html_of_admonition shown
          obtain ⟨here, taken, below, place, front, rfl, newlines⟩ := begun
          have tag := division_tag_of_raw front newlines (division_tag_of_html division)
          refine ⟨here, place, ?_⟩
          rw [opensAdmonition, html, tag, Bool.true_and, Bool.or_true]
  | directive raw opened body =>
      obtain ⟨here, rest, place, found⟩ := begun
      obtain ⟨opening, below, opens, name, allowed⟩ := Directive.opening_of_read found
      refine ⟨here, place, ?_⟩
      simp only [Node.ofBlock] at read
      split at read
      · rename_i named
        rw [name] at named
        simp only [opensAdmonition, opens, Option.any_some, named, allowed, Bool.and_self,
          Bool.true_or]
      · cases read
        cases isAdmonition
  | quote raw text body =>
      cases read
      cases isAdmonition
  | list raw items =>
      cases read
      cases isAdmonition

theorem mem_nodes {line : Nat} {insideLink : Bool} {blocks : List Block} {node : Node}
    (member : node ∈ (Node.ofBlocks enabled line insideLink blocks).1) :
    ∃ block ∈ blocks, ∃ line' link, (Node.ofBlock enabled line' link block).1 = some node := by
  induction blocks generalizing line insideLink with
  | nil => cases member
  | cons block blocks induction =>
      rw [Node.of_blocks_cons, List.mem_append, Option.mem_toList] at member
      rcases member with here | later
      · exact ⟨block, List.mem_cons_self, line, insideLink, here⟩
      · obtain ⟨other, inside, read⟩ := induction later
        exact ⟨other, List.mem_cons_of_mem block inside, read⟩

/-- A page has an admonition only where a line may open one. -/
theorem Tree.line_of_admonition {reading : Reading} {page : Text} {tree : Tree} {node : Node}
    (read : Tree.ofText reading page = .ok tree) (member : node ∈ tree.nodes)
    (isAdmonition : node.isAdmonition = true) :
    ∃ line ∈ lines (normalizeLineEnds page),
      mayOpenAdmonition reading.extensions line = true := by
  rw [ofText] at read
  split at read
  · cases read
  · cases read
    obtain ⟨block, inside, line, link, shown⟩ := mem_nodes member
    have begun := Block.of_text_begun reading.extensions page block inside
    obtain ⟨here, place, opens⟩ := opens_of_block begun shown isAdmonition
    obtain ⟨line, found, opened⟩ := place.line_opens opens
    rw [Block.source, lines_expand, List.mem_map] at found
    obtain ⟨written, found, rfl⟩ := found
    exact ⟨written, found, opened⟩

theorem AdmonitionSpan.of_nodes_without_admonition {pageLines : List Text} {bound : Nat}
    {nodes : List Node} (others : ∀ node ∈ nodes, node.isAdmonition = false) :
    ofNodes pageLines bound nodes = .ok [] := by
  induction nodes with
  | nil => rfl
  | cons node nodes induction =>
      rw [List.forall_mem_cons] at others
      rw [of_nodes_cons, induction others.2]
      cases node with
      | admonition => cases others.1
      | directive => rfl
      | block => rfl

variable {reading : Reading} {page output : Text} {spans : List AdmonitionSpan}

theorem AdmonitionSpan.locate_without_opening
    (closed : ∀ line ∈ lines (normalizeLineEnds page),
      mayOpenAdmonition reading.extensions line = false) :
    locate reading page = (Tree.ofText reading page).map fun _ => [] := by
  cases read : Tree.ofText reading page with
  | error problem =>
      rw [locate, read]
      rfl
  | ok tree =>
      apply locate_eq_ok.mpr
      refine ⟨tree, read, of_nodes_without_admonition fun node member => ?_⟩
      rw [Bool.eq_false_iff]
      intro isAdmonition
      obtain ⟨line, inside, opens⟩ := Tree.line_of_admonition read member isAdmonition
      rw [closed line inside] at opens
      cases opens

namespace AdmonitionBracketing

theorem mem_of_last_ending {span : AdmonitionSpan} {line : Nat}
    (last : lastEnding? spans line = some span) : span ∈ spans :=
  (List.mem_filter.mp (List.mem_of_getLast? last)).1

/-- Every line behind the replacement was kept, or it was written for a span. -/
theorem Bracketed.line_cases {before after : List (Text × Text)} {index : Nat} {line : Text}
    (bracketed : Bracketed spans before after) (found : textAt? after index = some line) :
    (textAt? before index = some line ∧
      ∀ span ∈ spans, index ≠ span.startLine ∧ index ≠ span.endLine) ∨
    ∃ span ∈ spans, ∃ header, openingHeader? before span = some header ∧
      (line = startText header ∨ line = endText header.type) := by
  by_cases outside : ∀ span ∈ spans, index ≠ span.startLine ∧ index ≠ span.endLine
  · rw [textAt?, bracketed.kept index outside] at found
    exact .inl ⟨found, outside⟩
  · right
    obtain ⟨span, member, touched⟩ : ∃ span ∈ spans,
        index = span.startLine ∨ index = span.endLine := by
      by_contra none
      apply outside
      intro span member
      exact not_or.mp fun touched => none ⟨span, member, touched⟩
    rcases touched with rfl | rfl
    · obtain ⟨header, read, shown⟩ := bracketed.opened span member
      rw [found, Option.some.injEq] at shown
      exact ⟨span, member, header, read, .inl shown⟩
    · obtain ⟨last, header, latest, read, shown⟩ := bracketed.closed span member
      rw [found, Option.some.injEq] at shown
      exact ⟨last, mem_of_last_ending latest, header, read, .inr shown⟩

end AdmonitionBracketing

open AdmonitionBracketing AdmonitionSpan

theorem bracket_admonitions_without_opening
    (closed : ∀ line ∈ lines (normalizeLineEnds page),
      mayOpenAdmonition reading.extensions line = false) :
    bracketAdmonitions reading page = (Tree.ofText reading page).map fun _ => page := by
  rw [bracket_admonitions_eq, locate_without_opening closed]
  cases Tree.ofText reading page with
  | error problem => rfl
  | ok tree =>
      change Except.ok (joinWithEnds (linesWithEnds page)) = _
      rw [join_lines_with_ends]
      rfl

/-- No admonition may begin on a line behind the replacement when all lines on which
one might were replaced, and none may begin on the lines that were written. -/
theorem AdmonitionBracketing.Bracketed.not_opening {before after : List (Text × Text)}
    (bracketed : Bracketed spans before after)
    (opened : ∀ index < before.length,
      (textAt? before index).any (mayOpenAdmonition enabled) = true →
        ∃ span ∈ spans, index = span.startLine)
    (written : ∀ span ∈ spans, ∀ header, openingHeader? before span = some header →
      mayOpenAdmonition enabled (startText header) = false ∧
        mayOpenAdmonition enabled (endText header.type) = false)
    (member : line ∈ after.map Prod.fst) : mayOpenAdmonition enabled line = false := by
  rw [List.mem_iff_getElem?] at member
  obtain ⟨index, found⟩ := member
  rw [List.getElem?_map] at found
  rcases bracketed.line_cases found with ⟨kept, outside⟩ | ⟨span, member, header, read, shown⟩
  · rw [Bool.eq_false_iff]
    intro opens
    have inside : index < before.length := by
      by_contra above
      rw [textAt?, List.getElem?_eq_none (Nat.not_lt.mp above)] at kept
      cases kept
    obtain ⟨span, member, start⟩ := opened index inside (by rw [kept, Option.any_some, opens])
    exact (outside span member).1 start
  · obtain ⟨start, finish⟩ := written span member header read
    rcases shown with rfl | rfl
    · exact start
    · exact finish

/-- When every line on which an admonition may begin is the opening line of a span,
and none may begin on the lines that are written, a second pass finds nothing and
changes nothing. It fails only where the page that was written is not read. -/
theorem bracket_admonitions_twice (located : locate reading page = .ok spans)
    (bracketed : bracketAdmonitions reading page = .ok output)
    (opened : ∀ index < (linesWithEnds page).length,
      (textAt? (linesWithEnds page) index).any (mayOpenAdmonition reading.extensions) = true →
        ∃ span ∈ spans, index = span.startLine)
    (written : ∀ span ∈ spans, ∀ header, openingHeader? (linesWithEnds page) span = some header →
      mayOpenAdmonition reading.extensions (startText header) = false ∧
        mayOpenAdmonition reading.extensions (endText header.type) = false) :
    locate reading output = (Tree.ofText reading output).map (fun _ => []) ∧
      bracketAdmonitions reading output = (Tree.ofText reading output).map (fun _ => output) ∧
      (reading.halt = .severe →
        locate reading output = .ok [] ∧ bracketAdmonitions reading output = .ok output) := by
  obtain ⟨found, located', applied⟩ := bracket_admonitions_eq_ok bracketed
  rw [located] at located'
  cases located'
  have replaced := Bracketed.of_apply_spans (located_end located) applied
  have closed : ∀ line ∈ lines (normalizeLineEnds output),
      mayOpenAdmonition reading.extensions line = false := by
    intro line member
    rw [lines_normalize] at member
    exact replaced.not_opening opened written member
  have nothing := locate_without_opening closed
  have unchanged := bracket_admonitions_without_opening closed
  refine ⟨nothing, unchanged, ?_⟩
  intro severe
  have read := Tree.of_text_severe reading.extensions output
  rw [← severe] at read
  rw [nothing, unchanged, read]
  exact ⟨rfl, rfl⟩

/-- An opening line that is quoted in the middle of a line opens nothing. -/
theorem bracket_admonitions_twice_quoted : ∃ spans output,
    locate {} ":::\x7bnote\x7d\nWrite :::\x7btip\x7d\nor\n~~~\nx\n~~~\n:::\n".toList = .ok spans ∧
      bracketAdmonitions {} ":::\x7bnote\x7d\nWrite :::\x7btip\x7d\nor\n~~~\nx\n~~~\n:::\n".toList =
        .ok output ∧
      locate {} output = .ok [] ∧ bracketAdmonitions {} output = .ok output := by
  have located : locate {} ":::\x7bnote\x7d\nWrite :::\x7btip\x7d\nor\n~~~\nx\n~~~\n:::\n".toList =
      .ok [⟨0, 6, "note".toList, none⟩] := by decide +kernel
  have bracketed : bracketAdmonitions {}
      ":::\x7bnote\x7d\nWrite :::\x7btip\x7d\nor\n~~~\nx\n~~~\n:::\n".toList =
        .ok "**Start of note**\nWrite :::\x7btip\x7d\nor\n~~~\nx\n~~~\n**End of note**\n".toList := by
    decide +kernel
  refine ⟨_, _, located, bracketed, ?_⟩
  apply (bracket_admonitions_twice located bracketed (by decide +kernel) ?_).2.2 rfl
  intro span member header read
  rw [List.mem_singleton] at member
  rw [member] at read
  cases read
  decide +kernel

/-- A fence that is left open in a body ends with it. Where the closing line of the
admonition is gone, it goes on to the next fence, and what this one had hidden is read. -/
theorem bracket_admonitions_uncovers : ∃ output,
    bracketAdmonitions {}
      ":::\x7bnote\x7d\nx\n~~~\n:::\n\n~~~\n:::\x7btip\x7d\nbody\n:::\n~~~\n".toList = .ok output ∧
      locate {} output = .ok [⟨6, 8, "tip".toList, none⟩] ∧
      bracketAdmonitions {} output ≠ .ok output := by
  refine ⟨"**Start of note**\nx\n~~~\n**End of note**\n\n~~~\n:::\x7btip\x7d\nbody\n:::\n~~~\n".toList,
    ?_, ?_, ?_⟩
  · decide +kernel
  · decide +kernel
  · decide +kernel

end LessonBook
