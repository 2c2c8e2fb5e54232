import LessonBook.Proofs.Admonition.Placement
import LessonBook.Proofs.Markup.DirectiveLines
import LessonBook.Proofs.Markup.LineAccounting

/-!
The positions that reading a page comes to: from block to block on each level,
and from an admonition also into its body. What is left at a position stands on
the page from the line of the position on, and the blocks of the level become
nodes of the page, one line lower for each time prose was joined.
-/

namespace LessonBook

open Text Recognizer BlockReader

namespace Node

theorem preorder_subset {node : Node} {nodes : List Node} (member : node ∈ nodes) :
    preorder node ⊆ preorderAll nodes := by
  induction nodes with
  | nil => cases member
  | cons first nodes induction =>
      rw [preorderAll]
      rcases List.mem_cons.mp member with rfl | member
      · exact List.subset_append_left _ _
      · exact List.Subset.trans (induction member) (List.subset_append_right _ _)

theorem preorder_all_mono {nodes others : List Node} (among : nodes ⊆ others) :
    preorderAll nodes ⊆ preorderAll others := by
  induction nodes with
  | nil => exact List.nil_subset _
  | cons node nodes induction =>
      rw [List.cons_subset] at among
      exact List.append_subset.mpr ⟨preorder_subset among.1, induction among.2⟩

/-- A block gives its node at the line that the raw texts in front of it lead to. -/
theorem of_block_subset (enabled : List Extension) (line : Nat) (insideLink : Bool)
    (front : List Block) (block : Block) (back : List Block) : ∃ link,
    (ofBlock enabled (line + newlineCount (Block.raws front)) link block).1.toList ⊆
      (ofBlocks enabled line insideLink (front ++ block :: back)).1 := by
  induction front generalizing line insideLink with
  | nil => exact ⟨insideLink, List.subset_append_left _ _⟩
  | cons first front induction =>
      have split : Block.raws (first :: front) = first.raw ++ Block.raws front := List.flatMap_cons
      obtain ⟨link, inside⟩ := induction (line + newlineCount first.raw)
        (ofBlock enabled line insideLink first).2
      refine ⟨link, ?_⟩
      rw [split, newline_count_append, ← Nat.add_assoc, List.cons_append, of_blocks_cons]
      exact List.Subset.trans inside (List.subset_append_right _ _)

end Node

namespace BlockReader

variable {colonFence : Bool} {inner : Inner} {progress next : Progress} {text rest : Text}

theorem suffix_of_advance (advance : Advance colonFence inner progress text next rest) :
    rest <:+ text := by
  cases advance with
  | pushed block blocks taken => exact ⟨_, taken⟩
  | space raw taken => exact ⟨_, taken⟩
  | joined front raw leaf extended earlier blocks blocks' notSpace taken => exact ⟨_, taken⟩

/-- A directive stays among the blocks of its level; space may lengthen its raw text. -/
theorem directive_kept (enabled : List Extension) (fuel : Nat) (text : Text) {raw : Text}
    {directive : Directive} {body earlier : List Block}
    (blocks : progress.blocks = .directive raw directive body :: earlier) : ∃ raw' back,
    (readFrom enabled fuel progress text).blocks.reverse =
      earlier.reverse ++ .directive raw' directive body :: back := by
  have now : progress.blocks.reverse = earlier.reverse ++ [.directive raw directive body] := by
    rw [blocks, List.reverse_cons]
  induction fuel generalizing progress text raw with
  | zero => exact ⟨raw, [], now⟩
  | succ fuel induction =>
      rw [read_from_succ]
      split
      · exact ⟨raw, [], now⟩
      · split
        · rename_i next rest found
          have pushed {block : Block} (more : next.blocks = block :: progress.blocks) :
              ∃ raw' back, (readFrom enabled fuel next rest).blocks.reverse =
                earlier.reverse ++ .directive raw' directive body :: back := by
            obtain ⟨back, kept⟩ := earlier_kept enabled fuel rest more
            rw [now, List.append_assoc] at kept
            exact ⟨raw, back, kept.symm⟩
          cases first_step_advance found with
          | pushed block blocks' => exact pushed blocks'
          | space space =>
              rcases add_space_cases space progress with more | ⟨c, last, others, -, same, extended⟩
              · exact pushed more
              · rw [blocks, List.cons.injEq] at same
                obtain ⟨rfl, rfl⟩ := same
                exact induction rest extended (by rw [extended, List.reverse_cons]; rfl)
          | joined front space leaf extended others same =>
              rw [blocks, List.cons.injEq] at same
              cases same.1
        · exact ⟨raw, [], now⟩

end BlockReader

/-- A place in reading a page: what is left on a level, the blocks that were read
there, the line it stands on, counted from 0, and how often prose was joined. -/
structure Position where
  fuel : Nat
  progress : Progress
  text : Text
  line : Nat
  joins : Nat

namespace Position

def start (page : Text) : Position where
  fuel := (normalizeLineEnds page).length + 2
  progress := .start true
  text := Block.source page
  line := 0
  joins := 0

def next? (position : Position) : Option (Progress × Text) :=
  match position.fuel with
  | 0 => none
  | fuel + 1 =>
      if position.text.isEmpty then none
      else firstStep position.progress position.text
        (steps Extension.all (innerBlocks Extension.all fuel))

def behind (position : Position) (next : Progress) (rest : Text) : Position where
  fuel := position.fuel - 1
  progress := next
  text := rest
  line := position.line + newlineCount (before position.text rest)
  joins :=
    if position.progress.blocks.length < next.blocks.length ∨
        (spaceStep position.progress position.text).isSome then position.joins
    else position.joins + 1

def into (position : Position) (directive : Directive) : Position where
  fuel := position.fuel - 1
  progress := .start position.progress.paragraphs
  text := expandLeadingTabs directive.body
  line := position.line + 1
  joins := position.joins

def Reads (position : Position) (directive : Directive) : Prop :=
  ∃ next rest raw body, position.next? = some (next, rest) ∧
    next.blocks = .directive raw directive body :: position.progress.blocks

def blocks (position : Position) : List Block :=
  (readFrom Extension.all position.fuel position.progress position.text).blocks.reverse

end Position

/-- The positions that reading a page comes to. -/
inductive Reached (page : Text) : Position → Prop
  | start : Reached page (.start page)
  | behind {position : Position} {next : Progress} {rest : Text} (reached : Reached page position)
      (found : position.next? = some (next, rest)) : Reached page (position.behind next rest)
  | into {position : Position} {directive : Directive} (reached : Reached page position)
      (reads : position.Reads directive) (isAdmonition : isAdmonitionName directive.name = true)
      (present : directive.body ≠ []) : Reached page (position.into directive)

namespace Position

variable {page : Text} {position : Position} {next : Progress} {rest : Text}
  {directive : Directive} {nodes : List Node}

theorem next_eq_some (found : position.next? = some (next, rest)) :
    ∃ fuel, position.fuel = fuel + 1 ∧ position.text ≠ [] ∧
      firstStep position.progress position.text
        (steps Extension.all (innerBlocks Extension.all fuel)) = some (next, rest) := by
  rw [next?] at found
  split at found
  · cases found
  · rename_i fuel left
    split at found
    · cases found
    · rename_i present
      exact ⟨fuel, left, fun none => present (by rw [none]; rfl), found⟩

theorem blocks_behind (found : position.next? = some (next, rest)) :
    (position.behind next rest).blocks = position.blocks := by
  obtain ⟨fuel, left, present, step⟩ := next_eq_some found
  rw [blocks, blocks, left, read_from_succ, if_neg (by simpa using present), step, behind, left]
  rfl

theorem suffix_of_next (found : position.next? = some (next, rest)) : rest <:+ position.text := by
  obtain ⟨_, -, -, step⟩ := next_eq_some found
  exact suffix_of_advance (first_step_advance step)

theorem before_append_next (found : position.next? = some (next, rest)) :
    before position.text rest ++ rest = position.text :=
  before_append_rest (suffix_of_next found)

/-- A directive that is read is the one that its lines make, and in an admonition
the blocks inside are those of its body. -/
theorem of_reads (reads : position.Reads directive) :
    ∃ next rest raw, position.next? = some (next, rest) ∧
      Directive.read? true position.text = some (directive, rest) ∧
      next.blocks = .directive raw directive
        (if isAdmonitionName directive.name then (position.into directive).blocks else []) ::
          position.progress.blocks := by
  obtain ⟨next, rest, raw, body, found, blocks⟩ := reads
  obtain ⟨fuel, left, -, step⟩ := next_eq_some found
  cases first_step_advance step with
  | pushed block blocks' taken fresh =>
      rw [blocks, List.cons.injEq] at blocks'
      obtain ⟨rfl, -⟩ := blocks'
      obtain ⟨read, inside⟩ := fresh
      refine ⟨next, rest, raw, found, read, ?_⟩
      rw [blocks, inside, into, left]
      rfl
  | space space =>
      rcases add_space_cases space position.progress with more | ⟨c, last, others, -, same, extended⟩
      · rw [blocks, List.cons.injEq] at more
        cases more.1
      · have lengths := congrArg List.length (blocks.symm.trans extended)
        rw [same] at lengths
        simp at lengths
  | joined front space leaf extended others same blocks' =>
      rw [blocks, List.cons.injEq] at blocks'
      cases blocks'.1

/-! ### Where positions stand -/

/-- What is left at the position stands on the page from its line on, and no
empty line follows the level. -/
structure Placed (page : Text) (position : Position) : Prop where
  stands : StandsAt (lines (normalizeLineEnds page)) position.line position.text
  ends : (lines (normalizeLineEnds page))[position.line + newlineCount position.text + 1]? ≠ some []

theorem placed_start (page : Text) : (start page).Placed page := by
  refine ⟨StandsAt.source page, ?_⟩
  have count : newlineCount (start page).text = newlineCount (normalizeLineEnds page) :=
    (TabsAsSpaces.of_expand _).newline_count
  have outside : (lines (normalizeLineEnds page)).length ≤
      (start page).line + newlineCount (start page).text + 1 := by
    rw [count, length_lines, start, Nat.zero_add]
  rw [List.getElem?_eq_none outside]
  simp

theorem Placed.behind (placed : position.Placed page)
    (found : position.next? = some (next, rest)) : (position.behind next rest).Placed page := by
  have split := before_append_next found
  obtain ⟨stands, ends⟩ := placed
  rw [← split] at stands ends
  refine ⟨stands.drop, ?_⟩
  rw [newline_count_append, ← Nat.add_assoc] at ends
  exact ends

theorem Placed.into (placed : position.Placed page) (reads : position.Reads directive)
    (present : directive.body ≠ []) : (position.into directive).Placed page := by
  obtain ⟨-, rest, -, -, read, -⟩ := of_reads reads
  obtain ⟨below, cut⟩ := lines_first_line position.text
  obtain ⟨opening, opened, -, rfl⟩ := (Directive.read_iff_lines cut).mp ⟨rest, read⟩
  obtain ⟨stands, ends⟩ := placed
  -- the lines of the body, and what closes it if anything does
  have split := List.takeWhile_append_dropWhile
    (p := (!Directive.closes opening.mark opening.fence.length ·)) (l := below)
  generalize inside : below.takeWhile (!Directive.closes opening.mark opening.fence.length ·) =
    inner at split
  have body : (Directive.ofLines opening below).body = joinLines inner := by
    rw [Directive.ofLines, inside]
  have filled : inner ≠ [] := by
    rintro rfl
    exact present body
  have single : ∀ line ∈ inner, '\n' ∉ line := by
    intro line member
    have among : line ∈ lines position.text := by
      rw [cut, ← split]
      exact List.mem_cons_of_mem _ (List.mem_append_left _ member)
    exact no_newline_of_mem_lines among
  have count : newlineCount (expandLeadingTabs (joinLines inner)) + 1 = inner.length := by
    rw [(TabsAsSpaces.of_expand _).newline_count, newline_count_join_lines filled single]
  rw [← split] at cut
  refine ⟨?_, ?_⟩
  · rw [Position.into, body]
    exact stands.inner cut filled
  · rw [Position.into, body, Nat.add_assoc, count]
    cases shut : below.dropWhile (!Directive.closes opening.mark opening.fence.length ·) with
    | nil =>
        have whole : newlineCount position.text = inner.length := by
          have length := length_lines position.text
          rw [cut, shut, List.append_nil, List.length_cons] at length
          omega
        rw [whole] at ends
        rw [Nat.add_right_comm]
        exact ends
    | cons last after =>
        have closing : Directive.closes opening.mark opening.fence.length last = true := by
          have head := List.head?_dropWhile_not
            (!Directive.closes opening.mark opening.fence.length ·) below
          rw [shut] at head
          simpa using head
        have found : (inner ++ last :: after)[inner.length]? = some last := by simp
        rw [shut] at cut
        obtain ⟨written, standing, same⟩ := stands.line_below cut found
        simp only
        rw [standing]
        rintro empty
        rw [Option.some.injEq] at empty
        rw [empty] at same
        cases same
        rw [Directive.closes_nil (Directive.fence_of_opening opened).2.1] at closing
        cases closing

theorem placed_of_reached (reached : Reached page position) : position.Placed page := by
  induction reached with
  | start => exact placed_start page
  | behind _ found induction => exact induction.behind found
  | into _ reads _ present induction => exact induction.into reads present

/-! ### The nodes of positions -/

/-- The blocks of the level are among the nodes, and what is left is read into
nodes at its line, one line lower for each join. -/
def Shown (nodes : List Node) (position : Position) : Prop :=
  ∃ start link,
    Node.preorderAll (Node.ofBlocks Extension.all start link position.blocks).1 ⊆
        Node.preorderAll nodes ∧
      (position.text = [] ∨
        start + newlineCount position.progress.raws = position.line + position.joins + 1)

theorem shown_start {tree : Tree} (read : Tree.ofText {} page = .ok tree) :
    (start page).Shown tree.nodes := by
  have same := (Tree.of_text_severe Extension.all page).symm.trans read
  cases same
  exact ⟨1, false, List.Subset.refl _, .inr rfl⟩

/-- The raw texts grow by as many lines as the position moves, and by one for a join. -/
theorem newline_count_behind (found : position.next? = some (next, rest)) :
    rest = [] ∨ newlineCount next.raws + position.line + position.joins =
      newlineCount position.progress.raws + (position.behind next rest).line +
        (position.behind next rest).joins := by
  obtain ⟨fuel, left, -, step⟩ := next_eq_some found
  have here : Accurate (position.progress.raws ++ position.text) position.progress.raws
      position.text 0 := ⟨_, rfl, rfl, by simp, by simp⟩
  have taken := congrArg newlineCount (before_append_next found)
  rw [newline_count_append] at taken
  have counted {joins : Nat} (accurate : Accurate (position.progress.raws ++ position.text)
      next.raws rest joins) : newlineCount next.raws = newlineCount position.progress.raws +
        newlineCount (before position.text rest) + joins := by
    obtain ⟨front, split, count, -⟩ := accurate
    have sizes := congrArg newlineCount split
    rw [newline_count_append, newline_count_append] at sizes
    omega
  rcases advance_accurate (first_step_advance step) here with
    ⟨block, more, rfl | accurate⟩ | ⟨last, changed, earlier, blocks, blocks', rfl | accurate⟩
  · exact .inl rfl
  · have longer : position.progress.blocks.length < next.blocks.length := by
      rw [more, List.length_cons]
      exact Nat.lt_succ_self _
    have count := counted accurate
    simp only [behind, longer, true_or, if_true]
    omega
  · exact .inl rfl
  · have same : ¬position.progress.blocks.length < next.blocks.length := by
      rw [blocks, blocks']
      exact Nat.lt_irrefl _
    have count := counted accurate
    simp only [behind, same, false_or]
    by_cases space : (spaceStep position.progress position.text).isSome = true
    · rw [if_pos space] at count ⊢
      omega
    · rw [if_neg space] at count ⊢
      omega

theorem Shown.behind (shown : position.Shown nodes)
    (found : position.next? = some (next, rest)) : (position.behind next rest).Shown nodes := by
  obtain ⟨start, link, inside, counted⟩ := shown
  obtain ⟨-, -, present, -⟩ := next_eq_some found
  refine ⟨start, link, blocks_behind found ▸ inside, ?_⟩
  rcases newline_count_behind found with none | count
  · exact .inl none
  · have here := counted.resolve_left present
    refine .inr ?_
    have moved : (position.behind next rest).progress = next := rfl
    rw [moved]
    omega

/-- A directive becomes a node, at its line and one line lower for each join. -/
theorem Shown.node (shown : position.Shown nodes) (reads : position.Reads directive) :
    ∃ raw link, Node.preorderAll (Node.ofBlock Extension.all (position.line + position.joins + 1)
        link (.directive raw directive (if isAdmonitionName directive.name then
          (position.into directive).blocks else []))).1.toList ⊆ Node.preorderAll nodes := by
  obtain ⟨start, link, inside, counted⟩ := shown
  obtain ⟨next, rest, raw, found, -, blocks⟩ := of_reads reads
  obtain ⟨fuel, left, present, step⟩ := next_eq_some found
  obtain ⟨raw', back, kept⟩ := directive_kept Extension.all fuel rest blocks
  have whole : position.blocks = position.progress.blocks.reverse ++ .directive raw' directive
      (if isAdmonitionName directive.name then (position.into directive).blocks else []) :: back := by
    rw [← blocks_behind found, ← kept, Position.blocks, Position.behind, left]
    rfl
  obtain ⟨link', shown⟩ := Node.of_block_subset Extension.all start link
    position.progress.blocks.reverse _ back
  rw [← whole] at shown
  have line : start + newlineCount (Block.raws position.progress.blocks.reverse) =
      position.line + position.joins + 1 := counted.resolve_left present
  rw [line] at shown
  exact ⟨raw', link', List.Subset.trans (Node.preorder_all_mono shown) inside⟩

theorem Shown.into (shown : position.Shown nodes) (reads : position.Reads directive)
    (isAdmonition : isAdmonitionName directive.name = true) :
    (position.into directive).Shown nodes := by
  obtain ⟨raw, link, inside⟩ := shown.node reads
  refine ⟨position.line + position.joins + 1 + 1, link, ?_, .inr ?_⟩
  · apply List.Subset.trans ?_ inside
    simp only [Node.ofBlock, if_pos isAdmonition, Option.toList_some, Node.preorderAll,
      Node.preorder, List.append_nil]
    exact List.subset_cons_self _ _
  · have line : (position.into directive).line = position.line + 1 := rfl
    have joins : (position.into directive).joins = position.joins := rfl
    have raws : newlineCount (position.into directive).progress.raws = 0 := rfl
    omega

theorem shown_of_reached {tree : Tree} (read : Tree.ofText {} page = .ok tree)
    (reached : Reached page position) : position.Shown tree.nodes := by
  induction reached with
  | start => exact shown_start read
  | behind _ found induction => exact induction.behind found
  | into _ reads isAdmonition _ induction => exact induction.into reads isAdmonition

end Position

end LessonBook
