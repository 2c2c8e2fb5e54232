import Mathlib.Data.List.Chain
import LessonBook.Proofs.Admonition.BracketedLines
import LessonBook.Proofs.Admonition.Location

/-!
When the spans of a page are nested like its admonitions. The search for the end
of an admonition is bounded by the next node, and for a last one by the end of
what surrounds it; an admonition with a node behind it that begins below this end
is not bounded by it. Spans are apart or nested exactly when there is none such.
-/

namespace LessonBook

open Text

namespace Node

mutual

/-- The node begins at or below a line, and the nodes inside it below its own. -/
def StandsBelow (low : Nat) : Node → Prop
  | admonition _ _ _ line inside => low ≤ line ∧ AllBelow (line + 1) inside
  | directive _ _ _ line => low ≤ line
  | block _ _ _ line => low ≤ line

def AllBelow (low : Nat) : List Node → Prop
  | [] => True
  | node :: nodes => StandsBelow low node ∧ AllBelow node.line nodes

end

variable {low high line : Nat} {node : Node} {nodes : List Node}

theorem le_of_stands_below (below : StandsBelow low node) : low ≤ node.line := by
  cases node with
  | admonition => exact below.1
  | directive => exact below
  | block => exact below

theorem stands_below_of_le (above : high ≤ low) (below : StandsBelow low node) :
    StandsBelow high node := by
  cases node with
  | admonition => exact ⟨Nat.le_trans above below.1, below.2⟩
  | directive => exact Nat.le_trans above below
  | block => exact Nat.le_trans above below

theorem all_below_of_le (above : high ≤ low) (below : AllBelow low nodes) :
    AllBelow high nodes := by
  cases nodes with
  | nil => trivial
  | cons node nodes => exact ⟨stands_below_of_le above below.1, below.2⟩

theorem of_block_stands_below (enabled : List Extension) (line : Nat) (insideLink : Bool)
    (block : Block) (inside : ∀ raw opened body, block = .directive raw opened body →
      AllBelow (line + 1) (ofBlocks enabled (line + 1) insideLink body).1)
    (found : (ofBlock enabled line insideLink block).1 = some node) :
    StandsBelow line node ∧ node.line = line := by
  have here := Block.node_line enabled line insideLink block
  rw [found, Option.map_some] at here
  have same : node.line = line := by
    split at here
    · cases here
    · exact Option.some.inj here
  refine ⟨?_, same⟩
  cases node with
  | directive => exact Nat.le_of_eq same.symm
  | block => exact Nat.le_of_eq same.symm
  | admonition type title form line' children =>
      refine ⟨Nat.le_of_eq same.symm, ?_⟩
      cases block with
      | quote => cases found
      | list => cases found
      | leaf raw content =>
          simp only [ofBlock] at found
          split at found
          · cases found
            trivial
          · split at found <;> cases found
      | directive raw opened body =>
          simp only [ofBlock] at found
          split at found
          · cases found
            exact inside raw opened body rfl
          · cases found

theorem of_blocks_all_below (enabled : List Extension) (line : Nat) (insideLink : Bool)
    (blocks : List Block) : AllBelow line (ofBlocks enabled line insideLink blocks).1 := by
  match blocks with
  | [] => trivial
  | first :: blocks =>
      have later := of_blocks_all_below enabled (line + newlineCount first.raw)
        (ofBlock enabled line insideLink first).2 blocks
      rw [of_blocks_cons]
      cases found : (ofBlock enabled line insideLink first).1 with
      | none => exact all_below_of_le (Nat.le_add_right _ _) later
      | some node =>
          have inside : ∀ raw opened body, first = .directive raw opened body →
              AllBelow (line + 1) (ofBlocks enabled (line + 1) insideLink body).1 := by
            rintro raw opened body rfl
            exact of_blocks_all_below enabled (line + 1) insideLink body
          obtain ⟨here, same⟩ := of_block_stands_below enabled line insideLink first inside found
          refine ⟨here, ?_⟩
          rw [same]
          exact all_below_of_le (Nat.le_add_right _ _) later
termination_by sizeOf blocks

theorem le_of_all_below (below : AllBelow low nodes) (member : node ∈ nodes) :
    low ≤ node.line := by
  induction nodes generalizing low with
  | nil => cases member
  | cons first nodes induction =>
      have lower := le_of_stands_below below.1
      rcases List.mem_cons.mp member with rfl | member
      · exact lower
      · exact Nat.le_trans lower (induction below.2 member)

mutual

theorem child_below_preorder {outer : Node} {low : Nat} (top : Node)
    (below : StandsBelow low top) (member : outer ∈ preorder top) :
    low ≤ outer.line ∧ ∀ inner ∈ outer.children, outer.line + 1 ≤ inner.line := by
  cases top with
  | admonition type title form line inside =>
      rcases List.mem_cons.mp member with rfl | member
      · exact ⟨below.1, fun inner child => le_of_all_below below.2 child⟩
      · obtain ⟨lower, children⟩ := child_below_preorder_all inside below.2 member
        exact ⟨Nat.le_trans (Nat.le_succ_of_le below.1) lower, children⟩
  | directive =>
      rw [preorder, List.mem_singleton] at member
      rw [member]
      exact ⟨below, fun inner child => by cases child⟩
  | block =>
      rw [preorder, List.mem_singleton] at member
      rw [member]
      exact ⟨below, fun inner child => by cases child⟩

theorem child_below_preorder_all {outer : Node} {low : Nat} (nodes : List Node)
    (below : AllBelow low nodes) (member : outer ∈ preorderAll nodes) :
    low ≤ outer.line ∧ ∀ inner ∈ outer.children, outer.line + 1 ≤ inner.line := by
  cases nodes with
  | nil => cases member
  | cons first nodes =>
      rcases List.mem_append.mp member with member | member
      · exact child_below_preorder first below.1 member
      · obtain ⟨lower, children⟩ := child_below_preorder_all nodes below.2 member
        exact ⟨Nat.le_trans (le_of_stands_below below.1) lower, children⟩

end

end Node

theorem Tree.nodes_all_below {reading : Reading} {page : Text} {tree : Tree}
    (read : ofText reading page = .ok tree) : Node.AllBelow 1 tree.nodes := by
  simp only [ofText] at read
  split at read
  · cases read
  · cases read
    exact Node.of_blocks_all_below ..

namespace AdmonitionSpan

/-- Spans begin in the order of the list, two of them are apart or one is inside
the other, and no two end with the same line. -/
structure IsLaminar (spans : List AdmonitionSpan) : Prop where
  ordered : spans.Pairwise fun first second => first.startLine < second.startLine
  nested : spans.Pairwise Precedes
  closing : (spans.map endLine).Nodup

def NextAbove (bottom : Nat) (nodes : List Node) : Prop :=
  nodes.IsChain fun inner next => inner.isAdmonition = true → next.line ≤ bottom

instance (bottom : Nat) (nodes : List Node) : Decidable (NextAbove bottom nodes) :=
  inferInstanceAs (Decidable (nodes.IsChain fun inner next =>
    inner.isAdmonition = true → next.line ≤ bottom))

/-- No node behind an inner admonition begins below the end of the outer one. -/
def StayAbove (nodes : List Node) (spans : List AdmonitionSpan) : Prop :=
  ∀ outer ∈ Node.preorderAll nodes, ∀ span ∈ spans, outer.line = span.startLine + 1 →
    NextAbove (span.endLine + 1) outer.children

instance (nodes : List Node) (spans : List AdmonitionSpan) : Decidable (StayAbove nodes spans) :=
  inferInstanceAs (Decidable (∀ outer ∈ Node.preorderAll nodes, ∀ span ∈ spans,
    outer.line = span.startLine + 1 → NextAbove (span.endLine + 1) outer.children))

/-- An inner admonition begins above the end of the outer one. -/
def BeginInside (nodes : List Node) (spans : List AdmonitionSpan) : Prop :=
  ∀ outer ∈ Node.preorderAll nodes, ∀ span ∈ spans, outer.line = span.startLine + 1 →
    ∀ inner ∈ outer.children, inner.isAdmonition = true → inner.line ≤ span.endLine

variable {pageLines : List Text} {bound low line : Nat} {type : Text} {title : Option Text}
  {form : AdmonitionForm} {node outer : Node} {nodes front back inside : List Node}
  {spans more inner : List AdmonitionSpan} {span : AdmonitionSpan}

theorem start_lt_of_precedes {first second : AdmonitionSpan}
    (wide : first.startLine < first.endLine) (precedes : Precedes first second) :
    first.startLine < second.startLine := by
  rcases precedes with below | inside
  · omega
  · exact inside.1

theorem end_ne_of_precedes {first second : AdmonitionSpan}
    (wide : second.startLine < second.endLine) (precedes : Precedes first second) :
    first.endLine ≠ second.endLine := by
  rcases precedes with below | inside <;> omega

theorem laminar_of_pairwise (wide : ∀ span ∈ spans, span.startLine < span.endLine)
    (nested : spans.Pairwise Precedes) : IsLaminar spans := by
  refine ⟨?_, nested, ?_⟩
  · apply nested.imp_of_mem
    intro first second member _ precedes
    exact start_lt_of_precedes (wide first member) precedes
  · apply List.pairwise_map.mpr
    apply nested.imp_of_mem
    intro first second _ member precedes
    exact end_ne_of_precedes (wide second member) precedes

namespace IsLaminar

theorem precedes (laminar : IsLaminar spans) {first second : AdmonitionSpan}
    (member : first ∈ spans) (member' : second ∈ spans)
    (above : first.startLine < second.startLine) : Precedes first second := by
  have both := laminar.ordered.and laminar.nested
  obtain ⟨index, inside, rfl⟩ := List.getElem_of_mem member
  obtain ⟨index', inside', rfl⟩ := List.getElem_of_mem member'
  rw [List.pairwise_iff_getElem] at both
  rcases Nat.lt_trichotomy index index' with lower | rfl | lower
  · exact (both index index' inside inside' lower).2
  · exact absurd above (Nat.lt_irrefl _)
  · exact absurd (both index' index inside' inside lower).1 (Nat.lt_asymm above)

theorem eq_of_start (laminar : IsLaminar spans) {first second : AdmonitionSpan}
    (member : first ∈ spans) (member' : second ∈ spans)
    (same : first.startLine = second.startLine) : first = second := by
  obtain ⟨index, inside, rfl⟩ := List.getElem_of_mem member
  obtain ⟨index', inside', rfl⟩ := List.getElem_of_mem member'
  have ordered := List.pairwise_iff_getElem.mp laminar.ordered
  rcases Nat.lt_trichotomy index index' with lower | rfl | lower
  · exact absurd same (Nat.ne_of_lt (ordered index index' inside inside' lower))
  · rfl
  · exact absurd same (Nat.ne_of_gt (ordered index' index inside' inside lower))

end IsLaminar

theorem StayAbove.subset {nodes' : List Node} {spans' : List AdmonitionSpan}
    (stay : StayAbove nodes spans) (fewer : Node.preorderAll nodes' ⊆ Node.preorderAll nodes)
    (fewer' : spans' ⊆ spans) : StayAbove nodes' spans' := by
  intro outer member span member'
  exact stay outer (fewer member) span (fewer' member')

theorem first_node_of_span (located : ofNodes pageLines bound nodes = .ok spans)
    (below : Node.AllBelow low nodes) (member : span ∈ spans) :
    ∃ next others, nodes = next :: others ∧ next.line ≤ span.startLine + 1 := by
  revert low span
  refine of_nodes_induction (motive := fun _ nodes spans => ∀ {low : Nat} {span : AdmonitionSpan},
    Node.AllBelow low nodes → span ∈ spans →
      ∃ next others, nodes = next :: others ∧ next.line ≤ span.startLine + 1) ?_ ?_ ?_ located
  · intro bound low span below member
    cases member
  · intro bound node nodes spans isOther later low span below member
    obtain ⟨next, others, rfl, above⟩ := later below.2 member
    exact ⟨node, _, rfl, Nat.le_trans (Node.le_of_stands_below below.2.1) above⟩
  · intro bound type title form line inside nodes endLine inner spans _ _ _ within later low span
      below member
    refine ⟨_, nodes, rfl, ?_⟩
    simp only [Node.line]
    rcases List.mem_cons.mp member with rfl | member
    · change line ≤ line - 1 + 1
      omega
    · rcases List.mem_append.mp member with member | member
      · obtain ⟨next, others, rfl, above⟩ := within below.1.2 member
        have lower := Node.le_of_stands_below below.1.2.1
        omega
      · obtain ⟨next, others, rfl, above⟩ := later below.2 member
        exact Nat.le_trans (Node.le_of_stands_below below.2.1) above

theorem end_le_bound_above {startLine endLine : Nat}
    (closed : closingLine? pageLines startLine (boundAbove bound nodes) = some endLine)
    (stays : ∀ next others, nodes = next :: others → next.line ≤ bound + 2) : endLine ≤ bound := by
  obtain ⟨-, upper, -⟩ := closing_line_eq_some closed
  cases nodes with
  | nil => exact upper
  | cons next others =>
      have above := stays next others rfl
      rw [boundAbove] at upper
      omega

theorem pairwise_cons_append {own : AdmonitionSpan} {inner more : List AdmonitionSpan}
    (within : ∀ span ∈ inner, own.startLine < span.startLine ∧ span.endLine < own.endLine)
    (behind : ∀ span ∈ more, own.endLine < span.startLine) (nested : inner.Pairwise Precedes)
    (others : more.Pairwise Precedes) : (own :: (inner ++ more)).Pairwise Precedes := by
  apply List.Pairwise.cons
  · intro span member
    rcases List.mem_append.mp member with member | member
    · exact .inr (within span member)
    · exact .inl (behind span member)
  · apply List.pairwise_append.mpr
    refine ⟨nested, others, fun first member second member' => .inl ?_⟩
    exact Nat.lt_trans (within first member).2 (behind second member')

/-- Spans are nested where the nodes behind inner admonitions stay above the end of
the outer one, and on a level where they stay above its bound the spans do so too. -/
theorem pairwise_of_stay_above (located : ofNodes pageLines bound nodes = .ok spans)
    (positive : 1 ≤ low) (below : Node.AllBelow low nodes) (stay : StayAbove nodes spans) :
    spans.Pairwise Precedes ∧
      (NextAbove (bound + 2) nodes → ∀ span ∈ spans, span.endLine ≤ bound) := by
  refine of_nodes_induction (motive := fun bound nodes spans => ∀ low, 1 ≤ low →
    Node.AllBelow low nodes → StayAbove nodes spans → spans.Pairwise Precedes ∧
      (NextAbove (bound + 2) nodes → ∀ span ∈ spans, span.endLine ≤ bound))
    ?_ ?_ ?_ located low positive below stay
  · intro bound low positive below stay
    refine ⟨.nil, fun _ span member => ?_⟩
    cases member
  · intro bound node nodes spans isOther later low positive below stay
    have lower := Node.le_of_stands_below below.1
    obtain ⟨nested, bounded⟩ := later node.line (Nat.le_trans positive lower) below.2
      (stay.subset (List.subset_append_right _ _) (List.Subset.refl _))
    exact ⟨nested, fun chain => bounded chain.tail⟩
  · intro bound type title form line inside nodes endLine inner more closed located_inside
      located_below within later low positive below stay
    have lower : low ≤ line := below.1.1
    obtain ⟨wide, upper, -⟩ := closing_line_eq_some closed
    obtain ⟨inner_nested, inner_bounded⟩ := within (line + 1) (by omega) below.1.2
      (stay.subset (fun outer member => by simp [Node.preorderAll, Node.preorder, member])
        (fun span member => by simp [member]))
    obtain ⟨more_nested, more_bounded⟩ := later line (by omega) below.2
      (stay.subset (List.subset_append_right _ _) (fun span member => by simp [member]))
    -- its own children stay above its end, so their spans end above its last line
    have chain := stay (.admonition type title form line inside)
      (by simp [Node.preorderAll, Node.preorder]) ⟨line - 1, endLine, type, title⟩ (by simp)
      (by change line = line - 1 + 1; omega)
    have last : endLine - 1 + 2 = endLine + 1 := by omega
    have enclosed := inner_bounded (last ▸ chain)
    have starts : ∀ span ∈ more, endLine < span.startLine := by
      intro span member
      obtain ⟨next, others, rfl, above⟩ := first_node_of_span located_below below.2 member
      rw [boundAbove] at upper
      omega
    have inside : ∀ span ∈ inner, line - 1 < span.startLine ∧ span.endLine < endLine := by
      intro span member
      obtain ⟨next, others, rfl, above⟩ := first_node_of_span located_inside below.1.2 member
      have beneath := Node.le_of_stands_below below.1.2.1
      have ends := enclosed span member
      omega
    refine ⟨pairwise_cons_append inside starts inner_nested more_nested, ?_⟩
    · intro chain' span member
      have own : endLine ≤ bound := by
        apply end_le_bound_above closed
        rintro next others rfl
        exact (List.isChain_cons_cons.mp chain').1 rfl
      rcases List.mem_cons.mp member with rfl | member
      · exact own
      · rcases List.mem_append.mp member with member | member
        · have ends := enclosed span member
          omega
        · exact more_bounded chain'.tail span member

/-- Each admonition on a level has its span, which encloses those located inside it. -/
theorem span_of_node (located : ofNodes pageLines bound (front ++ node :: back) = .ok spans)
    (isAdmonition : node.isAdmonition = true) :
    ∃ span ∈ spans, span.startLine = node.line - 1 ∧
      closingLine? pageLines span.startLine (boundAbove bound back) = some span.endLine ∧
      ∃ inner, ofNodes pageLines (span.endLine - 1) node.children = .ok inner ∧
        inner ⊆ spans := by
  induction front generalizing spans with
  | nil =>
      obtain ⟨first, more, here, below, rfl⟩ := of_nodes_cons_eq_ok located
      cases node with
      | directive => cases isAdmonition
      | block => cases isAdmonition
      | admonition type title form line inside =>
          obtain ⟨endLine, inner, closed, within, rfl⟩ := of_node_admonition_eq_ok here
          refine ⟨⟨line - 1, endLine, type, title⟩, by simp, rfl, closed, inner, within, ?_⟩
          intro span member
          simp [member]
  | cons other front induction =>
      obtain ⟨first, more, here, below, rfl⟩ := of_nodes_cons_eq_ok located
      obtain ⟨span, member, start, closed, inner, within, fewer⟩ := induction below
      exact ⟨span, List.mem_append_right _ member, start, closed, inner, within,
        List.Subset.trans fewer (List.subset_append_right _ _)⟩

theorem span_of_preorder (located : ofNodes pageLines bound nodes = .ok spans)
    (member : outer ∈ Node.preorderAll nodes) (isAdmonition : outer.isAdmonition = true) :
    ∃ span ∈ spans, span.startLine = outer.line - 1 ∧
      ∃ inner, ofNodes pageLines (span.endLine - 1) outer.children = .ok inner ∧
        inner ⊆ spans := by
  revert member
  refine of_nodes_induction (motive := fun _ nodes spans => outer ∈ Node.preorderAll nodes →
    ∃ span ∈ spans, span.startLine = outer.line - 1 ∧
      ∃ inner, ofNodes pageLines (span.endLine - 1) outer.children = .ok inner ∧
        inner ⊆ spans) ?_ ?_ ?_ located
  · intro bound member
    cases member
  · intro bound node nodes spans isOther later member
    rcases List.mem_append.mp member with member | member
    · cases node with
      | admonition => cases isOther
      | directive =>
          rw [Node.preorder, List.mem_singleton] at member
          rw [member] at isAdmonition
          cases isAdmonition
      | block =>
          rw [Node.preorder, List.mem_singleton] at member
          rw [member] at isAdmonition
          cases isAdmonition
    · exact later member
  · intro bound type title form line inside nodes endLine inner spans closed located_inside _ within
      later member
    rcases List.mem_append.mp member with member | member
    · rcases List.mem_cons.mp member with rfl | member
      · refine ⟨_, List.mem_cons_self, rfl, inner, located_inside, fun span member => ?_⟩
        simp [member]
      · obtain ⟨span, member, start, inner', located', fewer⟩ := within member
        refine ⟨span, by simp [member], start, inner', located', fun other member => ?_⟩
        simp [fewer member]
    · obtain ⟨span, member, start, inner', located', fewer⟩ := later member
      refine ⟨span, by simp [member], start, inner', located', fun other member => ?_⟩
      simp [fewer member]

theorem is_admonition_of_child {outer inner : Node} (child : inner ∈ outer.children) :
    outer.isAdmonition = true := by
  cases outer with
  | admonition => rfl
  | directive => cases child
  | block => cases child

/-- The span of an inner admonition ends above the next node, and a last one inside its outer. -/
theorem span_of_child {inner : Node} (located : ofNodes pageLines bound nodes = .ok spans)
    (member : outer ∈ Node.preorderAll nodes) (split : outer.children = front ++ inner :: back)
    (isAdmonition : inner.isAdmonition = true) :
    ∃ own ∈ spans, own.startLine = outer.line - 1 ∧
      ∃ span ∈ spans, span.startLine = inner.line - 1 ∧
        closingLine? pageLines span.startLine (boundAbove (own.endLine - 1) back) =
          some span.endLine := by
  have isChild : inner ∈ outer.children := by
    rw [split]
    simp
  have isOuter := is_admonition_of_child isChild
  obtain ⟨own, own_member, start, children, located_inside, fewer⟩ :=
    span_of_preorder located member isOuter
  rw [split] at located_inside
  obtain ⟨span, span_member, start', closed, -⟩ := span_of_node located_inside isAdmonition
  exact ⟨own, own_member, start, span, fewer span_member, start', closed⟩

theorem begin_inside_of_stay_above (located : ofNodes pageLines bound nodes = .ok spans)
    (laminar : IsLaminar spans) (stay : StayAbove nodes spans) : BeginInside nodes spans := by
  intro outer member span span_member start inner child isAdmonition
  obtain ⟨front, back, split⟩ := List.append_of_mem child
  obtain ⟨own, own_member, own_start, within, within_member, within_start, closed⟩ :=
    span_of_child located member split isAdmonition
  have same : own = span := laminar.eq_of_start own_member span_member (by omega)
  rw [same] at closed
  have chain := stay outer member span span_member start
  rw [split] at chain
  obtain ⟨wide, upper, -⟩ := closing_line_eq_some closed
  cases back with
  | nil =>
      rw [boundAbove] at upper
      omega
  | cons next back =>
      have above := List.isChain_iff_forall_rel_of_append_cons_cons.mp chain rfl isAdmonition
      rw [boundAbove] at upper
      omega

theorem stay_above_of_laminar (located : ofNodes pageLines bound nodes = .ok spans)
    (below : Node.AllBelow low nodes) (laminar : IsLaminar spans)
    (begins : BeginInside nodes spans) : StayAbove nodes spans := by
  intro outer member span span_member start
  apply List.isChain_iff_forall_rel_of_append_cons_cons.mpr
  intro inner next front back split isAdmonition
  have child : inner ∈ outer.children := by rw [split]; simp
  obtain ⟨_, _, _, within, within_member, within_start, closed⟩ :=
    span_of_child located member split isAdmonition
  have lower := (Node.child_below_preorder_all nodes below member).2 inner child
  have begins' := begins outer member span span_member start inner child isAdmonition
  obtain ⟨wide, upper, -, -, none⟩ := closing_line_eq_some closed
  rw [boundAbove] at upper none
  by_contra beyond
  -- the closing line of the outer span stands in reach of the search for the inner one
  rcases laminar.precedes span_member within_member (by omega) with apart | ⟨-, ends⟩
  · omega
  · have open' := none span.endLine ends (by omega)
    rw [(of_nodes_end located span span_member).closing] at open'
    cases open'

/-- Spans are nested like the admonitions exactly when the nodes behind inner
admonitions stay above the end of the outer one. -/
theorem laminar_iff_stay_above {reading : Reading} {page : Text} {tree : Tree}
    (read : Tree.ofText reading page = .ok tree) (located : locate reading page = .ok spans) :
    IsLaminar spans ∧ BeginInside tree.nodes spans ↔ StayAbove tree.nodes spans := by
  have below := Tree.nodes_all_below read
  obtain ⟨tree', read', found⟩ := locate_eq_ok.mp located
  rw [read] at read'
  cases read'
  constructor
  · rintro ⟨laminar, begins⟩
    exact stay_above_of_laminar found below laminar begins
  · intro stay
    have nested := (pairwise_of_stay_above found (Nat.le_refl 1) below stay).1
    have laminar : IsLaminar spans := laminar_of_pairwise (fun span member => by
      have wide := (of_nodes_end found span member).wide
      omega) nested
    exact ⟨laminar, begin_inside_of_stay_above found laminar stay⟩

end AdmonitionSpan

end LessonBook
