import LessonBook.Proofs.Admonition.Search

/-!
What is known of the spans that are located in any tree, whether its lines are
those of the page or not: each ends with a line that can close it, found upwards
from the next node or from the end of its level.
-/

namespace LessonBook

def Node.isAdmonition : Node → Bool
  | .admonition .. => true
  | .directive .. | .block .. => false

namespace AdmonitionSpan

variable {pageLines : List Text} {low line count bound startLine endLine : Nat}

theorem last_closing_below_of_some (found : lastClosingBelow? pageLines low count = some line) :
    low < line ∧ line < count ∧ (pageLines[line]?).any isClosingLine = true ∧
      ∀ other, line < other → other < count → (pageLines[other]?).any isClosingLine = false := by
  induction count with
  | zero => cases found
  | succ count induction =>
      rw [lastClosingBelow?] at found
      split at found
      · cases found
      · rename_i above
        split at found
        · rename_i closing
          cases found
          exact ⟨by omega, by omega, closing, fun other lower upper => by omega⟩
        · rename_i open'
          obtain ⟨lower, upper, closing, none⟩ := induction found
          refine ⟨lower, by omega, closing, fun other below within => ?_⟩
          rcases Nat.lt_succ_iff_lt_or_eq.mp within with within | rfl
          · exact none other below within
          · simpa using open'

theorem closing_line_eq_some (found : closingLine? pageLines startLine bound = some endLine) :
    startLine + 1 < endLine ∧ endLine ≤ bound ∧ endLine < pageLines.length ∧
      (pageLines[endLine]?).any isClosingLine = true ∧
      ∀ other, endLine < other → other ≤ bound →
        (pageLines[other]?).any isClosingLine = false := by
  obtain ⟨lower, upper, closing, none⟩ := last_closing_below_of_some found
  refine ⟨lower, by omega, by omega, closing, fun other below within => ?_⟩
  by_cases inside : other < pageLines.length
  · exact none other below (by omega)
  · rw [List.getElem?_eq_none (by omega)]
    rfl

theorem of_nodes_cons_eq_ok {node : Node} {nodes : List Node} {spans : List AdmonitionSpan}
    (located : ofNodes pageLines bound (node :: nodes) = .ok spans) :
    ∃ first more, ofNode pageLines (boundAbove bound nodes) node = .ok first ∧
      ofNodes pageLines bound nodes = .ok more ∧ spans = first ++ more := by
  rw [of_nodes_cons] at located
  cases here : ofNode pageLines (boundAbove bound nodes) node with
  | error problem =>
      rw [here] at located
      cases located
  | ok first =>
      cases below : ofNodes pageLines bound nodes with
      | error problem =>
          rw [here, below] at located
          cases located
      | ok more =>
          rw [here, below] at located
          cases located
          exact ⟨first, more, rfl, rfl, rfl⟩

theorem of_node_of_other {node : Node} {spans : List AdmonitionSpan}
    (isOther : node.isAdmonition = false)
    (located : ofNode pageLines bound node = .ok spans) : spans = [] := by
  cases node with
  | admonition => cases isOther
  | directive =>
      cases located
      rfl
  | block =>
      cases located
      rfl

theorem of_node_admonition_eq_ok {type : Text} {title : Option Text} {form : AdmonitionForm}
    {inside : List Node} {spans : List AdmonitionSpan}
    (located : ofNode pageLines bound (.admonition type title form line inside) = .ok spans) :
    ∃ endLine inner, closingLine? pageLines (line - 1) bound = some endLine ∧
      ofNodes pageLines (endLine - 1) inside = .ok inner ∧
      spans = ⟨line - 1, endLine, type, title⟩ :: inner := by
  rw [ofNode] at located
  split at located
  · cases located
  · rename_i endLine closed
    cases within : ofNodes pageLines (endLine - 1) inside with
    | error problem =>
        rw [within] at located
        cases located
    | ok inner =>
        rw [within] at located
        cases located
        exact ⟨endLine, inner, closed, within, rfl⟩

/-- What holds of the spans of some nodes follows from the nodes below the first
one, and for an admonition also from the nodes inside it. -/
theorem of_nodes_induction {motive : Nat → List Node → List AdmonitionSpan → Prop}
    (nil : ∀ bound, motive bound [] [])
    (other : ∀ bound node nodes spans, node.isAdmonition = false →
      motive bound nodes spans → motive bound (node :: nodes) spans)
    (admonition : ∀ bound type title form line inside nodes endLine inner spans,
      closingLine? pageLines (line - 1) (boundAbove bound nodes) = some endLine →
      ofNodes pageLines (endLine - 1) inside = .ok inner → ofNodes pageLines bound nodes = .ok spans →
      motive (endLine - 1) inside inner → motive bound nodes spans →
      motive bound (.admonition type title form line inside :: nodes)
        (⟨line - 1, endLine, type, title⟩ :: (inner ++ spans)))
    {bound : Nat} {nodes : List Node} {spans : List AdmonitionSpan}
    (located : ofNodes pageLines bound nodes = .ok spans) : motive bound nodes spans := by
  match nodes with
  | [] =>
      cases located
      exact nil bound
  | .admonition type title form line inside :: nodes =>
      obtain ⟨first, more, here, below, rfl⟩ := of_nodes_cons_eq_ok located
      obtain ⟨endLine, inner, closed, within, rfl⟩ := of_node_admonition_eq_ok here
      exact admonition bound type title form line inside nodes endLine inner more closed within below
        (of_nodes_induction nil other admonition within)
        (of_nodes_induction nil other admonition below)
  | .directive name args body line :: nodes =>
      obtain ⟨first, more, here, below, rfl⟩ := of_nodes_cons_eq_ok located
      rw [of_node_of_other rfl here]
      exact other bound _ nodes more rfl (of_nodes_induction nil other admonition below)
  | .block kind text names line :: nodes =>
      obtain ⟨first, more, here, below, rfl⟩ := of_nodes_cons_eq_ok located
      rw [of_node_of_other rfl here]
      exact other bound _ nodes more rfl (of_nodes_induction nil other admonition below)
termination_by sizeOf nodes

structure EndsIn (pageLines : List Text) (span : AdmonitionSpan) : Prop where
  wide : span.startLine + 1 < span.endLine
  inside : span.endLine < pageLines.length
  closing : (pageLines[span.endLine]?).any isClosingLine = true

theorem of_nodes_end {nodes : List Node} {spans : List AdmonitionSpan}
    (located : ofNodes pageLines bound nodes = .ok spans) :
    ∀ span ∈ spans, span.EndsIn pageLines := by
  refine of_nodes_induction (motive := fun _ _ spans => ∀ span ∈ spans, span.EndsIn pageLines)
    ?_ ?_ ?_ located
  · intro bound span member
    cases member
  · intro bound node nodes spans isOther later
    exact later
  · intro bound type title form line inside nodes endLine inner spans closed _ _ within later
    obtain ⟨wide, -, inside, closing, -⟩ := closing_line_eq_some closed
    intro span member
    rcases List.mem_cons.mp member with rfl | member
    · exact ⟨wide, inside, closing⟩
    · exact (List.mem_append.mp member).elim (within span) (later span)

theorem locate_eq_ok {reading : Reading} {page : Text} {spans : List AdmonitionSpan} :
    locate reading page = .ok spans ↔
      ∃ tree, Tree.ofText reading page = .ok tree ∧
        ofNodes (Text.lines (Text.normalizeLineEnds page))
          ((Text.lines (Text.normalizeLineEnds page)).length - 1) tree.nodes = .ok spans := by
  rw [locate]
  cases Tree.ofText reading page with
  | error problem => exact ⟨fun located => (by cases located), fun ⟨_, read, _⟩ => (by cases read)⟩
  | ok tree => exact ⟨fun located => ⟨tree, rfl, located⟩, fun ⟨_, read, located⟩ => by
      cases read
      exact located⟩

end AdmonitionSpan

end LessonBook
