import LessonBook.Page
import LessonBook.Proofs.Admonition.Location

/-!
The problems of a page. Those that are errors stand in the order of the tree, one for
each directive that a page may not use; a page is refused for its first problem that is
severe enough, and then nobody is told of any.
-/

namespace LessonBook

def Node.unknown? : Node → Option Diagnostic
  | .directive name _ _ line =>
      if name ∉ knownDirectives ∧ Text.lower (firstWord name) ∉ chunkLanguages then
        some ⟨.unknownDirective name, line⟩
      else none
  | .admonition .. | .block .. => none

namespace Diagnostic

variable {halt : Severity} {diagnostic : Diagnostic} {diagnostics : List Diagnostic}

def errors (diagnostics : List Diagnostic) : List Diagnostic :=
  diagnostics.filter fun diagnostic => diagnostic.severity = .error

def IsFirstAbove (halt : Severity) (diagnostics : List Diagnostic) (diagnostic : Diagnostic) :
    Prop :=
  ∃ front back, diagnostics = front ++ diagnostic :: back ∧
    halt.rank ≤ diagnostic.severity.rank ∧ ∀ other ∈ front, other.severity.rank < halt.rank

def keep (diagnostic : Diagnostic) : StateM (List Diagnostic) Unit :=
  modify fun kept => kept ++ [diagnostic]

theorem run_for_m_keep (diagnostics kept : List Diagnostic) :
    (diagnostics.forM keep).run kept = pure ((), kept ++ diagnostics) := by
  induction diagnostics generalizing kept with
  | nil =>
      rw [List.append_nil]
      rfl
  | cons diagnostic diagnostics induction =>
      rw [List.forM_eq_forM, List.forM_cons, StateT.run_bind]
      exact (induction (kept ++ [diagnostic])).trans (by rw [List.append_assoc]; rfl)

theorem errors_append (front back : List Diagnostic) :
    errors (front ++ back) = errors front ++ errors back :=
  List.filter_append ..

theorem is_first_above_of_find (found : diagnostics.find? (isFatal halt) = some diagnostic) :
    IsFirstAbove halt diagnostics diagnostic := by
  obtain ⟨fatal, front, back, split, below⟩ := List.find?_eq_some_iff_append.mp found
  refine ⟨front, back, split, of_decide_eq_true fatal, fun other member => ?_⟩
  have mild := below other member
  rw [Bool.not_eq_true', isFatal, decide_eq_false_iff_not] at mild
  exact Nat.lt_of_not_le mild

theorem below_of_find_eq_none (none : diagnostics.find? (isFatal halt) = none) :
    ∀ diagnostic ∈ diagnostics, diagnostic.severity.rank < halt.rank := by
  intro diagnostic member
  have mild := List.find?_eq_none.mp none diagnostic member
  rw [isFatal, decide_eq_true_eq] at mild
  exact Nat.lt_of_not_le mild

/-- A page directive reports nothing, any other one an error. -/
theorem unknown_of_directive (name args body : Text) (line : Nat) :
    (Node.directive name args body line).unknown? =
      if isPageDirective name then none else some ⟨.unknownDirective name, line⟩ := by
  rw [Node.unknown?, isPageDirective]
  by_cases known : name ∈ knownDirectives
  · simp [known]
  · by_cases chunk : Text.lower (firstWord name) ∈ chunkLanguages
    · simp [chunk]
    · simp [known, chunk]

/-- The errors of a block are those of its node and of the nodes inside it, which
are reported behind it. -/
theorem errors_of_block (enabled : List Extension) (line : Nat) (insideLink : Bool)
    (block : Block) (inside : ∀ raw opened body, block = .directive raw opened body →
      errors (ofBlocks enabled (line + 1) body) =
        (Node.preorderAll (Node.ofBlocks enabled (line + 1) insideLink body).1).filterMap
          Node.unknown?) :
    errors (ofBlock enabled line block) =
      (Node.preorderAll (Node.ofBlock enabled line insideLink block).1.toList).filterMap
        Node.unknown? := by
  cases block with
  | quote raw text body => rfl
  | list raw items => rfl
  | leaf raw leaf =>
      simp only [ofBlock, Node.ofBlock]
      cases found : leaf.admonition? enabled raw with
      | some admonition =>
          obtain ⟨type, title⟩ := admonition
          cases type <;> rfl
      | none =>
          by_cases space : leaf = .space
          · rw [if_pos space]
            rfl
          · rw [if_neg space]
            rfl
  | directive raw opened body =>
      have unclosed :
          errors (if opened.closed then [] else [⟨.unclosedDirective opened.name, line⟩]) = [] := by
        cases opened.closed <;> rfl
      rw [ofBlock, errors_append, unclosed, List.nil_append, Node.ofBlock]
      cases isAdmonitionName opened.name with
      | true =>
          rw [if_pos rfl, if_pos rfl, inside raw opened body rfl]
          simp only [Option.toList_some, Node.preorderAll, Node.preorder, List.append_nil,
            List.filterMap_cons, Node.unknown?]
      | false =>
          rw [if_neg Bool.false_ne_true, if_neg Bool.false_ne_true, Option.toList_some,
            Node.preorderAll, Node.preorderAll, List.append_nil, Node.preorder,
            List.filterMap_cons, unknown_of_directive]
          cases isPageDirective opened.name <;> rfl

theorem errors_of_blocks (enabled : List Extension) (line : Nat) (insideLink : Bool)
    (blocks : List Block) :
    errors (ofBlocks enabled line blocks) =
      (Node.preorderAll (Node.ofBlocks enabled line insideLink blocks).1).filterMap
        Node.unknown? := by
  match blocks with
  | [] => rfl
  | first :: blocks =>
      have inside : ∀ raw opened body, first = .directive raw opened body →
          errors (ofBlocks enabled (line + 1) body) =
            (Node.preorderAll (Node.ofBlocks enabled (line + 1) insideLink body).1).filterMap
              Node.unknown? := by
        rintro raw opened body rfl
        exact errors_of_blocks enabled (line + 1) insideLink body
      have later := errors_of_blocks enabled (line + Text.newlineCount first.raw)
        (Node.ofBlock enabled line insideLink first).2 blocks
      rw [ofBlocks, errors_append, errors_of_block enabled line insideLink first inside, later,
        Node.of_blocks_cons, Node.preorder_all_append, List.filterMap_append]
termination_by sizeOf blocks

end Diagnostic

namespace Tree

open Diagnostic

variable {enabled : List Extension} {page : Text} {tree : Tree}

theorem of_text_of_severe (read : ofText ⟨enabled, .severe⟩ page = .ok tree)
    (halt : Severity) :
    ofText ⟨enabled, halt⟩ page =
      match tree.diagnostics.find? (isFatal halt) with
      | some diagnostic => .error (.fatal diagnostic)
      | none => .ok tree := by
  rw [of_text_severe, Except.ok.injEq] at read
  subst read
  rfl

/-- A page is read where only severe problems stop the reading, and its errors are the
directives it may not use, in the order of the tree. With another severity the first
problem at or above it is the error, and nobody is told of a problem; without one the
tree is the same, and its problems are told one after the other. -/
theorem problems_reported (enabled : List Extension) (page : Text) :
    ∃ tree, ofText ⟨enabled, .severe⟩ page = .ok tree ∧
      errors tree.diagnostics = (Node.preorderAll tree.nodes).filterMap Node.unknown? ∧
      ∀ halt : Severity,
        ((∃ error, ofText ⟨enabled, halt⟩ page = .error error) ↔
          ∃ diagnostic ∈ tree.diagnostics, halt.rank ≤ diagnostic.severity.rank) ∧
        ∀ {M : Type → Type} [Monad M] (tell : Diagnostic → M Unit),
          (∃ diagnostic error, IsFirstAbove halt tree.diagnostics diagnostic ∧
            error.reason = diagnostic.problem.message ∧ error.line = diagnostic.line ∧
            ofText ⟨enabled, halt⟩ page = .error error ∧
            ofTextTelling tell ⟨enabled, halt⟩ page = pure (.error error)) ∨
          ((∀ diagnostic ∈ tree.diagnostics, diagnostic.severity.rank < halt.rank) ∧
            ofText ⟨enabled, halt⟩ page = .ok tree ∧
            ofTextTelling tell ⟨enabled, halt⟩ page = do
              tree.diagnostics.forM tell
              pure (.ok tree)) := by
  have read := of_text_severe enabled page
  refine ⟨_, read, errors_of_blocks enabled 1 false _, fun halt => ?_⟩
  have reading := of_text_of_severe read halt
  cases found : (ofBlocks enabled 1 (Block.ofText enabled page)).find? (isFatal halt) with
  | some diagnostic =>
      rw [found] at reading
      have first := is_first_above_of_find found
      refine ⟨⟨fun _ => ?_, fun _ => ⟨_, reading⟩⟩, fun tell => .inl ?_⟩
      · obtain ⟨front, back, split, fatal, -⟩ := first
        exact ⟨diagnostic, List.mem_of_find?_eq_some found, fatal⟩
      · refine ⟨diagnostic, .fatal diagnostic, first, rfl, rfl, reading, ?_⟩
        rw [ofTextTelling, reading]
  | none =>
      rw [found] at reading
      have below := below_of_find_eq_none found
      refine ⟨⟨?_, ?_⟩, fun tell => .inr ⟨below, reading, ?_⟩⟩
      · rintro ⟨error, refused⟩
        rw [reading] at refused
        cases refused
      · rintro ⟨diagnostic, member, fatal⟩
        exact absurd fatal (Nat.not_le.mpr (below diagnostic member))
      · rw [ofTextTelling, reading]

/-- A problem of an admonition stands in front of those of the blocks inside it. -/
example : (ofText {} "```\x7bnote\x7d\n:::\x7bmystery\x7d\nx\n:::\n".toList).map Tree.diagnostics =
    .ok [⟨.unclosedDirective "note".toList, 1⟩, ⟨.unknownDirective "mystery".toList, 2⟩] := by
  decide +kernel

/-- A listener that keeps what it is told has all the problems, or none. -/
theorem run_of_text_telling (reading : Reading) (page : Text) (kept : List Diagnostic) :
    (ofTextTelling keep reading page).run kept =
      (ofText reading page,
        match ofText reading page with
        | .error _ => kept
        | .ok tree => kept ++ tree.diagnostics) := by
  rw [ofTextTelling]
  cases ofText reading page with
  | error error => rfl
  | ok tree =>
      rw [StateT.run_bind, run_for_m_keep]
      rfl

end Tree

/-- The problems that are reported of a page are what such a listener has when the
page with its exercises bracketed is read. -/
theorem Page.diagnostics_kept (reading : Reading) {text plain : Text}
    (bracketed : bracketExercises text = .ok plain) :
    (Tree.ofTextTelling Diagnostic.keep reading plain).run [] =
      (Tree.ofText reading plain, diagnostics reading text) := by
  rw [Tree.run_of_text_telling, diagnostics, bracketed]
  dsimp only
  cases Tree.ofText reading plain <;> rfl

end LessonBook
