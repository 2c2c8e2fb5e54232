import LessonBook.Markup.Tree
import LessonBook.Proofs.Markup.Step

/-!
The raw texts of the blocks, put one after the other, are the text that was
read, until prose is joined with prose in front of it. The newline between the
two was counted before, so from then on each join moves all lines down by one.
-/

namespace LessonBook

open Text Recognizer BlockReader

/-- Where a block was read: the text left there, and how often prose was joined before. -/
structure Place where
  rest : Text
  joins : Nat
  deriving DecidableEq, Repr

namespace BlockReader

def innerBlocks (enabled : List Extension) (fuel : Nat) : Inner := fun paragraphs body =>
  (readFrom enabled fuel (.start paragraphs) (expandLeadingTabs body)).blocks.reverse

/-- The places of the blocks that reading adds. A step that is not for space and
adds no block is a join. -/
def placesFrom (enabled : List Extension) : Nat → Nat → Progress → Text → List Place
  | 0, _, _, _ => []
  | fuel + 1, joins, progress, text =>
      if text.isEmpty then []
      else
        match firstStep progress text (steps enabled (innerBlocks enabled fuel)) with
        | some (next, rest) =>
            if progress.blocks.length < next.blocks.length then
              ⟨text, joins⟩ :: placesFrom enabled fuel joins next rest
            else if (spaceStep progress text).isSome then
              placesFrom enabled fuel joins next rest
            else placesFrom enabled fuel (joins + 1) next rest
        | none => []

theorem read_from_succ (enabled : List Extension) (fuel : Nat) (progress : Progress) (text : Text) :
    readFrom enabled (fuel + 1) progress text =
      if text.isEmpty then progress
      else match firstStep progress text (steps enabled (innerBlocks enabled fuel)) with
        | some (next, rest) => readFrom enabled fuel next rest
        | none => progress := rfl

end BlockReader

def Block.source (page : Text) : Text :=
  expandLeadingTabs (normalizeLineEnds page)

def Block.places (enabled : List Extension) (page : Text) : List Place :=
  placesFrom enabled ((normalizeLineEnds page).length + 2) 0 (.start true) (source page)

def Block.raws (blocks : List Block) : Text :=
  blocks.flatMap raw

/-- The raw texts so far are the text in front of a place as long as nothing was
joined. Each join adds one newline to them, and then they are no part of the text. -/
def Accurate (source raws rest : Text) (joins : Nat) : Prop :=
  ∃ front, source = front ++ rest ∧ newlineCount raws = newlineCount front + joins ∧
    (raws = front ↔ joins = 0) ∧ (raws <+: source ↔ joins = 0)

namespace Accurate

variable {source raws taken rest : Text} {joins : Nat}

theorem start (source : Text) : Accurate source [] source 0 :=
  ⟨[], rfl, rfl, by simp, by simp⟩

theorem append (accurate : Accurate source raws (taken ++ rest) joins) :
    Accurate source (raws ++ taken) rest joins := by
  obtain ⟨front, split, count, same, isPrefix⟩ := accurate
  refine ⟨front ++ taken, by simp [split], ?_, ?_, ?_⟩
  · rw [newline_count_append, newline_count_append, count]
    omega
  · rw [List.append_left_inj, same]
  · constructor
    · intro longer
      exact isPrefix.mp ((List.prefix_append raws taken).trans longer)
    · intro none
      rw [same.mpr none, split, ← List.append_assoc]
      exact List.prefix_append _ rest

theorem join (accurate : Accurate source raws (taken ++ rest) joins)
    (plain : (taken ++ rest).head? ≠ some '\n') :
    Accurate source (raws ++ '\n' :: taken) rest (joins + 1) := by
  obtain ⟨front, split, count, same, isPrefix⟩ := accurate
  have broken : ¬raws ++ '\n' :: taken <+: source := by
    intro longer
    have none := isPrefix.mp ((List.prefix_append raws _).trans longer)
    rw [same.mpr none, split, List.prefix_append_right_inj] at longer
    obtain ⟨more, whole⟩ := longer
    rw [← whole] at plain
    exact plain rfl
  refine ⟨front ++ taken, by simp [split], ?_, ?_, ?_⟩
  · rw [newline_count_append, newline_count_newline, newline_count_append, count]
    omega
  · constructor
    · intro whole
      refine absurd ?_ broken
      rw [whole, split, ← List.append_assoc]
      exact List.prefix_append _ rest
    · intro none
      cases none
  · exact ⟨fun longer => absurd longer broken, fun none => by cases none⟩

end Accurate

namespace BlockReader

def Progress.raws (progress : Progress) : Text :=
  Block.raws progress.blocks.reverse

theorem raws_cons {progress : Progress} {block : Block} {earlier : List Block}
    (blocks : progress.blocks = block :: earlier) :
    progress.raws = Block.raws earlier.reverse ++ block.raw := by
  simp [Progress.raws, Block.raws, blocks]

theorem raw_extend (block : Block) (more : Text) : (block.extendRaw more).raw = block.raw ++ more := by
  cases block <;> rfl

theorem add_space_cases (raw : Text) (progress : Progress) :
    ((progress.addSpace raw).blocks = .leaf raw .space :: progress.blocks) ∨
      ∃ c last earlier, raw = [c] ∧ progress.blocks = last :: earlier ∧
        (progress.addSpace raw).blocks = last.extendRaw ['\n'] :: earlier := by
  unfold Progress.addSpace
  split
  · rename_i c last earlier blocks
    exact .inr ⟨c, last, earlier, rfl, blocks, rfl⟩
  · exact .inl rfl

variable {colonFence : Bool} {inner : Inner} {progress next : Progress} {source text rest : Text}
  {joins : Nat}

/-- One step adds a block, or space to the last one, or joins prose with it. -/
theorem advance_accurate (advance : Advance colonFence inner progress text next rest)
    (accurate : Accurate source progress.raws text joins) :
    (∃ block, next.blocks = block :: progress.blocks ∧
      (rest = [] ∨ Accurate source next.raws rest joins)) ∨
    ∃ last changed earlier, progress.blocks = last :: earlier ∧ next.blocks = changed :: earlier ∧
      (rest = [] ∨ Accurate source next.raws rest
        (if (spaceStep progress text).isSome then joins else joins + 1)) := by
  cases advance with
  | pushed block blocks taken fresh plain =>
      subst taken
      refine .inl ⟨block, blocks, .inr ?_⟩
      rw [raws_cons blocks]
      exact accurate.append
  | space raw taken present blank ends step =>
      subst taken
      rcases add_space_cases raw progress with blocks | ⟨c, last, earlier, rfl, blocks, blocks'⟩
      · refine .inl ⟨_, blocks, .inr ?_⟩
        rw [raws_cons blocks]
        exact accurate.append
      · refine .inr ⟨last, _, earlier, blocks, blocks', ?_⟩
        rw [step, Option.isSome_some, if_pos rfl]
        apply ends.imp id
        intro newline
        rw [List.getLast?_singleton, Option.some.injEq] at newline
        subst newline
        rw [raws_cons blocks', raw_extend, ← List.append_assoc, ← raws_cons blocks]
        exact accurate.append
  | joined front raw leaf extended earlier blocks blocks' notSpace taken refused =>
      subst taken
      refine .inr ⟨_, _, earlier, blocks, blocks', .inr ?_⟩
      rw [refused, Option.isSome_none, if_neg (by simp), raws_cons blocks']
      simp only [Block.raw]
      rw [← List.append_assoc]
      have whole := raws_cons blocks
      simp only [Block.raw] at whole
      rw [← whole]
      exact accurate.join (plain_of_space_none refused)

/-- Blocks below the last one are never changed again. -/
theorem earlier_kept (enabled : List Extension) (fuel : Nat) (text : Text) {last : Block}
    {earlier : List Block} (blocks : progress.blocks = last :: earlier) :
    earlier.reverse <+: (readFrom enabled fuel progress text).blocks.reverse := by
  induction fuel generalizing progress text last earlier with
  | zero =>
      rw [readFrom, blocks, List.reverse_cons]
      exact List.prefix_append _ _
  | succ fuel induction =>
      have stays : earlier.reverse <+: progress.blocks.reverse := by
        rw [blocks, List.reverse_cons]
        exact List.prefix_append _ _
      rw [read_from_succ]
      split
      · exact stays
      · split
        · rename_i next rest found
          cases first_step_advance found with
          | pushed block blocks' =>
              exact stays.trans (induction rest blocks')
          | space raw =>
              rcases add_space_cases raw progress with pushed | ⟨c, other, others, -, same, extended⟩
              · exact stays.trans (induction rest pushed)
              · rw [blocks, List.cons.injEq] at same
                rw [same.2]
                exact induction rest extended
          | joined front raw leaf extended others same blocks' =>
              rw [blocks, List.cons.injEq] at same
              rw [same.2]
              exact induction rest blocks'
        · exact stays

theorem raws_of_earlier {enabled : List Extension} {fuel : Nat} {block : Block}
    (blocks : next.blocks = block :: progress.blocks) :
    Block.raws ((readFrom enabled fuel next rest).blocks.reverse.take progress.blocks.length) =
      progress.raws := by
  have kept := List.prefix_iff_eq_take.mp (earlier_kept enabled fuel rest blocks)
  rw [List.length_reverse] at kept
  rw [← kept, Progress.raws]

/-- Every block that a run adds has its place, and the raw texts before it are
accurate there. -/
theorem places_accurate (enabled : List Extension) (fuel : Nat)
    (accurate : text = [] ∨ Accurate source progress.raws text joins) :
    (readFrom enabled fuel progress text).blocks.length =
        progress.blocks.length + (placesFrom enabled fuel joins progress text).length ∧
      ∀ index place, (placesFrom enabled fuel joins progress text)[index]? = some place →
        Accurate source
          (Block.raws ((readFrom enabled fuel progress text).blocks.reverse.take
            (progress.blocks.length + index)))
          place.rest place.joins := by
  induction fuel generalizing progress text joins with
  | zero => exact ⟨rfl, by simp [placesFrom]⟩
  | succ fuel induction =>
      rw [read_from_succ, placesFrom]
      by_cases empty : text.isEmpty = true
      · rw [if_pos empty, if_pos empty]
        simp
      rw [if_neg empty, if_neg empty]
      replace accurate := accurate.resolve_left fun none => empty (by rw [none]; rfl)
      cases found : firstStep progress text (steps enabled (innerBlocks enabled fuel)) with
      | none => simp
      | some result =>
          obtain ⟨next, rest⟩ := result
          simp only []
          rcases advance_accurate (first_step_advance found) accurate with
            ⟨block, blocks, left⟩ | ⟨last, changed, earlier, blocks, blocks', left⟩
          · have longer : progress.blocks.length < next.blocks.length := by
              rw [blocks, List.length_cons]
              omega
            obtain ⟨length, inside⟩ := induction left
            rw [if_pos longer]
            -- the new block stands where the earlier ones end; the rest is the induction
            refine ⟨by rw [length, blocks]; simp only [List.length_cons]; omega, ?_⟩
            intro index place here
            cases index with
            | zero =>
                cases here
                rw [Nat.add_zero, raws_of_earlier blocks]
                exact accurate
            | succ index =>
                have later := inside index place here
                rw [blocks, List.length_cons] at later
                rw [← Nat.add_assoc, Nat.add_right_comm]
                exact later
          · -- no place is added, and the counts go on from the changed last block
            have same : next.blocks.length = progress.blocks.length := by
              rw [blocks, blocks']
              rfl
            rw [if_neg (by omega)]
            rw [← same]
            split
            · rename_i space
              rw [if_pos space] at left
              exact induction left
            · rename_i refused
              rw [if_neg refused] at left
              exact induction left

end BlockReader

theorem Node.of_blocks_cons (enabled : List Extension) (line : Nat) (insideLink : Bool)
    (block : Block) (blocks : List Block) :
    (ofBlocks enabled line insideLink (block :: blocks)).1 =
      (ofBlock enabled line insideLink block).1.toList ++
        (ofBlocks enabled (line + newlineCount block.raw)
          (ofBlock enabled line insideLink block).2 blocks).1 := rfl

namespace Block

def isSpace : Block → Bool
  | leaf _ content => content = .space
  | directive .. | quote .. | list .. => false

/-- The lines that the raw texts give to the blocks, when the first one begins on `line`. -/
def startLines (line : Nat) : List Block → List Nat
  | [] => []
  | block :: blocks => line :: startLines (line + newlineCount block.raw) blocks

theorem start_lines_length (line : Nat) (blocks : List Block) :
    (startLines line blocks).length = blocks.length := by
  induction blocks generalizing line with
  | nil => rfl
  | cons block blocks induction => rw [startLines, List.length_cons, List.length_cons, induction]

theorem start_line_eq (line : Nat) {blocks : List Block} {index : Nat}
    (inside : index < blocks.length) :
    (startLines line blocks)[index]? = some (line + newlineCount (raws (blocks.take index))) := by
  induction blocks generalizing line index with
  | nil => cases inside
  | cons block blocks induction =>
      cases index with
      | zero => rfl
      | succ index =>
          have later := induction (line + newlineCount block.raw)
            (Nat.lt_of_succ_lt_succ inside)
          have split : raws (block :: blocks.take index) = block.raw ++ raws (blocks.take index) :=
            List.flatMap_cons
          rw [startLines, List.getElem?_cons_succ, later, List.take_succ_cons, split,
            newline_count_append, Nat.add_assoc]

theorem node_line (enabled : List Extension) (line : Nat) (insideLink : Bool) (block : Block) :
    (Node.ofBlock enabled line insideLink block).1.map Node.line =
      if block.isSpace then none else some line := by
  cases block with
  | leaf raw content =>
      cases content <;> simp only [Node.ofBlock, Leaf.admonition?, isSpace] <;>
        first | rfl | (split <;> rfl)
  | directive raw opened body =>
      simp only [Node.ofBlock, isSpace]
      split <;> rfl
  | quote raw text body => rfl
  | list raw items => rfl

theorem node_lines (enabled : List Extension) (line : Nat) (insideLink : Bool)
    (blocks : List Block) :
    (Node.ofBlocks enabled line insideLink blocks).1.map Node.line =
      (blocks.zip (startLines line blocks)).filterMap fun (block, start) =>
        if block.isSpace then none else some start := by
  induction blocks generalizing line insideLink with
  | nil => rfl
  | cons block blocks induction =>
      have first := node_line enabled line insideLink block
      have others := induction (line + newlineCount block.raw)
        (Node.ofBlock enabled line insideLink block).2
      rw [startLines, List.zip_cons_cons, List.filterMap_cons, ← others, Node.of_blocks_cons,
        List.map_append]
      simp only [← first]
      cases (Node.ofBlock enabled line insideLink block).1 <;> rfl

end Block

theorem Diagnostic.not_fatal (diagnostic : Diagnostic) :
    Diagnostic.isFatal .severe diagnostic = false := by
  obtain ⟨problem, line⟩ := diagnostic
  cases problem <;> rfl

/-- No problem is severe, so a page is always read when only those are fatal. -/
theorem Tree.of_text_severe (enabled : List Extension) (page : Text) :
    Tree.ofText ⟨enabled, .severe⟩ page = .ok {
      nodes := (Node.ofBlocks enabled 1 false (Block.ofText enabled page)).1
      lineCount := (lines (normalizeLineEnds page)).length
      diagnostics := Diagnostic.ofBlocks enabled 1 (Block.ofText enabled page) } := by
  have none : (Diagnostic.ofBlocks enabled 1 (Block.ofText enabled page)).find?
      (Diagnostic.isFatal .severe) = none :=
    List.find?_eq_none.mpr fun diagnostic _ => by rw [Diagnostic.not_fatal]; simp
  rw [Tree.ofText, none]

/-- The raw texts of the blocks before a block are the text in front of its place
exactly when no prose was joined before, and each join moves its node down by one line. -/
theorem block_places_accurate (reading : Reading) (page : Text) :
    let blocks := Block.ofText reading.extensions page
    let places := Block.places reading.extensions page
    places.length = blocks.length ∧
      (∀ index place, places[index]? = some place →
        Accurate (Block.source page) (Block.raws (blocks.take index)) place.rest place.joins) ∧
      ∀ tree, Tree.ofText reading page = .ok tree →
        tree.nodes.map Node.line = (blocks.zip places).filterMap fun (block, place) =>
          if block.isSpace then none
          else some (newlineCount (before (Block.source page) place.rest) + place.joins + 1) := by
  intro blocks places
  have start : Accurate (Block.source page) (Progress.start true).raws (Block.source page) 0 :=
    .start (Block.source page)
  obtain ⟨length, inside⟩ := places_accurate reading.extensions
    ((normalizeLineEnds page).length + 2) (.inr start)
  have same : places.length = blocks.length := by
    simpa [blocks, places, Block.ofText, Block.places, Progress.start, Block.source]
      using length.symm
  have accurate : ∀ index place, places[index]? = some place →
      Accurate (Block.source page) (Block.raws (blocks.take index)) place.rest place.joins := by
    intro index place here
    have found := inside index place here
    rw [Progress.start, List.length_nil, Nat.zero_add] at found
    exact found
  refine ⟨same, accurate, ?_⟩
  intro tree read
  have nodes : tree.nodes = (Node.ofBlocks reading.extensions 1 false blocks).1 := by
    simp only [Tree.ofText] at read
    split at read
    · cases read
    · cases read
      rfl
  have starts : Block.startLines 1 blocks = places.map fun place =>
      newlineCount (before (Block.source page) place.rest) + place.joins + 1 := by
    apply List.ext_getElem (by rw [Block.start_lines_length, List.length_map, same])
    intro index _ bound
    rw [List.length_map] at bound
    obtain ⟨front, split, count, -, -⟩ :=
      accurate index places[index] (List.getElem?_eq_getElem bound)
    have taken : before (Block.source page) places[index].rest = front := by
      rw [split, before_append]
    have here := Block.start_line_eq 1 (same ▸ bound)
    rw [List.getElem_map, ← Option.some.injEq, ← List.getElem?_eq_getElem, here, taken, count,
      Nat.add_comm]
  rw [nodes, Block.node_lines, starts, List.zip_map_right, List.filterMap_map]
  rfl

/-- An indented line goes on with the paragraph, so all that follows is one line too low. -/
theorem block_places_of_joined : ∃ tree,
    Tree.ofText {} "para\n    a | b\n--- | ---\n\n# h\n".toList = .ok tree ∧
      tree.nodes.map Node.line = [1, 4, 6] := by
  refine ⟨_, Tree.of_text_severe .., ?_⟩
  exact ((block_places_accurate {} "para\n    a | b\n--- | ---\n\n# h\n".toList).2.2 _
    (Tree.of_text_severe ..)).trans (by decide +kernel)

end LessonBook
