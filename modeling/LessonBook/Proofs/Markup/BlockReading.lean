import Mathlib.Data.List.Forall2
import LessonBook.Proofs.Markup.LineAccounting

/-!
What a block tells about the text at its place. When the raw texts are the text
that was read, this text is what the blocks from there on hold.
-/

namespace LessonBook

open Text BlockReader

namespace Block

/-- A directive is what is read at its place, with a newline more where space was added. -/
def IsReadDirective (enabled : List Extension) (text raw : Text) (directive : Directive)
    (body : List Block) : Prop :=
  ∃ taken rest tail fuel paragraphs,
    Directive.read? (enabled.contains .colonFence) text = some (directive, rest) ∧
      text = taken ++ rest ∧ raw = taken ++ tail ∧ (∀ c ∈ tail, c = '\n') ∧
      (isAdmonitionName directive.name = true →
        body = innerBlocks enabled fuel paragraphs directive.body)

/-- Only space is read where a newline comes first. -/
def AsRead (enabled : List Extension) (text : Text) (block : Block) : Prop :=
  text ≠ [] ∧ (block.isSpace = false → text.head? ≠ some '\n') ∧
    match block with
    | leaf raw content => content = .space → ∀ c ∈ raw, c = ' ' ∨ c = '\n'
    | directive raw opened body => IsReadDirective enabled text raw opened body
    | quote .. | list .. => True

variable {enabled : List Extension} {text rest : Text}

theorem is_space_extend (block : Block) (more : Text) :
    (block.extendRaw more).isSpace = block.isSpace := by
  cases block <;> rfl

theorem AsRead.extend {block : Block} (read : AsRead enabled text block) :
    AsRead enabled text (block.extendRaw ['\n']) := by
  obtain ⟨present, plain, same⟩ := read
  refine ⟨present, fun notSpace => plain (is_space_extend block _ ▸ notSpace), ?_⟩
  cases block with
  | leaf raw content =>
      intro space c member
      rcases List.mem_append.mp member with member | member
      · exact same space c member
      · exact .inr (List.mem_singleton.mp member)
  | directive raw opened body =>
      obtain ⟨taken, rest, tail, fuel, paragraphs, found, split, whole, newlines, inside⟩ := same
      refine ⟨taken, rest, tail ++ ['\n'], fuel, paragraphs, found, split, by simp [whole], ?_,
        inside⟩
      intro c member
      rcases List.mem_append.mp member with member | member
      · exact newlines c member
      · exact List.mem_singleton.mp member
  | quote raw text body => trivial
  | list raw items => trivial

theorem as_read_of_fresh {fuel : Nat} {progress : Progress} {block : Block}
    (present : text ≠ []) (taken : block.raw ++ rest = text) (plain : text.head? ≠ some '\n')
    (fresh : IsFresh (enabled.contains .colonFence) (innerBlocks enabled fuel) progress text rest
      block) : AsRead enabled text block := by
  refine ⟨present, fun _ => plain, ?_⟩
  cases block with
  | leaf raw content => exact fun space => absurd space fresh
  | directive raw opened body =>
      obtain ⟨found, inside⟩ := fresh
      refine ⟨raw, rest, [], fuel, progress.paragraphs, found, taken.symm, by simp, by simp, ?_⟩
      intro isAdmonition
      rw [inside, if_pos isAdmonition]
  | quote raw text body => trivial
  | list raw items => trivial

end Block

namespace BlockReader

open Block

variable {enabled : List Extension} {fuel : Nat} {progress next : Progress} {text rest : Text}
  {texts : List Text}

/-- A step adds one block that is read at the place, or changes the last one. -/
theorem advance_as_read
    (advance : Advance (enabled.contains .colonFence) (innerBlocks enabled fuel) progress text
      next rest) (present : text ≠ [])
    (read : List.Forall₂ (AsRead enabled) texts progress.blocks) :
    (progress.blocks.length < next.blocks.length ∧
      List.Forall₂ (AsRead enabled) (text :: texts) next.blocks) ∨
    (next.blocks.length = progress.blocks.length ∧
      List.Forall₂ (AsRead enabled) texts next.blocks) := by
  cases advance with
  | pushed block blocks taken fresh plain =>
      rw [blocks]
      exact .inl ⟨by simp, .cons (as_read_of_fresh present taken plain fresh) read⟩
  | space raw taken taken' blank ends step =>
      rcases add_space_cases raw progress with blocks | ⟨c, last, earlier, -, blocks, blocks'⟩
      · rw [blocks]
        refine .inl ⟨by simp, .cons ⟨present, ?_, fun _ => blank⟩ read⟩
        intro notSpace
        cases notSpace
      · rw [blocks] at read
        rw [blocks, blocks']
        cases read with
        | cons last earlier => exact .inr ⟨rfl, .cons last.extend earlier⟩
  | joined front raw leaf extended earlier blocks blocks' notSpace taken refused =>
      rw [blocks] at read
      rw [blocks, blocks']
      cases read with
      | cons last earlier =>
          obtain ⟨present', plain, -⟩ := last
          have prose : (Block.leaf front leaf).isSpace = false := decide_eq_false notSpace.1
          exact .inr ⟨rfl, .cons ⟨present', fun _ => plain prose,
            fun space => absurd space notSpace.2⟩ earlier⟩

theorem blocks_as_read (enabled : List Extension) (fuel joins : Nat) (progress : Progress)
    (text : Text) (read : List.Forall₂ (AsRead enabled) texts progress.blocks) :
    List.Forall₂ (AsRead enabled)
      (((placesFrom enabled fuel joins progress text).map Place.rest).reverse ++ texts)
      (readFrom enabled fuel progress text).blocks := by
  induction fuel generalizing progress text joins texts with
  | zero => exact read
  | succ fuel induction =>
      rw [read_from_succ, placesFrom]
      by_cases empty : text.isEmpty = true
      · rw [if_pos empty, if_pos empty]
        exact read
      rw [if_neg empty, if_neg empty]
      have present : text ≠ [] := fun none => empty (by rw [none]; rfl)
      cases found : firstStep progress text (steps enabled (innerBlocks enabled fuel)) with
      | none => exact read
      | some result =>
          obtain ⟨next, rest⟩ := result
          simp only []
          rcases advance_as_read (first_step_advance found) present read with
            ⟨longer, left⟩ | ⟨same, left⟩
          · rw [if_pos longer, List.map_cons, List.reverse_cons, List.append_assoc]
            exact induction joins next rest left
          · rw [if_neg (by omega)]
            split
            · exact induction joins next rest left
            · exact induction (joins + 1) next rest left

/-- When the raw texts are the text that was read, every block is as it is read
where its raw text begins. -/
theorem as_read_of_whole (enabled : List Extension) (fuel : Nat) (paragraphs : Bool)
    {text : Text} {front others : List Block} {block : Block}
    (blocks : (readFrom enabled fuel (.start paragraphs) text).blocks.reverse =
      front ++ block :: others)
    (whole : Block.raws (front ++ block :: others) = text) :
    AsRead enabled (Block.raws (block :: others)) block := by
  have start : Accurate text (Progress.start paragraphs).raws text 0 := .start text
  obtain ⟨-, accurate⟩ := places_accurate enabled fuel (.inr start)
  have read := blocks_as_read enabled fuel 0 (.start paragraphs) text .nil
  rw [List.append_nil, ← List.forall₂_reverse_iff, List.reverse_reverse, blocks] at read
  obtain ⟨here, others', found, -, cut⟩ := List.forall₂_cons_right_iff.mp
    (List.forall₂_drop_append _ front (block :: others) read)
  obtain ⟨place, standing, rfl⟩ : ∃ place, (placesFrom enabled fuel 0 (.start paragraphs)
      text)[front.length]? = some place ∧ place.rest = here := by
    rw [← Option.map_eq_some_iff, ← List.getElem?_map, ← Nat.add_zero front.length,
      ← List.getElem?_drop, cut]
    rfl
  obtain ⟨ahead, split, -, same, isPrefix⟩ := accurate front.length place standing
  have taken : (front ++ block :: others).take ((Progress.start paragraphs).blocks.length +
      front.length) = front := by
    rw [Progress.start, List.length_nil, Nat.zero_add, List.take_left]
  rw [blocks, taken] at same isPrefix
  have cut : Block.raws front ++ Block.raws (block :: others) = text := by
    rw [← whole, Block.raws, Block.raws, Block.raws, List.flatMap_append]
  have none := isPrefix.mp ⟨_, cut⟩
  rw [split, ← same.mpr none, List.append_cancel_left_eq] at cut
  rw [cut]
  exact found

end BlockReader

end LessonBook
