import LessonBook.Proofs.Markup.Progress

/-!
The blocks that come with an extension. Each of them is cut from the front of the
text, is not empty and goes as far as a line does, so reading them one after another
comes to an end, and every cut stands at the boundary of a line.
-/

namespace LessonBook.BlockReader

open Text Recognizer

/-- A part is cut from the front of a text, up to its end, up to a newline or with one
at its end. -/
structure CutsLines (text raw rest : Text) : Prop where
  present : raw ≠ []
  whole : raw ++ rest = text
  left : text.drop raw.length = rest
  ends : rest = [] ∨ rest.head? = some '\n' ∨ raw.getLast? = some '\n'

/-- From a place in reading to another one by blocks of the extensions, each read by
whichever of them takes something there. -/
inductive ReadsInTurn (enabled : List Extension) (inner : Inner) :
    Progress → Text → List Block → Progress → Text → Prop
  | done (progress : Progress) (text : Text) :
      ReadsInTurn enabled inner progress text [] progress text
  | next {progress next last : Progress} {text left rest : Text} {step : Step} {block : Block}
      {blocks : List Block} (member : step ∈ earlySteps enabled inner)
      (taken : step progress text = some (next, left))
      (added : next.blocks = block :: progress.blocks)
      (later : ReadsInTurn enabled inner next left blocks last rest) :
      ReadsInTurn enabled inner progress text (block :: blocks) last rest

variable {enabled : List Extension} {inner : Inner} {progress next last : Progress}
  {text raw more left rest : Text} {step : Step} {blocks : List Block}

namespace CutsLines

theorem shorter (cuts : CutsLines text raw rest) : rest.length + 1 ≤ text.length := by
  have some := List.length_pos_iff.mpr cuts.present
  rw [← cuts.whole, List.length_append]
  omega

theorem append (first : CutsLines text raw left) (second : CutsLines left more rest) :
    CutsLines text (raw ++ more) rest where
  present := List.append_ne_nil_of_left_ne_nil first.present more
  whole := by rw [List.append_assoc, second.whole, first.whole]
  left := by rw [List.length_append, ← List.drop_drop, first.left, second.left]
  ends := second.ends.imp_right <| Or.imp_right fun last => by
    rw [List.getLast?_append, last, Option.some_or]

end CutsLines

theorem early_steps_nil : ∀ step ∈ earlySteps enabled inner, step progress [] = none := by
  have image : ImageElement.read? [] = none := rfl
  have fields : FieldList.read? [] = none := rfl
  have definitions : DefinitionList.read? [] = none := rfl
  have environment : Formula.environment? atLineEnd [] = none := rfl
  have dollar : Formula.dollar? atLineEnd [] = none := rfl
  have directive (colonFence : Bool) : Directive.read? colonFence [] = none := rfl
  have frontMatter : FrontMatter.read? [] = none := rfl
  simp [earlySteps, when, leafStep, directiveStep, frontMatterStep, image, fields, definitions,
    environment, dollar, directive, frontMatter]

theorem early_step_adds (member : step ∈ earlySteps enabled inner)
    (taken : step progress text = some (next, rest)) :
    ∃ block, next.blocks = block :: progress.blocks ∧ block.raw = before text rest := by
  have leaf {Content : Type} {read : Text → Option (Content × Text)} {leaf : Content → Leaf}
      (taken : leafStep read leaf progress text = some (next, rest)) :
      ∃ block, next.blocks = block :: progress.blocks ∧ block.raw = before text rest := by
    obtain ⟨content, -, rfl⟩ := leaf_step_eq_some taken
    exact ⟨_, rfl, rfl⟩
  simp only [earlySteps, List.mem_cons, List.not_mem_nil, or_false] at member
  rcases member with rfl | rfl | rfl | rfl | rfl | rfl | rfl
  · exact leaf (of_when taken)
  · exact leaf (of_when taken)
  · exact leaf (of_when taken)
  · exact leaf (of_when taken)
  · exact leaf (of_when taken)
  · obtain ⟨directive, -, rfl⟩ := directive_step_eq_some taken
    exact ⟨_, rfl, rfl⟩
  · simp only [frontMatterStep] at taken
    split at taken
    · exact leaf taken
    · cases taken

theorem suffix_of_progresses (progresses : Progresses text rest) : rest <:+ text := by
  rcases progresses with rfl | consumes
  · exact List.nil_suffix
  · exact consumes.suffix

theorem shorter_of_progresses (progresses : Progresses text rest) (present : text ≠ []) :
    rest.length < text.length := by
  rcases progresses with rfl | consumes
  · exact List.length_pos_iff.mpr present
  · exact consumes.shorter

theorem cuts_lines_of_ends_line (inside : rest <:+ text) (shorter : rest.length < text.length)
    (ends : EndsLine text rest) : CutsLines text (before text rest) rest := by
  have whole := before_append_rest inside
  have present : before text rest ≠ [] := by
    intro none
    rw [none, List.nil_append] at whole
    rw [whole] at shorter
    exact Nat.lt_irrefl _ shorter
  refine ⟨present, whole, drop_of_split whole, ?_⟩
  rcases ends with ended | behind
  · rcases line_end_cases ended with nothing | ⟨below, newline⟩
    · exact .inl nothing
    · exact .inr (.inl (by rw [newline]; rfl))
  · obtain ⟨front, split⟩ := behind
    rw [List.append_cons] at split
    rw [← split, before_append]
    exact .inr (.inr List.getLast?_concat)

/-- What an extension takes is not empty, and goes as far as a line does. -/
theorem early_step_cuts_lines (member : step ∈ earlySteps enabled inner)
    (taken : step progress text = some (next, rest)) :
    ∃ block, next.blocks = block :: progress.blocks ∧ CutsLines text block.raw rest := by
  have present : text ≠ [] := by
    rintro rfl
    rw [early_steps_nil step member] at taken
    cases taken
  have progresses := progresses_of_early_step member taken
  obtain ⟨block, added, raw⟩ := early_step_adds member taken
  refine ⟨block, added, ?_⟩
  rw [raw]
  exact cuts_lines_of_ends_line (suffix_of_progresses progresses)
    (shorter_of_progresses progresses present) (ends_line_of_early_step member taken)

/-- All that was read in turn is one cut, with a character at least for each block. -/
theorem ReadsInTurn.cuts_lines (reads : ReadsInTurn enabled inner progress text blocks last rest) :
    last.blocks = blocks.reverse ++ progress.blocks ∧
      blocks.length + rest.length ≤ text.length ∧
      ((blocks = [] ∧ rest = text) ∨ CutsLines text (Block.raws blocks) rest) := by
  induction reads with
  | done progress text => exact ⟨rfl, by simp, .inl ⟨rfl, rfl⟩⟩
  | next member taken added later induction =>
      rename_i progress next last text left rest step block blocks
      obtain ⟨other, same, cuts⟩ := early_step_cuts_lines member taken
      obtain rfl : block = other := (List.cons.inj (added.symm.trans same)).1
      obtain ⟨behind, bound, whole⟩ := induction
      have shorter := cuts.shorter
      refine ⟨by rw [behind, added]; simp, by rw [List.length_cons]; omega, .inr ?_⟩
      have raws : Block.raws (block :: blocks) = block.raw ++ Block.raws blocks := List.flatMap_cons
      rcases whole with ⟨rfl, rfl⟩ | more
      · rwa [raws, Block.raws, List.flatMap_nil, List.append_nil]
      · exact raws ▸ cuts.append more

theorem first_step_none_iff {steps : List Step} :
    firstStep progress text steps = none ↔ ∀ step ∈ steps, step progress text = none := by
  induction steps with
  | nil => simp [firstStep]
  | cons step others induction =>
      cases taken : step progress text <;> simp [firstStep, taken, induction]

/-- Reading in the order of the extensions comes to a place where none of them takes anything. -/
theorem exists_reads_in_turn (enabled : List Extension) (inner : Inner) (progress : Progress)
    (text : Text) : ∃ blocks last rest,
      ReadsInTurn enabled inner progress text blocks last rest ∧
        ∀ step ∈ earlySteps enabled inner, step last rest = none := by
  induction bound : text.length using Nat.strongRecOn generalizing progress text with
  | ind count induction =>
      cases found : firstStep progress text (earlySteps enabled inner) with
      | none => exact ⟨[], progress, text, .done progress text, first_step_none_iff.mp found⟩
      | some result =>
          obtain ⟨next, left⟩ := result
          obtain ⟨step, member, taken⟩ := first_step_mem found
          obtain ⟨block, added, cuts⟩ := early_step_cuts_lines member taken
          obtain ⟨blocks, last, rest, reads, stuck⟩ :=
            induction left.length (bound ▸ cuts.shorter) next left rfl
          exact ⟨block :: blocks, last, rest, .next member taken added reads, stuck⟩

/-- Every extension cuts lines from the text, whatever was read before. So no sequence
of their blocks goes on for ever, and each leaves the text at the boundary of a line. -/
theorem extensions_cut_lines (enabled : List Extension) (inner : Inner) :
    (∀ step ∈ earlySteps enabled inner, ∀ progress text next rest,
      step progress text = some (next, rest) →
        ∃ block, next.blocks = block :: progress.blocks ∧ CutsLines text block.raw rest) ∧
      WellFounded (fun after before : Progress × Text =>
        ∃ step ∈ earlySteps enabled inner, step before.1 before.2 = some after) ∧
      ∀ progress text,
        (∃ blocks last rest, ReadsInTurn enabled inner progress text blocks last rest ∧
          ∀ step ∈ earlySteps enabled inner, step last rest = none) ∧
        ∀ blocks last rest, ReadsInTurn enabled inner progress text blocks last rest →
          last.blocks = blocks.reverse ++ progress.blocks ∧
            blocks.length + rest.length ≤ text.length ∧
            ((blocks = [] ∧ rest = text) ∨ CutsLines text (Block.raws blocks) rest) := by
  refine ⟨?_, ?_, ?_⟩
  · intro step member progress text next rest taken
    exact early_step_cuts_lines member taken
  · refine Subrelation.wf ?_ (InvImage.wf (fun place : Progress × Text => place.2.length)
      Nat.lt_wfRel.wf)
    rintro ⟨next, rest⟩ ⟨progress, text⟩ ⟨step, member, taken⟩
    obtain ⟨block, -, cuts⟩ := early_step_cuts_lines member taken
    exact cuts.shorter
  · intro progress text
    exact ⟨exists_reads_in_turn enabled inner progress text,
      fun blocks last rest reads => reads.cuts_lines⟩

/-- Fields and a definition take their last newline, and a directive leaves the one
behind it, which no extension takes. -/
theorem extensions_cut_lines_three :
    let fields := Block.leaf ":k: v\n".toList (.fields [("k".toList, "v".toList)])
    let terms := Block.leaf "T\n: one\n  more\n".toList (.definitions "T".toList ["one".toList])
    let note := Block.directive ":::\x7bnote\x7d\nb\n:::".toList
      ⟨"note".toList, [], ":::".toList, "b".toList, true⟩ []
    let text := ":k: v\nT\n: one\n  more\n:::\x7bnote\x7d\nb\n:::\nrest".toList
    let last : Progress := ⟨[note, terms, fields], false, true⟩
    ReadsInTurn Extension.all (fun _ _ => []) (.start true) text [fields, terms, note] last
        "\nrest".toList ∧
      CutsLines text (Block.raws [fields, terms, note]) "\nrest".toList ∧
      ∀ step ∈ earlySteps Extension.all fun _ _ => [], step last "\nrest".toList = none := by
  intro fields terms note text last
  obtain ⟨_, fieldsMember, takesFields⟩ := first_step_mem
    (show firstStep (.start true) text (earlySteps Extension.all fun _ _ => []) =
      some (⟨[fields], false, true⟩,
        "T\n: one\n  more\n:::\x7bnote\x7d\nb\n:::\nrest".toList) from rfl)
  obtain ⟨_, termsMember, takesTerms⟩ := first_step_mem
    (show firstStep ⟨[fields], false, true⟩
        "T\n: one\n  more\n:::\x7bnote\x7d\nb\n:::\nrest".toList
        (earlySteps Extension.all fun _ _ => []) =
      some (⟨[terms, fields], false, true⟩, ":::\x7bnote\x7d\nb\n:::\nrest".toList) from rfl)
  obtain ⟨_, noteMember, takesNote⟩ := first_step_mem
    (show firstStep ⟨[terms, fields], false, true⟩ ":::\x7bnote\x7d\nb\n:::\nrest".toList
        (earlySteps Extension.all fun _ _ => []) = some (last, "\nrest".toList) from rfl)
  have reads : ReadsInTurn Extension.all (fun _ _ => []) (.start true) text [fields, terms, note]
      last "\nrest".toList :=
    .next fieldsMember takesFields rfl <| .next termsMember takesTerms rfl <|
      .next noteMember takesNote rfl <| .done _ _
  obtain ⟨-, -, loop⟩ := extensions_cut_lines Extension.all fun _ _ => []
  have cuts := (loop (.start true) text).2 _ _ _ reads
  exact ⟨reads, cuts.2.2.resolve_left fun none => (by cases none.1), early_steps_newline _⟩

end LessonBook.BlockReader
